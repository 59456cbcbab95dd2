import DocPath.Proofs.Concatenation
import DocPath.Proofs.VisitOrder

/-!
# Insertion points inside a path

At an insertion point there is nothing to select, so a path with one in it reaches nothing, and whatever
comes after the point is never looked at. A transform is different: it calls its update once at every
place that the steps before the point lead to, and each of these places must be a sequence or void.

* `Navigator.offering`, `Navigator.inserted` — what a transform hands on at an insertion point, and what
  it makes of the answer;
* `Navigator.selectAlong_insertion`, `Navigator.select_filterer_of_never` — **nothing is selected, and no
  element matches**;
* `Navigator.exec_transform_insertion`, `Navigator.calls_of_insertion` — **one call at one place**, and
  so one for each place that the steps before the point lead to;
* `Path.insertion_inside` — the law for whole paths.
-/

namespace DocPath

variable {σ α : Type}

/-- What is spliced into a sequence: the elements of another, or any other value as one. -/
def Value.spliced : Value → List Value
  | .sequence vs => vs
  | w => [w]

namespace Navigator

/-- What a transform hands on at an insertion point: the empty sequence where a sequence of elements
goes in, and nothing where a single one does. -/
def offering : Navigator → Focus
  | .beginning | .ending => .value (.sequence [])
  | _ => .absent

/-- The elements with what an insertion point is answered. -/
def inserted (i : Navigator) (vs : List Value) : Focus → Except NavError (List Value)
  | .absent => .ok vs
  | .value w =>
    match i with
    | .beginning => .ok (w.spliced ++ vs)
    | .ending => .ok (vs ++ w.spliced)
    | .beforeElem => .ok (w :: vs)
    | .afterElem => .ok (vs ++ [w])
    | .beforeIndex index =>
      match Sequence.resolveInsertIndex index vs.length with
      | some k => .ok (vs.insertIdx k w)
      | none => .error (.indexOutOfRange index vs.length)
    | _ => .ok vs

theorem isCustom_of_isInsertionPoint {i : Navigator} (hi : i.isInsertionPoint = true) :
    i.isCustom = false := by
  cases i <;> first | rfl | exact absurd hi (by simp [isInsertionPoint])

theorem builtIn_insertion {p : List Navigator} {i : Navigator} (hp : BuiltIn p)
    (hi : i.isInsertionPoint = true) : BuiltIn (p ++ [i]) :=
  List.forall_mem_append.2
    ⟨hp, List.forall_mem_singleton.2 (isCustom_of_isInsertionPoint hi)⟩

/-! ### Selecting -/

theorem select_insertion {i : Navigator} (hi : i.isInsertionPoint = true) (v : Value)
    (next : Value → Action σ Unit) : i.select v next = pure () := by
  cases i <;> first | rfl | exact absurd hi (by simp [isInsertionPoint])

/-- Visiting with a terminal that does nothing. -/
theorem exec_visit_nothing (r : Reached) (st : σ) :
    (r.visit fun _ => pure ()).exec st = (r.toExcept.map fun _ => (), st) := by
  obtain ⟨vs, e⟩ := r
  induction vs with
  | nil => cases e <;> rfl
  | cons v vs ih => cases e <;> exact ih

/-- **Nothing is selected beyond an insertion point**; only the steps before it can fail. -/
theorem selectAlong_insertion (p q : List Navigator) {i : Navigator} (hp : BuiltIn p)
    (hi : i.isInsertionPoint = true) (v : Value) (terminal : Value → Action σ Unit) (st : σ) :
    (selectAlong (p ++ i :: q) v terminal).exec st =
      ((reachedAlong p v).toExcept.map fun _ => (), st) := by
  have hrest : (fun w => selectAlong (i :: q) w terminal) = fun _ => pure () := by
    funext w
    rw [selectAlong, select_insertion hi]
  rw [selectAlong_append, hrest, selectAlong_eq_visit p hp, exec_visit_nothing]

/-- Where a question is never answered with yes, no element matches. -/
theorem markMatching_of_never {holds : Value → Except NavError Bool} {f : Value → Except NavError α}
    (h : ∀ v, holds v = (f v).map fun _ => false) (vs : List Value) :
    markMatching holds vs = (vs.mapM f).map fun _ => vs.map (Prod.mk false) := by
  induction vs with
  | nil => rfl
  | cons v vs ih =>
    rw [markMatching, ih, h, List.mapM_cons]
    cases f v with
    | error e => rfl
    | ok y => cases vs.mapM f <;> rfl

theorem matching_of_never (vs : List Value) : matching (vs.map (Prod.mk false)) = [] := by
  induction vs with
  | nil => rfl
  | cons v vs ih => exact ih

/-- A filter by a path that never matches leaves the empty sequence. -/
theorem select_filterer_of_never {path : List Navigator} {f : Value → Except NavError α}
    (h : ∀ v, matchesAlong path v = (f v).map fun _ => false) (config : Config) (vs : List Value) :
    (⟨[.filterer path], config⟩ : Path).select (.sequence vs) =
      (vs.mapM f).map fun _ => [.sequence []] := by
  have hreach : (filterer path).reach (.sequence vs) =
      (vs.mapM f).map fun _ => [.sequence []] := by
    show matchingIn (matchesAlong path) (.sequence vs) = _
    rw [matchingIn, markMatching_of_never h]
    cases vs.mapM f with
    | error e => rfl
    | ok ws => exact congrArg (fun us => Except.ok [Value.sequence us]) (matching_of_never vs)
  rw [Path.select_singleton rfl, hreach]

/-! ### Transforming -/

/-- **An insertion point asks about its offering alone**, and writes the elements with the answer. -/
theorem exchange_eq_inserted {i : Navigator} (hi : i.isInsertionPoint = true) (s : Focus) :
    i.exchange s = (itemsOf i s).map fun vs =>
      .single i.offering fun r => (i.inserted vs r).map fun us => .value (.sequence us) := by
  -- the elements are read alike, so the answers decide
  have hput {f : Focus} {put put' : List Value → Focus → Except NavError Focus}
      (h : ∀ vs r, put vs r = put' vs r) :
      ((itemsOf i s).map fun vs => Exchange.single f (put vs)) =
        (itemsOf i s).map fun vs => Exchange.single f (put' vs) := by
    have hfun : put = put' := funext fun vs => funext fun r => h vs r
    rw [hfun]
  cases i with
  | beginning | ending =>
    refine hput fun vs r => ?_
    cases r with
    | absent => rfl
    | value w => cases w <;> rfl
  | beforeElem | afterElem => exact hput fun vs r => by cases r <;> rfl
  | beforeIndex index =>
    refine hput fun vs r => ?_
    cases r with
    | absent => rfl
    | value w =>
      rw [inserted]
      cases Sequence.resolveInsertIndex index vs.length <;> rfl
  | _ => exact absurd hi (by simp [isInsertionPoint])

/-- Elements go into sequences and void values. -/
theorem exchange_insertion {i : Navigator} (hi : i.isInsertionPoint = true) {s : Focus}
    {x : Exchange} (hx : i.exchange s = .ok x) :
    (∃ put, x = .single i.offering put) ∧
      (s.isVoid = true ∨ ∃ us, s = .value (.sequence us)) := by
  rw [exchange_eq_inserted hi] at hx
  obtain ⟨vs, hvs, rfl⟩ := (Action.map_eq_ok _ _ _).1 hx
  exact ⟨⟨_, rfl⟩, (itemsOf_eq_ok hvs).imp And.left fun hs => ⟨vs, hs⟩⟩

/-- **At one place a transform that succeeds has called its update once**, and the place is a sequence
or void. -/
theorem exec_transform_insertion {i : Navigator} (hi : i.isInsertionPoint = true) {s r : Focus}
    {update : Focus → Action σ Focus} {st st' : σ} {log log' : List Focus}
    (h : (i.transform s (Action.logged update)).exec (st, log) = (.ok r, (st', log'))) :
    log' = log ++ [i.offering] ∧ (s.isVoid = true ∨ ∃ us, s = .value (.sequence us)) := by
  rw [transform_eq_carryOut i (isCustom_of_isInsertionPoint hi)] at h
  obtain ⟨x, _, hbegin, h⟩ := (Action.exec_bind_eq_ok _ _ _ _ _).1 h
  obtain ⟨hx, rfl⟩ := Action.exec_ofExcept_eq_ok.1 hbegin
  obtain ⟨⟨put, rfl⟩, hs⟩ := exchange_insertion hi hx
  rw [Exchange.carryOut_single] at h
  obtain ⟨a, _, ha, h⟩ := (Action.exec_bind_eq_ok _ _ _ _ _).1 h
  obtain ⟨-, rfl⟩ := Action.exec_ofExcept_eq_ok.1 h
  rw [Action.exec_logged] at ha
  exact ⟨(congrArg (fun y => y.2.2) ha).symm, hs⟩

/-- As many calls have been made as places were met, all of them with the same offering, and all of
the places can take elements. -/
def OneCallEach (i : Navigator) (state : (σ × List Focus) × List Focus) : Prop :=
  state.1.2 = List.replicate state.2.length i.offering ∧
    ∀ s ∈ state.2, s.isVoid = true ∨ ∃ us, s = .value (.sequence us)

/-- One more place is met, and one more call is made. -/
theorem maintains_oneCallEach {i : Navigator} (hi : i.isInsertionPoint = true)
    (update : Focus → Action σ Focus) (s : Focus) :
    Action.Maintains i.OneCallEach
      (Action.logged (fun f => i.transform f (Action.logged update)) s) := by
  intro ⟨⟨st, log⟩, met⟩ r ⟨⟨st', log'⟩, met'⟩ hr hI
  obtain ⟨hlog, hmet⟩ := hI
  rw [Action.exec_logged] at hr
  obtain rfl : met ++ [s] = met' := congrArg (fun y => y.2.2) hr
  have hrun : (i.transform s (Action.logged update)).exec (st, log) = (.ok r, (st', log')) :=
    congrArg (fun y => (y.1, y.2.1)) hr
  obtain ⟨rfl, hs⟩ := exec_transform_insertion hi hrun
  obtain rfl : log = List.replicate met.length i.offering := hlog
  refine ⟨?_, List.forall_mem_append.2 ⟨hmet, List.forall_mem_singleton.2 hs⟩⟩
  show List.replicate met.length i.offering ++ [i.offering] = List.replicate (met ++ [s]).length _
  rw [List.length_append, List.length_singleton, List.replicate_succ']

/-- **Along a path that ends at an insertion point a transform that succeeds has called its update once
for each place that the steps before lead to.** -/
theorem calls_of_insertion (p : List Navigator) {i : Navigator}
    (hp : ∀ n ∈ p, n.isCustom = false ∧ n.isInsertionPoint = false)
    (hi : i.isInsertionPoint = true) {v : Value} {update : Focus → Action σ Focus} {st st' : σ}
    {r : Focus} {calls : List Focus}
    (h : (transformAlong (p ++ [i]) (.value v) (Action.logged update)).exec (st, []) =
      (.ok r, (st', calls))) :
    (reachedAlong p v).error = none ∧
      (∀ w ∈ (reachedAlong p v).focuses, w.isSequence = true ∨ w.isVoid = true) ∧
      calls = List.replicate (reachedAlong p v).focuses.length i.offering := by
  have hb : BuiltIn p := fun n hn => (hp n hn).1
  -- the places that are met are written down beside the calls that are made there
  rw [transformAlong_append] at h
  have hmet := (watches_transformAlong p hb (Action.watches_logged fun f =>
    transformAlong [i] f (Action.logged update)) (.value v)).exec_eq h ([] : List Focus)
  obtain ⟨seen, hseen, -, hall⟩ := follows_transformAlong p hp v
    (fun f => transformAlong [i] f (Action.logged update)) (st, []) []
  obtain ⟨herror, rfl⟩ := hall r (congrArg Prod.fst hmet)
  obtain ⟨hcalls, hplaces⟩ := maintains_transformAlong p hb (maintains_oneCallEach hi update)
    (.value v) _ _ _ hmet ⟨rfl, fun s hs => absurd hs List.not_mem_nil⟩
  rw [hseen, List.nil_append] at hcalls hplaces
  refine ⟨herror, fun w hw => ?_, ?_⟩
  · rcases hplaces (.value w) (List.mem_map_of_mem hw) with hvoid | ⟨us, hus⟩
    · exact .inr hvoid
    · cases hus
      exact .inl rfl
  · rw [List.length_map] at hcalls
    exact hcalls

end Navigator

/-- **Insertion points inside a path.** Selecting along a path with an insertion point in it never calls
its terminal, and fails only as the steps before the point do; so the path matches nothing, and a filter
by it finds no element. A transform along a path that ends at the point calls its update once for each
focus that the steps before it select, with nothing or the empty sequence; all of these are sequences or
void, and if one of them is anything else then the transform fails. -/
theorem Path.insertion_inside (p q : List Navigator) {i : Navigator} (config : Config)
    (hp : ∀ n ∈ p, n.isCustom = false ∧ n.isInsertionPoint = false)
    (hi : i.isInsertionPoint = true) (v : Value) :
    let before : Path := ⟨p, config⟩
    let inserting : Path := ⟨p ++ [i], config⟩
    let whole : Path := ⟨p ++ i :: q, config⟩
    let filter : Path := ⟨[.filterer whole.navigators], config⟩
    (∀ (terminal : Value → Action σ Unit) (st : σ),
      (whole.selectWith v terminal).exec st = ((before.select v).map fun _ => (), st) ∧
        whole.shown v terminal st = []) ∧
    whole.isMatch v = (before.select v).map (fun _ => false) ∧
    (∀ vs, filter.select (.sequence vs) = (vs.mapM before.select).map fun _ => [.sequence []]) ∧
    (∀ (update : Focus → Action σ Focus) (st st' : σ) (r : Focus),
      (inserting.transformWith (.value v) update).exec st = (.ok r, st') →
        ∃ fs, before.select v = .ok fs ∧
          (∀ w ∈ fs, w.isSequence = true ∨ w.isVoid = true) ∧
          inserting.visited (.value v) update st = List.replicate fs.length i.offering) ∧
    (∀ (update : Focus → Action σ Focus) (st : σ) (fs : List Value) (w : Value),
      before.select v = .ok fs → w ∈ fs → w.isSequence = false → w.isVoid = false →
        ∃ e st', (inserting.transformWith (.value v) update).exec st = (.error e, st')) := by
  intro before inserting whole filter
  have hb : Navigator.BuiltIn p := fun n hn => (hp n hn).1
  have hmatch (v : Value) : Navigator.matchesAlong whole.navigators v =
      (before.select v).map fun _ => false := by
    rw [Navigator.matchesAlong, Navigator.findsDefined,
      Navigator.selectAlong_insertion p q hb hi v, before.select_eq_toExcept hb]
    cases (Navigator.reachedAlong before.navigators v).toExcept <;> rfl
  have hcalls (update : Focus → Action σ Focus) (st st' : σ) (r : Focus)
      (h : (inserting.transformWith (.value v) update).exec st = (.ok r, st')) :
      ∃ fs, before.select v = .ok fs ∧ (∀ w ∈ fs, w.isSequence = true ∨ w.isVoid = true) ∧
        inserting.visited (.value v) update st = List.replicate fs.length i.offering := by
    have hlogged := (Navigator.watches_transformAlong (p ++ [i])
      (Navigator.builtIn_insertion hb hi) (Action.watches_logged update) (.value v)).exec_eq h
        ([] : List Focus)
    obtain ⟨herror, hplaces, hvisited⟩ := Navigator.calls_of_insertion p hp hi hlogged
    refine ⟨_, ?_, hplaces, hvisited⟩
    rw [before.select_eq_toExcept hb, Reached.toExcept, herror]
  refine ⟨?_, hmatch v, Navigator.select_filterer_of_never hmatch config, hcalls, ?_⟩
  · intro terminal st
    rw [before.select_eq_toExcept hb]
    refine ⟨Navigator.selectAlong_insertion p q hb hi v terminal st, ?_⟩
    have h := Navigator.selectAlong_insertion p q hb hi v (Action.logged terminal) (st, [])
    exact congrArg (fun y => y.2.2) h
  · intro update st fs w hfs hw hs hv
    rcases h : (inserting.transformWith (.value v) update).exec st with ⟨e | r, st'⟩
    · exact ⟨e, st', rfl⟩
    · obtain ⟨fs', hfs', hplaces, -⟩ := hcalls update st st' r h
      obtain rfl : fs' = fs := Except.ok.inj (hfs'.symm.trans hfs)
      rcases hplaces w hw with hw | hw
      · exact absurd (hs.symm.trans hw) (by decide)
      · exact absurd (hv.symm.trans hw) (by decide)

/-- One call for a sequence and one for a key that is missing, though no key is ever looked for beyond
the point; and a boolean in the place of a sequence, which ends the transform. -/
theorem Path.insertion_inside_sequences :
    let p : List Navigator := [.all, .key "a"]
    let inserting : Path := ⟨p ++ [.beforeElem], {}⟩
    let whole : Path := ⟨p ++ .beforeElem :: [.key "b"], {}⟩
    let v : Value := .sequence [.mapping [("a", .sequence [.bool true])], .null]
    let unfit : Value := .sequence [.mapping [("a", .bool true)]]
    let update : Focus → Action Nat Focus := fun _ => do
      modify (· + 1)
      pure (.value .null)
    let v' : Value := .sequence
      [.mapping [("a", .sequence [.null, .bool true])], .mapping [("a", .sequence [.null])]]
    whole.isMatch v = .ok false ∧
      (inserting.transformWith (.value v) update).exec 0 = (.ok (.value v'), 2) ∧
      inserting.visited (.value v) update 0 = [.absent, .absent] ∧
      ∃ e st', (inserting.transformWith (.value unfit) update).exec 0 = (.error e, st') := by
  intro p inserting whole v unfit update v'
  have hp : ∀ n ∈ p, n.isCustom = false ∧ n.isInsertionPoint = false := by decide
  have hrun : (inserting.transformWith (.value v) update).exec 0 = (.ok (.value v'), 2) := by rfl
  have hselect : (⟨p, {}⟩ : Path).select v = .ok [.sequence [.bool true], .undefined] := by rfl
  have hunfit : (⟨p, {}⟩ : Path).select unfit = .ok [.bool true] := by rfl
  obtain ⟨-, hmatch, -, hcalls, -⟩ :=
    Path.insertion_inside (σ := Nat) p [.key "b"] {} hp (i := .beforeElem) rfl v
  obtain ⟨-, -, -, -, hfails⟩ :=
    Path.insertion_inside (σ := Nat) p [.key "b"] {} hp (i := .beforeElem) rfl unfit
  rw [hselect] at hmatch
  obtain ⟨fs, hfs, -, hvisited⟩ := hcalls update 0 2 _ hrun
  obtain rfl := Except.ok.inj (hselect.symm.trans hfs)
  exact ⟨hmatch, hrun, hvisited,
    hfails update 0 _ (.bool true) hunfit List.mem_cons_self rfl rfl⟩

end DocPath
