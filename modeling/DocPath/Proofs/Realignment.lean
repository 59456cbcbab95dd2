import DocPath.Proofs.Filtering
import Mathlib.Data.List.ReduceOption

/-!
# Where a filter puts its elements back

The matching elements of a sequence are numbered from the first one on. What the rest of the path makes
of them comes back as one sequence, and its j-th element takes the place of the j-th matching one. The
numbers alone decide: an answer that is shorter leaves the last places empty, wherever in the sequence
the elements stood that are missing in it.

* `Navigator.slot`, `Navigator.realigned` — the number of an element, and the sequence put together by
  these numbers;
* `Navigator.realign_marks` — **a filter puts its elements back by their numbers**;
* `Navigator.length_realign`, `Navigator.filter_realign` — how many elements there are then, and which;
* `Navigator.filterer_realigns` — the law for one filter, with any continuation;
* `Path.removal_through_filter` — what removing matching elements one by one leaves.
-/

namespace DocPath

variable {σ : Type}

namespace Navigator

/-! ### Slots -/

/-- The number of matching elements before position `i`: the slot of a matching element that stands
there. -/
def slot (holds : Value → Bool) (vs : List Value) (i : Nat) : Nat := (vs.take i).countP holds

/-- What stands for the element `v` at position `i`: the element itself if it does not match, else the
edited one in its slot. There is none if that one is missing or undefined. -/
def standIn (holds : Value → Bool) (vs edited : List Value) (i : Nat) (v : Value) : Option Value :=
  if holds v then edited[slot holds vs i]?.filter Value.isDefined else some v

/-- The sequence walked in order, with what stands for each element. -/
def realigned (holds : Value → Bool) (vs edited : List Value) : List Value :=
  (vs.mapIdx (standIn holds vs edited)).reduceOption

theorem slot_cons_succ (holds : Value → Bool) (v : Value) (vs : List Value) (i : Nat) :
    slot holds (v :: vs) (i + 1) = slot holds vs i + if holds v then 1 else 0 := by
  rw [slot, List.take_succ_cons, List.countP_cons, slot]

/-- **A filter puts its elements back by their slots.** -/
theorem realign_marks (holds : Value → Bool) (vs edited : List Value) :
    realign (marks holds vs) edited = realigned holds vs edited := by
  induction vs generalizing edited with
  | nil => rfl
  | cons v vs ih =>
    rw [marks_cons, realigned, List.mapIdx_cons]
    cases hv : holds v with
    | false =>
      have hrest : (fun i => standIn holds (v :: vs) edited (i + 1)) = standIn holds vs edited := by
        funext i w
        rw [standIn, slot_cons_succ, hv]
        rfl
      rw [hrest, standIn, hv, realign, ih]
      rfl
    | true =>
      cases edited with
      | nil =>
        have hrest : (fun i => standIn holds (v :: vs) [] (i + 1)) = standIn holds vs [] := by
          funext i w
          rw [standIn, standIn, List.getElem?_nil, List.getElem?_nil]
        rw [hrest, standIn, hv, realign, ih]
        rfl
      | cons w edited =>
        have hrest : (fun i => standIn holds (v :: vs) (w :: edited) (i + 1)) =
            standIn holds vs edited := by
          funext i u
          rw [standIn, slot_cons_succ, hv, if_pos rfl, List.getElem?_cons_succ, standIn]
        have hfirst : standIn holds (v :: vs) (w :: edited) 0 v =
            if w.isDefined then some w else none := by
          rw [standIn, hv, if_pos rfl, ← Option.filter_some]
          rfl
        rw [hrest, hfirst, realign, ih]
        cases w.isDefined <;> rfl

/-- A matching element is the one of its number among the matching ones. -/
theorem getElem?_filter_slot {holds : Value → Bool} {vs : List Value} {i : Nat} {v : Value}
    (hi : vs[i]? = some v) (hv : holds v = true) : (vs.filter holds)[slot holds vs i]? = some v := by
  induction vs generalizing i with
  | nil => exact absurd hi (by simp)
  | cons u vs ih =>
    cases i with
    | zero =>
      obtain rfl : u = v := Option.some.inj hi
      rw [List.filter_cons_of_pos hv]
      rfl
    | succ i =>
      have hrest := ih hi
      rw [slot_cons_succ]
      cases hu : holds u with
      | true =>
        rw [List.filter_cons_of_pos hu, if_pos rfl, List.getElem?_cons_succ]
        exact hrest
      | false =>
        rw [List.filter_cons_of_neg (by rw [hu]; exact Bool.false_ne_true)]
        exact hrest

/-- Later matching elements have later slots. -/
theorem slot_lt_slot {holds : Value → Bool} {vs : List Value} {i j : Nat} {v : Value}
    (hi : vs[i]? = some v) (hv : holds v = true) (hij : i < j) :
    slot holds vs i < slot holds vs j := by
  have hnext : slot holds vs (i + 1) = slot holds vs i + 1 := by
    rw [slot, List.take_add_one, hi, List.countP_append]
    simp [slot, hv]
  have hmono : slot holds vs (i + 1) ≤ slot holds vs j :=
    (List.take_sublist_take_left hij).countP_le
  omega

/-! ### What is there afterwards -/

/-- The elements that come from the edited ones are the defined ones among the first few. -/
theorem length_realign (holds : Value → Bool) (vs edited : List Value) :
    (realign (marks holds vs) edited).length + vs.countP holds =
      vs.length + (edited.take (vs.countP holds)).countP Value.isDefined := by
  induction vs generalizing edited with
  | nil => rfl
  | cons v vs ih =>
    rw [marks_cons, List.countP_cons, List.length_cons]
    cases hv : holds v with
    | false =>
      have h := ih edited
      rw [realign, List.length_cons]
      simp only [Bool.false_eq_true, if_false, Nat.add_zero]
      omega
    | true =>
      cases edited with
      | nil =>
        have h := ih []
        rw [List.take_nil] at h ⊢
        rw [realign, if_pos rfl]
        omega
      | cons w edited =>
        have h := ih edited
        rw [realign, if_pos rfl, List.take_succ_cons, List.countP_cons]
        cases w.isDefined
        · simp only [Bool.false_eq_true, if_false]
          omega
        · simp only [if_true, List.length_cons]
          omega

/-- Edited elements beyond the last slot are never looked at. -/
theorem realign_take (holds : Value → Bool) (vs edited : List Value) :
    realign (marks holds vs) (edited.take (vs.countP holds)) = realign (marks holds vs) edited := by
  induction vs generalizing edited with
  | nil => rfl
  | cons v vs ih =>
    rw [marks_cons, List.countP_cons]
    cases hv : holds v with
    | false => exact congrArg (v :: ·) (ih edited)
    | true =>
      cases edited with
      | nil => rfl
      | cons w edited =>
        rw [if_pos rfl, List.take_succ_cons, realign, realign, ih]

/-! ### One filter -/

/-- The calls of what follows a navigator in a transform of `s`, in order. -/
def calls (n : Navigator) (s : Focus) (next : Continuation σ) (st : σ) : List Focus :=
  ((n.transform s (Action.logged next)).exec (st, [])).2.2

theorem calls_filterer {path : List Navigator} {vs : List Value} (h : Decides path vs)
    (next : Continuation σ) (st : σ) :
    (filterer path).calls (.value (.sequence vs)) next st =
      [.value (.sequence (vs.filter (finds path)))] := by
  rw [calls, transform_filterer h, Action.exec_bind, Action.exec_logged]
  rcases (next (.value (.sequence (vs.filter (finds path))))).exec st with ⟨e | r, st'⟩
  · rfl
  · show ((Action.ofExcept _ : Action _ Focus).exec (st', [] ++ [_])).2.2 = _
    rw [Action.exec_ofExcept]
    rfl

/-- **A filter loses nothing and doubles nothing.** If the nested path fails on no element of a sequence
then what follows the filter is called once, with the matching elements in order. If it answers with a
sequence, `absent` counting as the empty one, then the elements that do not match stay as they are and
each matching one gives way to the element in its slot of the answer, or goes if that one is missing or
undefined. Slots follow the order of the matching elements, so that no element of the answer is used
twice, and those beyond the last slot are not used at all. Any other answer is an error. If the nested
path fails on an element then the first such failure is the result, and nothing is called. -/
theorem filterer_realigns (path : List Navigator) (vs : List Value) (next : Continuation σ) (st : σ) :
    let holds := finds path
    let filter := filterer path
    let run := (filter.transform (.value (.sequence vs)) next).exec st
    (Decides path vs →
      filter.calls (.value (.sequence vs)) next st = [.value (.sequence (vs.filter holds))] ∧
      (∀ r st', (next (.value (.sequence (vs.filter holds)))).exec st = (.ok r, st') →
        (∀ edited, r = .value (.sequence edited) ∨ r = .absent ∧ edited = [] →
          run = (.ok (.value (.sequence (realigned holds vs edited))), st') ∧
          realigned holds vs edited = realigned holds vs (edited.take (vs.countP holds)) ∧
          (realigned holds vs edited).length =
            vs.length - vs.countP holds + (edited.take (vs.countP holds)).countP Value.isDefined) ∧
        (∀ w, r = .value w → w.isSequence = false →
          run = (.error (.shapeMismatch "filterer" "a sequence result" w.kind), st'))) ∧
      (∀ e st', (next (.value (.sequence (vs.filter holds)))).exec st = (.error e, st') →
        run = (.error e, st'))) ∧
    (∀ i v, vs[i]? = some v → holds v = true →
      (vs.filter holds)[slot holds vs i]? = some v ∧ ∀ j, i < j → slot holds vs i < slot holds vs j) ∧
    (∀ before v after e, vs = before ++ v :: after → Decides path before →
      matchesAlong path v = .error e →
        run = (.error e, st) ∧ filter.calls (.value (.sequence vs)) next st = []) := by
  intro holds filter run
  refine ⟨fun hp => ⟨calls_filterer hp next st, fun r st' hr => ?_, fun e st' he => ?_⟩, ?_, ?_⟩
  · have hrun : run = ((editedAnswered r).map fun edited =>
        .value (.sequence (realigned holds vs edited)), st') := by
      show (filter.transform _ next).exec st = _
      rw [transform_filterer hp, Action.exec_bind, hr]
      simp only [realign_marks]
      exact Action.exec_ofExcept _ _
    refine ⟨fun edited hedited => ?_, fun w hw hseq => ?_⟩
    · have hanswered : editedAnswered r = .ok edited := by
        rcases hedited with rfl | ⟨rfl, rfl⟩ <;> rfl
      rw [hanswered] at hrun
      have hlength := length_realign holds vs edited
      have hle : vs.countP holds ≤ vs.length := List.countP_le_length
      rw [realign_marks] at hlength
      refine ⟨hrun, ?_, by omega⟩
      rw [← realign_marks, ← realign_marks, realign_take]
    · rw [hrun, hw]
      cases w <;> first | rfl | exact absurd hseq (by simp [Value.isSequence])
  · show (filter.transform _ next).exec st = _
    rw [transform_filterer hp, Action.exec_bind, he]
  · exact fun i v hi hv => ⟨getElem?_filter_slot hi hv, fun j => slot_lt_slot hi hv⟩
  · intro before v after e hvs hbefore hv
    subst hvs
    refine ⟨?_, ?_⟩
    · show (filter.transform _ next).exec st = _
      rw [transform_filterer_of_error hbefore hv]
      rfl
    · rw [calls, transform_filterer_of_error hbefore hv]
      rfl

/-- An answer with a hole and one element too many, and a path that fails on the second element. -/
theorem filterer_realigns_with_hole :
    let a (n : Int64) : Value := .mapping [("a", .integer n)]
    let vs : List Value := [a 1, .undefined, a 2, .integer 5, a 3]
    let edited : List Value := [.bool true, .undefined, .null, .bool false]
    let next : Continuation Nat := fun _ => do
      modify (· + 1)
      pure (.value (.sequence edited))
    let byKey := filterer [.key "a"]
    let byValues := filterer [.mapVals]
    byKey.calls (.value (.sequence vs)) next 0 = [.value (.sequence [a 1, a 2, a 3])] ∧
      (byKey.transform (.value (.sequence vs)) next).exec 0 =
        (.ok (.value (.sequence [.bool true, .undefined, .integer 5, .null])), 1) ∧
      (byValues.transform (.value (.sequence [a 1, .sequence vs])) next).exec 0 =
        (.error (mapVals.wantsMapping "sequence"), 0) := by
  intro a vs edited next byKey byValues
  have hp : Decides [.key "a"] vs := by
    intro v hv
    simp only [vs, List.mem_cons, List.not_mem_nil, or_false] at hv
    rcases hv with rfl | rfl | rfl | rfl | rfl <;> exact ⟨_, rfl⟩
  obtain ⟨hruns, -, -⟩ := filterer_realigns [.key "a"] vs next 0
  obtain ⟨hcalls, hanswer, -⟩ := hruns hp
  obtain ⟨-, -, hfail⟩ := filterer_realigns [.mapVals] [a 1, .sequence vs] next 0
  refine ⟨hcalls, ?_, ?_⟩
  · exact ((hanswer (.value (.sequence edited)) 1 rfl).1 edited (.inl rfl)).1
  · have hfirst : Decides [.mapVals] [a 1] := List.forall_mem_singleton.2 ⟨_, rfl⟩
    exact (hfail [a 1] (.sequence vs) [] (mapVals.wantsMapping "sequence") rfl hfirst rfl).1

/-! ### Elements that match themselves -/

/-- Edited elements that match and are defined, not more of them than there are slots: they are then
the matching elements of the sequence, and the others are the same as before. -/
theorem filter_realign {holds : Value → Bool} {vs edited : List Value}
    (hmatch : ∀ w ∈ edited, holds w = true ∧ w.isDefined = true)
    (hlength : edited.length ≤ vs.countP holds) :
    (realign (marks holds vs) edited).filter holds = edited ∧
      (realign (marks holds vs) edited).filter (fun v => !holds v) =
        vs.filter fun v => !holds v := by
  induction vs generalizing edited with
  | nil =>
    obtain rfl := List.eq_nil_of_length_eq_zero (Nat.le_zero.1 hlength)
    exact ⟨rfl, rfl⟩
  | cons v vs ih =>
    rw [List.countP_cons] at hlength
    rw [marks_cons]
    cases hv : holds v with
    | false =>
      rw [hv] at hlength
      obtain ⟨hmatching, hothers⟩ := ih hmatch hlength
      rw [realign, List.filter_cons, List.filter_cons, List.filter_cons, hmatching, hothers, hv]
      exact ⟨rfl, rfl⟩
    | true =>
      cases edited with
      | nil =>
        obtain ⟨hmatching, hothers⟩ := ih hmatch (Nat.zero_le _)
        rw [realign, hmatching, hothers, List.filter_cons, hv]
        exact ⟨rfl, rfl⟩
      | cons w edited =>
        obtain ⟨⟨hw, hdefined⟩, hrest⟩ := List.forall_mem_cons.1 hmatch
        rw [hv, if_pos rfl, List.length_cons] at hlength
        obtain ⟨hmatching, hothers⟩ := ih hrest (Nat.le_of_succ_le_succ hlength)
        rw [realign, if_pos hdefined, List.filter_cons, List.filter_cons, List.filter_cons,
          hmatching, hothers, hw, hv]
        exact ⟨rfl, rfl⟩

/-- Matching elements that come back as they were change nothing. -/
theorem realign_kept (holds : Value → Bool) {vs : List Value}
    (hdefined : ∀ v ∈ vs, v.isDefined = true) (others edited : List Value) :
    realign (marks holds (vs ++ others)) (vs.filter holds ++ edited) =
      vs ++ realign (marks holds others) edited := by
  induction vs with
  | nil => rfl
  | cons v vs ih =>
    obtain ⟨hfirst, hrest⟩ := List.forall_mem_cons.1 hdefined
    rw [List.cons_append, marks_cons]
    cases hv : holds v with
    | false =>
      rw [List.filter_cons_of_neg (by rw [hv]; exact Bool.false_ne_true), realign, ih hrest]
      rfl
    | true =>
      rw [List.filter_cons_of_pos hv, List.cons_append, realign, if_pos hfirst, ih hrest]
      rfl

/-- In a run of matching elements the edited ones move to the front. -/
theorem realign_run {holds : Value → Bool} {vs edited : List Value}
    (hvs : ∀ v ∈ vs, holds v = true) (hdefined : ∀ w ∈ edited, w.isDefined = true)
    (hlength : edited.length ≤ vs.length) (others : List Value) :
    realign (marks holds (vs ++ others)) edited = edited ++ realign (marks holds others) [] := by
  induction vs generalizing edited with
  | nil =>
    obtain rfl := List.eq_nil_of_length_eq_zero (Nat.le_zero.1 hlength)
    rfl
  | cons v vs ih =>
    obtain ⟨hv, hrest⟩ := List.forall_mem_cons.1 hvs
    rw [List.cons_append, marks_cons, hv]
    cases edited with
    | nil => exact ih hrest hdefined (Nat.zero_le _)
    | cons w edited =>
      obtain ⟨hw, hdefined⟩ := List.forall_mem_cons.1 hdefined
      rw [realign, if_pos hw, ih hrest hdefined (Nat.le_of_succ_le_succ hlength)]
      rfl

/-- Where nothing comes back the matching elements go. -/
theorem realign_nil (holds : Value → Bool) (vs : List Value) :
    realign (marks holds vs) [] = vs.filter fun v => !holds v := by
  induction vs with
  | nil => rfl
  | cons v vs ih =>
    rw [marks_cons, List.filter_cons, ← ih]
    cases holds v <;> rfl

end Navigator

/-! ### Removing matching elements -/

namespace Action

/-- Questions whose answers are known, whatever state they are asked in. -/
theorem exec_mapM_of_answers {α β : Type} {f : α → Action σ β} {g : α → β}
    (h : ∀ x s, ∃ s', (f x).exec s = (.ok (g x), s')) (xs : List α) (s : σ) :
    ∃ s', (xs.mapM f).exec s = (.ok (xs.map g), s') := by
  induction xs generalizing s with
  | nil => exact ⟨s, rfl⟩
  | cons x xs ih =>
    obtain ⟨s₁, hx⟩ := h x s
    obtain ⟨s₂, hxs⟩ := ih s₁
    exact ⟨s₂, (exec_mapM_cons_eq_ok_iff _ _ _ _ _ _).2 ⟨g x, s₁, xs.map g, hx, hxs, rfl⟩⟩

end Action

namespace Navigator

/-- Elements that are answered by themselves, unless they are to be removed. -/
theorem filterMap_unless (removed : Value → Bool) (vs : List Value) :
    (vs.map fun v => if removed v then Focus.absent else .value v).filterMap Focus.value? =
      vs.filter fun v => !removed v := by
  induction vs with
  | nil => rfl
  | cons v vs ih =>
    rw [List.map_cons, List.filter_cons, ← ih]
    cases removed v <;> rfl

/-- What remains when elements are removed, beginning with the matching ones. -/
theorem filter_remaining (holds removed : Value → Bool) (vs : List Value) :
    (vs.filter fun v => !(holds v && removed v)).Perm
      (((vs.filter holds).filter fun v => !removed v) ++ vs.filter fun v => !holds v) := by
  have hmatching : ((vs.filter fun v => !(holds v && removed v)).filter holds) =
      (vs.filter holds).filter fun v => !removed v := by
    rw [List.filter_filter, List.filter_filter]
    congr 1
    funext v
    cases holds v <;> cases removed v <;> rfl
  have hothers : ((vs.filter fun v => !(holds v && removed v)).filter fun v => !holds v) =
      vs.filter fun v => !holds v := by
    rw [List.filter_filter]
    congr 1
    funext v
    cases holds v <;> cases removed v <;> rfl
  rw [← hmatching, ← hothers]
  exact (List.filter_append_perm holds _).symm

/-- The order is kept where the removed elements and the later ones that match and remain are parted by
matching elements only. -/
theorem realign_remaining {holds removed : Value → Bool} {before run after : List Value}
    (hdefined : ∀ v ∈ before ++ run ++ after, v.isDefined = true)
    (hbefore : ∀ v ∈ before, holds v = true → removed v = false)
    (hrun : ∀ v ∈ run, holds v = true) (hafter : ∀ v ∈ after, holds v = true → removed v = true) :
    realign (marks holds (before ++ run ++ after))
        (((before ++ run ++ after).filter holds).filter fun v => !removed v) =
      (before ++ run ++ after).filter fun v => !(holds v && removed v) := by
  have hdefined' : ∀ v ∈ before, v.isDefined = true := fun v hv =>
    hdefined v (List.mem_append_left _ (List.mem_append_left _ hv))
  have hkept : (before.filter holds).filter (fun v => !removed v) = before.filter holds := by
    refine List.filter_eq_self.2 fun v hv => ?_
    obtain ⟨hv, hholds⟩ := List.mem_filter.1 hv
    rw [hbefore v hv hholds]
    rfl
  have hgone : (after.filter holds).filter (fun v => !removed v) = [] := by
    refine List.filter_eq_nil_iff.2 fun v hv => ?_
    obtain ⟨hv, hholds⟩ := List.mem_filter.1 hv
    rw [hafter v hv hholds]
    exact Bool.false_ne_true
  have hall : run.filter holds = run := List.filter_eq_self.2 hrun
  have hlast : (after.filter fun v => !(holds v && removed v)) = after.filter fun v => !holds v :=
    List.filter_congr fun v hv => by
      cases h : holds v with
      | false => rfl
      | true => rw [hafter v hv h]; rfl
  have hfirst : (before.filter fun v => !(holds v && removed v)) = before :=
    List.filter_eq_self.2 fun v hv => by
      cases h : holds v with
      | false => rfl
      | true => rw [hbefore v hv h]; rfl
  have hmiddle : (run.filter fun v => !(holds v && removed v)) = run.filter fun v => !removed v :=
    List.filter_congr fun v hv => by rw [hrun v hv, Bool.true_and]
  simp only [List.filter_append, hkept, hgone, hall, hlast, hfirst, hmiddle, List.append_nil]
  rw [List.append_assoc, realign_kept holds hdefined', realign_run hrun _ (List.length_filter_le _ _),
    realign_nil, List.append_assoc]
  intro w hw
  exact hdefined w (List.mem_append_left _ (List.mem_append_right _ (List.mem_filter.1 hw).1))

end Navigator

namespace Path

/-- The run of such a removal. -/
theorem exec_removing {path : List Navigator} {vs : List Value} (hp : Navigator.Decides path vs)
    {removed : Value → Bool} {update : Focus → StateM σ Focus}
    (hupdate : ∀ v st, ((update (.value v)).run st).1 = if removed v then .absent else .value v)
    (config : Config) (st : σ) :
    ∃ st', ((⟨[.filterer path, .all], config⟩ : Path).transform update (.sequence vs)).exec st =
      (.ok (.sequence (Navigator.realign (Navigator.marks (Navigator.finds path) vs)
        ((vs.filter (Navigator.finds path)).filter fun v => !removed v))), st') := by
  have hanswers (v : Value) (s : σ) : ∃ s',
      Action.exec (ExceptT.lift (update (.value v))) s =
        (.ok (if removed v then .absent else .value v), s') :=
    ⟨((update (.value v)).run s).2, by rw [← hupdate v s]; rfl⟩
  obtain ⟨st', hrun⟩ :=
    Action.exec_mapM_of_answers hanswers (vs.filter (Navigator.finds path)) st
  refine ⟨st', ?_⟩
  rw [← Navigator.filterMap_unless]
  refine (Action.exec_bind_eq_ok _ _ _ _ _).2 ⟨.value (.sequence _), st', ?_, rfl⟩
  show (Navigator.transformAlong [.filterer path, .all] _ _).exec st = _
  rw [Navigator.transformAlong_filterer_all hp]
  exact (Action.exec_bind_eq_ok _ _ _ _ _).2 ⟨_, st', hrun, rfl⟩

/-- **Removing matching elements through a filter** leaves all elements but those that match and are to
be removed. The matching elements that remain are in their order, and so are the others; but the k-th of
the former now stands where the k-th matching element stood. So the order of all of them is kept if
nothing that does not match stands between a removed element and a later one that matches and remains. -/
theorem removal_through_filter (path : List Navigator) (config : Config) (vs : List Value)
    (hfree : (Value.sequence vs).UndefinedFree) (hp : Navigator.Decides path vs)
    (removed : Value → Bool) (update : Focus → StateM σ Focus)
    (hupdate : ∀ v st, ((update (.value v)).run st).1 = if removed v then .absent else .value v)
    (st : σ) :
    let p : Path := ⟨[.filterer path, .all], config⟩
    let holds := Navigator.finds path
    let remaining := (vs.filter holds).filter fun v => !removed v
    let result := Navigator.realigned holds vs remaining
    (∃ st', (p.transform update (.sequence vs)).exec st = (.ok (.sequence result), st')) ∧
    result.Perm (vs.filter fun v => !(holds v && removed v)) ∧
    result.filter holds = remaining ∧
    result.filter (fun v => !holds v) = vs.filter (fun v => !holds v) ∧
    ∀ before run after, vs = before ++ run ++ after →
      (∀ v ∈ before, holds v = true → removed v = false) → (∀ v ∈ run, holds v = true) →
      (∀ v ∈ after, holds v = true → removed v = true) →
        result = vs.filter fun v => !(holds v && removed v) := by
  intro p holds remaining result
  have hdefined : ∀ v ∈ vs, v.isDefined = true := fun v hv =>
    Value.isDefined_of_undefinedFree ((Value.allUndefinedFree_iff vs).1 hfree v hv)
  have hremaining : ∀ w ∈ remaining, holds w = true ∧ w.isDefined = true := by
    intro w hw
    obtain ⟨hw, hholds⟩ := List.mem_filter.1 (List.mem_filter.1 hw).1
    exact ⟨hholds, hdefined w hw⟩
  have hlength : remaining.length ≤ vs.countP holds := by
    rw [List.countP_eq_length_filter]
    exact List.length_filter_le _ _
  have hresult : Navigator.realign (Navigator.marks holds vs) remaining = result :=
    Navigator.realign_marks holds vs remaining
  obtain ⟨hmatching, hothers⟩ := Navigator.filter_realign hremaining hlength
  rw [hresult] at hmatching hothers
  refine ⟨?_, ?_, hmatching, hothers, ?_⟩
  · rw [← hresult]
    exact exec_removing hp hupdate config st
  · have hsplit := List.filter_append_perm holds result
    rw [hmatching, hothers] at hsplit
    exact hsplit.symm.trans (Navigator.filter_remaining holds removed vs).symm
  · intro before run after hvs hbefore hrun hafter
    rw [← hresult]
    subst hvs
    exact Navigator.realign_remaining hdefined hbefore hrun hafter

/-- The second of three matching elements is removed, and no other element stands between it and the
third one. -/
theorem removal_through_filter_second :
    let a (n : Int64) : Value := .mapping [("a", .integer n)]
    let vs : List Value := [a 1, .integer 0, a 2, a 3, .null]
    let removed : Value → Bool := fun v => (Navigator.valueUnder "a" v).integer? == some 2
    let update : Focus → StateM Nat Focus := fun f => do
      modify (· + 1)
      pure (if removed f.orUndefined then .absent else f)
    let p : Path := ⟨[.filterer [.key "a"], .all], {}⟩
    (∃ st', (p.transform update (.sequence vs)).exec 0 =
        (.ok (.sequence [a 1, .integer 0, a 3, .null]), st')) ∧
      [a 1, .integer 0, a 3, .null] =
        vs.filter fun v => !(Navigator.finds [.key "a"] v && removed v) := by
  intro a vs removed update p
  have hfree : (Value.sequence vs).UndefinedFree :=
    ⟨⟨trivial, trivial⟩, trivial, ⟨trivial, trivial⟩, ⟨trivial, trivial⟩, trivial, trivial⟩
  have hp : Navigator.Decides [.key "a"] vs := by
    intro v hv
    simp only [vs, List.mem_cons, List.not_mem_nil, or_false] at hv
    rcases hv with rfl | rfl | rfl | rfl | rfl <;> exact ⟨_, rfl⟩
  have hupdate (v : Value) (st : Nat) :
      ((update (.value v)).run st).1 = if removed v then .absent else .value v := rfl
  obtain ⟨hrun, -, -, -, horder⟩ := removal_through_filter [.key "a"] {} vs hfree hp removed update
    hupdate 0
  have hbefore : ∀ v ∈ [a 1, .integer 0], Navigator.finds [.key "a"] v = true →
      removed v = false := List.forall_mem_cons.2 ⟨fun _ => rfl, List.forall_mem_singleton.2 fun _ => rfl⟩
  have hmiddle : ∀ v ∈ [a 2, a 3], Navigator.finds [.key "a"] v = true :=
    List.forall_mem_cons.2 ⟨rfl, List.forall_mem_singleton.2 rfl⟩
  have hafter : ∀ v ∈ [Value.null], Navigator.finds [.key "a"] v = true → removed v = true :=
    List.forall_mem_singleton.2 fun h => absurd h (by decide)
  exact ⟨hrun, horder [a 1, .integer 0] [a 2, a 3] [.null] rfl hbefore hmiddle hafter⟩

/-- Removing the first of two matching elements moves the second one before what stood between them. -/
theorem removal_through_filter_moves :
    let a (n : Int64) : Value := .mapping [("a", .integer n)]
    let b : Value := .mapping [("b", .integer 2)]
    let vs : List Value := [a 1, b, a 3]
    let removed : Value → Bool := fun v => (Navigator.valueUnder "a" v).integer? == some 1
    let update : Focus → Focus := fun f => if removed f.orUndefined then .absent else f
    let p : Path := ⟨[.filterer [.key "a"], .all], {}⟩
    (Value.sequence vs).UndefinedFree ∧ Navigator.Decides [.key "a"] vs ∧
      p.map update (.sequence vs) = .ok (.sequence [a 3, b]) ∧
      (vs.filter fun v => !(Navigator.finds [.key "a"] v && removed v)) = [b, a 3] ∧
      p.map update (.sequence vs) ≠
        .ok (.sequence (vs.filter fun v => !(Navigator.finds [.key "a"] v && removed v))) := by
  intro a b vs removed update p
  have hrun : p.map update (.sequence vs) = .ok (.sequence [a 3, b]) := by rfl
  have hkept : (vs.filter fun v => !(Navigator.finds [.key "a"] v && removed v)) = [b, a 3] := by rfl
  refine ⟨⟨⟨trivial, trivial⟩, ⟨trivial, trivial⟩, ⟨trivial, trivial⟩, trivial⟩, ?_, hrun, hkept, ?_⟩
  · intro v hv
    simp only [vs, List.mem_cons, List.not_mem_nil, or_false] at hv
    rcases hv with rfl | rfl | rfl <;> exact ⟨_, rfl⟩
  · rw [hrun, hkept]
    simp [a, b]

end Path

end DocPath
