import DocPath.Proofs.Children
import DocPath.Proofs.Concatenation
import DocPath.Proofs.VisitOrder

/-!
# Reading back what was written

After a transform that removed nothing, the same path selects what the update answered, in the
order in which it answered, and no more focuses than before.

* `Navigator.ReadsBack`, `Navigator.ElementsOnly` — the navigators of which this holds, and paths
  whose steps to all elements meet no mapping;
* `Navigator.reach_of_rebuild` — **at one navigator, whatever is answered is found in the new value**;
* `Gathers`, `Navigator.gathers_transformAlong` — the answers of a whole run;
* `Path.answered`, `Path.select_after_transform` — the law.
-/

namespace DocPath

variable {σ τ α β : Type}

namespace Navigator

/-- The steps to places inside a value. Of a parser it is asked that what it unparses parses to what
was unparsed. -/
def ReadsBack : Navigator → Prop
  | .all | .mapVals | .first | .last | .key _ | .nth _ => True
  | .parser parse unparse => ∀ w v, unparse w = .ok v → parse v = .ok w
  | .mapKeys | .beginning | .ending | .beforeElem | .afterElem | .beforeIndex _ | .pred _ | .view _
  | .submap _ | .filterer _ | .custom _ => False

theorem ReadsBack.isCustom {n : Navigator} (h : n.ReadsBack) : n.isCustom = false := by
  cases n <;> first | rfl | exact absurd h (by simp [ReadsBack])

theorem ReadsBack.isInsertionPoint {n : Navigator} (h : n.ReadsBack) :
    n.isInsertionPoint = false := by
  cases n <;> first | rfl | exact absurd h (by simp [ReadsBack])

/-! ### One navigator -/

/-- What the exchange of a parser gives back is parsed to the answer. -/
theorem reach_of_rebuild_parsed {parse unparse : Value → Except NavError Value}
    (hback : ∀ w v, unparse w = .ok v → parse v = .ok w) {v : Value} {x : Exchange}
    (hx : (parser parse unparse).exchange (.value v) = .ok x) {ws : List Value}
    (hlen : ws.length = x.asked.length) {r : Focus} (hr : x.rebuild (ws.map .value) = .ok r) :
    ∃ w, r = .value w ∧ (parser parse unparse).reach w = .ok ws := by
  have hx : exchangeParsed parse unparse (.value v) = .ok x := hx
  rw [exchangeParsed, Focus.orUndefined] at hx
  cases hp : parse v with
  | error e => rw [hp] at hx; exact absurd hx (by simp [Except.map])
  | ok u =>
    rw [hp] at hx
    cases hx
    obtain ⟨w, rfl⟩ := List.length_eq_one_iff.1 hlen
    have hr : (unparse w).map Focus.value = .ok r := hr
    cases hu : unparse w with
    | error e => rw [hu] at hr; exact absurd hr (by simp [Except.map])
    | ok v' =>
      rw [hu] at hr
      cases hr
      refine ⟨v', rfl, ?_⟩
      show (parse v').map _ = _
      rw [hback w v' hu]
      rfl

/-- **At one navigator, whatever is answered is found in the new value.** -/
theorem reach_of_rebuild {n : Navigator} (hn : n.ReadsBack) {v : Value}
    (hall : n = .all → v.isMapping = false) {x : Exchange}
    (hx : n.exchange (.value v) = .ok x) {ws : List Value} (hlen : ws.length = x.asked.length)
    {r : Focus} (hr : x.rebuild (ws.map .value) = .ok r) :
    ∃ w, r = .value w ∧ n.reach w = .ok ws := by
  have hchildren (hd : n.Descends) : ∃ w, r = .value w ∧ n.reach w = .ok ws := by
    obtain ⟨vs, hshape⟩ := shape_of_exchange hd hx
    rw [hshape.asked, List.length_map] at hlen
    obtain ⟨w, x', rfl, hx', hshape'⟩ := hshape.next hx hlen
      (fun hn m hm => absurd (hall hn) (by simp [hm, Value.isMapping])) hr
    exact ⟨w, rfl, hd.reach hx' hshape'⟩
  cases n with
  | parser parse unparse => exact reach_of_rebuild_parsed hn hx hlen hr
  | all => exact hchildren trivial
  | mapVals => exact hchildren trivial
  | first => exact hchildren trivial
  | last => exact hchildren trivial
  | key name => exact hchildren trivial
  | nth index => exact hchildren trivial
  | _ => exact absurd hn (by simp [ReadsBack])

end Navigator

/-! ### The answers of a run -/

/-- If the action succeeds, it has added to its log a list that `P` relates to its result. -/
def Gathers (P : List β → α → Prop) (a : Action (σ × List β) α) : Prop :=
  ∀ s log x s' log', a.exec (s, log) = (.ok x, (s', log')) → ∃ rs, log' = log ++ rs ∧ P rs x

theorem Gathers.imp {P Q : List β → α → Prop} {a : Action (σ × List β) α} (ha : Gathers P a)
    (h : ∀ rs x, P rs x → Q rs x) : Gathers Q a := by
  intro s log x s' log' hr
  obtain ⟨rs, hlog, hp⟩ := ha s log x s' log' hr
  exact ⟨rs, hlog, h rs x hp⟩

theorem gathers_recorded (update : α → Action σ β) (x : α) :
    Gathers (fun rs r => rs = [r]) (Action.recorded update x) := by
  intro s log r s' log' hr
  rw [Action.recorded, Action.exec_bind, Action.exec_onFirst] at hr
  rcases hu : (update x).exec s with ⟨_ | r', s₁⟩
  · rw [hu] at hr
    exact absurd (congrArg Prod.fst hr) (by simp)
  · rw [hu] at hr
    cases hr
    exact ⟨[r], rfl, rfl⟩

theorem gathers_pure (x : α) : Gathers (fun rs y => rs = [] ∧ y = x)
    (pure x : Action (σ × List β) α) := by
  intro s log y s' log' hr
  cases hr
  exact ⟨[], (List.append_nil _).symm, rfl, rfl⟩

theorem Gathers.bind {γ : Type} {P : List β → α → Prop} {Q : α → List β → γ → Prop}
    {a : Action (σ × List β) α} {f : α → Action (σ × List β) γ} (ha : Gathers P a)
    (hf : ∀ x, Gathers (Q x) (f x)) :
    Gathers (fun rs y => ∃ rs₁ x rs₂, rs = rs₁ ++ rs₂ ∧ P rs₁ x ∧ Q x rs₂ y) (a >>= f) := by
  intro s log y s' log' hr
  obtain ⟨x, ⟨s₁, log₁⟩, hx, hr⟩ := (Action.exec_bind_eq_ok _ _ _ _ _).1 hr
  obtain ⟨rs₁, rfl, hp⟩ := ha s log x s₁ log₁ hx
  obtain ⟨rs₂, rfl, hq⟩ := hf x s₁ _ y s' log' hr
  exact ⟨rs₁ ++ rs₂, List.append_assoc _ _ _, rs₁, x, rs₂, rfl, hp, hq⟩

theorem Gathers.bind_ofExcept {γ : Type} {P : List β → α → Prop} {a : Action (σ × List β) α}
    (ha : Gathers P a) (f : α → Except NavError γ) :
    Gathers (fun rs y => ∃ x, P rs x ∧ f x = .ok y) (a >>= fun x => Action.ofExcept (f x)) := by
  intro s log y s' log' hr
  obtain ⟨x, ⟨s₁, log₁⟩, hx, hr⟩ := (Action.exec_bind_eq_ok _ _ _ _ _).1 hr
  obtain ⟨rs, rfl, hp⟩ := ha s log x s₁ log₁ hx
  obtain ⟨hy, hs⟩ := Action.exec_ofExcept_eq_ok.1 hr
  cases hs
  exact ⟨rs, rfl, x, hp, hy⟩

/-- Where nothing was removed, the result is a value in which the traversal reaches the answers,
as many of them as it reached in `v`. -/
def Rereads (R : Value → Reached) (v : Value) (rs : List Focus) (r : Focus) : Prop :=
  .absent ∉ rs → ∃ w ws, r = .value w ∧ R w = ⟨ws, none⟩ ∧ rs = ws.map .value ∧
    ws.length = (R v).focuses.length

/-- The same for one result at each of several values. -/
def RereadsAll (R : Value → Reached) (vs : List Value) (rs ys : List Focus) : Prop :=
  .absent ∉ rs → ∃ us ws, ys = us.map .value ∧ us.length = vs.length ∧
    Reached.join R us = ⟨ws, none⟩ ∧ rs = ws.map .value ∧
      ws.length = (Reached.join R vs).focuses.length

theorem Gathers.mapM {R : Value → Reached} {g : Focus → Action (σ × List Focus) Focus}
    {vs : List Value} (h : ∀ v ∈ vs, Gathers (Rereads R v) (g (.value v)))
    (he : (Reached.join R vs).error = none) :
    Gathers (RereadsAll R vs) ((vs.map Focus.value).mapM g) := by
  induction vs with
  | nil =>
    refine (gathers_pure []).imp ?_
    intro rs ys h _
    obtain ⟨rfl, rfl⟩ := h
    exact ⟨[], [], rfl, rfl, rfl, rfl, rfl⟩
  | cons v vs ih =>
    rw [Reached.join, Reached.error_append_eq_none] at he
    have ih := ih (fun w hw => h w (List.mem_cons_of_mem v hw)) he.2
    rw [List.map_cons, List.mapM_cons]
    refine ((h v List.mem_cons_self).bind fun y => ih.bind fun ys => gathers_pure (y :: ys)).imp ?_
    intro rs zs h habs
    obtain ⟨rs₁, y, _, rfl, hy, rs₂, ys, _, rfl, hys, rfl, rfl⟩ := h
    rw [List.append_nil, List.mem_append, not_or] at habs
    obtain ⟨u, ws₁, rfl, hu, rfl, hlen₁⟩ := hy habs.1
    obtain ⟨us, ws₂, rfl, hlen, hus, rfl, hlen₂⟩ := hys habs.2
    refine ⟨u :: us, ws₁ ++ ws₂, rfl, congrArg Nat.succ hlen, ?_, ?_, ?_⟩
    · rw [Reached.join, hu, hus]
      rfl
    · rw [List.append_nil, List.map_append]
    · rw [Reached.join, Reached.append_of_error_none he.1, List.length_append, List.length_append,
        hlen₁, hlen₂]

namespace Navigator

/-! ### Paths -/

/-- No step to all elements meets a mapping on the way into `v`. -/
def ElementsOnly (path : List Navigator) (v : Value) : Prop :=
  ∀ before after, path = before ++ .all :: after →
    ∀ w ∈ (reachedAlong before v).focuses, w.isMapping = false

theorem ElementsOnly.head {n : Navigator} {path : List Navigator} {v : Value}
    (h : ElementsOnly (n :: path) v) (hn : n = .all) : v.isMapping = false :=
  h [] path (congrArg (· :: path) hn) v List.mem_cons_self

theorem ElementsOnly.tail {n : Navigator} {path : List Navigator} {v : Value} {vs : List Value}
    (h : ElementsOnly (n :: path) v) (hr : n.reach v = .ok vs)
    (he : (reachedAlong (n :: path) v).error = none) : ∀ w ∈ vs, ElementsOnly path w := by
  intro w hw before after hpath u hu
  refine h (n :: before) after (congrArg (n :: ·) hpath) u ?_
  rw [hpath, ← List.cons_append] at he
  have he := error_reachedAlong_append he
  rw [reachedAlong, hr] at he ⊢
  show u ∈ (Reached.join (reachedAlong before) vs).focuses
  rw [Reached.focuses_join he]
  exact List.mem_flatMap.2 ⟨w, hw, hu⟩

/-- **A run that removes nothing leaves what its update answered where the path leads.** -/
theorem gathers_transformAlong (path : List Navigator) (hp : ∀ n ∈ path, n.ReadsBack) (v : Value)
    (he : (reachedAlong path v).error = none) (hv : ElementsOnly path v)
    (update : Focus → Action σ Focus) :
    Gathers (Rereads (reachedAlong path) v)
      (transformAlong path (.value v) (Action.recorded update)) := by
  induction path generalizing v with
  | nil =>
    refine (gathers_recorded update _).imp ?_
    intro rs r h habs
    subst h
    cases r with
    | absent => exact absurd List.mem_cons_self habs
    | value w => exact ⟨w, [w], rfl, rfl, rfl, rfl⟩
  | cons n path ih =>
    have hn := hp n List.mem_cons_self
    have ih (w : Value) := ih (fun m hm => hp m (List.mem_cons_of_mem n hm)) w
    have htail {vs : List Value} (hr : n.reach v = .ok vs) := hv.tail hr he
    rw [transformAlong, transform_eq_carryOut n hn.isCustom]
    rcases n.exchange_value_cases hn.isCustom hn.isInsertionPoint v with
      ⟨e, hr, hx⟩ | ⟨vs, x, hr, hx, hasked⟩
    · rw [reachedAlong, hr] at he
      exact absurd he (by simp [Reached.andThen])
    · have htail := htail hr
      rw [reachedAlong, hr] at he
      have hjoin : (Reached.join (reachedAlong path) vs).error = none := he
      have hask : ∀ w ∈ vs, Gathers (Rereads (reachedAlong path) w)
          (x.ask (fun f => transformAlong path f (Action.recorded update)) (.value w)) := by
        intro w hw
        have hw := ih w (Reached.error_join_eq_none_iff.1 hjoin w hw) (htail w hw)
        rw [Exchange.ask_eq]
        refine (hw.bind_ofExcept fun r => x.check r >>= fun _ => pure r).imp ?_
        intro rs r h
        obtain ⟨r', hr', hc⟩ := h
        obtain ⟨_, -, hc⟩ := (Action.bind_eq_ok _ _ _).1 hc
        cases hc
        exact hr'
      rw [hx]
      show Gathers _ (x.carryOut _)
      rw [Exchange.carryOut, hasked]
      refine ((Gathers.mapM hask hjoin).bind_ofExcept x.rebuild).imp ?_
      intro rs r h habs
      obtain ⟨ys, hys, hrebuild⟩ := h
      obtain ⟨us, ws, rfl, hlen, hus, hrs, hcount⟩ := hys habs
      obtain ⟨w, rfl, hw⟩ := reach_of_rebuild hn hv.head hx
        (by rw [hlen, hasked, List.length_map]) hrebuild
      refine ⟨w, ws, rfl, ?_, hrs, ?_⟩
      · rw [reachedAlong, hw]
        exact hus
      · rw [reachedAlong, hr]
        exact hcount

end Navigator

/-- What the update of a transform answered, in the order of its calls. -/
def Path.answered (p : Path) (s : Focus) (update : Focus → Action σ Focus) (st : σ) : List Focus :=
  ((p.transformWith s (Action.recorded update)).exec (st, [])).2.2

/-- **The put-get law.** After a transform that succeeds, the path selects in the new document what
the update answered, one answer for each focus that it selected in the old one, provided that the
update removed nothing and that no step to all elements met a mapping. -/
theorem Path.select_after_transform (p : Path) (hp : ∀ n ∈ p.navigators, n.ReadsBack) (v : Value)
    (hv : Navigator.ElementsOnly p.navigators v) (update : Focus → Action σ Focus) (st st' : σ)
    (v' : Value) (hr : (p.tryTransform update v).exec st = (.ok v', st'))
    (habs : .absent ∉ p.answered (.value v) update st) :
    ∃ ws fs, p.select v' = .ok ws ∧ p.answered (.value v) update st = ws.map .value ∧
      p.select v = .ok fs ∧ ws.length = fs.length := by
  have hb : Navigator.BuiltIn p.navigators := fun n hn => (hp n hn).isCustom
  obtain ⟨r, s₁, hr, hfinish⟩ := (Action.exec_bind_eq_ok _ _ _ _ _).1 hr
  -- the traversal has no error, since the transform follows it to its end
  obtain ⟨seen, -, -, hok⟩ := Navigator.follows_transformAlong p.navigators
    (fun n hn => ⟨(hp n hn).isCustom, (hp n hn).isInsertionPoint⟩) v update st []
  have hlogged := (Navigator.watches_transformAlong p.navigators hb (Action.watches_logged update)
    (.value v)).exec_eq hr ([] : List Focus)
  have he := (hok r (congrArg Prod.fst hlogged)).1
  -- the recorded run has the same result, and its log is what was answered
  have hrun : (p.transformWith (.value v) (Action.recorded update)).exec (st, []) =
      (.ok r, (s₁, p.answered (.value v) update st)) :=
    (Navigator.watches_transformAlong p.navigators hb (Action.watches_recorded update)
      (.value v)).exec_eq hr []
  obtain ⟨rs, hlog, hreads⟩ :=
    Navigator.gathers_transformAlong p.navigators hp v he hv update st [] r s₁ _ hrun
  rw [List.nil_append] at hlog
  rw [hlog] at habs ⊢
  obtain ⟨w, ws, rfl, hw, hrs, hlen⟩ := hreads habs
  rw [Action.exec_ofExcept] at hfinish
  obtain rfl : w = v' := Except.ok.inj (congrArg Prod.fst hfinish)
  refine ⟨ws, _, ?_, hrs, ?_, hlen⟩
  · rw [p.select_eq_toExcept hb, hw]
    rfl
  · rw [p.select_eq_toExcept hb, Reached.toExcept, he]

/-- A run that empties one mapping, makes another one of a null, and adds an entry to a third. -/
theorem Path.select_after_transform_counting :
    let p : Path := ⟨[.mapVals, .all, .key "n"], {}⟩
    let v : Value := .mapping
      [("a", .sequence [.mapping [("n", .bool true)], .null]), ("b", .sequence [.mapping []])]
    let update : Focus → Action Nat Focus := fun _ => do
      let calls ← get
      set (calls + 1)
      pure (.value (if calls = 0 then .undefined else .integer (Int64.ofNat calls)))
    let v' : Value := .mapping
      [("a", .sequence [.mapping [], .mapping [("n", .integer 1)]]),
        ("b", .sequence [.mapping [("n", .integer 2)]])]
    (p.tryTransform update v).exec 0 = (.ok v', 3) ∧
      ∃ ws fs, p.select v' = .ok ws ∧ p.answered (.value v) update 0 = ws.map .value ∧
        p.select v = .ok fs ∧ ws.length = fs.length := by
  intro p v update v'
  have hrun : (p.tryTransform update v).exec 0 = (.ok v', 3) := by rfl
  have hp : ∀ n ∈ p.navigators, n.ReadsBack := by
    intro n hn
    simp only [p, List.mem_cons, List.not_mem_nil, or_false] at hn
    rcases hn with rfl | rfl | rfl <;> exact trivial
  have hv : Navigator.ElementsOnly p.navigators v := by
    intro before after hpath w hw
    rcases before with _ | ⟨n, _ | ⟨m, rest⟩⟩
    · cases hpath
    · cases hpath
      have hw : w ∈ [Value.sequence [.mapping [("n", .bool true)], .null],
        .sequence [.mapping []]] := hw
      simp only [List.mem_cons, List.not_mem_nil, or_false] at hw
      rcases hw with rfl | rfl <;> rfl
    · obtain ⟨-, hpath⟩ := List.cons.inj hpath
      obtain ⟨-, hpath⟩ := List.cons.inj hpath
      rcases rest with _ | ⟨k, _ | _⟩ <;> cases hpath
  have hanswered : p.answered (.value v) update 0 =
      [.value .undefined, .value (.integer 1), .value (.integer 2)] := by rfl
  have habs : .absent ∉ p.answered (.value v) update 0 := by
    rw [hanswered]
    simp
  exact ⟨hrun, p.select_after_transform hp v hv update 0 3 v' hrun habs⟩

end DocPath
