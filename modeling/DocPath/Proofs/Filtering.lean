import DocPath.Proofs.VisitOrder

/-!
# Filters as tests of single elements

A filter hands the matching elements on as one sequence, and puts what became of them back among the
others when the rest of the path has answered. A test looks at one element after another and leaves
the place of each as it is. When nothing is removed the two come to the same, since both call the rest
of the path on the matching elements in turn and differ only in what they make of the answers.

* `Navigator.finds`, `Navigator.Decides` — the test that a nested path is, and where it does not fail;
* `Navigator.reach_filterer`, `Navigator.transform_filterer` — a filter that fails on no element;
* `Navigator.mapM_tested` — **testing one after another is going through the matching ones**, the
  answers being woven in among the other elements afterwards;
* `Navigator.transformAlong_filterer_all`, `Navigator.transformAlong_all_pred` — both paths in this form;
* `Path.filter_then_all` — the law for whole paths.
-/

namespace DocPath

variable {σ τ α β : Type}

/-! ### Answers to a list of questions -/

namespace Action

theorem exec_recorded_of_ok {f : α → Action σ β} {x : α} {s s' : σ} {y : β}
    (h : (f x).exec s = (.ok y, s')) (log : List β) :
    (recorded f x).exec (s, log) = (.ok y, (s', log ++ [y])) := by
  rw [recorded, exec_bind, exec_onFirst, h]
  rfl

/-- Where all questions of a list are answered, the record of the answers is the list of them. -/
theorem exec_mapM_recorded {f : α → Action σ β} {xs : List α} {s s' : σ} {ys : List β}
    (h : (xs.mapM f).exec s = (.ok ys, s')) (log : List β) :
    (xs.mapM (recorded f)).exec (s, log) = (.ok ys, (s', log ++ ys)) := by
  induction xs generalizing s ys log with
  | nil =>
    cases h
    exact congrArg (fun l => (Except.ok [], (s', l))) (List.append_nil log).symm
  | cons x xs ih =>
    obtain ⟨y, s₁, ys', hy, hys, rfl⟩ := (exec_mapM_cons_eq_ok_iff _ _ _ _ _ _).1 h
    refine (exec_mapM_cons_eq_ok_iff _ _ _ _ _ _).2
      ⟨y, _, ys', exec_recorded_of_ok hy log, ?_, rfl⟩
    rw [ih hys, List.append_assoc, List.singleton_append]

end Action

namespace Navigator

/-! ### Elements that a path decides -/

/-- Whether the path reaches something defined in the value, and does not fail there. -/
def finds (path : List Navigator) (v : Value) : Bool :=
  match matchesAlong path v with
  | .ok found => found
  | .error _ => false

/-- The path fails on none of the values. -/
def Decides (path : List Navigator) (vs : List Value) : Prop :=
  ∀ v ∈ vs, ∃ b, matchesAlong path v = .ok b

/-- The values with the answers of a test that cannot fail. -/
def marks (holds : Value → Bool) (vs : List Value) : List (Bool × Value) :=
  vs.map fun v => (holds v, v)

theorem marks_cons (holds : Value → Bool) (v : Value) (vs : List Value) :
    marks holds (v :: vs) = (holds v, v) :: marks holds vs := rfl

theorem Decides.matchesAlong_eq {path : List Navigator} {vs : List Value} (h : Decides path vs)
    {v : Value} (hv : v ∈ vs) : matchesAlong path v = .ok (finds path v) := by
  obtain ⟨b, hb⟩ := h v hv
  rw [finds, hb]

theorem Decides.filter {path : List Navigator} {vs : List Value} (h : Decides path vs)
    (keep : Value → Bool) : Decides path (vs.filter keep) :=
  fun v hv => h v (List.mem_filter.1 hv).1

/-- A key fails nowhere: where it is not found it reaches `undefined`. -/
theorem decides_key (name : String) (vs : List Value) : Decides [.key name] vs := fun _ _ => ⟨_, rfl⟩

theorem markMatching_eq {path : List Navigator} {vs : List Value} (h : Decides path vs) :
    markMatching (matchesAlong path) vs = .ok (marks (finds path) vs) := by
  induction vs with
  | nil => rfl
  | cons v vs ih =>
    have hv := h.matchesAlong_eq List.mem_cons_self
    rw [markMatching, hv, ih fun w hw => h w (List.mem_cons_of_mem v hw)]
    rfl

/-- The first element on which the path fails gives the error. -/
theorem markMatching_error {path : List Navigator} {before after : List Value} {v : Value}
    {e : NavError} (h : Decides path before) (hv : matchesAlong path v = .error e) :
    markMatching (matchesAlong path) (before ++ v :: after) = .error e := by
  induction before with
  | nil => rw [List.nil_append, markMatching, hv]; rfl
  | cons u before ih =>
    have hu := h.matchesAlong_eq List.mem_cons_self
    rw [List.cons_append, markMatching, hu, ih fun w hw => h w (List.mem_cons_of_mem u hw)]
    rfl

theorem matching_marks (holds : Value → Bool) (vs : List Value) :
    matching (marks holds vs) = vs.filter holds := by
  induction vs with
  | nil => rfl
  | cons v vs ih =>
    rw [matching, marks] at ih
    cases hv : holds v <;> simp [matching, marks, hv, ih]

/-- **A filter hands on once**, the matching elements as one sequence. -/
theorem reach_filterer {path : List Navigator} {vs : List Value} (h : Decides path vs) :
    (filterer path).reach (.sequence vs) = .ok [.sequence (vs.filter (finds path))] := by
  show matchingIn (matchesAlong path) (.sequence vs) = _
  rw [matchingIn, markMatching_eq h]
  exact congrArg (fun ws => Except.ok [Value.sequence ws]) (matching_marks _ vs)

theorem selectAlong_filterer {path : List Navigator} {vs : List Value} (h : Decides path vs)
    (q : List Navigator) (terminal : Value → Action σ Unit) :
    selectAlong (.filterer path :: q) (.sequence vs) terminal =
      selectAlong q (.sequence (vs.filter (finds path))) terminal := by
  rw [selectAlong, select_eq_reach _ rfl, reach_filterer h]
  exact bind_pure (selectAlong q (.sequence (vs.filter (finds path))) terminal)

/-- **A filter asks once**, about the matching elements as one sequence, and puts the answer back. -/
theorem transform_filterer {path : List Navigator} {vs : List Value} (h : Decides path vs)
    (next : Continuation σ) :
    (filterer path).transform (.value (.sequence vs)) next =
      next (.value (.sequence (vs.filter (finds path)))) >>= fun r =>
        Action.ofExcept ((editedAnswered r).map fun edited =>
          .value (.sequence (realign (marks (finds path) vs) edited))) := by
  rw [transform_eq_carryOut _ rfl]
  show Action.ofExcept (exchangeMatching (matchesAlong path) (.value (.sequence vs))) >>= _ = _
  rw [exchangeMatching, markMatching_eq h]
  show (Exchange.single _ _).carryOut next = _
  rw [Exchange.carryOut_single, matching_marks]

/-- A filter that fails on an element does so before it asks. -/
theorem transform_filterer_of_error {path : List Navigator} {before after : List Value} {v : Value}
    {e : NavError} (h : Decides path before) (hv : matchesAlong path v = .error e)
    (next : Continuation σ) :
    (filterer path).transform (.value (.sequence (before ++ v :: after))) next = throw e := by
  rw [transform, transformMatching, markMatching_error h hv]
  rfl

/-! ### Testing one element after another -/

/-- The answers about the matching elements, in turn, among the other elements as they are. -/
def weave : List (Bool × Value) → List Focus → List Focus
  | [], _ => []
  | (false, v) :: marked, rs => .value v :: weave marked rs
  | (true, _) :: marked, [] => weave marked []
  | (true, _) :: marked, r :: rs => r :: weave marked rs

/-- **Testing one element after another is going through the matching ones**: the same calls are
made, and the other elements are put between the answers. -/
theorem mapM_tested (holds : Value → Bool) (stage : Value → Action σ Focus) (vs : List Value) :
    (vs.mapM fun v => if holds v then stage v else pure (.value v)) =
      (vs.filter holds).mapM stage >>= fun rs => pure (weave (marks holds vs) rs) := by
  induction vs with
  | nil => rfl
  | cons v vs ih =>
    rw [List.mapM_cons, ih, marks_cons]
    cases hv : holds v with
    | true =>
      rw [List.filter_cons_of_pos hv, List.mapM_cons]
      simp only [bind_assoc, pure_bind, if_true]
      rfl
    | false =>
      rw [List.filter_cons_of_neg (by rw [hv]; exact Bool.false_ne_true)]
      simp only [bind_assoc, pure_bind, Bool.false_eq_true, if_false]
      rfl

/-- Answers that are all defined come to stand where a filter puts them. -/
theorem filterMap_weave (marked : List (Bool × Value)) {rs : List Focus}
    (h : ∀ r ∈ rs, ∃ w, r = .value w ∧ w.isDefined = true) :
    (weave marked rs).filterMap Focus.value? = realign marked (rs.filterMap Focus.value?) := by
  induction marked generalizing rs with
  | nil => rfl
  | cons x marked ih =>
    obtain ⟨b, v⟩ := x
    cases b with
    | false => exact congrArg (v :: ·) (ih h)
    | true =>
      cases rs with
      | nil => exact ih h
      | cons r rs =>
        obtain ⟨⟨w, rfl, hw⟩, hrs⟩ := List.forall_mem_cons.1 h
        show w :: (weave marked rs).filterMap Focus.value? =
          (if w.isDefined then w :: realign marked (rs.filterMap Focus.value?)
            else realign marked (rs.filterMap Focus.value?))
        rw [if_pos hw, ih hrs]

/-! ### The two paths -/

/-- All elements of a sequence are asked about in turn, and those that are absent then go. -/
theorem transform_all_sequence (vs : List Value) (next : Continuation σ) :
    all.transform (.value (.sequence vs)) next =
      (vs.mapM fun v => next (.value v)) >>= fun rs =>
        pure (.value (.sequence (rs.filterMap Focus.value?))) := by
  show Sequence.mapItems _ vs >>= _ = _
  rw [Exchange.mapItems_eq, bind_assoc]
  simp only [pure_bind]

/-- Through a filter and then to all elements: the matching ones are asked about, and the answers are
put back by their number. -/
theorem transformAlong_filterer_all {path : List Navigator} {vs : List Value}
    (h : Decides path vs) (q : List Navigator) (update : Continuation σ) :
    transformAlong (.filterer path :: .all :: q) (.value (.sequence vs)) update =
      ((vs.filter (finds path)).mapM fun v => transformAlong q (.value v) update) >>= fun rs =>
        pure (.value (.sequence
          (realign (marks (finds path) vs) (rs.filterMap Focus.value?)))) := by
  rw [transformAlong, transform_filterer h, transformAlong, transform_all_sequence, bind_assoc]
  simp only [pure_bind]
  rfl

/-- To all elements and then through a test: the matching ones are asked about, and every answer stays
in its place. -/
theorem transformAlong_all_pred (holds : Value → Bool) (vs : List Value) (q : List Navigator)
    (update : Continuation σ) :
    transformAlong (.all :: .pred holds :: q) (.value (.sequence vs)) update =
      ((vs.filter holds).mapM fun v => transformAlong q (.value v) update) >>= fun rs =>
        pure (.value (.sequence ((weave (marks holds vs) rs).filterMap Focus.value?))) := by
  rw [transformAlong, transform_all_sequence]
  show (vs.mapM fun v => if holds v then transformAlong q (.value v) update
    else pure (.value v)) >>= _ = _
  rw [mapM_tested, bind_assoc]
  simp only [pure_bind]

/-- Selecting calls the rest of the path on the matching elements, in turn. -/
theorem visit_tested (holds : Value → Bool) (vs : List Value) (next : Value → Action σ Unit) :
    (visit vs fun v => if holds v then next v else pure ()) = visit (vs.filter holds) next := by
  induction vs with
  | nil => rfl
  | cons v vs ih =>
    show ((if holds v then next v else pure ()) >>= fun _ => visit vs _) = _
    rw [ih]
    cases hv : holds v with
    | true => rw [List.filter_cons_of_pos hv]; rfl
    | false => rw [List.filter_cons_of_neg (by rw [hv]; exact Bool.false_ne_true)]; rfl

theorem selectAlong_filterer_all {path : List Navigator} {vs : List Value}
    (h : Decides path vs) (q : List Navigator) (terminal : Value → Action σ Unit) :
    selectAlong (.filterer path :: .all :: q) (.sequence vs) terminal =
      selectAlong (.all :: .pred (finds path) :: q) (.sequence vs) terminal := by
  rw [selectAlong_filterer h]
  show visit (vs.filter (finds path)) (selectAlong q · terminal) =
    visit vs fun v => if finds path v then selectAlong q v terminal else pure ()
  exact (visit_tested _ _ _).symm

end Navigator

/-! ### Whole paths -/

namespace Path

/-- What the navigators `q` answered, call by call, in a transform along `p` and then `q`. -/
def stageAnswers (p q : List Navigator) (s : Focus) (update : Focus → Action σ Focus) (st : σ) :
    List Focus :=
  ((Navigator.transformAlong p s
    (Action.recorded fun f => Navigator.transformAlong q f update)).exec (st, [])).2.2

/-- What is answered to the matching elements is what the record of the rest of the path holds. -/
theorem stageAnswers_filterer_all {path : List Navigator} {vs : List Value}
    (h : Navigator.Decides path vs) {q : List Navigator} {update : Focus → Action σ Focus}
    {st st' : σ} {rs : List Focus}
    (hrun : ((vs.filter (Navigator.finds path)).mapM fun v =>
      Navigator.transformAlong q (.value v) update).exec st = (.ok rs, st')) :
    stageAnswers [.filterer path, .all] q (.value (.sequence vs)) update st = rs := by
  rw [stageAnswers, Navigator.transformAlong_filterer_all h]
  have hall := (Action.exec_bind_eq_ok _ (fun rs => pure (Focus.value (.sequence
    (Navigator.realign (Navigator.marks (Navigator.finds path) vs) (rs.filterMap Focus.value?)))))
    _ _ _).2 ⟨rs, _, Action.exec_mapM_recorded hrun [], rfl⟩
  exact congrArg (fun x => x.2.2) hall

/-- **A filter and then all elements is all elements and then a test.** On a sequence of which the
nested path fails on no element, and on a leaf, both paths select the same, or fail alike. Transforms
along them call their update with the same focuses in the same order. If what the rest of the path
answers to the matching elements is always a defined value, then they also end alike, in the same state
and with the same result or the same error. -/
theorem filter_then_all (path q : List Navigator) (config : Config) (s : Value)
    (hs : s.isMapping = false) (hp : Navigator.Decides path (Navigator.elements s)) :
    let filtered : Path := ⟨.filterer path :: .all :: q, config⟩
    let tested : Path := ⟨.all :: .pred (Navigator.finds path) :: q, config⟩
    filtered.select s = tested.select s ∧
    (∀ (σ : Type) (terminal : Value → Action σ Unit),
      filtered.selectWith s terminal = tested.selectWith s terminal) ∧
    ∀ (σ : Type) (update : Focus → Action σ Focus) (st : σ),
      filtered.visited (.value s) update st = tested.visited (.value s) update st ∧
      ((∀ r ∈ stageAnswers [.filterer path, .all] q (.value s) update st,
          ∃ w, r = .value w ∧ w.isDefined = true) →
        (filtered.transformWith (.value s) update).exec st =
          (tested.transformWith (.value s) update).exec st) := by
  intro filtered tested
  have hselect (σ : Type) (terminal : Value → Action σ Unit) :
      filtered.selectWith s terminal = tested.selectWith s terminal := by
    cases s with
    | sequence vs => exact Navigator.selectAlong_filterer_all hp q terminal
    | mapping m => exact absurd (show true = false from hs) (by decide)
    | _ => rfl
  have hcases : (∃ vs, s = .sequence vs) ∨ ∀ (σ : Type) (update : Focus → Action σ Focus),
      filtered.transformWith (.value s) update = tested.transformWith (.value s) update := by
    cases s with
    | sequence vs => exact .inl ⟨vs, rfl⟩
    | mapping m => exact absurd (show true = false from hs) (by decide)
    | _ => exact .inr fun _ _ => rfl
  refine ⟨by rw [select, select, hselect], hselect, fun σ update st => ?_⟩
  rcases hcases with ⟨vs, rfl⟩ | hleaf
  · have hp : Navigator.Decides path vs := hp
    rw [visited, visited]
    simp only [transformWith, filtered, tested, Navigator.transformAlong_filterer_all hp,
      Navigator.transformAlong_all_pred, Action.exec_bind]
    constructor
    · -- the log is that of the calls on the matching elements, whatever is made of the answers
      split <;> rfl
    · intro hdefined
      split
      · rename_i rs st' hrun
        rw [stageAnswers_filterer_all hp hrun] at hdefined
        rw [Navigator.filterMap_weave _ hdefined]
      · rfl
  · rw [visited, visited, hleaf, hleaf]
    exact ⟨rfl, fun _ => rfl⟩

/-- A run that numbers the values under a key, past a number and a missing element. -/
theorem filter_then_all_numbering :
    let path : List Navigator := [.key "a"]
    let s : Value := .sequence
      [.mapping [("a", .integer 7)], .integer 5, .mapping [("a", .null)], .undefined]
    let update : Focus → Action Nat Focus := fun _ => do
      let calls ← get
      set (calls + 1)
      pure (.value (.integer (Int64.ofNat calls)))
    let filtered : Path := ⟨[.filterer path, .all, .key "a"], {}⟩
    let tested : Path := ⟨[.all, .pred (Navigator.finds path), .key "a"], {}⟩
    filtered.select s = tested.select s ∧ tested.select s = .ok [.integer 7, .null] ∧
      filtered.visited (.value s) update 0 = tested.visited (.value s) update 0 ∧
      (filtered.transformWith (.value s) update).exec 0 =
        (tested.transformWith (.value s) update).exec 0 ∧
      (tested.transformWith (.value s) update).exec 0 =
        (.ok (.value (.sequence [.mapping [("a", .integer 0)], .integer 5,
          .mapping [("a", .integer 1)], .undefined])), 2) := by
  intro path s update filtered tested
  have hp : Navigator.Decides path (Navigator.elements s) := by
    intro v hv
    simp only [s, Navigator.elements, List.mem_cons, List.not_mem_nil, or_false] at hv
    rcases hv with rfl | rfl | rfl | rfl <;> exact ⟨_, rfl⟩
  have hanswers : stageAnswers [.filterer path, .all] [.key "a"] (.value s) update 0 =
      [.value (.mapping [("a", .integer 0)]), .value (.mapping [("a", .integer 1)])] := by rfl
  obtain ⟨hselect, -, hruns⟩ := filter_then_all path [.key "a"] {} s rfl hp
  obtain ⟨hvisited, hrun⟩ := hruns Nat update 0
  refine ⟨hselect, by rfl, hvisited, hrun ?_, by rfl⟩
  rw [hanswers]
  exact List.forall_mem_cons.2 ⟨⟨_, rfl, rfl⟩, List.forall_mem_singleton.2 ⟨_, rfl, rfl⟩⟩

end Path

end DocPath
