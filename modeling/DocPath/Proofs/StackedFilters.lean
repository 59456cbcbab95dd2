import DocPath.Proofs.Realignment

/-!
# One filter after another

What follows two filters is called with the elements that match both of them, whichever filter comes first.
Its answer goes back in two steps: the second filter puts it among the elements that match the first one, and
the first filter puts these among all the others. An answer that has a defined element for each element that
matched both leaves no place empty on either level, and then the two steps come to the one that a single
filter for both would make.

* `Navigator.findsBoth`, `Navigator.selectAlong_filterers` — the elements that match both filters, and
  selecting through them;
* `Navigator.Fills` — an edited sequence that leaves no slot empty;
* `Navigator.realign_realign` — **putting back twice is putting back once**;
* `Navigator.getElem?_realign` — what stands where in a sequence of which all slots are filled;
* `Path.filters_stack` — the law for two filters with any path behind them.
-/

namespace DocPath

variable {σ : Type}

namespace Navigator

/-! ### Elements that match both -/

/-- Whether both paths reach something defined in the value, and none of them fails there. -/
def findsBoth (p q : List Navigator) (v : Value) : Bool := finds p v && finds q v

theorem findsBoth_comm (p q : List Navigator) : findsBoth p q = findsBoth q p := by
  funext v
  exact Bool.and_comm _ _

theorem findsBoth_self (p : List Navigator) : findsBoth p p = finds p := by
  funext v
  exact Bool.and_self _

theorem filter_findsBoth (p q : List Navigator) (vs : List Value) :
    (vs.filter (finds p)).filter (finds q) = vs.filter (findsBoth p q) := by
  rw [List.filter_filter, findsBoth_comm]
  rfl

/-- **Two filters hand on what matches both.** -/
theorem selectAlong_filterers {p q : List Navigator} {vs : List Value} (hp : Decides p vs)
    (hq : Decides q vs) (r : List Navigator) (terminal : Value → Action σ Unit) :
    selectAlong (.filterer p :: .filterer q :: r) (.sequence vs) terminal =
      selectAlong r (.sequence (vs.filter (findsBoth p q))) terminal := by
  rw [selectAlong_filterer hp, selectAlong_filterer (hq.filter (finds p)), filter_findsBoth]

/-! ### Slots that are all filled -/

/-- There is an edited element for every slot, and it is defined. -/
structure Fills (holds : Value → Bool) (vs edited : List Value) : Prop where
  enough : vs.countP holds ≤ edited.length
  defined : ∀ w ∈ edited.take (vs.countP holds), w.isDefined = true

section

variable {holds : Value → Bool} {v : Value} {vs edited : List Value}

/-- An element that does not match has no slot. -/
theorem Fills.of_cons_neg (h : Fills holds (v :: vs) edited) (hv : holds v = false) :
    Fills holds vs edited := by
  have hcount : (v :: vs).countP holds = vs.countP holds := List.countP_cons_of_neg (by simp [hv])
  exact ⟨hcount ▸ h.enough, hcount ▸ h.defined⟩

/-- The first edited element goes to the first element that matches. -/
theorem Fills.of_cons_pos (h : Fills holds (v :: vs) edited) (hv : holds v = true) :
    ∃ w rest, edited = w :: rest ∧ w.isDefined = true ∧ Fills holds vs rest := by
  have hcount : (v :: vs).countP holds = vs.countP holds + 1 := List.countP_cons_of_pos hv
  obtain ⟨henough, hdefined⟩ := h
  rw [hcount] at henough hdefined
  cases edited with
  | nil => exact absurd henough (Nat.not_succ_le_zero _)
  | cons w rest =>
    rw [List.take_succ_cons, List.forall_mem_cons] at hdefined
    exact ⟨w, rest, rfl, hdefined.1, Nat.le_of_succ_le_succ henough, hdefined.2⟩

/-- No element is lost and none is added. -/
theorem Fills.length_realign (h : Fills holds vs edited) :
    (realign (marks holds vs) edited).length = vs.length := by
  have hlength := Navigator.length_realign holds vs edited
  rw [List.countP_eq_length.2 h.defined, List.length_take, Nat.min_eq_left h.enough] at hlength
  exact Nat.add_right_cancel hlength

/-- **Where all slots are filled every position is kept**: a matching element gives way to the edited one in
its slot, and the others stay where they are. -/
theorem getElem?_realign (h : Fills holds vs edited) {i : Nat} {u : Value} (hi : vs[i]? = some u) :
    (realign (marks holds vs) edited)[i]? =
      if holds u then edited[slot holds vs i]? else some u := by
  induction vs generalizing edited i with
  | nil => exact absurd hi (by simp)
  | cons v vs ih =>
    rw [marks_cons]
    cases hv : holds v with
    | false =>
      have hrest := h.of_cons_neg hv
      cases i with
      | zero =>
        obtain rfl : v = u := Option.some.inj hi
        rw [hv]
        rfl
      | succ i =>
        rw [slot_cons_succ, hv]
        exact ih hrest hi
    | true =>
      obtain ⟨w, rest, rfl, hw, hrest⟩ := h.of_cons_pos hv
      rw [realign, if_pos hw]
      cases i with
      | zero =>
        obtain rfl : v = u := Option.some.inj hi
        rw [hv]
        rfl
      | succ i =>
        rw [slot_cons_succ, hv, if_pos rfl, List.getElem?_cons_succ, List.getElem?_cons_succ]
        exact ih hrest hi

/-- **Putting back twice is putting back once.** What fills the slots of the elements that match both goes
first among those that match `holds` and then, with them, among all elements. The elements in between must be
defined, else the second step drops them. -/
theorem realign_realign {also : Value → Bool} (hvs : ∀ v ∈ vs, v.isDefined = true)
    (h : Fills (fun v => holds v && also v) vs edited) :
    realign (marks holds vs) (realign (marks also (vs.filter holds)) edited) =
      realign (marks (fun v => holds v && also v) vs) edited := by
  induction vs generalizing edited with
  | nil => rfl
  | cons v vs ih =>
    obtain ⟨hv, hvs⟩ := List.forall_mem_cons.1 hvs
    rw [marks_cons, marks_cons]
    cases hholds : holds v with
    | false =>
      have hrest := h.of_cons_neg (show (holds v && also v) = false by rw [hholds]; rfl)
      rw [List.filter_cons_of_neg (by simp [hholds])]
      exact congrArg (v :: ·) (ih hvs hrest)
    | true =>
      rw [List.filter_cons_of_pos hholds, marks_cons]
      cases halso : also v with
      | false =>
        have hrest := h.of_cons_neg (show (holds v && also v) = false by rw [hholds, halso]; rfl)
        rw [realign, realign, if_pos hv]
        exact congrArg (v :: ·) (ih hvs hrest)
      | true =>
        obtain ⟨w, rest, rfl, hw, hrest⟩ :=
          h.of_cons_pos (show (holds v && also v) = true by rw [hholds, halso]; rfl)
        rw [realign, if_pos hw, realign, if_pos hw]
        show _ = if w.isDefined then _ else _
        rw [if_pos hw]
        exact congrArg (w :: ·) (ih hvs hrest)

end

/-! ### Transforming through both -/

/-- A filter whose continuation answers with a sequence. -/
theorem exec_filterer {path : List Navigator} {vs : List Value} (h : Decides path vs)
    {next : Continuation σ} {st st' : σ} {edited : List Value}
    (hnext : (next (.value (.sequence (vs.filter (finds path))))).exec st =
      (.ok (.value (.sequence edited)), st')) :
    ((filterer path).transform (.value (.sequence vs)) next).exec st =
      (.ok (.value (.sequence (realign (marks (finds path) vs) edited))), st') := by
  rw [transform_filterer h]
  exact (Action.exec_bind_eq_ok _ _ _ _ _).2 ⟨_, st', hnext, rfl⟩

/-- **Two filters put an answer back as one filter for both does.** -/
theorem exec_filterers {p q r : List Navigator} {vs edited : List Value} (hp : Decides p vs)
    (hq : Decides q vs) (hvs : ∀ v ∈ vs, v.isDefined = true)
    (hfills : Fills (findsBoth p q) vs edited) {update : Continuation σ} {st st' : σ}
    (hrest : (transformAlong r (.value (.sequence (vs.filter (findsBoth p q)))) update).exec st =
      (.ok (.value (.sequence edited)), st')) :
    (transformAlong (.filterer p :: .filterer q :: r) (.value (.sequence vs)) update).exec st =
      (.ok (.value (.sequence (realign (marks (findsBoth p q) vs) edited))), st') := by
  have hcalled : ((vs.filter (finds p)).filter (finds q)) = vs.filter (findsBoth p q) :=
    filter_findsBoth p q vs
  have htwice : realign (marks (finds p) vs) (realign (marks (finds q) (vs.filter (finds p))) edited) =
      realign (marks (findsBoth p q) vs) edited := realign_realign hvs hfills
  rw [← hcalled] at hrest
  rw [← htwice]
  simp only [transformAlong]
  exact exec_filterer hp (exec_filterer (hq.filter (finds p)) hrest)

end Navigator

/-! ### Whole paths -/

namespace Path

/-- **The order of two filters does not matter.** If neither nested path fails on an element of a sequence
then selecting through both filters, in whichever order, goes on with the elements that match both; and a
filter after itself changes nothing. In a transform the rest of the path is called with these elements too.
If it answers with a sequence that has a defined element for each of them then the result has these elements
in their places, in order, and all others are untouched, provided that none of them is undefined. -/
theorem filters_stack (p q r : List Navigator) (config : Config) (vs : List Value)
    (hp : Navigator.Decides p vs) (hq : Navigator.Decides q vs) :
    let s : Value := .sequence vs
    let through (filters : List Navigator) : Path := ⟨filters ++ r, config⟩
    let pq := through [.filterer p, .filterer q]
    let qp := through [.filterer q, .filterer p]
    let both := Navigator.findsBoth p q
    (pq.SelectsAs qp s ∧ pq.select s = qp.select s) ∧
    ((through [.filterer p, .filterer p]).SelectsAs (through [.filterer p]) s ∧
      (through [.filterer p, .filterer p]).select s = (through [.filterer p]).select s) ∧
    (s.UndefinedFree → ∀ (σ : Type) (update : Focus → Action σ Focus) (st st' : σ) (edited : List Value),
      (Navigator.transformAlong r (.value (.sequence (vs.filter both))) update).exec st =
        (.ok (.value (.sequence edited)), st') →
      vs.countP both ≤ edited.length → (∀ w ∈ edited.take (vs.countP both), w.isDefined = true) →
        ∃ result,
          (pq.transformWith (.value s) update).exec st = (.ok (.value (.sequence result)), st') ∧
          (qp.transformWith (.value s) update).exec st = (.ok (.value (.sequence result)), st') ∧
          result.length = vs.length ∧
          ∀ i v, vs[i]? = some v →
            result[i]? = if both v then edited[Navigator.slot both vs i]? else some v) := by
  intro s through pq qp both
  have hswap : pq.SelectsAs qp s := by
    intro ρ terminal
    show Navigator.selectAlong (.filterer p :: .filterer q :: r) s terminal =
      Navigator.selectAlong (.filterer q :: .filterer p :: r) s terminal
    rw [Navigator.selectAlong_filterers hp hq, Navigator.selectAlong_filterers hq hp,
      Navigator.findsBoth_comm]
  have htwice : (through [.filterer p, .filterer p]).SelectsAs (through [.filterer p]) s := by
    intro ρ terminal
    show Navigator.selectAlong (.filterer p :: .filterer p :: r) s terminal =
      Navigator.selectAlong (.filterer p :: r) s terminal
    rw [Navigator.selectAlong_filterers hp hp, Navigator.findsBoth_self, Navigator.selectAlong_filterer hp]
  refine ⟨⟨hswap, hswap.select_eq⟩, ⟨htwice, htwice.select_eq⟩, ?_⟩
  intro hfree σ update st st' edited hrest henough hedited
  have hvs : ∀ v ∈ vs, v.isDefined = true := fun v hv =>
    Value.isDefined_of_undefinedFree ((Value.allUndefinedFree_iff vs).1 hfree v hv)
  have hfills : Navigator.Fills both vs edited := ⟨henough, hedited⟩
  have hcomm : both = Navigator.findsBoth q p := Navigator.findsBoth_comm p q
  refine ⟨Navigator.realign (Navigator.marks both vs) edited, Navigator.exec_filterers hp hq hvs hfills hrest,
    ?_, hfills.length_realign, fun i v hi => Navigator.getElem?_realign hfills hi⟩
  rw [hcomm] at hfills hrest ⊢
  exact Navigator.exec_filterers hq hp hvs hfills hrest

/-- Two of five elements match both paths, and each of them gives way to its number. -/
theorem filters_stack_numbering :
    let ab : Value := .mapping [("a", .null), ("b", .null)]
    let vs : List Value := [ab, .mapping [("a", .null)], .mapping [("b", .null)], ab, .integer 5]
    let update : Focus → Action Nat Focus := fun _ => do
      let calls ← get
      set (calls + 1)
      pure (.value (.integer (Int64.ofNat calls)))
    let pq : Path := ⟨[.filterer [.key "a"], .filterer [.key "b"], .all], {}⟩
    let qp : Path := ⟨[.filterer [.key "b"], .filterer [.key "a"], .all], {}⟩
    pq.select (.sequence vs) = qp.select (.sequence vs) ∧ qp.select (.sequence vs) = .ok [ab, ab] ∧
      ∃ result,
        (pq.transformWith (.value (.sequence vs)) update).exec 0 = (.ok (.value (.sequence result)), 2) ∧
        (qp.transformWith (.value (.sequence vs)) update).exec 0 = (.ok (.value (.sequence result)), 2) ∧
        result.length = 5 ∧ result[2]? = some (.mapping [("b", .null)]) ∧
        result[3]? = some (.integer 1) := by
  intro ab vs update pq qp
  have hfree : (Value.sequence vs).UndefinedFree :=
    ⟨⟨trivial, trivial, trivial⟩, ⟨trivial, trivial⟩, ⟨trivial, trivial⟩, ⟨trivial, trivial, trivial⟩,
      trivial, trivial⟩
  obtain ⟨⟨-, hselect⟩, -, htransform⟩ := filters_stack [.key "a"] [.key "b"] [.all] {} vs
    (Navigator.decides_key "a" vs) (Navigator.decides_key "b" vs)
  obtain ⟨result, hpq, hqp, hlength, hplaces⟩ := htransform hfree Nat update 0 2
    [.integer 0, .integer 1] rfl (by decide) (by decide)
  refine ⟨hselect, by rfl, result, hpq, hqp, hlength, ?_, ?_⟩
  · exact hplaces 2 _ rfl
  · exact hplaces 3 _ rfl

/-- An answer with a hole tells the orders apart: what remains of it moves up among the elements that match
the first filter, and these are others in the other order. -/
example :
    let a : Value := .mapping [("a", .null)]
    let b : Value := .mapping [("b", .null)]
    let ab : Value := .mapping [("a", .null), ("b", .null)]
    let s : Value := .sequence [ab, a, b, ab]
    let holed : Focus := .value (.sequence [.undefined, .bool true])
    (⟨[.filterer [.key "a"], .filterer [.key "b"]], {}⟩ : Path).setValue holed s =
        .ok (.sequence [a, .bool true, b]) ∧
      (⟨[.filterer [.key "b"], .filterer [.key "a"]], {}⟩ : Path).setValue holed s =
        .ok (.sequence [b, a, .bool true]) :=
  ⟨by rfl, by rfl⟩

end Path

end DocPath
