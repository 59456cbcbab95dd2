import DocPath.Proofs.Realignment

/-!
# One focus of many

Whether a path matches, and which focus it chooses, is found out by a traversal that keeps a flag or a choice
and a count instead of a list. A traversal does not depend on what is kept as long as every call of its terminal
succeeds. So both answers can be read off the list that selecting gives, and both fail exactly where it fails:
no mode ends the traversal at its first match.

* `Action.simulates_run` — a talk of the user's that hears the same answers takes the same course;
* `Navigator.simulates_selectAlong` — **what simulates the calls of a terminal simulates the traversal**, with
  navigators of the user on the path too;
* `Path.exec_fold` — a terminal that takes one focus after another into account takes the selected ones;
* `SelectOneMode.choose` — the choice among defined focuses, in each mode;
* `Path.isMatch_eq`, `Path.selectOne_eq` — both answers from the selected focuses;
* `Path.choice_from_selection` — the law, for filters too.
-/

namespace DocPath

variable {σ τ α β : Type}

/-! ### Runs that differ in what they keep -/

namespace Action

variable {R : σ → τ → Prop}

theorem exec_run_ask {Q A : Type} (next : Q → Action σ A) (q : Q)
    (reply : Except NavError A → Dialogue Q A α) (s : σ) :
    ((Dialogue.ask q reply).run next).exec s =
      ((reply ((next q).exec s).1).run next).exec ((next q).exec s).2 := rfl

/-- A talk that hears the same answers takes the same course. It goes on after a failed one too. -/
theorem simulates_run {Q A : Type} {next : Q → Action σ A} {next' : Q → Action τ A}
    (h : ∀ q, Simulates R (next q) (next' q)) (d : Dialogue Q A α) :
    Simulates R (d.run next) (d.run next') := by
  induction d with
  | done r => exact simulates_ofExcept (.ok r)
  | fail e => exact simulates_ofExcept (.error e)
  | ask q reply ih =>
    intro s t hst
    obtain ⟨hr, hst'⟩ := h q s t hst
    rw [exec_run_ask, exec_run_ask, ← hr]
    exact ih _ _ _ hst'

end Action

namespace Navigator

variable {R : σ → τ → Prop}

theorem simulates_visitReached {next : Value → Action σ Unit} {next' : Value → Action τ Unit}
    (h : ∀ v, Action.Simulates R (next v) (next' v)) (reached : Except NavError (List Value)) :
    Action.Simulates R (visitReached reached next) (visitReached reached next') := by
  cases reached with
  | error e => exact Action.simulates_ofExcept (.error e)
  | ok vs =>
    induction vs with
    | nil => exact Action.simulates_ofExcept (.ok ())
    | cons v vs ih => exact (h v).bind fun _ => ih

theorem simulates_select {next : Value → Action σ Unit} {next' : Value → Action τ Unit}
    (h : ∀ v, Action.Simulates R (next v) (next' v)) (n : Navigator) (v : Value) :
    Action.Simulates R (n.select v next) (n.select v next') := by
  cases hn : n.isCustom with
  | false =>
    rw [select_eq_reach n hn, select_eq_reach n hn]
    exact simulates_visitReached h _
  | true =>
    cases n with
    | custom user => exact Action.simulates_run h (user.select v)
    | _ => exact absurd hn Bool.false_ne_true

/-- **What simulates the calls of a terminal simulates the traversal.** -/
theorem simulates_selectAlong {terminal : Value → Action σ Unit} {terminal' : Value → Action τ Unit}
    (h : ∀ v, Action.Simulates R (terminal v) (terminal' v)) (path : List Navigator) (v : Value) :
    Action.Simulates R (selectAlong path v terminal) (selectAlong path v terminal') := by
  induction path generalizing v with
  | nil => exact h v
  | cons n path ih => exact simulates_select ih n v

end Navigator

/-! ### Taking one focus after another into account -/

/-- **A terminal that takes one focus after another into account takes the selected ones**, and the traversal
fails as selecting does. -/
theorem Path.exec_fold (p : Path) (v : Value) (step : β → Value → β) (b : β) :
    ∃ c, (p.selectWith v fun w => modify (step · w)).exec b = ((p.select v).map fun _ => (), c) ∧
      ∀ ws, p.select v = .ok ws → c = ws.foldl step b := by
  -- selecting keeps the focuses with the last one first
  have hcall (w : Value) : Action.Simulates (fun (ws : List Value) c => c = ws.reverse.foldl step b)
      (modify (w :: ·)) (modify (step · w)) := by
    rintro ws c rfl
    refine ⟨rfl, ?_⟩
    show step (ws.reverse.foldl step b) w = (w :: ws).reverse.foldl step b
    rw [List.reverse_cons, List.foldl_append, List.foldl_cons, List.foldl_nil]
  obtain ⟨hr, hc⟩ := Navigator.simulates_selectAlong hcall p.navigators v [] b rfl
  refine ⟨((p.selectWith v fun w => modify (step · w)).exec b).2, Prod.ext ?_ rfl, fun ws hws => ?_⟩
  · rw [Path.selectWith, ← hr, Path.select, Path.selectWith]
    rcases (Navigator.selectAlong p.navigators v fun w => modify (w :: ·)).exec [] with ⟨_ | _, _⟩ <;> rfl
  · rw [Path.select, Path.selectWith] at hws
    rw [Path.selectWith, hc]
    rcases hlist : (Navigator.selectAlong p.navigators v fun w => modify (w :: ·)).exec [] with ⟨_ | _, found⟩
    · rw [hlist] at hws
      exact absurd hws (by simp)
    · rw [hlist] at hws
      cases hws
      rfl

theorem foldl_isDefined (found : Bool) (ws : List Value) :
    ws.foldl (fun b w => b || w.isDefined) found =
      (found || !(ws.filter Value.isDefined).isEmpty) := by
  induction ws generalizing found with
  | nil => exact (Bool.or_false found).symm
  | cons w ws ih =>
    rw [List.foldl_cons, ih]
    cases hw : w.isDefined with
    | false => rw [List.filter_cons_of_neg (by simp [hw]), Bool.or_false]
    | true => rw [List.filter_cons_of_pos hw, Bool.or_true, Bool.true_or]; exact (Bool.or_true found).symm

/-- What is chosen among several focuses: the first or the last defined one, and all of them are counted. -/
theorem Path.foldl_add (mode : SelectOneMode) (ws : List Value) (c : Choice) :
    ws.foldl (·.add mode) c =
      let defined := ws.filter Value.isDefined
      { chosen := if mode = .first then c.chosen.or defined.head? else defined.getLast?.or c.chosen
        count := c.count + defined.length } := by
  induction ws generalizing c with
  | nil => simp
  | cons w ws ih =>
    rw [List.foldl_cons, ih, Choice.add]
    cases hw : w.isDefined with
    | false => rw [List.filter_cons_of_neg (by simp [hw])]; rfl
    | true =>
      rw [List.filter_cons_of_pos hw]
      by_cases hmode : mode = .first
      · simp [hmode, Nat.add_assoc, Nat.add_comm 1]
      · simp [hmode, List.getLast?_cons, Nat.add_assoc, Nat.add_comm 1]

/-- The choice that a mode makes among defined focuses. Of several ones the strict mode wants none. -/
def SelectOneMode.choose : SelectOneMode → List Value → Except NavError (Option Value)
  | .strict, v :: w :: vs => .error (.multipleFocuses (v :: w :: vs).length)
  | .last, vs => .ok vs.getLast?
  | _, vs => .ok vs.head?

theorem SelectOneMode.choose_eq (mode : SelectOneMode) (defined : List Value) :
    mode.choose defined =
      if mode = .strict ∧ defined.length > 1 then .error (.multipleFocuses defined.length)
      else .ok (if mode = .first then defined.head? else defined.getLast?) := by
  match mode, defined with
  | .strict, [] => rfl
  | .strict, [v] => rfl
  | .strict, v :: w :: vs => rfl
  | .first, vs => rfl
  | .last, vs => rfl

/-- **A path matches where it selects something defined**, and fails where selecting fails. -/
theorem Path.isMatch_eq (p : Path) (v : Value) :
    p.isMatch v = (p.select v).map fun ws => !(ws.filter Value.isDefined).isEmpty := by
  obtain ⟨found, hrun, hfound⟩ := p.exec_fold v (fun found w => found || w.isDefined) false
  rw [Path.selectWith] at hrun
  rw [Path.isMatch, Navigator.matchesAlong, Navigator.findsDefined, hrun]
  cases hselect : p.select v with
  | error e => rfl
  | ok ws =>
    rw [hfound ws hselect, foldl_isDefined, Bool.false_or]
    rfl

/-- **A path chooses among the defined focuses that it selects**, and fails where selecting fails. -/
theorem Path.selectOne_eq (p : Path) (v : Value) :
    p.selectOne v =
      p.select v >>= fun ws => p.config.selectOne.choose (ws.filter Value.isDefined) := by
  obtain ⟨c, hrun, hc⟩ := p.exec_fold v (Choice.add p.config.selectOne · ·) {}
  rw [Path.selectOne, hrun]
  cases hselect : p.select v with
  | error e => rfl
  | ok ws =>
    rw [hc ws hselect, Path.foldl_add]
    simp only [Nat.zero_add, Option.none_or, Option.or_none]
    exact (SelectOneMode.choose_eq p.config.selectOne (ws.filter Value.isDefined)).symm

/-! ### Filters -/

theorem Path.decides_of_select {p : Path} {vs : List Value} (h : ∀ u ∈ vs, ∃ ws, p.select u = .ok ws) :
    Navigator.Decides p.navigators vs := by
  intro u hu
  obtain ⟨ws, hws⟩ := h u hu
  have hmatch := p.isMatch_eq u
  rw [hws] at hmatch
  exact ⟨_, hmatch⟩

theorem Path.finds_of_select {p : Path} {u : Value} {ws : List Value} (h : p.select u = .ok ws) :
    Navigator.finds p.navigators u = !(ws.filter Value.isDefined).isEmpty := by
  have hmatch : Navigator.matchesAlong p.navigators u = _ := p.isMatch_eq u
  rw [Navigator.finds, hmatch, h]
  rfl

/-- **What matches and what is chosen is settled by what is selected.** Where selecting fails, matching and
choosing fail with the same error, in every mode and wherever on the way this happens. Otherwise the path
matches if it selects anything defined, and chooses among the defined focuses as its mode says. A filter keeps
the elements in which its nested path selects anything defined, whether they are read or updated, and fails at
the first element in which selecting fails. -/
theorem Path.choice_from_selection (p : Path) (v : Value) :
    (∀ e, p.select v = .error e → p.isMatch v = .error e ∧ p.selectOne v = .error e) ∧
    (∀ ws, p.select v = .ok ws →
      let defined := ws.filter Value.isDefined
      p.isMatch v = .ok !defined.isEmpty ∧ p.selectOne v = p.config.selectOne.choose defined) ∧
    ∀ (config : Config) (vs : List Value),
      let filter : Path := ⟨[.filterer p.navigators], config⟩
      (∀ found : Value → List Value, (∀ u ∈ vs, p.select u = .ok (found u)) →
        let kept : Value := .sequence (vs.filter fun u => !((found u).filter Value.isDefined).isEmpty)
        filter.select (.sequence vs) = .ok [kept] ∧
          ∀ (σ : Type) (update : Focus → Action σ Focus) (st : σ),
            filter.visited (.value (.sequence vs)) update st = [.value kept]) ∧
      (∀ before u after e, vs = before ++ u :: after → (∀ w ∈ before, ∃ ws, p.select w = .ok ws) →
        p.select u = .error e →
          filter.select (.sequence vs) = .error e ∧
            ∀ (σ : Type) (update : Focus → Action σ Focus) (st : σ),
              (filter.transformWith (.value (.sequence vs)) update).exec st = (.error e, st)) := by
  refine ⟨fun e he => ?_, fun ws hws => ?_, fun config vs => ⟨fun found hfound => ?_, ?_⟩⟩
  · rw [p.isMatch_eq, p.selectOne_eq, he]
    exact ⟨rfl, rfl⟩
  · rw [p.isMatch_eq, p.selectOne_eq, hws]
    exact ⟨rfl, rfl⟩
  · have hdecides := Path.decides_of_select fun u hu => ⟨_, hfound u hu⟩
    have hkept : vs.filter (Navigator.finds p.navigators) =
        vs.filter fun u => !((found u).filter Value.isDefined).isEmpty :=
      List.filter_congr fun u hu => Path.finds_of_select (hfound u hu)
    rw [← hkept, Path.select_singleton rfl]
    exact ⟨Navigator.reach_filterer hdecides,
      fun σ update st => Navigator.calls_filterer hdecides update st⟩
  · intro before u after e hvs hbefore hu
    have hfails : Navigator.matchesAlong p.navigators u = .error e :=
      (p.isMatch_eq u).trans (by rw [hu]; rfl)
    have hdecides := Path.decides_of_select hbefore
    subst hvs
    refine ⟨?_, fun σ update st => ?_⟩
    · rw [Path.select_singleton rfl]
      show Navigator.matchingIn (Navigator.matchesAlong p.navigators) (.sequence (before ++ u :: after)) = _
      rw [Navigator.matchingIn, Navigator.markMatching_error hdecides hfails]
      rfl
    · show ((Navigator.filterer p.navigators).transform (.value (.sequence (before ++ u :: after)))
        update).exec st = _
      rw [Navigator.transform_filterer_of_error hdecides hfails]
      rfl

/-- The first focus is found before the failure, and all the same nothing is chosen; two of three focuses are
defined, and the strict mode counts these. -/
theorem Path.choice_from_selection_late_failure :
    let p : Path := ⟨[.all, .first], { selectOne := .first }⟩
    let v : Value := .sequence [.sequence [.integer 1], .mapping []]
    let e : NavError := .shapeMismatch "FIRST" "a sequence" "mapping"
    let q : Path := ⟨[.all, .key "a"], {}⟩
    let w : Value :=
      .sequence [.mapping [("a", .integer 1)], .null, .mapping [("a", .integer 2)]]
    p.select v = .error e ∧ p.isMatch v = .error e ∧ p.selectOne v = .error e ∧
      q.select w = .ok [.integer 1, .undefined, .integer 2] ∧ q.isMatch w = .ok true ∧
        q.selectOne w = .error (.multipleFocuses 2) := by
  intro p v e q w
  have hp : p.select v = .error e := by rfl
  have hq : q.select w = .ok [.integer 1, .undefined, .integer 2] := by rfl
  obtain ⟨hfails, -, -⟩ := p.choice_from_selection v
  obtain ⟨-, hchooses, -⟩ := q.choice_from_selection w
  obtain ⟨hmatch, hone⟩ := hfails e hp
  obtain ⟨hmatch', hone'⟩ := hchooses _ hq
  exact ⟨hp, hmatch, hone, hq, hmatch', hone'⟩

end DocPath
