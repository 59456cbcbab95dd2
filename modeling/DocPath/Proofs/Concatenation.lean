import DocPath.Proofs.Reached

/-!
# One path after another

Following one path and then another is following the path that is made of both. What the whole path
selects is therefore what the second path selects at each focus of the first, one after the other up
to the first error; an error of the first path comes last, after all that was found before it.

* `Reached.bind` — goes on from every focus of a traversal;
* `Navigator.reachedAlong_append` — **the traversal of a concatenation goes on from the focuses of its
  first part**;
* `Reached.bind_of_forall₂`, `Reached.bind_of_error` — what it finds, and which error it meets first;
* `Reached.exec_visit_error` — how far a terminal gets that may fail itself;
* `Path.select_concatenation` — the law for written paths.
-/

namespace DocPath

variable {σ : Type}

namespace Reached

/-! ### Going on from the focuses of a traversal -/

/-- The traversals that start at each focus of `r`, and then the error of `r`, if it has one. -/
def bind (r : Reached) (g : Value → Reached) : Reached := join g r.focuses ++ ⟨[], r.error⟩

theorem append_assoc (a b c : Reached) : a ++ b ++ c = a ++ (b ++ c) := by
  cases ha : a.error with
  | some e => rw [append_of_error_some ha, append_of_error_some ha, append_of_error_some ha]
  | none =>
    rw [append_of_error_none ha, append_of_error_none ha]
    cases hb : b.error with
    | some e => rw [append_of_error_some hb, append_of_error_some (e := e) rfl, hb]
    | none =>
      rw [append_of_error_none hb, append_of_error_none rfl, List.append_assoc]

theorem nothing_append (a : Reached) : nothing ++ a = a := by
  rw [append_of_error_none rfl]
  rfl

theorem join_append (g : Value → Reached) (vs ws : List Value) :
    join g (vs ++ ws) = join g vs ++ join g ws := by
  induction vs with
  | nil => exact (nothing_append _).symm
  | cons v vs ih => rw [List.cons_append, join, join, ih, append_assoc]

theorem append_bind (a b : Reached) (g : Value → Reached) :
    (a ++ b).bind g = a.bind g ++ b.bind g := by
  cases ha : a.error with
  | some e =>
    have hlast : (join g a.focuses ++ ⟨[], some e⟩).error ≠ none := by
      rw [Ne, error_append_eq_none]
      exact fun h => absurd h.2 (by simp)
    obtain ⟨e', he'⟩ := Option.ne_none_iff_exists'.1 hlast
    rw [append_of_error_some ha, bind, ha, append_of_error_some he']
  | none =>
    rw [append_of_error_none ha, bind, bind, bind, ha, join_append, append_assoc]
    exact congrArg (· ++ _) (append_nothing _).symm

theorem join_bind (h g : Value → Reached) (vs : List Value) :
    (join h vs).bind g = join (fun v => (h v).bind g) vs := by
  induction vs with
  | nil => rfl
  | cons v vs ih => rw [join, append_bind, ih, join]

/-! ### What is found, and the first error -/

theorem join_of_forall₂ {g : Value → Reached} {vs : List Value} {wss : List (List Value)}
    (h : List.Forall₂ (fun v ws => (g v).toExcept = .ok ws) vs wss) :
    join g vs = ⟨wss.flatten, none⟩ := by
  induction h with
  | nil => rfl
  | cons hv _ ih =>
    rw [join, toExcept_eq_ok_iff.1 hv, ih, append_of_error_none rfl]
    rfl

/-- Where every traversal that goes on succeeds, all of their focuses are found. -/
theorem bind_of_forall₂ {r : Reached} {g : Value → Reached} {wss : List (List Value)}
    (h : List.Forall₂ (fun v ws => (g v).toExcept = .ok ws) r.focuses wss) :
    r.bind g = ⟨wss.flatten, r.error⟩ := by
  rw [bind, join_of_forall₂ h, append_of_error_none rfl, List.append_nil]

/-- The first traversal that fails ends the whole. -/
theorem bind_of_error {r : Reached} {g : Value → Reached} {before after : List Value} {v : Value}
    (hr : r.focuses = before ++ v :: after) {wss : List (List Value)}
    (h : List.Forall₂ (fun v ws => (g v).toExcept = .ok ws) before wss) {e : NavError}
    (hv : (g v).error = some e) :
    r.bind g = ⟨wss.flatten ++ (g v).focuses, some e⟩ := by
  have hrest : g v ++ join g after ++ ⟨[], r.error⟩ = g v := by
    rw [append_of_error_some hv, append_of_error_some hv]
  rw [bind, hr, join_append, join_of_forall₂ h, join, append_assoc, hrest,
    append_of_error_none rfl, hv]

/-! ### Terminals that may fail -/

/-- One more focus to visit: the rest is visited if the terminal takes it, from the state it leaves. -/
theorem exec_visit_cons (terminal : Value → Action σ Unit) (v : Value) (vs : List Value) (st : σ) :
    (Navigator.visit (v :: vs) terminal).exec st =
      match (terminal v).exec st with
      | (.ok _, st') => (Navigator.visit vs terminal).exec st'
      | (.error e, st') => (.error e, st') := by
  show (terminal v >>= fun _ => Navigator.visit vs terminal).exec st = _
  rw [Action.exec_bind]
  rcases (terminal v).exec st with ⟨_ | _, st'⟩ <;> rfl

/-- A terminal either takes all of the values or fails at one of them, after the values before it. -/
theorem exec_visit_logged_cases (terminal : Value → Action σ Unit) (vs : List Value) (st : σ)
    (log : List Value) :
    (∃ st', (Navigator.visit vs terminal).exec st = (.ok (), st') ∧
      (Navigator.visit vs (Action.logged terminal)).exec (st, log) =
        (.ok (), (st', log ++ vs))) ∨
    ∃ before w after st₁ st₂ e, vs = before ++ w :: after ∧
      (Navigator.visit before terminal).exec st = (.ok (), st₁) ∧
      (terminal w).exec st₁ = (.error e, st₂) ∧
      (Navigator.visit vs terminal).exec st = (.error e, st₂) ∧
      (Navigator.visit vs (Action.logged terminal)).exec (st, log) =
        (.error e, (st₂, log ++ (before ++ [w]))) := by
  induction vs generalizing st log with
  | nil => exact .inl ⟨st, rfl, by rw [List.append_nil]; rfl⟩
  | cons v vs ih =>
    have hlogged : (Action.logged terminal v).exec (st, log) =
        (((terminal v).exec st).1, (((terminal v).exec st).2, log ++ [v])) :=
      Action.exec_logged terminal v st log
    rcases hv : (terminal v).exec st with ⟨e | _, st₁⟩
    · -- the first value is the one that fails
      rw [hv] at hlogged
      refine .inr ⟨[], v, vs, st, st₁, e, rfl, rfl, hv, ?_, ?_⟩
      · rw [exec_visit_cons, hv]
      · rw [exec_visit_cons, hlogged]
        rfl
    · rw [hv] at hlogged
      rcases ih st₁ (log ++ [v]) with
        ⟨st', hrun, hlog⟩ | ⟨before, w, after, st₂, st₃, e, rfl, hbefore, hw, hrun, hlog⟩
      · refine .inl ⟨st', ?_, ?_⟩
        · rw [exec_visit_cons, hv]
          exact hrun
        · rw [exec_visit_cons, hlogged]
          simpa using hlog
      · refine .inr ⟨v :: before, w, after, st₂, st₃, e, rfl, ?_, hw, ?_, ?_⟩
        · rw [exec_visit_cons, hv]
          exact hbefore
        · rw [exec_visit_cons, hv]
          exact hrun
        · rw [exec_visit_cons, hlogged]
          simpa using hlog

/-- A visit that fails does so by the error of the traversal, after its last focus, or by an error of
the terminal, at the focus that the terminal was called with last. -/
theorem exec_visit_error {r : Reached} {terminal : Value → Action σ Unit} {st st' : σ}
    {e : NavError} (h : (r.visit terminal).exec st = (.error e, st')) (log : List Value) :
    (r.error = some e ∧
      ((r.visit (Action.logged terminal)).exec (st, log)).2.2 = log ++ r.focuses) ∨
    ∃ before w after st₁, r.focuses = before ++ w :: after ∧
      (Navigator.visit before terminal).exec st = (.ok (), st₁) ∧
      (terminal w).exec st₁ = (.error e, st') ∧
      ((r.visit (Action.logged terminal)).exec (st, log)).2.2 = log ++ (before ++ [w]) := by
  rw [visit, Action.exec_bind] at h
  rw [visit, Action.exec_bind]
  rcases exec_visit_logged_cases terminal r.focuses st log with
    ⟨st₁, hrun, hlog⟩ | ⟨before, w, after, st₁, st₂, e', hr, hbefore, hw, hrun, hlog⟩
  · rw [hrun] at h
    rw [hlog]
    cases hr : r.error with
    | none =>
      rw [hr] at h
      have h : Except.ok () = Except.error e := congrArg Prod.fst h
      exact absurd h (by simp)
    | some e' =>
      rw [hr] at h
      obtain rfl : e' = e := Except.error.inj (congrArg Prod.fst h)
      exact .inl ⟨rfl, rfl⟩
  · rw [hrun] at h
    rw [hlog]
    cases h
    exact .inr ⟨before, w, after, st₁, hr, hbefore, hw, rfl⟩

end Reached

namespace Navigator

/-- **The traversal of a concatenation goes on from the focuses of its first part.** -/
theorem reachedAlong_append (p q : List Navigator) (v : Value) :
    reachedAlong (p ++ q) v = (reachedAlong p v).bind (reachedAlong q) := by
  induction p generalizing v with
  | nil =>
    show reachedAlong q v = reachedAlong q v ++ .nothing ++ .nothing
    rw [Reached.append_nothing, Reached.append_nothing]
  | cons n p ih =>
    rw [List.cons_append, reachedAlong, reachedAlong, funext ih]
    cases n.reach v with
    | error e => rfl
    | ok vs => exact (Reached.join_bind (reachedAlong p) (reachedAlong q) vs).symm

/-- Where a whole path is followed without an error, so is every beginning of it. -/
theorem error_reachedAlong_append {p q : List Navigator} {v : Value}
    (h : (reachedAlong (p ++ q) v).error = none) : (reachedAlong p v).error = none := by
  rw [reachedAlong_append, Reached.bind, Reached.error_append_eq_none] at h
  exact h.2

end Navigator

namespace Path

/-- The focuses that selecting comes to, in order, up to its end or its failure. -/
def focuses (p : Path) (v : Value) : List Value :=
  ((p.selectWith v fun w => modify (w :: ·)).exec []).2.reverse

/-- The focuses that a terminal is called with, in order, up to the end or the failure of the run. -/
def shown (p : Path) (v : Value) (terminal : Value → Action σ Unit) (st : σ) : List Value :=
  ((p.selectWith v (Action.logged terminal)).exec (st, [])).2.2

theorem focuses_eq (p : Path) (hp : Navigator.BuiltIn p.navigators) (v : Value) :
    p.focuses v = (Navigator.reachedAlong p.navigators v).focuses := by
  rw [focuses, selectWith, Navigator.selectAlong_eq_visit p.navigators hp,
    Reached.exec_visit_collect, List.append_nil, List.reverse_reverse]

theorem focuses_of_select (p : Path) (hp : Navigator.BuiltIn p.navigators) {v : Value}
    {ws : List Value} (h : p.select v = .ok ws) : p.focuses v = ws := by
  rw [p.select_eq_toExcept hp, Reached.toExcept_eq_ok_iff] at h
  rw [p.focuses_eq hp, h]

/-- Where a failing run ends: at the error of selecting, when the terminal has been called with every
focus, or at a focus at which the terminal fails. -/
theorem shown_of_error (p : Path) (hp : Navigator.BuiltIn p.navigators) {v : Value}
    {terminal : Value → Action σ Unit} {st st' : σ} {e : NavError}
    (h : (p.selectWith v terminal).exec st = (.error e, st')) :
    (p.select v = .error e ∧ p.shown v terminal st = p.focuses v) ∨
      ∃ before w after st₁, p.focuses v = before ++ w :: after ∧
        (Navigator.visit before terminal).exec st = (.ok (), st₁) ∧
        (terminal w).exec st₁ = (.error e, st') ∧ p.shown v terminal st = before ++ [w] := by
  rw [selectWith, Navigator.selectAlong_eq_visit p.navigators hp] at h
  rw [p.select_eq_toExcept hp, p.focuses_eq hp, shown, selectWith,
    Navigator.selectAlong_eq_visit p.navigators hp, Reached.toExcept_eq_error_iff]
  simpa only [List.nil_append] using Reached.exec_visit_error h []

theorem builtIn_ofSteps {steps : List Step} (h : ∀ s ∈ steps, s.resolve.isCustom = false)
    (config : Config) : Navigator.BuiltIn (ofSteps steps config).navigators := by
  intro n hn
  obtain ⟨s, hs, rfl⟩ := List.mem_map.1 (show n ∈ steps.map Step.resolve from hn)
  exact h s hs

theorem navigators_ofSteps_append (p q : List Step) (config : Config) :
    (ofSteps (p ++ q) config).navigators =
      (ofSteps p config).navigators ++ (ofSteps q config).navigators := List.map_append

/-- **Concatenated paths.** Both traversals of a path written as `p` and then `q` are those of `p`
with the ones of `q` at each focus. Selecting along it therefore finds what `q` selects at the focuses
of `p`, in their order, unless something fails: then the first of these selections that fails gives
the error, and if none of them does then `p` gives it, after all its focuses. A run that fails has
called its terminal with every focus before the error, and with no other one. -/
theorem select_concatenation (p q : List Step) (hp : ∀ s ∈ p, s.resolve.isCustom = false)
    (hq : ∀ s ∈ q, s.resolve.isCustom = false) (config : Config) (v : Value) :
    let first := ofSteps p config
    let second := ofSteps q config
    let both := ofSteps (p ++ q) config
    (∀ (σ : Type) (terminal : Value → Action σ Unit),
      both.selectWith v terminal = first.selectWith v fun w => second.selectWith w terminal) ∧
    (∀ (σ : Type) (s : Focus) (update : Focus → Action σ Focus),
      both.transformWith s update =
        first.transformWith s fun f => second.transformWith f update) ∧
    (∀ fs, first.select v = .ok fs → first.focuses v = fs) ∧
    (∀ wss, List.Forall₂ (fun f ws => second.select f = .ok ws) (first.focuses v) wss →
      both.select v = (first.select v).map (fun _ => wss.flatten) ∧
        both.focuses v = wss.flatten) ∧
    (∀ before f after wss e, first.focuses v = before ++ f :: after →
      List.Forall₂ (fun f ws => second.select f = .ok ws) before wss → second.select f = .error e →
        both.select v = .error e ∧ both.focuses v = wss.flatten ++ second.focuses f) ∧
    (∀ (σ : Type) (terminal : Value → Action σ Unit) (st st' : σ) (e : NavError),
      (both.selectWith v terminal).exec st = (.error e, st') →
        (both.select v = .error e ∧ both.shown v terminal st = both.focuses v) ∨
        ∃ before w after st₁, both.focuses v = before ++ w :: after ∧
          (Navigator.visit before terminal).exec st = (.ok (), st₁) ∧
          (terminal w).exec st₁ = (.error e, st') ∧
          both.shown v terminal st = before ++ [w]) := by
  intro first second both
  have hfirst : Navigator.BuiltIn first.navigators := builtIn_ofSteps hp config
  have hsecond : Navigator.BuiltIn second.navigators := builtIn_ofSteps hq config
  have hboth : Navigator.BuiltIn both.navigators := by
    refine builtIn_ofSteps (fun s hs => ?_) config
    exact (List.mem_append.1 hs).elim (hp s) (hq s)
  have hnav : both.navigators = first.navigators ++ second.navigators :=
    navigators_ofSteps_append p q config
  -- what the whole path reaches
  have hreached : Navigator.reachedAlong both.navigators v =
      (Navigator.reachedAlong first.navigators v).bind
        (Navigator.reachedAlong second.navigators) := by
    rw [hnav, Navigator.reachedAlong_append]
  refine ⟨?_, ?_, fun fs => first.focuses_of_select hfirst, ?_, ?_, ?_⟩
  · intro σ terminal
    rw [selectWith, hnav, Navigator.selectAlong_append]
    rfl
  · intro σ s update
    rw [transformWith, hnav, Navigator.transformAlong_append]
    rfl
  · intro wss h
    simp only [second.select_eq_toExcept hsecond, first.focuses_eq hfirst] at h
    rw [both.select_eq_toExcept hboth, both.focuses_eq hboth, first.select_eq_toExcept hfirst,
      hreached, Reached.bind_of_forall₂ h]
    refine ⟨?_, rfl⟩
    rw [Reached.toExcept, Reached.toExcept]
    cases (Navigator.reachedAlong first.navigators v).error <;> rfl
  · intro before f after wss e hf h he
    simp only [second.select_eq_toExcept hsecond] at h
    rw [first.focuses_eq hfirst] at hf
    rw [second.select_eq_toExcept hsecond, Reached.toExcept_eq_error_iff] at he
    rw [both.select_eq_toExcept hboth, both.focuses_eq hboth, second.focuses_eq hsecond, hreached,
      Reached.bind_of_error hf h he]
    exact ⟨rfl, rfl⟩
  · intro σ terminal st st' e h
    exact both.shown_of_error hboth h

/-- A path that fails after two focuses, and a terminal that fails at the second of them before. -/
theorem select_concatenation_stopped :
    let p : List Step := [Navigator.all, Navigator.mapVals]
    let q : List Step := [Step.key "n"]
    let v : Value := .sequence
      [.mapping [("x", .mapping [("n", .integer 1)]), ("y", .null)], .sequence [], .mapping []]
    let terminal : Value → Action Nat Unit := fun w => do
      modify (· + 1)
      if w.isDefined then pure () else throw (.custom "missing")
    let both := ofSteps (p ++ q)
    (ofSteps p).focuses v = [.mapping [("n", .integer 1)], .null] ∧
      both.select v = .error (Navigator.mapVals.wantsMapping "sequence") ∧
      both.focuses v = [.integer 1, .undefined] ∧
      (both.selectWith v terminal).exec 0 = (.error (.custom "missing"), 2) ∧
      both.shown v terminal 0 = [.integer 1, .undefined] := by
  intro p q v terminal both
  have hfocuses : (ofSteps p).focuses v = [.mapping [("n", .integer 1)], .null] := by rfl
  have hrun : (both.selectWith v terminal).exec 0 = (.error (.custom "missing"), 2) := by rfl
  obtain ⟨-, -, -, hall, -, hstop⟩ := select_concatenation p q (by decide) (by decide) {} v
  have hsecond : List.Forall₂ (fun f ws => (ofSteps q).select f = .ok ws)
      ((ofSteps p).focuses v) [[.integer 1], [.undefined]] := by
    rw [hfocuses]
    exact .cons rfl (.cons rfl .nil)
  obtain ⟨hselect, hboth⟩ := hall _ hsecond
  refine ⟨hfocuses, hselect, hboth, hrun, ?_⟩
  rcases hstop Nat terminal 0 2 (.custom "missing") hrun with
    ⟨herror, -⟩ | ⟨before, w, after, st₁, hsplit, hbefore, hw, hshown⟩
  · rw [hselect] at herror
    exact absurd (Except.error.inj herror) (by decide)
  · -- of the two focuses only the second one makes the terminal fail
    rw [hshown]
    rw [hboth] at hsplit
    rcases before with _ | ⟨a, _ | ⟨b, rest⟩⟩
    · cases hsplit
      exact absurd (congrArg Prod.fst hw) (by rintro ⟨⟩)
    · cases hsplit
      rfl
    · obtain ⟨-, hsplit⟩ := List.cons.inj hsplit
      obtain ⟨-, hsplit⟩ := List.cons.inj hsplit
      exact absurd hsplit (by simp)

end Path

end DocPath
