import DocPath.Proofs.Exchange

/-!
# Exchanges call by call

An exchange asks about one focus after another. It succeeds where every call is answered and every answer
passes its test, if a value can be made of the answers. Otherwise it ends at the first call that fails or
is answered with something that does not pass, and nothing is asked after that.

* `Action.exec_mapM_logged`, `Action.exec_mapM_logged_of_error` — the log of a list of calls;
* `Exchange.exec_carryOut_eq_ok_iff`, `Exchange.exec_carryOut_eq_error_iff` — **when an exchange succeeds,
  and where it fails**;
* `Exchange.log_carryOut_of_ok`, `Exchange.log_carryOut_of_error` — the focuses that it asks about.
-/

namespace DocPath

variable {σ α β : Type}

/-! ### Logs -/

namespace Action

/-- The calls are written down, in order. -/
theorem exec_mapM_logged {f : α → Action σ β} {xs : List α} {s s' : σ} {ys : List β}
    (h : (xs.mapM f).exec s = (.ok ys, s')) (log : List α) :
    (xs.mapM (logged f)).exec (s, log) = (.ok ys, (s', log ++ xs)) := by
  induction xs generalizing s ys log with
  | nil =>
    cases h
    rw [List.append_nil]
    rfl
  | cons x xs ih =>
    obtain ⟨y, s₁, ys', hy, hys, rfl⟩ := (exec_mapM_cons_eq_ok_iff _ _ _ _ _ _).1 h
    refine (exec_mapM_cons_eq_ok_iff _ _ _ _ _ _).2 ⟨y, (s₁, log ++ [x]), ys', ?_, ?_, rfl⟩
    · rw [exec_logged, hy]
    · rw [ih hys, List.append_assoc, List.singleton_append]

/-- The calls up to the first one that fails are written down, that one included. -/
theorem exec_mapM_logged_of_error {f : α → Action σ β} {before after : List α} {x : α} {s s₁ s' : σ}
    {ys : List β} {e : NavError} (h : (before.mapM f).exec s = (.ok ys, s₁))
    (hx : (f x).exec s₁ = (.error e, s')) (log : List α) :
    ((before ++ x :: after).mapM (logged f)).exec (s, log) =
      (.error e, (s', log ++ (before ++ [x]))) := by
  refine (exec_mapM_eq_error_iff _ _ _ _ _).2 ⟨before, x, after, ys, _, rfl, exec_mapM_logged h log, ?_⟩
  rw [exec_logged, hx, List.append_assoc]

end Action

/-! ### Exchanges call by call -/

namespace Exchange

theorem exec_ask_eq_ok_iff (x : Exchange) (next : Focus → Action σ Focus) (f : Focus) (s s' : σ)
    (r : Focus) :
    (x.ask next f).exec s = (.ok r, s') ↔ (next f).exec s = (.ok r, s') ∧ x.check r = .ok () := by
  rw [ask_eq, Action.exec_bind_eq_ok]
  constructor
  · rintro ⟨a, s₁, ha, h⟩
    obtain ⟨hpassed, rfl⟩ := Action.exec_ofExcept_eq_ok.1 h
    obtain ⟨⟨⟩, hcheck, hsame⟩ := (Action.bind_eq_ok _ _ _).1 hpassed
    cases hsame
    exact ⟨ha, hcheck⟩
  · rintro ⟨hr, hcheck⟩
    refine ⟨r, s', hr, ?_⟩
    rw [hcheck]
    rfl

theorem exec_ask_eq_error_iff (x : Exchange) (next : Focus → Action σ Focus) (f : Focus) (s s' : σ)
    (e : NavError) :
    (x.ask next f).exec s = (.error e, s') ↔ (next f).exec s = (.error e, s') ∨
      ∃ r, (next f).exec s = (.ok r, s') ∧ x.check r = .error e := by
  rw [ask_eq, Action.exec_bind_eq_error]
  apply or_congr_right
  apply exists_congr
  intro r
  constructor
  · rintro ⟨s₁, hr, h⟩
    rw [Action.exec_ofExcept, Prod.mk.injEq] at h
    obtain ⟨hfailed, rfl⟩ := h
    refine ⟨hr, ?_⟩
    cases hcheck : x.check r with
    | error e' =>
      rw [hcheck] at hfailed
      exact congrArg Except.error (Except.error.inj hfailed)
    | ok u =>
      rw [hcheck] at hfailed
      exact absurd hfailed (by simp [bind, Except.bind, pure, Except.pure])
  · rintro ⟨hr, hcheck⟩
    refine ⟨s', hr, ?_⟩
    rw [hcheck]
    rfl

theorem exec_mapM_ask_eq_ok_iff (x : Exchange) (next : Focus → Action σ Focus) (fs : List Focus)
    (s s' : σ) (rs : List Focus) :
    (fs.mapM (x.ask next)).exec s = (.ok rs, s') ↔
      (fs.mapM next).exec s = (.ok rs, s') ∧ ∀ r ∈ rs, x.check r = .ok () := by
  induction fs generalizing s rs with
  | nil =>
    constructor
    · intro h
      cases h
      exact ⟨rfl, fun r hr => absurd hr List.not_mem_nil⟩
    · exact And.left
  | cons f fs ih =>
    rw [Action.exec_mapM_cons_eq_ok_iff, Action.exec_mapM_cons_eq_ok_iff]
    constructor
    · rintro ⟨r, s₁, rs', hr, hrs, rfl⟩
      obtain ⟨hr, hcheck⟩ := (exec_ask_eq_ok_iff _ _ _ _ _ _).1 hr
      obtain ⟨hrs, hchecks⟩ := (ih _ _).1 hrs
      exact ⟨⟨r, s₁, rs', hr, hrs, rfl⟩, List.forall_mem_cons.2 ⟨hcheck, hchecks⟩⟩
    · rintro ⟨⟨r, s₁, rs', hr, hrs, rfl⟩, hchecks⟩
      obtain ⟨hcheck, hchecks⟩ := List.forall_mem_cons.1 hchecks
      exact ⟨r, s₁, rs', (exec_ask_eq_ok_iff _ _ _ _ _ _).2 ⟨hr, hcheck⟩, (ih _ _).2 ⟨hrs, hchecks⟩, rfl⟩

/-- **An exchange succeeds** where every focus is answered, every answer passes its test, and the value
can be made of them. -/
theorem exec_carryOut_eq_ok_iff (x : Exchange) (next : Focus → Action σ Focus) (s s' : σ) (r : Focus) :
    (x.carryOut next).exec s = (.ok r, s') ↔
      ∃ rs, (x.asked.mapM next).exec s = (.ok rs, s') ∧ (∀ a ∈ rs, x.check a = .ok ()) ∧
        x.rebuild rs = .ok r := by
  rw [carryOut, Action.exec_bind_eq_ok]
  constructor
  · rintro ⟨rs, s₁, hrs, h⟩
    obtain ⟨hmade, rfl⟩ := Action.exec_ofExcept_eq_ok.1 h
    obtain ⟨hrs, hchecks⟩ := (exec_mapM_ask_eq_ok_iff _ _ _ _ _ _).1 hrs
    exact ⟨rs, hrs, hchecks, hmade⟩
  · rintro ⟨rs, hrs, hchecks, h⟩
    refine ⟨rs, s', (exec_mapM_ask_eq_ok_iff _ _ _ _ _ _).2 ⟨hrs, hchecks⟩, ?_⟩
    exact Action.exec_ofExcept_eq_ok.2 ⟨h, rfl⟩

/-- **An exchange fails at the first focus** of which the call fails or the answer does not pass, if the
value can be made of all answers that do. -/
theorem exec_carryOut_eq_error_iff {x : Exchange} (hx : ∀ rs, ∃ r, x.rebuild rs = .ok r)
    (next : Focus → Action σ Focus) (s s' : σ) (e : NavError) :
    (x.carryOut next).exec s = (.error e, s') ↔
      ∃ before f after rs s₁, x.asked = before ++ f :: after ∧
        (before.mapM next).exec s = (.ok rs, s₁) ∧ (∀ a ∈ rs, x.check a = .ok ()) ∧
        ((next f).exec s₁ = (.error e, s') ∨
          ∃ a, (next f).exec s₁ = (.ok a, s') ∧ x.check a = .error e) := by
  have hasked : (x.carryOut next).exec s = (.error e, s') ↔
      (x.asked.mapM (x.ask next)).exec s = (.error e, s') := by
    rw [carryOut, Action.exec_bind_eq_error]
    apply or_iff_left
    rintro ⟨rs, s₁, -, h⟩
    obtain ⟨r, hr⟩ := hx rs
    rw [Action.exec_ofExcept, hr] at h
    exact absurd h (by simp)
  rw [hasked, Action.exec_mapM_eq_error_iff]
  simp only [exec_mapM_ask_eq_ok_iff, exec_ask_eq_error_iff, and_assoc]

theorem ask_logged (x : Exchange) (next : Focus → Action σ Focus) :
    x.ask (Action.logged next) = Action.logged (x.ask next) := by
  funext f
  apply Action.ext
  rintro ⟨s, log⟩
  rw [Action.exec_logged, ask, ask, Action.exec_bind, Action.exec_bind, Action.exec_logged]
  rcases (next f).exec s with ⟨_ | r, s₁⟩
  · rfl
  · dsimp only
    rw [Action.exec_bind, Action.exec_bind, Action.exec_ofExcept, Action.exec_ofExcept]
    cases x.check r <;> rfl

/-- An exchange that succeeds asks about every focus. -/
theorem log_carryOut_of_ok {x : Exchange} {next : Focus → Action σ Focus} {s s' : σ} {r : Focus}
    (h : (x.carryOut next).exec s = (.ok r, s')) :
    ((x.carryOut (Action.logged next)).exec (s, [])).2.2 = x.asked := by
  obtain ⟨rs, s₁, hrs, -⟩ := (Action.exec_bind_eq_ok _ _ _ _ _).1 h
  rw [carryOut, ask_logged, Action.exec_bind, Action.exec_mapM_logged hrs]
  dsimp only
  rw [Action.exec_ofExcept, List.nil_append]

/-- An exchange that fails at one focus asks about those before it and about this one. -/
theorem log_carryOut_of_error {x : Exchange} {next : Focus → Action σ Focus} {before after : List Focus}
    {f : Focus} {rs : List Focus} {s s₁ s' : σ} {e : NavError} (hx : x.asked = before ++ f :: after)
    (hrs : (before.mapM next).exec s = (.ok rs, s₁)) (hchecks : ∀ a ∈ rs, x.check a = .ok ())
    (hf : (next f).exec s₁ = (.error e, s') ∨
      ∃ a, (next f).exec s₁ = (.ok a, s') ∧ x.check a = .error e) :
    ((x.carryOut (Action.logged next)).exec (s, [])).2.2 = before ++ [f] := by
  have hbefore := (exec_mapM_ask_eq_ok_iff x next before s s₁ rs).2 ⟨hrs, hchecks⟩
  have hlast := (exec_ask_eq_error_iff x next f s₁ s' e).2 hf
  rw [carryOut, ask_logged, hx, Action.exec_bind, Action.exec_mapM_logged_of_error hbefore hlast]
  rfl

end Exchange

end DocPath
