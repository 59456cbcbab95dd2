import DocPath.Proofs.VisitOrder

/-!
# The first failure ends a run

A terminal or an update may fail at any of its calls. Between that call and the end of the run stand
all the navigators of the path, some of which have errors of their own to report about the same value.
None of them gets to do so: the run fails at once, with the error of the call and in the state that the
call left, and nothing is called after it.

* `Action.Call`, `Action.traced` — calls, and an update that writes down every call of it;
* `Action.Ends`, `Action.Transparent` — actions that end at the first of their calls that fails;
* `Action.Transparent.bind`, `Action.parametric_transparent` — **actions made of such actions**, as all
  traversals are;
* `Path.terminalCalls`, `Path.updateCalls`, `Path.failure_ends_run` — the law for whole paths.
-/

namespace DocPath

variable {σ α β γ δ : Type}

namespace Action

/-- One call: what it was made with, what came of it, and the state that it left. -/
structure Call (σ α β : Type) where
  input : α
  outcome : Except NavError β
  state : σ

/-- Calls `f`, and writes the call down. -/
def traced (f : α → Action σ β) (x : α) : Action (σ × List (Call σ α β)) β := fun s =>
  match (f x).exec s.1 with
  | (r, s') => (r, (s', s.2 ++ [⟨x, r, s'⟩]))

theorem exec_traced (f : α → Action σ β) (x : α) (s : σ) (log : List (Call σ α β)) :
    (traced f x).exec (s, log) =
      (((f x).exec s).1, ((f x).exec s).2, log ++ [⟨x, ((f x).exec s).1, ((f x).exec s).2⟩]) := rfl

theorem watches_traced (f : α → Action σ β) (x : α) : Watches (traced f x) (f x) :=
  fun _ _ => ⟨rfl, rfl⟩

/-! ### Actions that end at the first failing call -/

/-- A run with these calls ends in this way: none of the calls failed, or the last one did and no other
one, and the run failed with its error and in the state that it left. -/
def Ends (calls : List (Call σ α β)) (r : Except NavError γ) (s : σ) : Prop :=
  (∀ c ∈ calls, ∃ y, c.outcome = .ok y) ∨
    ∃ before x e, calls = before ++ [⟨x, .error e, s⟩] ∧
      (∀ c ∈ before, ∃ y, c.outcome = .ok y) ∧ r = .error e

/-- If a call failed then it was the last one, and the run ended with it. -/
theorem Ends.of_error {calls : List (Call σ α β)} {r : Except NavError γ} {s : σ}
    (h : Ends calls r s) {k : Nat} {c : Call σ α β} {e : NavError} (hk : calls[k]? = some c)
    (he : c.outcome = .error e) : r = .error e ∧ s = c.state ∧ calls.length = k + 1 := by
  have hfine {cs : List (Call σ α β)} (hall : ∀ c ∈ cs, ∃ y, c.outcome = .ok y) : c ∉ cs := by
    intro hc
    obtain ⟨y, hy⟩ := hall c hc
    exact absurd (he.symm.trans hy) (by simp)
  rcases h with hall | ⟨before, x, e', rfl, hall, rfl⟩
  · exact absurd (List.mem_of_getElem? hk) (hfine hall)
  · rcases Nat.lt_or_ge k before.length with hlt | hge
    · rw [List.getElem?_append_left hlt] at hk
      exact absurd (List.mem_of_getElem? hk) (hfine hall)
    · rw [List.getElem?_append_right hge, List.getElem?_singleton] at hk
      split at hk
      · cases hk
        obtain rfl := Except.error.inj he
        refine ⟨rfl, rfl, ?_⟩
        rw [List.length_append, List.length_singleton]
        omega
      · exact absurd hk (by simp)

/-- The action ends at the first of the calls that it makes and writes down, if one of them fails. -/
def Transparent (a : Action (σ × List (Call σ α β)) γ) : Prop :=
  ∀ s log, ∃ calls, (a.exec (s, log)).2.2 = log ++ calls ∧
    Ends calls (a.exec (s, log)).1 (a.exec (s, log)).2.1

theorem transparent_ofExcept (x : Except NavError γ) :
    Transparent (ofExcept x : Action (σ × List (Call σ α β)) γ) := by
  intro s log
  rw [exec_ofExcept]
  exact ⟨[], (List.append_nil log).symm, .inl fun c hc => absurd hc List.not_mem_nil⟩

theorem transparent_traced (f : α → Action σ β) (x : α) : Transparent (traced f x) := by
  intro s log
  rw [exec_traced]
  refine ⟨_, rfl, ?_⟩
  cases h : ((f x).exec s).1 with
  | error e => exact .inr ⟨[], x, e, rfl, fun c hc => absurd hc List.not_mem_nil, rfl⟩
  | ok y => exact .inl (List.forall_mem_singleton.2 ⟨y, rfl⟩)

/-- What comes after an action that fails is not begun. -/
theorem Transparent.bind {a : Action (σ × List (Call σ α β)) γ}
    {f : γ → Action (σ × List (Call σ α β)) δ} (ha : Transparent a) (hf : ∀ x, Transparent (f x)) :
    Transparent (a >>= f) := by
  intro s log
  obtain ⟨calls, hlog, hends⟩ := ha s log
  rw [exec_bind]
  rcases hrun : a.exec (s, log) with ⟨e | x, s₁, log₁⟩
  · rw [hrun] at hlog hends
    refine ⟨calls, hlog, hends.imp_right fun h => ?_⟩
    obtain ⟨before, y, e', hcalls, hbefore, he⟩ := h
    exact ⟨before, y, e', hcalls, hbefore, congrArg Except.error (Except.error.inj he)⟩
  · rw [hrun] at hlog hends
    obtain rfl : log₁ = log ++ calls := hlog
    -- none of the calls of an action that succeeds has failed
    have hfine : ∀ c ∈ calls, ∃ y, c.outcome = .ok y := by
      rcases hends with h | ⟨_, _, _, _, _, h⟩
      · exact h
      · exact absurd h (by simp)
    obtain ⟨calls', hlog', hends'⟩ := hf x s₁ (log ++ calls)
    refine ⟨calls ++ calls', hlog'.trans (List.append_assoc _ _ _), ?_⟩
    rcases hends' with h | ⟨before, y, e, rfl, hbefore, he⟩
    · exact .inl (List.forall_mem_append.2 ⟨hfine, h⟩)
    · refine .inr ⟨calls ++ before, y, e, (List.append_assoc _ _ _).symm, ?_, he⟩
      exact List.forall_mem_append.2 ⟨hfine, hbefore⟩

theorem parametric_transparent :
    Parametric fun _ (a _ : Action (σ × List (Call σ α β)) _) => Transparent a :=
  ⟨transparent_ofExcept, Transparent.bind⟩

end Action

namespace Path

/-- The calls of a terminal while selecting, in order. -/
def terminalCalls (p : Path) (v : Value) (terminal : Value → Action σ Unit) (st : σ) :
    List (Action.Call σ Value Unit) :=
  ((p.selectWith v (Action.traced terminal)).exec (st, [])).2.2

/-- The calls of an update during a transform, in order. -/
def updateCalls (p : Path) (s : Focus) (update : Focus → Action σ Focus) (st : σ) :
    List (Action.Call σ Focus Focus) :=
  ((p.transformWith s (Action.traced update)).exec (st, [])).2.2

/-- **The first failure ends a run.** If a call of the terminal of a selection fails, or a call of the
update of a transform, then the whole run fails with the same error and in the state that this call
left, and it was the last call: no navigator replaces the error, gets over it or puts it off. -/
theorem failure_ends_run (p : Path) (hp : Navigator.BuiltIn p.navigators) (st : σ) (k : Nat)
    (e : NavError) :
    (∀ (v : Value) (terminal : Value → Action σ Unit) (c : Action.Call σ Value Unit),
      (p.terminalCalls v terminal st)[k]? = some c → c.outcome = .error e →
        (p.selectWith v terminal).exec st = (.error e, c.state) ∧
          (p.terminalCalls v terminal st).length = k + 1) ∧
    (∀ (s : Focus) (update : Focus → Action σ Focus) (c : Action.Call σ Focus Focus),
      (p.updateCalls s update st)[k]? = some c → c.outcome = .error e →
        (p.transformWith s update).exec st = (.error e, c.state) ∧
          (p.updateCalls s update st).length = k + 1) := by
  constructor
  · intro v terminal c hk he
    obtain ⟨calls, hlog, hends⟩ := Navigator.related_selectAlong Action.parametric_transparent
      p.navigators hp _ (Action.traced terminal) (Action.transparent_traced terminal) v st []
    obtain ⟨hr, hs⟩ :=
      Navigator.watches_selectAlong p.navigators hp (Action.watches_traced terminal) v st []
    obtain rfl : calls = p.terminalCalls v terminal st := hlog.symm
    obtain ⟨herror, hstate, hlast⟩ := hends.of_error hk he
    exact ⟨Prod.ext (hr.symm.trans herror) (hs.symm.trans hstate), hlast⟩
  · intro s update c hk he
    obtain ⟨calls, hlog, hends⟩ := Navigator.related_transformAlong Action.parametric_transparent
      p.navigators hp _ (Action.traced update) (Action.transparent_traced update) s st []
    obtain ⟨hr, hs⟩ :=
      Navigator.watches_transformAlong p.navigators hp (Action.watches_traced update) s st []
    obtain rfl : calls = p.updateCalls s update st := hlog.symm
    obtain ⟨herror, hstate, hlast⟩ := hends.of_error hk he
    exact ⟨Prod.ext (hr.symm.trans herror) (hs.symm.trans hstate), hlast⟩

/-- Both runs fail at the second focus, where a number would have been the wrong place for a key. -/
theorem failure_ends_run_at_number :
    let p : Path := ⟨[.filterer [.pred Value.isDefined], .all, .key "n"], {}⟩
    let v : Value := .sequence [.mapping [("n", .integer 1)], .integer 5, .mapping []]
    let stop : NavError := .custom "stop"
    let terminal : Value → Action Nat Unit := fun w => do
      modify (· + 1)
      if w.isDefined then pure () else throw stop
    let update : Focus → Action Nat Focus := fun s => do
      terminal s.orUndefined
      pure (.value (.bool true))
    p.terminalCalls v terminal 0 =
        [⟨.integer 1, .ok (), 1⟩, ⟨.undefined, .error stop, 2⟩] ∧
      (p.selectWith v terminal).exec 0 = (.error stop, 2) ∧
      p.updateCalls (.value v) update 0 =
        [⟨.value (.integer 1), .ok (.value (.bool true)), 1⟩,
          ⟨.value .undefined, .error stop, 2⟩] ∧
      (p.transformWith (.value v) update).exec 0 = (.error stop, 2) := by
  intro p v stop terminal update
  have hp : ∀ n ∈ p.navigators, n.isCustom = false := by decide
  have hterminal : p.terminalCalls v terminal 0 =
      [⟨.integer 1, .ok (), 1⟩, ⟨.undefined, .error stop, 2⟩] := by rfl
  have hupdate : p.updateCalls (.value v) update 0 =
      [⟨.value (.integer 1), .ok (.value (.bool true)), 1⟩,
        ⟨.value .undefined, .error stop, 2⟩] := by rfl
  obtain ⟨hselect, htransform⟩ := p.failure_ends_run hp 0 1 stop
  refine ⟨hterminal, ?_, hupdate, ?_⟩
  · exact (hselect v terminal ⟨.undefined, .error stop, 2⟩ (by rw [hterminal]; rfl) rfl).1
  · exact (htransform (.value v) update ⟨.value .undefined, .error stop, 2⟩
      (by rw [hupdate]; rfl) rfl).1

end Path

end DocPath
