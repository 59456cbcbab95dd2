import DocPath.Action
import DocPath.Proofs.Related

/-!
# Running actions

What a run of an `Action` gives, step by step, and how attempts over a list fall apart into the
attempts at its members.

* `Action.exec_bind`, `Action.exec_bind_eq_ok` — the run of a sequence, and of one that succeeds;
* `Action.bind_eq_ok`, `Action.mapM_eq_ok_iff` — a sequence or a list of attempts succeeds exactly
  when each of them does;
* `Action.exec_mapM_eq_error_iff` — a list of actions fails at the first one that fails;
* `Action.mapM_ofExcept` — attempts that never touch the state, seen as actions;
* `Action.Agree` — two attempts that succeed or fail together;
* `Action.Ensures` — what holds of every result of an action;
* `Action.Parametric` — relations between actions that are kept by doing one after another;
* `Action.Maintains` — what holds of the state after a success if it did before;
* `Action.Simulates` — two runs that answer alike and differ only in what they keep;
* `Action.recorded` — an update that writes down every answer it gives;
* `Action.Watches` — an action that does what another one does and keeps a log besides.
-/

namespace DocPath

namespace Action

variable {σ τ α β γ : Type}

/-! ### One step after another -/

theorem exec_pure (x : α) (s : σ) : (pure x : Action σ α).exec s = (.ok x, s) := rfl

theorem exec_throw (e : NavError) (s : σ) : (throw e : Action σ α).exec s = (.error e, s) := rfl

theorem exec_bind (a : Action σ α) (f : α → Action σ β) (s : σ) :
    (a >>= f).exec s =
      match a.exec s with
      | (.ok x, s') => (f x).exec s'
      | (.error e, s') => (.error e, s') := by
  show ExceptT.bindCont f (a.exec s).1 (a.exec s).2 = _
  rcases a.exec s with ⟨_ | x, s'⟩ <;> rfl

/-- A sequence succeeds exactly when both of its parts do. -/
theorem exec_bind_eq_ok (a : Action σ α) (f : α → Action σ β) (s s' : σ) (y : β) :
    (a >>= f).exec s = (.ok y, s') ↔
      ∃ x s₁, a.exec s = (.ok x, s₁) ∧ (f x).exec s₁ = (.ok y, s') := by
  rw [exec_bind]
  rcases a.exec s with ⟨_ | x, s₁⟩ <;> simp

/-- A sequence fails where its first part does, or its second part after it. -/
theorem exec_bind_eq_error (a : Action σ α) (f : α → Action σ β) (s s' : σ) (e : NavError) :
    (a >>= f).exec s = (.error e, s') ↔
      a.exec s = (.error e, s') ∨ ∃ x s₁, a.exec s = (.ok x, s₁) ∧ (f x).exec s₁ = (.error e, s') := by
  rw [exec_bind]
  rcases a.exec s with ⟨_ | x, s₁⟩ <;> simp

theorem ext {a b : Action σ α} (h : ∀ s, a.exec s = b.exec s) : a = b := funext h

/-! ### Attempts that leave the state alone -/

theorem bind_eq_ok (a : Except NavError α) (f : α → Except NavError β) (b : β) :
    (a >>= f) = .ok b ↔ ∃ c, a = .ok c ∧ f c = .ok b := by
  cases a <;> simp [bind, Except.bind]

theorem map_eq_ok (a : Except NavError α) (f : α → β) (b : β) :
    a.map f = .ok b ↔ ∃ c, a = .ok c ∧ f c = b := by
  cases a <;> simp [Except.map]

theorem map_eq_error (a : Except NavError α) (f : α → β) (e : NavError) :
    a.map f = .error e ↔ a = .error e := by
  cases a <;> simp [Except.map]

theorem exec_ofExcept (x : Except NavError α) (s : σ) : (ofExcept x).exec s = (x, s) := by
  cases x <;> rfl

theorem exec_ofExcept_eq_ok {x : Except NavError α} {s s' : σ} {a : α} :
    (ofExcept x).exec s = (.ok a, s') ↔ x = .ok a ∧ s = s' := by
  rw [exec_ofExcept, Prod.mk.injEq]

theorem ofExcept_bind (x : Except NavError α) (f : α → Except NavError β) :
    (ofExcept (x >>= f) : Action σ β) = ofExcept x >>= fun a => ofExcept (f a) := by
  apply ext
  intro s
  rw [exec_bind, exec_ofExcept, exec_ofExcept]
  cases x with
  | error e => rfl
  | ok a => exact (exec_ofExcept (f a) s).symm

/-- A list of attempts that leave the state alone is one such attempt. -/
theorem mapM_ofExcept (g : α → Except NavError β) (xs : List α) :
    (xs.mapM fun x => ofExcept (g x) : Action σ (List β)) = ofExcept (xs.mapM g) := by
  induction xs with
  | nil => rfl
  | cons x xs ih =>
    rw [List.mapM_cons, List.mapM_cons, ih, ofExcept_bind]
    congr 1
    funext y
    rw [ofExcept_bind]
    rfl

/-- Attempts over a list succeed exactly when each of them does, with the list of their
results. -/
theorem mapM_eq_ok_iff (g : α → Except NavError β) (xs : List α) (ys : List β) :
    xs.mapM g = .ok ys ↔ List.Forall₂ (fun x y => g x = .ok y) xs ys := by
  induction xs generalizing ys with
  | nil => cases ys <;> simp [pure, Except.pure]
  | cons x xs ih =>
    rw [List.mapM_cons]
    cases hx : g x with
    | error e => cases ys <;> simp [bind, Except.bind, hx]
    | ok y =>
      cases hxs : xs.mapM g with
      | error e => cases ys <;> simp [bind, Except.bind, hx, ← ih, hxs]
      | ok ys' => cases ys <;> simp [bind, Except.bind, pure, Except.pure, hx, ← ih, hxs]

/-! ### Lists of actions -/

theorem exec_mapM_cons_eq_ok_iff (f : α → Action σ β) (x : α) (xs : List α) (s s' : σ) (ys : List β) :
    ((x :: xs).mapM f).exec s = (.ok ys, s') ↔
      ∃ y s₁ ys', (f x).exec s = (.ok y, s₁) ∧ (xs.mapM f).exec s₁ = (.ok ys', s') ∧ ys = y :: ys' := by
  rw [List.mapM_cons]
  constructor
  · intro h
    obtain ⟨y, s₁, hy, h⟩ := (exec_bind_eq_ok _ _ _ _ _).1 h
    obtain ⟨ys', s₂, hys, h⟩ := (exec_bind_eq_ok _ _ _ _ _).1 h
    cases h
    exact ⟨y, s₁, ys', hy, hys, rfl⟩
  · rintro ⟨y, s₁, ys', hy, hys, rfl⟩
    exact (exec_bind_eq_ok _ _ _ _ _).2 ⟨y, s₁, hy, (exec_bind_eq_ok _ _ _ _ _).2 ⟨ys', s', hys, rfl⟩⟩

theorem exec_mapM_cons_eq_error_iff (f : α → Action σ β) (x : α) (xs : List α) (s s' : σ) (e : NavError) :
    ((x :: xs).mapM f).exec s = (.error e, s') ↔
      (f x).exec s = (.error e, s') ∨
        ∃ y s₁, (f x).exec s = (.ok y, s₁) ∧ (xs.mapM f).exec s₁ = (.error e, s') := by
  rw [List.mapM_cons, exec_bind_eq_error]
  apply or_congr_right
  apply exists₂_congr
  intro y s₁
  rw [exec_bind_eq_error]
  apply and_congr_right
  intro _
  constructor
  · rintro (h | ⟨ys, s₂, -, h⟩)
    · exact h
    · rw [exec_pure] at h
      exact absurd h (by simp)
  · exact .inl

/-- **A list of calls fails at the first one that fails**, after the calls before it were answered. -/
theorem exec_mapM_eq_error_iff (f : α → Action σ β) (xs : List α) (s s' : σ) (e : NavError) :
    (xs.mapM f).exec s = (.error e, s') ↔
      ∃ before x after ys s₁, xs = before ++ x :: after ∧ (before.mapM f).exec s = (.ok ys, s₁) ∧
        (f x).exec s₁ = (.error e, s') := by
  induction xs generalizing s with
  | nil =>
    constructor
    · intro h
      rw [List.mapM_nil, exec_pure] at h
      exact absurd h (by simp)
    · rintro ⟨before, x, after, ys, s₁, h, -⟩
      exact absurd h (by simp)
  | cons x xs ih =>
    rw [exec_mapM_cons_eq_error_iff]
    constructor
    · rintro (h | ⟨y, s₁, hy, h⟩)
      · exact ⟨[], x, xs, [], s, rfl, rfl, h⟩
      · obtain ⟨before, x', after, ys, s₂, rfl, hbefore, hx'⟩ := (ih s₁).1 h
        refine ⟨x :: before, x', after, y :: ys, s₂, rfl, ?_, hx'⟩
        exact (exec_mapM_cons_eq_ok_iff _ _ _ _ _ _).2 ⟨y, s₁, ys, hy, hbefore, rfl⟩
    · rintro ⟨before, x', after, ys, s₁, hxs, hbefore, hx'⟩
      cases before with
      | nil =>
        obtain ⟨rfl, rfl⟩ := List.cons.inj hxs
        cases hbefore
        exact .inl hx'
      | cons x'' before =>
        obtain ⟨rfl, rfl⟩ := List.cons.inj hxs
        obtain ⟨y, s₂, ys', hy, hys, -⟩ := (exec_mapM_cons_eq_ok_iff _ _ _ _ _ _).1 hbefore
        exact .inr ⟨y, s₂, hy, (ih s₂).2 ⟨before, x', after, ys', s₁, rfl, hys, hx'⟩⟩

/-! ### Attempts that succeed or fail together -/

/-- Both attempts fail, or both succeed with related results. -/
def Agree (R : α → β → Prop) : Except NavError α → Except NavError β → Prop
  | .ok a, .ok b => R a b
  | .error _, .error _ => True
  | _, _ => False

theorem Agree.ok {R : α → β → Prop} {a : α} {y : Except NavError β} (h : Agree R (.ok a) y) :
    ∃ b, y = .ok b ∧ R a b := by
  cases y with
  | error e => exact absurd h id
  | ok b => exact ⟨b, rfl, h⟩

theorem Agree.error {R : α → β → Prop} {e : NavError} {y : Except NavError β}
    (h : Agree R (.error e) y) : ∃ e', y = .error e' := by
  cases y with
  | error e' => exact ⟨e', rfl⟩
  | ok b => exact absurd h id

theorem agree_self {R : α → α → Prop} {x : Except NavError α} (h : ∀ a, x = .ok a → R a a) :
    Agree R x x := by
  cases x with
  | error e => exact trivial
  | ok a => exact h a rfl

theorem Agree.bind {γ' : Type} {R : α → β → Prop} {S : γ → γ' → Prop} {x : Except NavError α}
    {y : Except NavError β} {f : α → Except NavError γ} {g : β → Except NavError γ'}
    (h : Agree R x y) (hf : ∀ a b, x = .ok a → y = .ok b → R a b → Agree S (f a) (g b)) :
    Agree S (x >>= f) (y >>= g) := by
  cases x with
  | error e => obtain ⟨e', rfl⟩ := h.error; exact trivial
  | ok a => obtain ⟨b, rfl, hab⟩ := h.ok; exact hf a b rfl rfl hab

theorem Agree.map {γ' : Type} {R : α → β → Prop} {S : γ → γ' → Prop} {x : Except NavError α}
    {y : Except NavError β} {f : α → γ} {g : β → γ'} (h : Agree R x y)
    (hf : ∀ a b, R a b → S (f a) (g b)) : Agree S (x.map f) (y.map g) := by
  cases x with
  | error e => obtain ⟨e', rfl⟩ := h.error; exact trivial
  | ok a => obtain ⟨b, rfl, hab⟩ := h.ok; exact hf a b hab

/-! ### Results -/

/-- Every result of the action, from whatever state, has the property. -/
def Ensures (Q : α → Prop) (a : Action σ α) : Prop :=
  ∀ s r s', a.exec s = (.ok r, s') → Q r

theorem ensures_true (a : Action σ α) : Ensures (fun _ => True) a := fun _ _ _ _ => trivial

theorem ensures_pure {Q : α → Prop} {x : α} (h : Q x) : Ensures Q (pure x : Action σ α) := by
  intro s r s' hr
  cases hr
  exact h

theorem ensures_ofExcept {Q : α → Prop} {x : Except NavError α} (h : ∀ r, x = .ok r → Q r) :
    Ensures Q (ofExcept x : Action σ α) := by
  intro s r s' hr
  rw [exec_ofExcept] at hr
  exact h r (congrArg Prod.fst hr)

theorem Ensures.bind {P : α → Prop} {Q : β → Prop} {a : Action σ α} {f : α → Action σ β}
    (ha : Ensures P a) (hf : ∀ x, P x → Ensures Q (f x)) : Ensures Q (a >>= f) := by
  intro s y s' hr
  obtain ⟨x, s₁, hx, hy⟩ := (exec_bind_eq_ok _ _ _ _ _).1 hr
  exact hf x (ha s x s₁ hx) s₁ y s' hy

/-- What follows an action may be replaced where it agrees on the results that the action can have. -/
theorem Ensures.bind_congr {P : α → Prop} {a : Action σ α} (h : Ensures P a) {f g : α → Action σ β}
    (hfg : ∀ x, P x → f x = g x) : a >>= f = a >>= g := by
  apply ext
  intro s
  rw [exec_bind, exec_bind]
  rcases ha : a.exec s with ⟨e | x, s'⟩
  · rfl
  · show (f x).exec s' = (g x).exec s'
    rw [hfg x (h s x s' ha)]

theorem Ensures.mapM {R : α → β → Prop} {f : α → Action σ β} {xs : List α}
    (h : ∀ x ∈ xs, Ensures (R x) (f x)) : Ensures (List.Forall₂ R xs) (xs.mapM f) := by
  induction xs with
  | nil =>
    intro s ys s' hr
    cases hr
    exact .nil
  | cons x xs ih =>
    rw [List.mapM_cons]
    refine (h x List.mem_cons_self).bind fun y hy => ?_
    refine (ih fun z hz => h z (List.mem_cons_of_mem x hz)).bind fun ys hys => ?_
    intro s zs s' hr
    cases hr
    exact .cons hy hys

/-! ### Relations between runs -/

/-- A relation between actions that holds of attempts without a state, and of actions one after
another if it holds of each of them. A property of actions is such a relation of each with itself. -/
structure Parametric (R : (α : Type) → Action σ α → Action τ α → Prop) : Prop where
  ofExcept {α : Type} (x : Except NavError α) : R α (Action.ofExcept x) (Action.ofExcept x)
  bind {α β : Type} {a : Action σ α} {b : Action τ α} {f : α → Action σ β} {g : α → Action τ β} :
    R α a b → (∀ x, R β (f x) (g x)) → R β (a >>= f) (b >>= g)

theorem Parametric.mapM {R : (α : Type) → Action σ α → Action τ α → Prop} (hR : Parametric R)
    {f : α → Action σ β} {g : α → Action τ β} (h : ∀ x, R β (f x) (g x)) (xs : List α) :
    R (List β) (xs.mapM f) (xs.mapM g) := by
  induction xs with
  | nil => exact hR.ofExcept (.ok [])
  | cons x xs ih =>
    rw [List.mapM_cons, List.mapM_cons]
    exact hR.bind (h x) fun y => hR.bind ih fun ys => hR.ofExcept (.ok (y :: ys))

/-! ### Invariants of the state -/

/-- Where the action succeeds, the state that it leaves has the property if the state that it began
with had it. -/
def Maintains (I : σ → Prop) (a : Action σ α) : Prop :=
  ∀ s r s', a.exec s = (.ok r, s') → I s → I s'

theorem maintains_ofExcept {I : σ → Prop} (x : Except NavError α) :
    Maintains I (ofExcept x : Action σ α) := by
  intro s r s' hr hs
  obtain ⟨-, rfl⟩ := exec_ofExcept_eq_ok.1 hr
  exact hs

theorem Maintains.bind {I : σ → Prop} {a : Action σ α} {f : α → Action σ β} (ha : Maintains I a)
    (hf : ∀ x, Maintains I (f x)) : Maintains I (a >>= f) := by
  intro s y s' hr hs
  obtain ⟨x, s₁, hx, hy⟩ := (exec_bind_eq_ok _ _ _ _ _).1 hr
  exact hf x s₁ y s' hy (ha s x s₁ hx hs)

theorem parametric_maintains (I : σ → Prop) :
    Parametric fun _ (a _ : Action σ _) => Maintains I a :=
  ⟨maintains_ofExcept, Maintains.bind⟩

/-! ### Runs that differ in what they keep -/

/-- From related states both actions answer alike, and leave related states. -/
def Simulates (R : σ → τ → Prop) (a : Action σ α) (b : Action τ α) : Prop :=
  ∀ s t, R s t → (a.exec s).1 = (b.exec t).1 ∧ R (a.exec s).2 (b.exec t).2

theorem simulates_ofExcept {R : σ → τ → Prop} (x : Except NavError α) :
    Simulates R (ofExcept x : Action σ α) (ofExcept x) := by
  intro s t hst
  rw [exec_ofExcept, exec_ofExcept]
  exact ⟨rfl, hst⟩

theorem Simulates.bind {R : σ → τ → Prop} {a : Action σ α} {b : Action τ α} {f : α → Action σ β}
    {g : α → Action τ β} (h : Simulates R a b) (hf : ∀ x, Simulates R (f x) (g x)) :
    Simulates R (a >>= f) (b >>= g) := by
  intro s t hst
  obtain ⟨hr, hst'⟩ := h s t hst
  rw [exec_bind, exec_bind]
  rcases ha : a.exec s with ⟨r, s'⟩
  rcases hb : b.exec t with ⟨r', t'⟩
  rw [ha, hb] at hr hst'
  obtain rfl : r = r' := hr
  cases r with
  | error e => exact ⟨rfl, hst'⟩
  | ok x => exact hf x s' t' hst'

/-! ### Keeping a log -/

/-- Calls `f`, and writes down what it answers. -/
def recorded (f : α → Action σ β) (x : α) : Action (σ × List β) β := do
  let r ← onFirst (f x)
  modify fun s => (s.1, s.2 ++ [r])
  pure r

theorem exec_onFirst (a : Action σ α) (s : σ) (t : τ) :
    (onFirst a).exec (s, t) = ((a.exec s).1, ((a.exec s).2, t)) := rfl

theorem exec_logged (f : α → Action σ β) (x : α) (s : σ) (log : List α) :
    (logged f x).exec (s, log) = (((f x).exec s).1, (((f x).exec s).2, log ++ [x])) := rfl

theorem Ensures.logged {Q : β → Prop} {f : α → Action σ β} {x : α} (h : Ensures Q (f x)) :
    Ensures Q (logged f x) := by
  intro ⟨s, log⟩ r s' hr
  rw [exec_logged, Prod.mk.injEq] at hr
  exact h s r _ (Prod.ext hr.1 rfl)

/-- `b` does what `a` does, and keeps something more in its state. -/
def Watches (b : Action (σ × τ) α) (a : Action σ α) : Prop :=
  ∀ s t, (b.exec (s, t)).1 = (a.exec s).1 ∧ (b.exec (s, t)).2.1 = (a.exec s).2

/-- A watching action runs as the watched one does. -/
theorem Watches.exec_eq {b : Action (σ × τ) α} {a : Action σ α} (h : Watches b a) {s s' : σ}
    {r : Except NavError α} (ha : a.exec s = (r, s')) (t : τ) :
    b.exec (s, t) = (r, (s', (b.exec (s, t)).2.2)) := by
  obtain ⟨hr, hs⟩ := h s t
  rw [ha] at hr hs
  exact Prod.ext hr (Prod.ext hs rfl)

theorem watches_iff {b : Action (σ × τ) α} {a : Action σ α} :
    Watches b a ↔ Simulates (fun p s => p.1 = s) b a :=
  ⟨fun h p _ hp => hp ▸ h p.1 p.2, fun h s t => h (s, t) s rfl⟩

theorem watches_ofExcept (x : Except NavError α) :
    Watches (ofExcept x : Action (σ × τ) α) (ofExcept x) :=
  watches_iff.2 (simulates_ofExcept x)

theorem watches_logged (f : α → Action σ β) (x : α) : Watches (logged f x) (f x) := by
  intro s t
  rw [exec_logged]
  exact ⟨rfl, rfl⟩

theorem watches_recorded (f : α → Action σ β) (x : α) :
    Watches (recorded f x : Action (σ × List β) β) (f x) := by
  intro s log
  rw [recorded, exec_bind, exec_onFirst]
  rcases (f x).exec s with ⟨_ | r, s'⟩ <;> exact ⟨rfl, rfl⟩

theorem Watches.bind {b : Action (σ × τ) α} {a : Action σ α} {g : α → Action (σ × τ) β}
    {f : α → Action σ β} (hb : Watches b a) (hg : ∀ x, Watches (g x) (f x)) :
    Watches (b >>= g) (a >>= f) :=
  watches_iff.2 ((watches_iff.1 hb).bind fun x => watches_iff.1 (hg x))

theorem parametric_watches :
    Parametric fun _ (b : Action (σ × τ) _) (a : Action σ _) => Watches b a :=
  ⟨watches_ofExcept, Watches.bind⟩

end Action

end DocPath
