import DocPath.Proofs.Children

/-!
# Rewriting without a state

An update that is a function of the focus alone makes of the whole transform a function of the
value. Here that function is written down, and what its success means at one navigator.

* `Exchange.settle`, `Exchange.settle_eq_ok_iff` — an exchange whose answers touch no state;
* `Navigator.rewrite`, `Navigator.rewriteAlong` — one navigator and a path followed so;
* `Navigator.rewrite_eq_ok_iff`, `Navigator.Descends.rewrite_value_eq_ok_iff` — when one navigator
  succeeds;
* `Navigator.error_reachedAlong_of_rewriteAlong` — where rewriting succeeds, so does selecting;
* `Navigator.transformAlong_ofExcept` — **a transform whose update touches no state rewrites**;
* `Path.map_eq` — what `Path.map` gives.
-/

namespace DocPath

variable {σ : Type}

/-- Answers that are all values, each of them related to what it is about. -/
theorem Focus.exists_values {Q : Value → Value → Prop} {vs : List Value} {rs : List Focus}
    (h : List.Forall₂ (fun v r => ∃ w, r = .value w ∧ Q v w) vs rs) :
    ∃ ws : List Value, rs = ws.map .value ∧ List.Forall₂ Q vs ws := by
  induction h with
  | nil => exact ⟨[], rfl, .nil⟩
  | cons hr _ ih =>
    obtain ⟨w, rfl, hw⟩ := hr
    obtain ⟨ws, rfl, hws⟩ := ih
    exact ⟨w :: ws, rfl, .cons hw hws⟩

namespace Exchange

/-- The exchange with answers that may fail and touch no state. -/
def settle (x : Exchange) (answer : Focus → Except NavError Focus) : Except NavError Focus := do
  let rs ← x.asked.mapM fun f => do
    let r ← answer f
    x.check r
    pure r
  x.rebuild rs

theorem carryOut_ofExcept (x : Exchange) (answer : Focus → Except NavError Focus) :
    (x.carryOut fun f => Action.ofExcept (answer f) : Action σ Focus) =
      Action.ofExcept (x.settle answer) := by
  have hask : x.ask (fun f => Action.ofExcept (answer f) : Focus → Action σ Focus) = fun f =>
      Action.ofExcept (answer f >>= fun r => x.check r >>= fun _ => pure r) := by
    funext f
    rw [ask_eq, ← Action.ofExcept_bind]
  rw [carryOut, hask, Action.mapM_ofExcept, settle, Action.ofExcept_bind]

/-- An exchange succeeds when every focus is answered, every answer passes its test and the
answers make a value. -/
theorem settle_eq_ok_iff (x : Exchange) (answer : Focus → Except NavError Focus) (s : Focus) :
    x.settle answer = .ok s ↔
      ∃ rs, List.Forall₂ (fun f r => answer f = .ok r) x.asked rs ∧
        (∀ r ∈ rs, x.check r = .ok ()) ∧ x.rebuild rs = .ok s := by
  have hone (f r : Focus) : (answer f >>= fun r => x.check r >>= fun _ => pure r) = .ok r ↔
      x.check r = .ok () ∧ answer f = .ok r := by
    rw [Action.bind_eq_ok]
    constructor
    · intro h
      obtain ⟨r', hr', h⟩ := h
      obtain ⟨_, hc, h⟩ := (Action.bind_eq_ok _ _ _).1 h
      cases h
      exact ⟨hc, hr'⟩
    · intro h
      obtain ⟨hc, hr⟩ := h
      exact ⟨r, hr, (Action.bind_eq_ok _ _ _).2 ⟨(), hc, rfl⟩⟩
  have hall (rs : List Focus) :
      List.Forall₂ (fun f r => x.check r = .ok () ∧ answer f = .ok r) x.asked rs ↔
        (∀ r ∈ rs, x.check r = .ok ()) ∧
          List.Forall₂ (fun f r => answer f = .ok r) x.asked rs := by
    have h := List.forall₂_and_left (p := fun r => x.check r = .ok ())
      (R := fun r f => answer f = .ok r) rs x.asked
    exact ⟨fun ha => (h.1 ha.flip).imp_right List.Forall₂.flip, fun ha => (h.2 ⟨ha.1, ha.2.flip⟩).flip⟩
  rw [settle, Action.bind_eq_ok]
  simp only [Action.mapM_eq_ok_iff, hone, hall]
  exact ⟨fun ⟨rs, h, hb⟩ => ⟨rs, h.2, h.1, hb⟩, fun ⟨rs, h, hc, hb⟩ => ⟨rs, ⟨hc, h⟩, hb⟩⟩

end Exchange

namespace Navigator

/-- Rewrites a focus by one navigator, with an answer to each focus that it asks about. -/
def rewrite (n : Navigator) (answer : Focus → Except NavError Focus) (s : Focus) :
    Except NavError Focus := n.exchange s >>= fun x => x.settle answer

/-- A rewrite succeeds when every focus is answered, every answer passes its test and the answers
make a value. -/
theorem rewrite_eq_ok_iff {n : Navigator} {answer : Focus → Except NavError Focus} {s r : Focus} :
    n.rewrite answer s = .ok r ↔
      ∃ x rs, n.exchange s = .ok x ∧ List.Forall₂ (fun f r => answer f = .ok r) x.asked rs ∧
        (∀ r ∈ rs, x.check r = .ok ()) ∧ x.rebuild rs = .ok r := by
  rw [rewrite, Action.bind_eq_ok]
  constructor
  · intro h
    obtain ⟨x, hx, h⟩ := h
    obtain ⟨rs, h⟩ := (x.settle_eq_ok_iff answer r).1 h
    exact ⟨x, rs, hx, h⟩
  · intro h
    obtain ⟨x, rs, hx, h⟩ := h
    exact ⟨x, hx, (x.settle_eq_ok_iff answer r).2 ⟨rs, h⟩⟩

/-- The same at a step to children. -/
theorem Descends.rewrite_value_eq_ok_iff {n : Navigator} (hn : n.Descends)
    {answer : Focus → Except NavError Focus} {v : Value} {r : Focus} :
    n.rewrite answer (.value v) = .ok r ↔
      ∃ x vs rs, n.exchange (.value v) = .ok x ∧ Exchange.Shape n v vs x ∧
        List.Forall₂ (fun v r => answer (.value v) = .ok r) vs rs ∧
          (∀ r ∈ rs, x.check r = .ok ()) ∧ x.rebuild rs = .ok r := by
  rw [rewrite_eq_ok_iff]
  constructor
  · intro h
    obtain ⟨x, rs, hx, hrs, h⟩ := h
    obtain ⟨vs, hshape⟩ := shape_of_exchange hn hx
    rw [hshape.asked, List.forall₂_map_left_iff] at hrs
    exact ⟨x, vs, rs, hx, hshape, hrs, h⟩
  · intro h
    obtain ⟨x, vs, rs, hx, hshape, hrs, h⟩ := h
    refine ⟨x, rs, hx, ?_, h⟩
    rwa [hshape.asked, List.forall₂_map_left_iff]

/-- Rewrites a focus along a path, with an update that may fail and touches no state. -/
def rewriteAlong : List Navigator → (Focus → Except NavError Focus) → Focus →
    Except NavError Focus
  | [], update, s => update s
  | n :: path, update, s => n.rewrite (rewriteAlong path update) s

/-- **A transform whose update touches no state rewrites its focus.** -/
theorem transformAlong_ofExcept (path : List Navigator) (hp : BuiltIn path)
    (update : Focus → Except NavError Focus) (s : Focus) :
    (transformAlong path s fun f => Action.ofExcept (update f) : Action σ Focus) =
      Action.ofExcept (rewriteAlong path update s) := by
  induction path generalizing s with
  | nil => rfl
  | cons n path ih =>
    have hnext : (fun f => transformAlong path f fun f => Action.ofExcept (update f) :
        Focus → Action σ Focus) = fun f => Action.ofExcept (rewriteAlong path update f) :=
      funext (ih hp.tail)
    rw [transformAlong, hnext, transform_eq_carryOut n hp.head, rewriteAlong, rewrite,
      Action.ofExcept_bind]
    congr 1
    funext x
    exact x.carryOut_ofExcept _

/-- Where rewriting succeeds, the traversal of the path has no error. -/
theorem error_reachedAlong_of_rewriteAlong {path : List Navigator} (hp : BuiltIn path)
    {update : Focus → Except NavError Focus} {v : Value} {r : Focus}
    (h : rewriteAlong path update (.value v) = .ok r) : (reachedAlong path v).error = none := by
  induction path generalizing v r with
  | nil => rfl
  | cons n path ih =>
    obtain ⟨x, rs, hx, hrs, -⟩ := rewrite_eq_ok_iff.1 h
    rw [reachedAlong]
    cases hi : n.isInsertionPoint with
    | true => cases n <;> first | rfl | exact absurd hi (by simp [isInsertionPoint])
    | false =>
      rcases n.exchange_value_cases hp.head hi v with ⟨e, -, he⟩ | ⟨vs, x', hr, hx', hasked⟩
      · rw [hx] at he
        exact absurd he (by simp)
      · obtain rfl : x = x' := Except.ok.inj (hx.symm.trans hx')
        rw [hasked, List.forall₂_map_left_iff] at hrs
        rw [hr]
        refine Reached.error_join_eq_none_iff.2 fun w hw => ?_
        obtain ⟨r', -, hw⟩ := Related.exists_mem hrs hw
        exact ih hp.tail hw

theorem rewriteAlong_append (p q : List Navigator) (update : Focus → Except NavError Focus) :
    rewriteAlong (p ++ q) update = rewriteAlong p (rewriteAlong q update) := by
  induction p with
  | nil => rfl
  | cons n p ih =>
    funext s
    rw [List.cons_append, rewriteAlong, rewriteAlong, ih]

end Navigator

/-- A document rebuilt by a function of the focus is rewritten along the path. -/
theorem Path.map_eq (p : Path) (hp : Navigator.BuiltIn p.navigators) (f : Focus → Focus)
    (v : Value) :
    p.map f v =
      Navigator.rewriteAlong p.navigators (fun s => .ok (f s)) (.value v) >>= p.finish := by
  have h : (p.transform (fun s => pure (f s)) v : Action Unit Value) =
      Action.ofExcept (Navigator.rewriteAlong p.navigators (fun s => .ok (f s)) (.value v) >>=
        p.finish) := by
    rw [Action.ofExcept_bind, ← Navigator.transformAlong_ofExcept p.navigators hp]
    rfl
  rw [Path.map, h, Action.exec_ofExcept]

end DocPath
