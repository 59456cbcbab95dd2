import DocPath.Path
import DocPath.Proofs.Action

/-!
# What a path reaches

A built-in navigator hands on a list of focuses that the value alone fixes, or fails before the
first one. A path of such navigators therefore has a meaning free of terminals: the focuses it
comes to, in order, and the error that cuts the traversal short, if there is one.

* `Navigator.reach`, `Navigator.select_eq_reach` — the focuses of one navigator;
* `Reached` — a list of focuses and the error after them;
* `Reached.visit_append`, `Reached.visit_join` — visiting one part after another;
* `Navigator.reachedAlong`, `Navigator.selectAlong_eq_visit` — **selecting along a path is
  visiting what the path reaches**;
* `Navigator.matchesAlong_eq`, `Path.select_eq_toExcept`, `Path.select_singleton` — what matching and
  selecting answer.
-/

namespace DocPath

variable {σ τ : Type}

namespace Navigator

/-! ### One navigator -/

/-- No navigator of the user stands on the path itself. -/
def BuiltIn (path : List Navigator) : Prop := ∀ n ∈ path, n.isCustom = false

theorem BuiltIn.head {n : Navigator} {path : List Navigator} (h : BuiltIn (n :: path)) :
    n.isCustom = false := h n List.mem_cons_self

theorem BuiltIn.tail {n : Navigator} {path : List Navigator} (h : BuiltIn (n :: path)) :
    BuiltIn path := fun m hm => h m (List.mem_cons_of_mem n hm)

/-- The focuses that a built-in navigator hands on. -/
def reach : Navigator → Value → Except NavError (List Value)
  | .all, v => .ok (elements v)
  | .mapVals, v => valuesIn v
  | .mapKeys, v => keysIn v
  | .first, v => firstIn v
  | .last, v => lastIn v
  | .key name, v => .ok [valueUnder name v]
  | .nth index, v => .ok [itemUnder index v]
  | .pred holds, v => .ok (if holds v then [v] else [])
  | .view project, v => .ok [project v]
  | .parser parse _, v => (parse v).map fun w => [w]
  | .submap names, v => (partOf names v).map fun w => [w]
  | .filterer path, v => matchingIn (matchesAlong path) v
  | _, _ => .ok []

/-- **A built-in navigator hands on a list that the value alone fixes.** -/
theorem select_eq_reach (n : Navigator) (hn : n.isCustom = false) (v : Value)
    (next : Value → Action σ Unit) : n.select v next = visitReached (n.reach v) next := by
  cases n with
  | pred holds =>
    show (if holds v then next v else pure ()) = visit (if holds v then [v] else []) next
    cases holds v with
    | false => rfl
    | true => exact (bind_pure (next v)).symm
  | key name => exact (bind_pure (next (valueUnder name v))).symm
  | nth index => exact (bind_pure (next (itemUnder index v))).symm
  | view project => exact (bind_pure (next (project v))).symm
  | custom user => exact absurd (show true = false from hn) (by decide)
  | _ => rfl

end Navigator

/-! ### Focuses and the error after them -/

/-- The focuses that a traversal comes to, and the error that ends it early. -/
structure Reached where
  focuses : List Value
  error : Option NavError

namespace Reached

/-- Nothing is reached, and nothing fails. -/
def nothing : Reached := ⟨[], none⟩

/-- One traversal and then another, which does not begin if the first one fails. -/
def append (a b : Reached) : Reached :=
  match a.error with
  | none => ⟨a.focuses ++ b.focuses, b.error⟩
  | some _ => a

instance : Append Reached := ⟨append⟩

/-- The traversals that start at each of the values, one after another. -/
def join (g : Value → Reached) : List Value → Reached
  | [] => nothing
  | v :: vs => g v ++ join g vs

/-- Goes on from each focus, and fails as the first traversal did where it ended. -/
def andThen (g : Value → Reached) : Except NavError (List Value) → Reached
  | .ok vs => join g vs
  | .error e => ⟨[], some e⟩

/-- Hands every focus to `next`, then fails if the traversal did. -/
def visit (r : Reached) (next : Value → Action σ Unit) : Action σ Unit := do
  Navigator.visit r.focuses next
  match r.error with
  | none => pure ()
  | some e => throw e

/-- The focuses, unless the traversal failed. -/
def toExcept (r : Reached) : Except NavError (List Value) :=
  match r.error with
  | none => .ok r.focuses
  | some e => .error e

theorem toExcept_eq_ok_iff {r : Reached} {ws : List Value} :
    r.toExcept = .ok ws ↔ r = ⟨ws, none⟩ := by
  obtain ⟨vs, _ | e⟩ := r <;> simp [toExcept]

theorem toExcept_eq_error_iff {r : Reached} {e : NavError} :
    r.toExcept = .error e ↔ r.error = some e := by
  obtain ⟨vs, _ | e'⟩ := r <;> simp [toExcept]

theorem append_of_error_none {a : Reached} (h : a.error = none) (b : Reached) :
    a ++ b = ⟨a.focuses ++ b.focuses, b.error⟩ := by
  show append a b = _
  rw [append, h]

theorem append_of_error_some {a : Reached} {e : NavError} (h : a.error = some e) (b : Reached) :
    a ++ b = a := by
  show append a b = _
  rw [append, h]

theorem append_nothing (a : Reached) : a ++ nothing = a := by
  obtain ⟨vs, e⟩ := a
  cases e with
  | none => exact congrArg (fun ws => (⟨ws, none⟩ : Reached)) (List.append_nil vs)
  | some e => rfl

theorem error_append_eq_none {a b : Reached} :
    (a ++ b).error = none ↔ a.error = none ∧ b.error = none := by
  cases h : a.error with
  | none => rw [append_of_error_none h]; simp
  | some e => rw [append_of_error_some h, h]; simp

/-- Several traversals one after another have no error exactly when none of them has one. -/
theorem error_join_eq_none_iff {g : Value → Reached} {vs : List Value} :
    (join g vs).error = none ↔ ∀ v ∈ vs, (g v).error = none := by
  induction vs with
  | nil => exact ⟨fun _ v hv => absurd hv List.not_mem_nil, fun _ => rfl⟩
  | cons v vs ih => rw [join, error_append_eq_none, ih, List.forall_mem_cons]

theorem focuses_join {g : Value → Reached} {vs : List Value} (h : (join g vs).error = none) :
    (join g vs).focuses = vs.flatMap fun v => (g v).focuses := by
  induction vs with
  | nil => rfl
  | cons v vs ih =>
    rw [join, error_append_eq_none] at h
    rw [join, append_of_error_none h.1, List.flatMap_cons, ← ih h.2]

theorem join_congr {g : Value → Reached} {vs ws : List Value}
    (h : List.Forall₂ (fun v w => g w = g v) vs ws) : join g ws = join g vs := by
  induction h with
  | nil => rfl
  | cons h _ ih => rw [join, join, h, ih]

theorem visit_append (a b : Reached) (next : Value → Action σ Unit) :
    (a ++ b).visit next = (do a.visit next; b.visit next) := by
  have hlist : Navigator.visit (a.focuses ++ b.focuses) next =
      (do Navigator.visit a.focuses next; Navigator.visit b.focuses next) := List.forM_append
  cases h : a.error with
  | none =>
    rw [append_of_error_none h]
    simp only [visit, h, hlist, bind_assoc, pure_bind]
  | some e =>
    rw [append_of_error_some h]
    simp only [visit, h, bind_assoc]
    congr 1

theorem visit_join (g : Value → Reached) (vs : List Value) (next : Value → Action σ Unit) :
    (join g vs).visit next = Navigator.visit vs fun v => (g v).visit next := by
  induction vs with
  | nil => rfl
  | cons v vs ih =>
    show (g v ++ join g vs).visit next = (do (g v).visit next; Navigator.visit vs _)
    rw [visit_append, ih]

theorem visit_andThen (g : Value → Reached) (r : Except NavError (List Value))
    (next : Value → Action σ Unit) :
    (andThen g r).visit next = Navigator.visitReached r fun v => (g v).visit next := by
  cases r with
  | error e => rfl
  | ok vs => exact visit_join g vs next

/-- Visiting with a terminal that cannot fail writes down all the focuses. -/
theorem exec_visit_logged (r : Reached) (terminal : Value → StateM τ Unit) (st : τ)
    (log : List Value) :
    ((r.visit (Action.logged fun w => ExceptT.lift (terminal w))).exec (st, log)).2.2 =
      log ++ r.focuses := by
  obtain ⟨vs, e⟩ := r
  induction vs generalizing st log with
  | nil => cases e <;> exact (List.append_nil log).symm
  | cons v vs ih =>
    have h := ih (terminal v st).2 (log ++ [v])
    rw [List.append_assoc] at h
    exact h

/-- Visiting with a terminal that collects gives the focuses back, the last one first. -/
theorem exec_visit_collect (r : Reached) (acc : List Value) :
    (r.visit fun w => modify (w :: ·)).exec acc =
      (r.toExcept.map fun _ => (), r.focuses.reverse ++ acc) := by
  obtain ⟨vs, e⟩ := r
  induction vs generalizing acc with
  | nil => cases e <;> rfl
  | cons v vs ih =>
    have h := ih (v :: acc)
    rw [List.reverse_cons, List.append_assoc]
    cases e <;> exact h

/-- Visiting with a terminal that looks for something defined says whether there was any. -/
theorem exec_visit_found (r : Reached) (found : Bool) :
    (r.visit fun w => modify (· || w.isDefined)).exec found =
      (r.toExcept.map fun _ => (), found || r.focuses.any Value.isDefined) := by
  obtain ⟨vs, e⟩ := r
  induction vs generalizing found with
  | nil => cases e <;> exact congrArg (Prod.mk _) (Bool.or_false found).symm
  | cons v vs ih =>
    have h := ih (found || v.isDefined)
    rw [Bool.or_assoc] at h
    cases e <;> exact h

end Reached

namespace Navigator

/-! ### Paths -/

/-- What a path of built-in navigators reaches. -/
def reachedAlong : List Navigator → Value → Reached
  | [], v => ⟨[v], none⟩
  | n :: path, v => .andThen (reachedAlong path) (n.reach v)

/-- **Selecting along a path is visiting what the path reaches.** -/
theorem selectAlong_eq_visit (path : List Navigator) (hp : BuiltIn path) (v : Value)
    (terminal : Value → Action σ Unit) :
    selectAlong path v terminal = (reachedAlong path v).visit terminal := by
  induction path generalizing v with
  | nil => exact (show terminal v = (do (do terminal v; pure ()); pure ()) by
      rw [bind_pure, bind_pure])
  | cons n path ih =>
    have hn := select_eq_reach n hp.head v fun w => selectAlong path w terminal
    rw [reachedAlong, Reached.visit_andThen, selectAlong, hn]
    congr 1
    funext w
    exact ih hp.tail w

/-- A path matches where it reaches something defined, unless an error cuts it short. -/
theorem matchesAlong_eq (path : List Navigator) (hp : BuiltIn path) (v : Value) :
    matchesAlong path v =
      (reachedAlong path v).toExcept.map fun ws => ws.any Value.isDefined := by
  rw [matchesAlong, findsDefined, selectAlong_eq_visit path hp, Reached.exec_visit_found,
    Bool.false_or, Reached.toExcept]
  cases (reachedAlong path v).error <;> rfl

end Navigator

/-- The answer of `Path.select` is what the path reaches, unless an error cut it short. -/
theorem Path.select_eq_toExcept (p : Path) (hp : Navigator.BuiltIn p.navigators) (v : Value) :
    p.select v = (Navigator.reachedAlong p.navigators v).toExcept := by
  rw [Path.select, Path.selectWith, Navigator.selectAlong_eq_visit p.navigators hp,
    Reached.exec_visit_collect, Reached.toExcept]
  cases (Navigator.reachedAlong p.navigators v).error with
  | none => simp [Except.map]
  | some e => rfl

/-- A path of one built-in navigator selects what it hands on. -/
theorem Path.select_singleton {n : Navigator} (hn : n.isCustom = false) (config : Config) (v : Value) :
    (⟨[n], config⟩ : Path).select v = n.reach v := by
  have hb : Navigator.BuiltIn [n] := List.forall_mem_singleton.2 hn
  rw [Path.select_eq_toExcept _ hb, Navigator.reachedAlong]
  cases n.reach v with
  | error e => rfl
  | ok ws =>
    apply Reached.toExcept_eq_ok_iff.2
    show Reached.join (Navigator.reachedAlong []) ws = ⟨ws, none⟩
    induction ws with
    | nil => rfl
    | cons w ws ih => rw [Reached.join, ih]; rfl

end DocPath
