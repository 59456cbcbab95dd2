import DocPath.Proofs.Exchange

/-!
# Selecting and transforming visit the same places

A transform calls its update on the focuses that selecting hands on, in the same order and each of
them once. An error may stop it early; then it has come to the first few of them only.

* `Path.visited`, `Path.offered` — the focuses that a transform calls its update with, and those
  that selecting hands to a terminal;
* `Path.SelectsAs`, `Path.TransformsAs` — paths that cannot be told apart at a place;
* `Follows` — an action that calls its update on the focuses of a traversal, or fails on the way;
* `Navigator.follows_transformAlong` — **a transform follows what its path reaches**;
* `Navigator.related_selectAlong`, `Navigator.related_transformAlong` — **what relates the calls of two
  runs relates the runs**;
* `Path.transform_visits_selected` — the same for whole paths, with any update and terminal.
-/

namespace DocPath

variable {σ τ α β : Type}

/-- The focuses that a transform calls its update with, in order, up to its end or failure. -/
def Path.visited (p : Path) (s : Focus) (update : Focus → Action σ Focus) (st : σ) : List Focus :=
  ((p.transformWith s (Action.logged update)).exec (st, [])).2.2

/-- The focuses that selecting hands to a terminal that cannot fail, in order. -/
def Path.offered (p : Path) (v : Value) (terminal : Value → StateM τ Unit) (st : τ) :
    List Value :=
  ((p.selectWith v (Action.logged fun w => ExceptT.lift (terminal w))).exec (st, [])).2.2

/-- Selecting through `p` is selecting through `p'`: any terminal is called alike, and any failure is
the same. -/
def Path.SelectsAs (p p' : Path) (v : Value) : Prop :=
  ∀ (ρ : Type) (terminal : Value → Action ρ Unit), p.selectWith v terminal = p'.selectWith v terminal

/-- Transforming through `p` is transforming through `p'`: the result, the failure and the state after it
are the same from every state, and so are the focuses that the update is called with. -/
structure Path.TransformsAs (p p' : Path) (s : Focus) (update : Focus → Action σ Focus) : Prop where
  run_eq : p.transformWith s update = p'.transformWith s update
  visited_eq : ∀ st, p.visited s update st = p'.visited s update st

theorem Path.SelectsAs.select_eq {p p' : Path} {v : Value} (h : p.SelectsAs p' v) :
    p.select v = p'.select v := by
  rw [Path.select, Path.select, h]

/-- What holds for an update that writes down its calls decides which focuses are visited. -/
theorem Path.transformsAs_of_logged {p p' : Path} {s : Focus} {update : Focus → Action σ Focus}
    (h : p.transformWith s update = p'.transformWith s update)
    (hlogged : p.transformWith s (Action.logged update) = p'.transformWith s (Action.logged update)) :
    p.TransformsAs p' s update := by
  refine ⟨h, fun st => ?_⟩
  rw [Path.visited, Path.visited, hlogged]

/-! ### Following a traversal -/

/-- The action adds to its log the first few focuses of the traversal, and all of them if it
succeeds, which it does only where the traversal has no error. -/
def Follows (r : Reached) (a : Action (σ × List Focus) α) : Prop :=
  ∀ s log, ∃ seen : List Value,
    (a.exec (s, log)).2.2 = log ++ seen.map .value ∧ seen <+: r.focuses ∧
      ∀ x, (a.exec (s, log)).1 = .ok x → r.error = none ∧ seen = r.focuses

theorem follows_ofExcept (x : Except NavError α) :
    Follows .nothing (Action.ofExcept x : Action (σ × List Focus) α) := by
  intro s log
  refine ⟨[], ?_, List.prefix_refl [], fun _ _ => ⟨rfl, rfl⟩⟩
  rw [Action.exec_ofExcept, List.map_nil, List.append_nil]

theorem follows_throw (e e' : NavError) :
    Follows ⟨[], some e⟩ (throw e' : Action (σ × List Focus) α) := by
  intro s log
  refine ⟨[], ?_, List.prefix_refl [], fun x hx => ?_⟩
  · rw [Action.exec_throw, List.map_nil, List.append_nil]
  · rw [Action.exec_throw] at hx
    exact absurd hx (by simp)

theorem follows_logged (update : Focus → Action σ Focus) (v : Value) :
    Follows ⟨[v], none⟩ (Action.logged update (.value v)) := by
  intro s log
  refine ⟨[v], ?_, List.prefix_refl [v], fun _ _ => ⟨rfl, rfl⟩⟩
  rw [Action.exec_logged]
  rfl

/-- One action after another follows one traversal after another. -/
theorem Follows.bind {r r' : Reached} {a : Action (σ × List Focus) α}
    {f : α → Action (σ × List Focus) β} (ha : Follows r a) (hf : ∀ x, Follows r' (f x)) :
    Follows (r ++ r') (a >>= f) := by
  intro s log
  obtain ⟨seen, hlog, hpre, hok⟩ := ha s log
  rw [Action.exec_bind]
  rcases hae : a.exec (s, log) with ⟨_ | x, s₁, log₁⟩
  · rw [hae] at hlog
    refine ⟨seen, hlog, ?_, fun x hx => absurd hx (by simp)⟩
    cases he : r.error with
    | none =>
      rw [Reached.append_of_error_none he]
      exact hpre.trans (List.prefix_append r.focuses r'.focuses)
    | some e => rwa [Reached.append_of_error_some he]
  · rw [hae] at hlog hok
    obtain ⟨herr, hseen⟩ := hok x rfl
    have hlog : log₁ = log ++ seen.map .value := hlog
    obtain ⟨seen', hlog', hpre', hok'⟩ := hf x s₁ log₁
    rw [Reached.append_of_error_none herr, ← hseen]
    refine ⟨seen ++ seen', ?_, List.prefix_append_right_inj seen |>.2 hpre', fun y hy => ?_⟩
    · rw [hlog', hlog, List.map_append, List.append_assoc]
    · obtain ⟨herr', hseen'⟩ := hok' y hy
      exact ⟨herr', congrArg (seen ++ ·) hseen'⟩

theorem Follows.bind_ofExcept {r : Reached} {a : Action (σ × List Focus) α}
    {f : α → Action (σ × List Focus) β} (ha : Follows r a) (hf : ∀ x, Follows .nothing (f x)) :
    Follows r (a >>= f) := by
  rw [← Reached.append_nothing r]
  exact ha.bind hf

theorem Follows.mapM {R : Value → Reached} {g : Focus → Action (σ × List Focus) β}
    (h : ∀ v, Follows (R v) (g (.value v))) (vs : List Value) :
    Follows (.join R vs) ((vs.map Focus.value).mapM g) := by
  induction vs with
  | nil => exact follows_ofExcept (.ok [])
  | cons v vs ih =>
    rw [List.map_cons, List.mapM_cons]
    exact (h v).bind fun y => ih.bind_ofExcept fun ys => follows_ofExcept (.ok (y :: ys))

/-- An exchange follows the traversals that start at the focuses asked about. -/
theorem Follows.carryOut {R : Value → Reached} {next : Focus → Action (σ × List Focus) Focus}
    (h : ∀ v, Follows (R v) (next (.value v))) (x : Exchange) (vs : List Value)
    (hx : x.asked = vs.map .value) : Follows (.join R vs) (x.carryOut next) := by
  have hask (v : Value) : Follows (R v) (x.ask next (.value v)) :=
    (h v).bind_ofExcept fun r => by
      rw [← Reached.append_nothing .nothing]
      exact (follows_ofExcept (x.check r)).bind fun _ => follows_ofExcept (.ok r)
  rw [Exchange.carryOut, hx]
  exact (Follows.mapM hask vs).bind_ofExcept fun rs => follows_ofExcept (x.rebuild rs)

namespace Navigator

/-! ### Paths -/

/-- **A transform follows what its path reaches.** -/
theorem follows_transformAlong (path : List Navigator)
    (hp : ∀ n ∈ path, n.isCustom = false ∧ n.isInsertionPoint = false) (v : Value)
    (update : Focus → Action σ Focus) :
    Follows (reachedAlong path v) (transformAlong path (.value v) (Action.logged update)) := by
  induction path generalizing v with
  | nil => exact follows_logged update v
  | cons n path ih =>
    obtain ⟨hn, hi⟩ := hp n List.mem_cons_self
    have ih := ih fun m hm => hp m (List.mem_cons_of_mem n hm)
    rw [reachedAlong, transformAlong, transform_eq_carryOut n hn]
    rcases n.exchange_value_cases hn hi v with ⟨e, hr, hx⟩ | ⟨vs, x, hr, hx, hasked⟩
    · rw [hr, hx]
      exact follows_throw e e
    · rw [hr, hx]
      exact Follows.carryOut ih x vs hasked

/-- **What relates the calls of two terminals relates the traversals that make them.** -/
theorem related_selectAlong {R : (α : Type) → Action σ α → Action τ α → Prop}
    (hR : Action.Parametric R) (path : List Navigator) (hp : BuiltIn path)
    (t : Value → Action σ Unit) (t' : Value → Action τ Unit) (h : ∀ v, R Unit (t v) (t' v))
    (v : Value) : R Unit (selectAlong path v t) (selectAlong path v t') := by
  have hvisit (vs : List Value) : R Unit (visit vs t) (visit vs t') := by
    induction vs with
    | nil => exact hR.ofExcept (.ok ())
    | cons v vs ih => exact hR.bind (h v) fun _ => ih
  rw [selectAlong_eq_visit path hp, selectAlong_eq_visit path hp, Reached.visit, Reached.visit]
  refine hR.bind (hvisit _) fun _ => ?_
  cases (reachedAlong path v).error with
  | none => exact hR.ofExcept (.ok ())
  | some e => exact hR.ofExcept (.error e)

/-- At one navigator: all that it does besides is to test the answers and put them together. -/
theorem related_transform {R : (α : Type) → Action σ α → Action τ α → Prop}
    (hR : Action.Parametric R) {n : Navigator} (hn : n.isCustom = false) (next : Continuation σ)
    (next' : Continuation τ) (h : ∀ f, R Focus (next f) (next' f)) (s : Focus) :
    R Focus (n.transform s next) (n.transform s next') := by
  rw [transform_eq_carryOut n hn, transform_eq_carryOut n hn]
  refine hR.bind (hR.ofExcept (n.exchange s)) fun x => ?_
  refine hR.bind (hR.mapM (fun f => ?_) x.asked) fun rs => hR.ofExcept (x.rebuild rs)
  exact hR.bind (h f) fun r => hR.bind (hR.ofExcept (x.check r)) fun _ => hR.ofExcept (.ok r)

/-- **What relates the calls of two updates relates the transforms that make them.** -/
theorem related_transformAlong {R : (α : Type) → Action σ α → Action τ α → Prop}
    (hR : Action.Parametric R) (path : List Navigator) (hp : BuiltIn path)
    (u : Focus → Action σ Focus) (u' : Focus → Action τ Focus) (h : ∀ f, R Focus (u f) (u' f))
    (s : Focus) : R Focus (transformAlong path s u) (transformAlong path s u') := by
  induction path generalizing s with
  | nil => exact h s
  | cons n path ih => exact related_transform hR hp.head _ _ (ih hp.tail) s

/-- A terminal that keeps something more does so in the whole traversal. -/
theorem watches_selectAlong (path : List Navigator) (hp : BuiltIn path)
    {watching : Value → Action (σ × τ) Unit} {terminal : Value → Action σ Unit}
    (ht : ∀ v, Action.Watches (watching v) (terminal v)) (v : Value) :
    Action.Watches (selectAlong path v watching) (selectAlong path v terminal) :=
  related_selectAlong Action.parametric_watches path hp _ _ ht v

/-- An update that keeps something more does so in the whole transform. -/
theorem watches_transformAlong (path : List Navigator) (hp : BuiltIn path)
    {watching : Focus → Action (σ × τ) Focus} {update : Focus → Action σ Focus}
    (hu : ∀ f, Action.Watches (watching f) (update f)) (s : Focus) :
    Action.Watches (transformAlong path s watching) (transformAlong path s update) :=
  related_transformAlong Action.parametric_watches path hp _ _ hu s

/-- What every call of the update keeps of the state, the whole transform keeps. -/
theorem maintains_transformAlong (path : List Navigator) (hp : BuiltIn path) {I : σ → Prop}
    {update : Focus → Action σ Focus} (hu : ∀ f, Action.Maintains I (update f)) (s : Focus) :
    Action.Maintains I (transformAlong path s update) :=
  related_transformAlong (Action.parametric_maintains I) path hp update update hu s

end Navigator

/-- Paths of built-in navigators that reach the same select alike. -/
theorem Path.selectsAs_of_reached {p p' : Path} (hp : Navigator.BuiltIn p.navigators)
    (hp' : Navigator.BuiltIn p'.navigators) {v : Value}
    (h : Navigator.reachedAlong p.navigators v = Navigator.reachedAlong p'.navigators v) :
    p.SelectsAs p' v := by
  intro ρ terminal
  rw [Path.selectWith, Path.selectWith, Navigator.selectAlong_eq_visit _ hp,
    Navigator.selectAlong_eq_visit _ hp', h]

/-- What selecting offers to a terminal is what the path reaches. -/
theorem Path.offered_eq (p : Path) (hp : Navigator.BuiltIn p.navigators) (v : Value)
    (terminal : Value → StateM τ Unit) (st : τ) :
    p.offered v terminal st = (Navigator.reachedAlong p.navigators v).focuses := by
  rw [Path.offered, Path.selectWith, Navigator.selectAlong_eq_visit _ hp,
    Reached.exec_visit_logged, List.nil_append]

/-- **A transform visits what selecting reaches.** The focuses that its update is called with are
the first few of those that selecting hands on. If the transform succeeds then so does selecting,
and the update was called with every focus, once and in order, whatever it answered. -/
theorem Path.transform_visits_selected (p : Path)
    (hp : ∀ n ∈ p.navigators, n.isCustom = false ∧ n.isInsertionPoint = false) (v : Value)
    (update : Focus → Action σ Focus) (st : σ) (terminal : Value → StateM τ Unit) (st₀ : τ) :
    p.visited (.value v) update st <+: (p.offered v terminal st₀).map .value ∧
      ∀ r st', (p.transformWith (.value v) update).exec st = (.ok r, st') →
        p.select v = .ok (p.offered v terminal st₀) ∧
          p.visited (.value v) update st = (p.offered v terminal st₀).map .value := by
  have hb : Navigator.BuiltIn p.navigators := fun n hn => (hp n hn).1
  obtain ⟨seen, hlog, hpre, hok⟩ :=
    Navigator.follows_transformAlong p.navigators hp v update st []
  have hvisited : p.visited (.value v) update st = seen.map .value := hlog
  rw [p.offered_eq hb, hvisited]
  refine ⟨hpre.map _, fun r st' hr => ?_⟩
  have hlogged := (Navigator.watches_transformAlong p.navigators hb (Action.watches_logged update)
    (.value v)).exec_eq hr ([] : List Focus)
  obtain ⟨herr, hseen⟩ := hok r (congrArg Prod.fst hlogged)
  rw [hseen, p.select_eq_toExcept hb, Reached.toExcept, herr]
  exact ⟨rfl, rfl⟩

/-- A run in which the first answer removes its place: both focuses are still visited. -/
theorem Path.transform_visits_selected_removing :
    let p : Path := ⟨[.filterer [.key "a"], .all, .key "a"], {}⟩
    let v : Value :=
      .sequence [.mapping [("a", .integer 1)], .integer 2, .mapping [("a", .null)]]
    let update : Focus → Action Nat Focus := fun f => do
      let calls ← get
      set (calls + 1)
      pure (if calls = 0 then .absent else f)
    p.visited (.value v) update 0 <+: [.value (.integer 1), .value .null] ∧
      p.select v = .ok [.integer 1, .null] ∧
        p.visited (.value v) update 0 = [.value (.integer 1), .value .null] := by
  intro p v update
  have hrun : (p.transformWith (.value v) update).exec 0 =
      (.ok (.value (.sequence [.mapping [], .integer 2, .mapping [("a", .null)]])), 2) := by
    rfl
  have hoffered : p.offered v (fun _ => (pure () : StateM Unit Unit)) () = [.integer 1, .null] := by
    rfl
  have h := Path.transform_visits_selected p (by decide) v update 0
    (fun _ => (pure () : StateM Unit Unit)) ()
  rw [hoffered] at h
  exact ⟨h.1, h.2 _ _ hrun⟩

end DocPath
