import DocPath.Proofs.Index
import DocPath.Proofs.Independence

/-!
# Keys and indices

A key and an index lead to one child of a value, and a path of them to one place, even where nothing is.
What an update answers about this place is put back into its parent, then the parent into its own, up to
the root: so the last steps decide first whether something can be written, and the error of the last step
that refuses is the one that shows.

* `Navigator.isAccess`, `Navigator.child`, `Navigator.childAlong` — the steps, and where they lead;
* `Navigator.putChild`, `Navigator.putAlong` — an answer put back, by one step and along a path;
* `Navigator.rewriteAlong_access` — **an update along such a path asks once and puts the answer back**;
* `Navigator.Admits`, `Navigator.refusal` — where something can be written, and the error elsewhere;
* `Navigator.putAlong_defined`, `Path.write_succeeds_iff` — **when a write succeeds, and how it fails**;
* `Path.select_step`, `Path.setValue_step` — paths of one step.
-/

namespace DocPath

namespace Navigator

/-- The steps to one child, present or missing. -/
def isAccess : Navigator → Bool
  | .key _ | .nth _ => true
  | _ => false

/-- The child that a key or an index leads to, `undefined` where there is none. -/
def child : Navigator → Value → Value
  | .key name, v => valueUnder name v
  | .nth index, v => itemUnder index v
  | _, v => v

/-- The place that a path of keys and indices leads to. -/
def childAlong : List Navigator → Value → Value
  | [], v => v
  | n :: path, v => childAlong path (n.child v)

/-- The value with an answer in the place of its child. -/
def putChild (n : Navigator) (v : Value) (r : Focus) : Except NavError Focus :=
  n.exchange (.value v) >>= fun x => x.rebuild [r]

/-- The value with an answer in the place that a path leads to. -/
def putAlong : List Navigator → Value → Focus → Except NavError Focus
  | [], _, r => .ok r
  | n :: path, v, r => putAlong path (n.child v) r >>= n.putChild v

variable {n : Navigator} {path : List Navigator}

theorem eq_key_or_eq_nth (hn : n.isAccess = true) :
    (∃ name, n = .key name) ∨ ∃ index, n = .nth index := by
  cases n with
  | key name => exact .inl ⟨name, rfl⟩
  | nth index => exact .inr ⟨index, rfl⟩
  | _ => exact absurd hn Bool.false_ne_true

theorem isCustom_of_isAccess (hn : n.isAccess = true) : n.isCustom = false := by
  obtain ⟨name, rfl⟩ | ⟨index, rfl⟩ := eq_key_or_eq_nth hn <;> rfl

theorem descends_of_isAccess (hn : n.isAccess = true) : n.Descends := by
  obtain ⟨name, rfl⟩ | ⟨index, rfl⟩ := eq_key_or_eq_nth hn <;> exact trivial

theorem builtIn_of_isAccess (hp : ∀ n ∈ path, n.isAccess = true) : BuiltIn path :=
  fun n hn => isCustom_of_isAccess (hp n hn)

/-! ### One place -/

theorem reach_access (hn : n.isAccess = true) (v : Value) : n.reach v = .ok [n.child v] := by
  obtain ⟨name, rfl⟩ | ⟨index, rfl⟩ := eq_key_or_eq_nth hn <;> rfl

/-- A path of keys and indices reaches one place. -/
theorem reachedAlong_access (hp : ∀ n ∈ path, n.isAccess = true) (v : Value) :
    reachedAlong path v = ⟨[childAlong path v], none⟩ := by
  induction path generalizing v with
  | nil => rfl
  | cons n path ih =>
    obtain ⟨hn, hp⟩ := List.forall_mem_cons.1 hp
    rw [reachedAlong, reach_access hn, Reached.andThen, Reached.join, Reached.join,
      Reached.append_nothing, ih hp, childAlong]

theorem childAlong_append (p q : List Navigator) (v : Value) :
    childAlong (p ++ q) v = childAlong q (childAlong p v) := by
  induction p generalizing v with
  | nil => rfl
  | cons n p ih => exact ih (n.child v)

theorem putAlong_append (p q : List Navigator) (v : Value) (r : Focus) :
    putAlong (p ++ q) v r = putAlong q (childAlong p v) r >>= putAlong p v := by
  induction p generalizing v with
  | nil => exact (bind_pure (putAlong q v r)).symm
  | cons n p ih =>
    rw [List.cons_append, putAlong, ih, bind_assoc]
    rfl

/-- A key or an index asks about its child alone. -/
theorem exchange_access (hn : n.isAccess = true) (v : Value) :
    ∃ put, n.exchange (.value v) = .ok (.single (.value (n.child v)) put) := by
  have hunreachable (e : NavError) :
      ∃ put, Exchange.unreachable e (.value v) = .single (.value .undefined) put := ⟨_, rfl⟩
  cases n with
  | key name =>
    obtain ⟨put, hput⟩ := exchangeKey_eq_single name v
    exact ⟨put, congrArg Except.ok hput⟩
  | nth index =>
    have hnth : ∃ put, exchangeNth index (.value v) = .single (.value (itemUnder index v)) put := by
      cases v with
      | sequence vs =>
        rw [exchangeNth, itemUnder, Sequence.itemAt?]
        cases Sequence.resolveIndex index vs.length with
        | none => exact hunreachable _
        | some i => exact ⟨_, rfl⟩
      | _ => exact hunreachable _
    obtain ⟨put, hput⟩ := hnth
    exact ⟨put, congrArg Except.ok hput⟩
  | _ => exact absurd hn Bool.false_ne_true

/-- A key or an index puts back what is answered about its child. -/
theorem rewrite_access (hn : n.isAccess = true) (update : Focus → Except NavError Focus)
    (v : Value) : n.rewrite update (.value v) = update (.value (n.child v)) >>= n.putChild v := by
  obtain ⟨put, hx⟩ := exchange_access hn v
  have hput : n.putChild v = fun r => (Exchange.single (.value (n.child v)) put).rebuild [r] := by
    funext r
    rw [putChild, hx]
    rfl
  rw [rewrite, hx, hput]
  exact Exchange.settle_single _ put update

/-- **An update along keys and indices asks about one place and puts the answer back.** -/
theorem rewriteAlong_access (hp : ∀ n ∈ path, n.isAccess = true)
    (update : Focus → Except NavError Focus) (v : Value) :
    rewriteAlong path update (.value v) =
      update (.value (childAlong path v)) >>= putAlong path v := by
  induction path generalizing v with
  | nil => exact (bind_pure (update (.value v))).symm
  | cons n path ih =>
    obtain ⟨hn, hp⟩ := List.forall_mem_cons.1 hp
    rw [rewriteAlong, rewrite_access hn, ih hp, bind_assoc]
    rfl

/-! ### An index at a sequence -/

theorem exists_split_at {vs : List Value} {i : Nat} (h : i < vs.length) :
    ∃ before v after, vs = before ++ v :: after ∧ before.length = i :=
  ⟨vs.take i, vs[i], vs.drop (i + 1), by rw [List.getElem_cons_drop h, List.take_append_drop],
    List.length_take_of_le (Nat.le_of_lt h)⟩

/-- The answer stands in the place of the element, between those before it and those behind it. -/
theorem replaceAt_split (before after : List Value) (v : Value) (r : Focus) :
    Exchange.replaceAt (before ++ v :: after) before.length r = before ++ r.value?.toList ++ after := by
  cases r with
  | value w => simp [Exchange.replaceAt, Focus.value?]
  | absent =>
    rw [Exchange.replaceAt, List.eraseIdx_append_of_length_le (Nat.le_refl _), Nat.sub_self]
    simp [Focus.value?]

section

variable {index : Int64} {vs : List Value} {i : Nat}

theorem child_nth (hi : Sequence.resolveIndex index vs.length = some i) :
    (nth index).child (.sequence vs) = vs[i]?.getD .undefined := by
  rw [child, itemUnder, Sequence.itemAt?, hi, Option.bind_some]

theorem child_nth_of_none (hi : Sequence.resolveIndex index vs.length = none) :
    (nth index).child (.sequence vs) = .undefined := by
  rw [child, itemUnder, Sequence.itemAt?, hi, Option.bind_none, Option.getD_none]

theorem putChild_nth (hi : Sequence.resolveIndex index vs.length = some i) (r : Focus) :
    (nth index).putChild (.sequence vs) r =
      .ok (.value (.sequence (Exchange.replaceAt vs i r))) := by
  show (exchangeNth index (.value (.sequence vs))).rebuild [r] = _
  rw [exchangeNth, hi]
  rfl

theorem putChild_nth_of_none (hi : Sequence.resolveIndex index vs.length = none) (r : Focus) :
    (nth index).putChild (.sequence vs) r =
      (Exchange.unreachable (.indexOutOfRange index vs.length) (.value (.sequence vs))).rebuild [r] := by
  show (exchangeNth index (.value (.sequence vs))).rebuild [r] = _
  rw [exchangeNth, hi]

end

/-! ### Writing something -/

/-- Something defined can be written through the step: a key wants a mapping or a void value, and an
index an element that is there. -/
def Admits : Navigator → Value → Prop
  | .key _, v => v.isMapping = true ∨ v.isVoid = true
  | .nth index, .sequence vs => -(vs.length : Int) ≤ index.toInt ∧ index.toInt < vs.length
  | _, _ => False

/-- The error of a step through which nothing can be written. -/
def refusal : Navigator → Value → NavError
  | .nth index, .sequence vs => .indexOutOfRange index vs.length
  | .nth index, .null | .nth index, .undefined => .indexOutOfRange index 0
  | .nth _, v => .shapeMismatch "nth" "a sequence" v.kind
  | _, v => .shapeMismatch "key" "a mapping" v.kind

/-- Something defined that is put back through one step makes a defined value, or is refused. -/
theorem putChild_defined (hn : n.isAccess = true) {v w : Value} (hw : w.isDefined = true)
    (hlen : ∀ vs, v = .sequence vs → vs.length < 2 ^ 63) :
    (n.Admits v ∧ ∃ v', v'.isDefined = true ∧ n.putChild v (.value w) = .ok (.value v')) ∨
      (¬ n.Admits v ∧ n.putChild v (.value w) = .error (n.refusal v)) := by
  have hunreachable (e : NavError) :
      (Exchange.unreachable e (.value v)).rebuild [.value w] = .error e := by
    rw [Exchange.rebuild_unreachable, Focus.written, if_pos hw]
  cases n with
  | key name =>
    have hfresh : (Exchange.fresh name (.value v)).rebuild [.value w] =
        .ok (.value (.mapping [(name, w)])) := by
      rw [Exchange.rebuild_fresh, Focus.written, if_pos hw]
    cases v with
    | mapping m => exact .inl ⟨.inl rfl, _, rfl, rfl⟩
    | null => exact .inl ⟨.inr rfl, _, rfl, hfresh⟩
    | undefined => exact .inl ⟨.inr rfl, _, rfl, hfresh⟩
    | _ => exact .inr ⟨by simp [Admits, Value.isMapping, Value.isVoid], hunreachable _⟩
  | nth index =>
    cases v with
    | sequence vs =>
      have hrange := Sequence.exists_resolveIndex_iff (hlen vs rfl) index
      cases hi : Sequence.resolveIndex index vs.length with
      | some i =>
        exact .inl ⟨hrange.1 ⟨i, hi⟩, .sequence (vs.set i w), rfl, putChild_nth hi (.value w)⟩
      | none =>
        have hnone : ¬ ∃ i, Sequence.resolveIndex index vs.length = some i := by simp [hi]
        rw [putChild_nth_of_none hi]
        exact .inr ⟨fun hadmits => hnone (hrange.2 hadmits), hunreachable _⟩
    | _ => exact .inr ⟨id, hunreachable _⟩
  | _ => exact absurd hn Bool.false_ne_true

/-- The place to which the first `k` steps of the path lead. -/
def place (path : List Navigator) (v : Value) (k : Nat) : Value := childAlong (path.take k) v

/-- The step at position `k` refuses a write at the place it starts from, and no later one does. -/
def LastRefusal (path : List Navigator) (v : Value) (k : Nat) (n : Navigator) : Prop :=
  path[k]? = some n ∧ ¬ n.Admits (place path v k) ∧
    ∀ j (m : Navigator), k < j → path[j]? = some m → m.Admits (place path v j)

theorem LastRefusal.unique {v : Value} {k j : Nat} {m : Navigator} (hk : LastRefusal path v k n)
    (hj : LastRefusal path v j m) : k = j ∧ n = m := by
  obtain ⟨hn, hrefuses, hafter⟩ := hk
  obtain ⟨hm, hrefuses', hafter'⟩ := hj
  rcases Nat.lt_trichotomy k j with h | rfl | h
  · exact absurd (hafter j m h hm) hrefuses'
  · exact ⟨rfl, Option.some.inj (hn.symm.trans hm)⟩
  · exact absurd (hafter' k n h hn) hrefuses

/-- **Something defined that is put back along a path makes a defined value if every step admits it,
and else the last step that does not refuses it.** -/
theorem putAlong_defined (hp : ∀ n ∈ path, n.isAccess = true) {v w : Value}
    (hw : w.isDefined = true)
    (hlen : ∀ k vs, place path v k = .sequence vs → vs.length < 2 ^ 63) :
    ((∀ k (n : Navigator), path[k]? = some n → n.Admits (place path v k)) ∧
        ∃ v', v'.isDefined = true ∧ putAlong path v (.value w) = .ok (.value v')) ∨
      ∃ k n, LastRefusal path v k n ∧
        putAlong path v (.value w) = .error (n.refusal (place path v k)) := by
  induction path generalizing v with
  | nil => exact .inl ⟨fun k n h => absurd h (by simp), w, hw, rfl⟩
  | cons n path ih =>
    obtain ⟨hn, hp⟩ := List.forall_mem_cons.1 hp
    rcases ih hp (v := n.child v) fun k => hlen (k + 1) with
      ⟨hall, u, hu, hput⟩ | ⟨k, m, ⟨hk, hnot, hafter⟩, hput⟩
    · -- the steps after `n` write, so `n` has something defined to put back
      have hcons : putAlong (n :: path) v (.value w) = n.putChild v (.value u) := by
        rw [putAlong, hput]
        rfl
      rw [hcons]
      rcases putChild_defined hn hu (hlen 0) with ⟨hadmits, hwrite⟩ | ⟨hrefuses, herror⟩
      · refine .inl ⟨fun k m hm => ?_, hwrite⟩
        cases k with
        | zero => cases hm; exact hadmits
        | succ k => exact hall k m hm
      · refine .inr ⟨0, n, ⟨rfl, hrefuses, fun j m hj hm => ?_⟩, herror⟩
        cases j with
        | zero => exact absurd hj (Nat.lt_irrefl 0)
        | succ j => exact hall j m hm
    · refine .inr ⟨k + 1, m, ⟨hk, hnot, fun j m' hj hm' => ?_⟩, ?_⟩
      · cases j with
        | zero => exact absurd hj (Nat.not_lt_zero _)
        | succ j => exact hafter j m' (Nat.lt_of_succ_lt_succ hj) hm'
      · rw [putAlong, hput]
        rfl

end Navigator

/-! ### Paths of keys and indices -/

section

variable (p : Path) (hp : ∀ n ∈ p.navigators, n.isAccess = true)

include hp

theorem Path.select_access (v : Value) :
    p.select v = .ok [Navigator.childAlong p.navigators v] := by
  rw [p.select_eq_toExcept (Navigator.builtIn_of_isAccess hp), Navigator.reachedAlong_access hp]
  rfl

theorem Path.select_take (v : Value) (k : Nat) :
    (⟨p.navigators.take k, p.config⟩ : Path).select v =
      .ok [Navigator.place p.navigators v k] :=
  Path.select_access ⟨p.navigators.take k, p.config⟩ (fun n hn => hp n (List.mem_of_mem_take hn)) v

theorem Path.setValue_access (r : Focus) (v : Value) :
    p.setValue r v = Navigator.putAlong p.navigators v r >>= p.finish := by
  have h := p.map_eq (Navigator.builtIn_of_isAccess hp) (fun _ => r) v
  rw [Navigator.rewriteAlong_access hp] at h
  exact h

/-- **When a write along keys and indices succeeds, and how it fails.** Every step of the path starts at
one place. A write of something defined succeeds exactly when each step admits it there: a key at a
mapping or where nothing is yet, and an index at a sequence that has an element at it. Otherwise it fails
with the error of the last step that does not. That a sequence has fewer than 2^63 elements is what being
indexed by words means. -/
theorem Path.write_succeeds_iff {v w : Value} (hw : w.isDefined = true)
    (hlen : ∀ k vs, (⟨p.navigators.take k, p.config⟩ : Path).select v = .ok [.sequence vs] →
      vs.length < 2 ^ 63) :
    ∃ x : Nat → Value,
      (∀ k, (⟨p.navigators.take k, p.config⟩ : Path).select v = .ok [x k]) ∧
      ((∃ v', p.setValue (.value w) v = .ok v') ↔
        ∀ k (n : Navigator), p.navigators[k]? = some n → n.Admits (x k)) ∧
      ∀ k (n : Navigator), p.navigators[k]? = some n → ¬ n.Admits (x k) →
        (∀ j (m : Navigator), k < j → p.navigators[j]? = some m → m.Admits (x j)) →
          p.setValue (.value w) v = .error (n.refusal (x k)) := by
  have hselect := p.select_take hp v
  have hplace (k : Nat) (vs : List Value) (h : Navigator.place p.navigators v k = .sequence vs) :
      vs.length < 2 ^ 63 := hlen k vs (by rw [hselect, h])
  refine ⟨Navigator.place p.navigators v, hselect, ?_⟩
  rw [p.setValue_access hp]
  rcases Navigator.putAlong_defined hp hw hplace with
    ⟨hall, v', -, hput⟩ | ⟨k, n, hlast, hput⟩
  · rw [hput]
    exact ⟨⟨fun _ => hall, fun _ => ⟨v', rfl⟩⟩, fun k n hn hrefuses => absurd (hall k n hn) hrefuses⟩
  · rw [hput]
    refine ⟨⟨fun h => ?_, fun hall => absurd (hall k n hlast.1) hlast.2.1⟩, ?_⟩
    · obtain ⟨v', hv'⟩ := h
      exact absurd hv' (by simp [bind, Except.bind])
    · intro j m hm hrefuses hafter
      obtain ⟨rfl, rfl⟩ := hlast.unique ⟨hm, hrefuses, hafter⟩
      rfl

end

/-- One key or index selects its child. -/
theorem Path.select_step {n : Navigator} (hn : n.isAccess = true) (config : Config) (v : Value) :
    (⟨[n], config⟩ : Path).select v = .ok [n.child v] :=
  Path.select_access ⟨[n], config⟩ (List.forall_mem_singleton.2 hn) v

/-- One key or index puts the answer about its child back. -/
theorem Path.setValue_step {n : Navigator} (hn : n.isAccess = true) (config : Config) (r : Focus)
    (v : Value) :
    (⟨[n], config⟩ : Path).setValue r v = n.putChild v r >>= Path.finish ⟨[n], config⟩ :=
  Path.setValue_access ⟨[n], config⟩ (List.forall_mem_singleton.2 hn) r v

/-- An index out of range and, after a key that would do, an index where nothing is at all: the error is
that of the last step, though a step before it refuses too. -/
theorem Path.write_succeeds_iff_refused :
    let p : Path := ⟨[.key "a", .nth (-3), .key "b", .nth 0], {}⟩
    let v : Value := .mapping [("a", .sequence [.null, .bool true])]
    (∀ k vs, (⟨p.navigators.take k, p.config⟩ : Path).select v = .ok [.sequence vs] →
        vs.length < 2 ^ 63) ∧
      ¬ (Navigator.nth (-3)).Admits (.sequence [.null, .bool true]) ∧
      p.setValue (.value .null) v = .error (.indexOutOfRange 0 0) := by
  intro p v
  have hp : ∀ n ∈ p.navigators, n.isAccess = true := by decide
  have hlen (k : Nat) (vs : List Value)
      (h : (⟨p.navigators.take k, p.config⟩ : Path).select v = .ok [.sequence vs]) :
      vs.length < 2 ^ 63 := by
    rw [p.select_take hp] at h
    match k with
    | 1 => cases h; decide
    | 0 | 2 | 3 => cases h
    | k + 4 =>
      have hall : p.navigators.take (k + 4) = p.navigators :=
        List.take_of_length_le (Nat.le_add_left 4 k)
      rw [Navigator.place, hall] at h
      cases h
  have hfirst : ¬ (Navigator.nth (-3)).Admits (.sequence [.null, .bool true]) := by
    simp [Navigator.Admits]
  have hlast : ¬ (Navigator.nth 0).Admits .undefined := id
  obtain ⟨x, hx, -, hfails⟩ := p.write_succeeds_iff hp (v := v) (w := .null) rfl hlen
  have hx3 : x 3 = .undefined := by
    have h : (Except.ok [x 3] : Except NavError (List Value)) = .ok [.undefined] :=
      (hx 3).symm.trans (p.select_take hp v 3)
    simpa using h
  refine ⟨hlen, hfirst, ?_⟩
  have h := hfails 3 (.nth 0) rfl (hx3 ▸ hlast) fun j m hj hm => by
    match j with
    | j + 4 => exact absurd hm (by simp [p])
  rwa [hx3] at h

end DocPath
