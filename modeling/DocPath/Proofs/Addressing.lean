import DocPath.Proofs.Expansion

/-!
# The element at an index

An index is turned into a position once, and the position is then read, edited or inserted before without
another look at the length. For sequences with fewer than 2^63 elements no word overflows on the way and the
position lies in the sequence. So the steps do the same if an access outside it is a crash, whatever this crash
would do.

* `Sequence.toInt_ofNat_add` — the word that counts a negative index from the front is the sum;
* `Navigator.selectOr`, `Navigator.transformOr` — the steps written so that an access outside the sequence
  crashes;
* `Navigator.selectOr_eq`, `Navigator.transformOr_eq` — **no step makes such an access**;
* `Navigator.Addresses` — one element is handed on and edited, and the others stay where they are;
* `Navigator.index_stays_inside` — the law for indices;
* `Path.unsigned_index_wraps` — an unsigned word as an index: from 2^64 less the length on it names an element
  counted from the end, and below it names its own position or none.
-/

namespace DocPath

variable {σ α : Type}

namespace Sequence

variable {index : Int64} {length i : Nat}

theorem names_iff : Names index length i ↔
    (0 ≤ index.toInt ∧ (i : Int) = index.toInt) ∨ (index.toInt < 0 ∧ (i : Int) = length + index.toInt) := by
  rw [Names]
  split <;> omega

/-- The sum that counts a negative index from the front is a word, and so is the length. -/
theorem toInt_ofNat_add (h : length < 2 ^ 63) (hneg : index.toInt < 0) :
    (Int64.ofNat length + index).toInt = length + index.toInt := by
  have hindex : index < 0 := Int64.lt_iff_toInt_lt.2 hneg
  have hsum := toInt_normalizeIndex h index
  rwa [normalizeIndex, if_pos hindex, if_pos hneg] at hsum

/-! ### Accesses that may crash -/

/-- Reads the element at a position, at which there has to be one. -/
def readOr (crash : Action σ α) (vs : List Value) (i : Nat) (next : Value → Action σ α) : Action σ α :=
  if h : i < vs.length then next vs[i] else crash

/-- Updates the element at a position, at which there has to be one. -/
def updateOr (crash : Action σ (List Value)) (f : Value → Action σ Focus) (vs : List Value) (i : Nat) :
    Action σ (List Value) :=
  if i < vs.length then updateAt f vs i else crash

/-- Inserts before a position, which has to be one of the sequence or its end. -/
def insertOr (crash : Action σ (List Value)) (vs : List Value) (i : Nat) (w : Value) :
    Action σ (List Value) :=
  if i ≤ vs.length then pure (insertAt vs i w) else crash

end Sequence

namespace Navigator

/-- Selecting at an index of a sequence, where the position to which it resolves has to be there. -/
def readNthOr (crash : Action σ Unit) (vs : List Value) (next : Value → Action σ Unit) :
    Option Nat → Action σ Unit
  | some i => Sequence.readOr crash vs i next
  | none => next .undefined

/-- Transforming at an index of a sequence, in the same way. -/
def editNthOr (crash : Action σ (List Value)) (index : Int64) (vs : List Value) (next : Continuation σ) :
    Option Nat → Action σ Focus
  | some i => do
    let ws ← Sequence.updateOr crash (fun v => next (.value v)) vs i
    pure (.value (.sequence ws))
  | none => transformUnreachable (.indexOutOfRange index vs.length) (.value (.sequence vs)) next

/-- Transforming the element at one end of a sequence that is not empty. -/
def editEndOr (crash : Action σ (List Value)) (position : Nat → Nat) (vs : List Value)
    (next : Continuation σ) : Action σ Focus :=
  if vs.isEmpty then pure (.value (.sequence vs)) else do
    let ws ← Sequence.updateOr crash (fun v => next (.value v)) vs (position vs.length)
    pure (.value (.sequence ws))

/-- Inserting before an index of a sequence. -/
def insertBeforeOr (crash : Action σ (List Value)) (index : Int64) (vs : List Value)
    (next : Continuation σ) : Action σ Focus := do
  match ← next .absent with
  | .value w =>
    match Sequence.resolveInsertIndex index vs.length with
    | some i => do
      let ws ← Sequence.insertOr crash vs i w
      pure (.value (.sequence ws))
    | none => throw (.indexOutOfRange index vs.length)
  | .absent => pure (.value (.sequence vs))

/-- Selecting in a sequence, where every position that is read has to be there. -/
def selectOr (crash : Action σ Unit) (vs : List Value) (next : Value → Action σ Unit) :
    Navigator → Action σ Unit
  | .nth index => readNthOr crash vs next (Sequence.resolveIndex index vs.length)
  | n => n.select (.sequence vs) next

/-- Transforming a sequence, where every position that is edited or inserted before has to be there. -/
def transformOr (crash : Action σ (List Value)) (vs : List Value) (next : Continuation σ) :
    Navigator → Action σ Focus
  | .nth index => editNthOr crash index vs next (Sequence.resolveIndex index vs.length)
  | .first => editEndOr crash (fun _ => 0) vs next
  | .last => editEndOr crash (fun length => length - 1) vs next
  | .beforeIndex index => insertBeforeOr crash index vs next
  | n => n.transform (.value (.sequence vs)) next

section

variable {vs : List Value}

theorem readNthOr_eq (crash : Action σ Unit) (index : Int64) (next : Value → Action σ Unit) :
    readNthOr crash vs next (Sequence.resolveIndex index vs.length) =
      (nth index).select (.sequence vs) next := by
  show _ = next ((Sequence.itemAt? vs index).getD .undefined)
  rw [Sequence.itemAt?]
  cases hi : Sequence.resolveIndex index vs.length with
  | none => rfl
  | some i =>
    have hlt := lt_of_resolveIndex hi
    rw [Option.bind_some, List.getElem?_eq_getElem hlt, Option.getD_some]
    exact dif_pos hlt

theorem editNthOr_eq (crash : Action σ (List Value)) (index : Int64) (next : Continuation σ) :
    editNthOr crash index vs next (Sequence.resolveIndex index vs.length) =
      transformNth index (.value (.sequence vs)) next := by
  rw [transformNth]
  cases hi : Sequence.resolveIndex index vs.length with
  | none => rfl
  | some i =>
    show Sequence.updateOr crash _ vs i >>= _ = _
    rw [Sequence.updateOr, if_pos (lt_of_resolveIndex hi)]

theorem editEndOr_eq (crash : Action σ (List Value)) (next : Continuation σ) {position : Nat → Nat}
    (hposition : ∀ length, 0 < length → position length < length) (n : Navigator) :
    editEndOr crash position vs next = transformEnd n position (.value (.sequence vs)) next := by
  cases vs with
  | nil => rfl
  | cons v vs =>
    have hlt := hposition (v :: vs).length (Nat.succ_pos vs.length)
    rw [transformEnd, editEndOr, Sequence.updateOr, if_pos hlt]
    rfl

theorem insertBeforeOr_eq (h : vs.length < 2 ^ 63) (crash : Action σ (List Value)) (index : Int64)
    (next : Continuation σ) :
    insertBeforeOr crash index vs next =
      transformBeforeIndex index (.value (.sequence vs)) next := by
  show _ = next .absent >>= _
  rw [insertBeforeOr]
  congr 1
  funext r
  cases r with
  | absent => rfl
  | value w =>
    cases hi : Sequence.resolveInsertIndex index vs.length with
    | none => rfl
    | some i =>
      have hle := ((Sequence.resolveInsertIndex_eq_some_iff h).1 hi).2
      show Sequence.insertOr crash vs i w >>= _ = _
      rw [Sequence.insertOr, if_pos hle]
      rfl

/-- **No step reads outside the sequence.** -/
theorem selectOr_eq (crash : Action σ Unit) (next : Value → Action σ Unit) (n : Navigator) :
    n.selectOr crash vs next = n.select (.sequence vs) next := by
  cases n with
  | nth index => exact readNthOr_eq crash index next
  | _ => rfl

/-- **No step edits outside the sequence, and none inserts there.** -/
theorem transformOr_eq (h : vs.length < 2 ^ 63) (crash : Action σ (List Value)) (next : Continuation σ)
    (n : Navigator) : n.transformOr crash vs next = n.transform (.value (.sequence vs)) next := by
  cases n with
  | nth index => exact editNthOr_eq crash index next
  | first => exact editEndOr_eq crash next (fun _ hpos => hpos) .first
  | last => exact editEndOr_eq crash next (fun _ hpos => Nat.sub_lt hpos Nat.one_pos) .last
  | beforeIndex index => exact insertBeforeOr_eq h crash index next
  | _ => rfl

/-! ### The same element -/

/-- Selecting hands on the element at a position, and transforming asks about it and puts the answer in its
place: nothing before it and nothing behind it changes, and an absent answer takes the element out. -/
def Addresses (n : Navigator) (vs : List Value) (i : Nat) : Prop :=
  ∃ before v after, vs = before ++ v :: after ∧ before.length = i ∧
    (∀ (σ : Type) (next : Value → Action σ Unit), n.select (.sequence vs) next = next v) ∧
    ∀ (σ : Type) (next : Continuation σ), n.transform (.value (.sequence vs)) next =
      next (.value v) >>= fun r => pure (.value (.sequence (before ++ r.value?.toList ++ after)))

/-- **An index addresses the element to which it resolves.** -/
theorem addresses_nth {index : Int64} {i : Nat} (hi : Sequence.resolveIndex index vs.length = some i) :
    (nth index).Addresses vs i := by
  obtain ⟨before, v, after, rfl, rfl⟩ := exists_split_at (lt_of_resolveIndex hi)
  have hv : (before ++ v :: after)[before.length]? = some v := by simp
  refine ⟨before, v, after, rfl, rfl, fun σ next => ?_, fun σ next => ?_⟩
  · show next ((nth index).child (.sequence (before ++ v :: after))) = next v
    rw [child_nth hi, hv, Option.getD_some]
  · simp only [transform_item hi hv, replaceAt_split]

/-- **An index stays inside its sequence, and means one element of it.** Neither the length nor the sum that
counts a negative index from the front leaves the words. An index resolves to the position that it names from
either end, if there is an element at it, and for an insertion the length names the end. With these positions
nothing is read, edited or inserted outside the sequence: the steps do the same if that is a crash, of whatever
kind, and an insertion into a void value is one into the empty sequence. Where an index resolves, selecting and
transforming hand on the same element, and the answer changes nothing else; where it does not, both hand on
`undefined`, and writing something defined is an error. That a sequence has fewer than 2^63 elements is what
being indexed by words means. -/
theorem index_stays_inside (index : Int64) (vs : List Value) (hlen : vs.length < 2 ^ 63) :
    let n : Int := vs.length
    let i := index.toInt
    (Int64.ofNat vs.length).toInt = n ∧ (i < 0 → (Int64.ofNat vs.length + index).toInt = n + i) ∧
    (∀ k : Nat, Sequence.resolveIndex index vs.length = some k ↔
      (0 ≤ i ∧ i < n ∧ k = i) ∨ (-n ≤ i ∧ i < 0 ∧ k = n + i)) ∧
    (∀ k : Nat, Sequence.resolveInsertIndex index vs.length = some k ↔
      (0 ≤ i ∧ i ≤ n ∧ k = i) ∨ (-n ≤ i ∧ i < 0 ∧ k = n + i)) ∧
    (∀ (σ : Type) (crash : Action σ Unit) (next : Value → Action σ Unit) (m : Navigator),
      m.select (.sequence vs) next = m.selectOr crash vs next) ∧
    (∀ (σ : Type) (crash : Action σ (List Value)) (next : Continuation σ) (m : Navigator),
      m.transform (.value (.sequence vs)) next = m.transformOr crash vs next) ∧
    (∀ k, Sequence.resolveIndex index vs.length = some k → (nth index).Addresses vs k) ∧
    (Sequence.resolveIndex index vs.length = none →
      (∀ (σ : Type) (next : Value → Action σ Unit),
        (nth index).select (.sequence vs) next = next .undefined) ∧
      ∀ (σ : Type) (next : Continuation σ), (nth index).transform (.value (.sequence vs)) next =
        transformUnreachable (.indexOutOfRange index vs.length) (.value (.sequence vs)) next) ∧
    ∀ (σ : Type) (next : Continuation σ) (s : Focus), s.isVoid = true →
      (beforeIndex index).transform s next =
        (beforeIndex index).transform (.value (.sequence [])) next := by
  intro n i
  refine ⟨Int64.toInt_ofNat_of_lt hlen, Sequence.toInt_ofNat_add hlen, fun k => ?_, fun k => ?_,
    fun σ crash next m => (selectOr_eq crash next m).symm,
    fun σ crash next m => (transformOr_eq hlen crash next m).symm,
    fun k hk => addresses_nth hk, fun hnone => ⟨fun σ next => ?_, fun σ next => ?_⟩,
    fun σ next s hs => ?_⟩
  · rw [Sequence.resolveIndex_eq_some_iff hlen, Sequence.names_iff]
    omega
  · rw [Sequence.resolveInsertIndex_eq_some_iff hlen, Sequence.names_iff]
    omega
  · show next ((nth index).child (.sequence vs)) = next .undefined
    rw [child_nth_of_none hnone]
  · rw [transform, transformNth, hnone]
  · cases s with
    | absent => rfl
    | value v =>
      cases v with
      | null | undefined => rfl
      | _ => exact absurd hs Bool.false_ne_true

end

/-- The least word names nothing, the first of two elements is the last but one, and behind both there is a
place to insert. -/
theorem index_stays_inside_least :
    let vs : List Value := [.null, .bool true]
    vs.length < 2 ^ 63 ∧ Sequence.resolveIndex Int64.minValue vs.length = none ∧
      Sequence.resolveInsertIndex 2 vs.length = some 2 ∧ (nth (-2)).Addresses vs 0 := by
  intro vs
  have hlen : vs.length < 2 ^ 63 := by decide
  obtain ⟨-, -, hleast, -⟩ := index_stays_inside Int64.minValue vs hlen
  obtain ⟨-, -, -, hinsert, -⟩ := index_stays_inside 2 vs hlen
  obtain ⟨-, -, hfirst, -, -, -, haddresses, -⟩ := index_stays_inside (-2) vs hlen
  have hmin : Int64.minValue.toInt = -2 ^ 63 := rfl
  have htwo : (2 : Int64).toInt = 2 := rfl
  have hback : (-2 : Int64).toInt = -2 := rfl
  have hn : vs.length = 2 := rfl
  refine ⟨hlen, ?_, (hinsert 2).2 (by omega), haddresses 0 ((hfirst 0).2 (by omega))⟩
  cases hi : Sequence.resolveIndex Int64.minValue vs.length with
  | none => rfl
  | some k =>
    have hk := (hleast k).1 hi
    omega

end Navigator

/-! ### Unsigned words -/

theorem Sequence.toInt_toInt64 (n : UInt64) :
    n.toInt64.toInt = if n.toNat < 2 ^ 63 then (n.toNat : Int) else n.toNat - 2 ^ 64 := by
  show n.toBitVec.toInt = _
  rw [BitVec.toInt_eq_toNat_cond]
  show (if 2 * n.toNat < 2 ^ 64 then (n.toNat : Int) else n.toNat - ((2 ^ 64 : Nat) : Int)) = _
  split <;> split <;> omega

/-- An unsigned word is the position that it resolves to, unless it comes within the length of 2^64. -/
theorem Sequence.resolveIndex_toInt64_eq_some_iff {n : UInt64} {length i : Nat} (h : length < 2 ^ 63) :
    Sequence.resolveIndex n.toInt64 length = some i ↔
      (n.toNat < length ∧ i = n.toNat) ∨
        (2 ^ 64 ≤ n.toNat + length ∧ i + 2 ^ 64 = n.toNat + length) := by
  have hn : n.toNat < 2 ^ 64 := n.toNat_lt
  rw [Sequence.resolveIndex_eq_some_iff h, Sequence.names_iff, Sequence.toInt_toInt64]
  split <;> omega

namespace Path

section

variable {index : Int64} {vs : List Value} (config : Config)

/-- Through an index that resolves the element is read, and written. -/
theorem index_found {i : Nat} (hi : Sequence.resolveIndex index vs.length = some i) (w : Value) :
    let p : Path := ⟨[.nth index], config⟩
    p.select (.sequence vs) = .ok [vs[i]?.getD .undefined] ∧
      p.setValue (.value w) (.sequence vs) = .ok (.sequence (vs.set i w)) := by
  intro p
  constructor
  · rw [Path.select_step rfl, Navigator.child_nth hi]
  · rw [Path.setValue_step rfl, Navigator.putChild_nth hi]
    rfl

/-- Through an index that does not resolve `undefined` is read, and nothing can be written. -/
theorem index_missing (hi : Sequence.resolveIndex index vs.length = none) {w : Value}
    (hw : w.isDefined = true) :
    let p : Path := ⟨[.nth index], config⟩
    p.select (.sequence vs) = .ok [.undefined] ∧
      p.setValue (.value w) (.sequence vs) = .error (.indexOutOfRange index vs.length) := by
  intro p
  constructor
  · rw [Path.select_step rfl, Navigator.child_nth_of_none hi]
  · rw [Path.setValue_step rfl, Navigator.putChild_nth_of_none hi, Exchange.rebuild_unreachable,
      Focus.written, if_pos hw]
    rfl

/-- Nothing but a sequence has elements to read or write. -/
theorem index_elsewhere (index : Int64) {v : Value} (hv : v.isSequence = false) {w : Value}
    (hw : w.isDefined = true) :
    let p : Path := ⟨[.nth index], config⟩
    p.select v = .ok [.undefined] ∧
      p.setValue (.value w) v = .error ((Navigator.nth index).refusal v) := by
  intro p
  have hnot (us : List Value) : v ≠ .sequence us := by
    rintro rfl
    exact absurd hv.symm Bool.false_ne_true
  have hplace : (Navigator.nth index).child v = .undefined ∧ ¬ (Navigator.nth index).Admits v := by
    cases v with
    | sequence us => exact absurd rfl (hnot us)
    | _ => exact ⟨rfl, id⟩
  constructor
  · rw [Path.select_step rfl, hplace.1]
  · rw [Path.setValue_step rfl]
    rcases Navigator.putChild_defined (n := .nth index) rfl hw fun us hus => absurd hus (hnot us) with
      ⟨hadmits, -⟩ | ⟨-, herror⟩
    · exact absurd hadmits hplace.2
    · rw [herror]
      rfl

end

/-- **An unsigned word as an index.** In a sequence it names the element at its own position, or none behind
the end, unless it comes within the length of 2^64. From there on it names an element after all, as far
before the end as it lies below 2^64, and a write replaces this element. In values that are no sequences it
names nothing. That a sequence has fewer than 2^63 elements is what being indexed by words means. -/
theorem unsigned_index_wraps (n : UInt64) (config : Config) {v w : Value} (hw : w.isDefined = true)
    (hlen : ∀ vs, v = .sequence vs → vs.length < 2 ^ 63) :
    let p := Path.ofSteps [Step.ofUnsigned n] config
    (v.isSequence = false →
      p.select v = .ok [.undefined] ∧ ∃ e, p.setValue (.value w) v = .error e) ∧
    ∀ vs, v = .sequence vs →
      (n.toNat + vs.length < 2 ^ 64 →
        p.select v = .ok [vs[n.toNat]?.getD .undefined] ∧
        p.setValue (.value w) v =
          if n.toNat < vs.length then .ok (.sequence (vs.set n.toNat w))
          else .error (.indexOutOfRange n.toInt64 vs.length)) ∧
      (2 ^ 64 ≤ n.toNat + vs.length →
        ∃ k u, k + 2 ^ 64 = n.toNat + vs.length ∧ k < n.toNat ∧ vs[k]? = some u ∧
          p.select v = .ok [u] ∧ p.setValue (.value w) v = .ok (.sequence (vs.set k w))) := by
  intro p
  refine ⟨fun hv => ?_, ?_⟩
  · obtain ⟨hselect, herror⟩ := index_elsewhere config n.toInt64 hv hw
    exact ⟨hselect, _, herror⟩
  · rintro vs rfl
    have hlength := hlen vs rfl
    have hn : n.toNat < 2 ^ 64 := n.toNat_lt
    have hresolve (i : Nat) :=
      Sequence.resolveIndex_toInt64_eq_some_iff (n := n) (i := i) hlength
    refine ⟨fun hbelow => ?_, fun hwraps => ?_⟩
    · by_cases hlt : n.toNat < vs.length
      · rw [if_pos hlt]
        exact index_found config ((hresolve n.toNat).2 (.inl ⟨hlt, rfl⟩)) w
      · have hnone : Sequence.resolveIndex n.toInt64 vs.length = none := by
          cases hi : Sequence.resolveIndex n.toInt64 vs.length with
          | none => rfl
          | some i =>
            have hcases := (hresolve i).1 hi
            omega
        rw [if_neg hlt, List.getElem?_eq_none (Nat.le_of_not_lt hlt), Option.getD_none]
        exact index_missing config hnone hw
    · -- so many places before the end as the word lies below 2^64
      obtain ⟨k, hk⟩ : ∃ k, k + 2 ^ 64 = n.toNat + vs.length := ⟨n.toNat + vs.length - 2 ^ 64, by omega⟩
      have hlt : k < vs.length := by omega
      have hfound := index_found config ((hresolve k).2 (.inr ⟨hwraps, hk⟩)) w
      rw [List.getElem?_eq_getElem hlt, Option.getD_some] at hfound
      exact ⟨k, vs[k], hk, by omega, List.getElem?_eq_getElem hlt, hfound⟩

/-- The greatest word names the last of two elements, and a write replaces it. -/
theorem unsigned_index_wraps_last :
    let vs : List Value := [.null, .bool true]
    let p := Path.ofSteps [Step.ofUnsigned 18446744073709551615]
    vs.length < 2 ^ 63 ∧ p.select (.sequence vs) = .ok [.bool true] ∧
      p.setValue (.value (.bool false)) (.sequence vs) = .ok (.sequence [.null, .bool false]) := by
  intro vs p
  have hlen (us : List Value) (h : Value.sequence vs = .sequence us) : us.length < 2 ^ 63 := by
    cases h
    decide
  obtain ⟨-, hsequence⟩ := unsigned_index_wraps 18446744073709551615 {} (v := .sequence vs)
    (w := .bool false) rfl hlen
  obtain ⟨-, hwraps⟩ := hsequence vs rfl
  obtain ⟨k, u, hk, -, hu, hselect, hset⟩ := hwraps (by decide)
  obtain rfl : k = 1 := by
    have hn : (18446744073709551615 : UInt64).toNat = 18446744073709551615 := rfl
    have hvs : vs.length = 2 := rfl
    omega
  obtain rfl : u = .bool true := (Option.some.inj hu).symm
  exact ⟨hlen vs rfl, hselect, hset⟩

/-- An index that is far behind the end finds an element, and a write to it overwrites another one. -/
theorem unsigned_index_behind_end :
    let n : UInt64 := 18446744073709551615
    let vs : List Value := [.bool true]
    let p := Path.ofSteps [Step.ofUnsigned n]
    vs.length ≤ n.toNat ∧ p.select (.sequence vs) ≠ .ok [.undefined] ∧
      ∃ us, p.setValue (.value (.bool false)) (.sequence vs) = .ok (.sequence us) ∧ us[0]? ≠ vs[0]? := by
  intro n vs p
  have hi : Sequence.resolveIndex n.toInt64 vs.length = some 0 := by decide
  obtain ⟨hselect, hset⟩ := index_found {} hi (.bool false)
  refine ⟨by decide, fun h => ?_, [.bool false], hset, by simp [vs]⟩
  exact absurd (hselect.symm.trans h) (by simp [vs])

end Path

end DocPath
