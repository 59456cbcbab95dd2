import DocPath.Sequence
import Mathlib.Algebra.Group.Nat.Defs
import Mathlib.Algebra.Group.Int.Defs

/-!
# Indices

An index is a 64-bit word: from 0 on it counts from the front, and below 0 it counts from the end. The
words can count the elements of every sequence with fewer than 2^63 of them, and for these sequences the
arithmetic of words is that of integers.

* `Sequence.Names` — the position that an index stands for, in integers;
* `Sequence.resolveIndex_eq_some_iff`, `Sequence.resolveInsertIndex_eq_some_iff` — **an index resolves to
  the position that it names**, if there is an element at it, or a place to insert one;
* `Sequence.exists_resolveIndex_iff`, `Sequence.exists_resolveInsertIndex_iff` — the indices that resolve;
* `Sequence.resolveIndex_inserted` — the index at which an inserted element is found.
-/

namespace DocPath

namespace Sequence

/-- The position that an index stands for: counted from the front, or from the end if it is negative. -/
def Names (index : Int64) (length i : Nat) : Prop :=
  (i : Int) = if index.toInt < 0 then length + index.toInt else index.toInt

variable {index : Int64} {length i : Nat}

theorem toInt_normalizeIndex (h : length < 2 ^ 63) (index : Int64) :
    (normalizeIndex index length).toInt =
      if index.toInt < 0 then length + index.toInt else index.toInt := by
  have hzero : (0 : Int64).toInt = 0 := rfl
  rw [normalizeIndex]
  by_cases hneg : index < 0
  · have hneg' : index.toInt < 0 := hzero ▸ Int64.lt_iff_toInt_lt.1 hneg
    have hle : -2 ^ 63 ≤ index.toInt := index.le_toInt
    rw [if_pos hneg, if_pos hneg', Int64.toInt_add, Int64.toInt_ofNat_of_lt h]
    -- the sum lies between the index and the length, so no word is left
    exact Int.bmod_eq_of_le (by omega) (by omega)
  · have hneg' : ¬ index.toInt < 0 := fun hlt => hneg (Int64.lt_iff_toInt_lt.2 (hzero ▸ hlt))
    rw [if_neg hneg, if_neg hneg']

/-- Positions from the front are read off the counted index. -/
theorem eq_toNatClampNeg_iff (h : length < 2 ^ 63) :
    0 ≤ normalizeIndex index length ∧ (normalizeIndex index length).toNatClampNeg = i ↔
      Names index length i := by
  rw [Names, ← toInt_normalizeIndex h, Int64.le_iff_toInt_le]
  show 0 ≤ (normalizeIndex index length).toInt ∧ (normalizeIndex index length).toInt.toNat = i ↔ _
  omega

/-- **An index resolves to the position that it names**, if there is an element at it. -/
theorem resolveIndex_eq_some_iff (h : length < 2 ^ 63) :
    resolveIndex index length = some i ↔ Names index length i ∧ i < length := by
  rw [← eq_toNatClampNeg_iff h, resolveIndex, Option.ite_none_right_eq_some, Option.some.injEq,
    Int64.lt_iff_toInt_lt, Int64.toInt_ofNat_of_lt h, Int64.le_iff_toInt_le]
  show (0 ≤ (normalizeIndex index length).toInt ∧ _) ∧ (normalizeIndex index length).toInt.toNat = i ↔
    (0 ≤ (normalizeIndex index length).toInt ∧ (normalizeIndex index length).toInt.toNat = i) ∧ _
  omega

/-- **An index resolves to the place that it names for an insertion**, the end included. -/
theorem resolveInsertIndex_eq_some_iff (h : length < 2 ^ 63) :
    resolveInsertIndex index length = some i ↔ Names index length i ∧ i ≤ length := by
  rw [← eq_toNatClampNeg_iff h, resolveInsertIndex, Option.ite_none_right_eq_some, Option.some.injEq,
    Int64.le_iff_toInt_le, Int64.le_iff_toInt_le, Int64.toInt_ofNat_of_lt h]
  show (0 ≤ (normalizeIndex index length).toInt ∧ _) ∧ (normalizeIndex index length).toInt.toNat = i ↔
    (0 ≤ (normalizeIndex index length).toInt ∧ (normalizeIndex index length).toInt.toNat = i) ∧ _
  omega

/-- The indices that name a position below a bound, the length or more. -/
theorem exists_names_lt_iff {bound : Nat} (h : length ≤ bound) :
    (∃ i, Names index length i ∧ i < bound) ↔
      -(length : Int) ≤ index.toInt ∧ index.toInt < bound := by
  simp only [Names]
  constructor
  · rintro ⟨i, hi, hlt⟩
    split at hi <;> omega
  · intro hrange
    refine ⟨(if index.toInt < 0 then length + index.toInt else index.toInt).toNat, ?_⟩
    split <;> omega

/-- The indices of the elements. -/
theorem exists_resolveIndex_iff (h : length < 2 ^ 63) (index : Int64) :
    (∃ i, resolveIndex index length = some i) ↔
      -(length : Int) ≤ index.toInt ∧ index.toInt < length := by
  simp only [resolveIndex_eq_some_iff h]
  exact exists_names_lt_iff (Nat.le_refl length)

/-- The indices before which an element can be inserted. -/
theorem exists_resolveInsertIndex_iff (h : length < 2 ^ 63) (index : Int64) :
    (∃ i, resolveInsertIndex index length = some i) ↔
      -(length : Int) ≤ index.toInt ∧ index.toInt ≤ length := by
  simp only [resolveInsertIndex_eq_some_iff h, ← Nat.lt_succ_iff]
  rw [exists_names_lt_iff (Nat.le_succ length)]
  omega

/-! ### One element inserted -/

/-- **An inserted element is found at the index before which it went in**, less one if this counts from
the end, since the element itself is counted too. -/
theorem resolveIndex_inserted (h : length + 1 < 2 ^ 63)
    (hi : resolveInsertIndex index length = some i) :
    resolveIndex (if 0 ≤ index then index else index - 1) (length + 1) = some i := by
  obtain ⟨hnames, hle⟩ := (resolveInsertIndex_eq_some_iff (Nat.lt_of_succ_lt h)).1 hi
  refine (resolveIndex_eq_some_iff h).2 ⟨?_, Nat.lt_succ_of_le hle⟩
  have hzero : (0 : Int64).toInt = 0 := rfl
  have hone : (1 : Int64).toInt = 1 := rfl
  rw [Names] at hnames ⊢
  by_cases hindex : 0 ≤ index
  · have hfront : ¬ index.toInt < 0 := Int.not_lt.2 (hzero ▸ Int64.le_iff_toInt_le.1 hindex)
    rw [if_pos hindex, if_neg hfront]
    rwa [if_neg hfront] at hnames
  · have hback : index.toInt < 0 :=
      Int.not_le.1 fun hle => hindex (Int64.le_iff_toInt_le.2 (hzero ▸ hle))
    rw [if_pos hback] at hnames
    -- the position is not negative, so one less is still a word
    have hless : (index - 1).toInt = index.toInt - 1 := by
      rw [Int64.toInt_sub, hone]
      exact Int.bmod_eq_of_le (by omega) (by omega)
    rw [if_neg hindex, hless, if_pos (Int.lt_trans (Int.sub_lt_self _ Int.one_pos) hback)]
    omega

/-- The index 0 inserts before the first element, and the length after the last. -/
theorem resolveInsertIndex_ends (h : length < 2 ^ 63) :
    resolveInsertIndex 0 length = some 0 ∧
      resolveInsertIndex (Int64.ofNat length) length = some length := by
  have hzero : (0 : Int64).toInt = 0 := rfl
  rw [resolveInsertIndex_eq_some_iff h, resolveInsertIndex_eq_some_iff h, Names, Names, hzero,
    Int64.toInt_ofNat_of_lt h]
  omega

end Sequence

end DocPath
