import Mathlib.Data.Multiset.ZeroCons
import Mathlib.Data.List.Forall2

/-!
# Related lists

Two lists of which the members are related one by one, as questions and their answers are, or the
elements of a sequence before and after a transform.

* `Related.exists_mem`, `Related.imp_of_mem`, `Related.trans` — members and their partners;
* `Related.set`, `Related.eraseIdx`, `Related.insertIdx` — the same edit in both lists;
* `Related.rel_coe_iff` — related up to the order;
* `InTurn` — a list of which the members are met one after another, until one of them fails.
-/

namespace DocPath

namespace Related

variable {α β γ : Type} {R S : α → β → Prop} {as : List α} {bs : List β}

/-! ### Members -/

/-- Each member of the first of two related lists has its partner in the second one. -/
theorem exists_mem (h : List.Forall₂ R as bs) {a : α} (ha : a ∈ as) : ∃ b ∈ bs, R a b := by
  induction h with
  | nil => exact absurd ha List.not_mem_nil
  | @cons a' b _ _ hab _ ih =>
    rcases List.mem_cons.1 ha with rfl | ha
    · exact ⟨b, List.mem_cons_self, hab⟩
    · obtain ⟨b', hb', hab'⟩ := ih ha
      exact ⟨b', List.mem_cons_of_mem b hb', hab'⟩

/-- Related lists are related in another way if their members are, of which the first one is known
to occur. -/
theorem imp_of_mem (h : List.Forall₂ R as bs) (hS : ∀ a ∈ as, ∀ b, R a b → S a b) :
    List.Forall₂ S as bs := by
  induction h with
  | nil => exact .nil
  | @cons a b as _ hab _ ih =>
    refine .cons (hS a List.mem_cons_self b hab) (ih fun a' ha' => hS a' ?_)
    exact List.mem_cons_of_mem a ha'

theorem trans {S : β → γ → Prop} {T : α → γ → Prop} (hT : ∀ a b c, R a b → S b c → T a c)
    {cs : List γ} (h : List.Forall₂ R as bs) (h' : List.Forall₂ S bs cs) :
    List.Forall₂ T as cs := by
  induction h generalizing cs with
  | nil =>
    obtain rfl := List.forall₂_nil_left_iff.1 h'
    exact .nil
  | cons hab _ ih =>
    obtain ⟨c, cs, hbc, hcs, rfl⟩ := List.forall₂_cons_left_iff.1 h'
    exact .cons (hT _ _ _ hab hbc) (ih hcs)

theorem singleton_left {a : α} (h : List.Forall₂ R [a] bs) : ∃ b, bs = [b] ∧ R a b := by
  obtain ⟨b, _, hb, hnil, rfl⟩ := List.forall₂_cons_left_iff.1 h
  obtain rfl := List.forall₂_nil_left_iff.1 hnil
  exact ⟨b, rfl, hb⟩

/-! ### One position -/

theorem getElem? (h : List.Forall₂ R as bs) (i : Nat) : Option.Rel R as[i]? bs[i]? := by
  induction h generalizing i with
  | nil => exact .none
  | cons hab _ ih =>
    cases i with
    | zero => exact .some hab
    | succ i => exact ih i

theorem set (h : List.Forall₂ R as bs) (i : Nat) {a : α} {b : β} (hab : R a b) :
    List.Forall₂ R (as.set i a) (bs.set i b) := by
  induction h generalizing i with
  | nil => exact .nil
  | cons hcd h ih =>
    cases i with
    | zero => exact .cons hab h
    | succ i => exact .cons hcd (ih i)

theorem eraseIdx (h : List.Forall₂ R as bs) (i : Nat) :
    List.Forall₂ R (as.eraseIdx i) (bs.eraseIdx i) := by
  induction h generalizing i with
  | nil => exact .nil
  | cons hab h ih =>
    cases i with
    | zero => exact h
    | succ i => exact .cons hab (ih i)

theorem insertIdx (h : List.Forall₂ R as bs) (i : Nat) {a : α} {b : β} (hab : R a b) :
    List.Forall₂ R (as.insertIdx i a) (bs.insertIdx i b) := by
  induction h generalizing i with
  | nil =>
    cases i with
    | zero => exact .cons hab .nil
    | succ i => exact .nil
  | cons hcd h ih =>
    cases i with
    | zero => exact .cons hab (.cons hcd h)
    | succ i => exact .cons hcd (ih i)

/-! ### Up to the order -/

/-- Two lists are related up to the order when the first one is related to a permutation of the
second. -/
theorem rel_coe_iff : Multiset.Rel R as bs ↔ ∃ cs, List.Forall₂ R as cs ∧ cs.Perm bs := by
  constructor
  · intro h
    induction as generalizing bs with
    | nil =>
      obtain rfl := (Multiset.coe_eq_zero bs).1 (Multiset.rel_zero_left.1 h)
      exact ⟨[], .nil, .nil⟩
    | cons a as ih =>
      rw [← Multiset.cons_coe] at h
      obtain ⟨b, rest, hab, hrest, heq⟩ := Multiset.rel_cons_left.1 h
      obtain ⟨bs', rfl⟩ := Quot.exists_rep rest
      obtain ⟨cs, hcs, hperm⟩ := ih hrest
      exact ⟨b :: cs, .cons hab hcs, (hperm.cons b).trans (Multiset.coe_eq_coe.1 heq).symm⟩
  · intro h
    obtain ⟨cs, hcs, hperm⟩ := h
    rw [← Multiset.coe_eq_coe.2 hperm]
    clear hperm
    induction hcs with
    | nil => exact .zero
    | cons hab _ ih => exact .cons hab ih

end Related

/-! ### One member after another -/

/-- The members are met in turn, each one if those before it succeeded, and whichever is met has the
property. -/
def InTurn {α : Type} (succeeds P : α → Prop) : List α → Prop
  | [] => True
  | a :: as => P a ∧ (succeeds a → InTurn succeeds P as)

theorem InTurn.of_forall {α : Type} {succeeds P : α → Prop} {as : List α} (h : ∀ a ∈ as, P a) :
    InTurn succeeds P as := by
  induction as with
  | nil => exact trivial
  | cons a as ih =>
    obtain ⟨ha, has⟩ := List.forall_mem_cons.1 h
    exact ⟨ha, fun _ => ih has⟩

theorem InTurn.map {α β : Type} {succeeds P : α → Prop} {succeeds' P' : β → Prop} {f : α → β}
    {as : List α} (h : InTurn succeeds P as) (hP : ∀ a, P a → P' (f a))
    (hs : ∀ a, succeeds' (f a) → succeeds a) : InTurn succeeds' P' (as.map f) := by
  induction as with
  | nil => exact trivial
  | cons a as ih => exact ⟨hP a h.1, fun ha => ih (h.2 (hs a ha))⟩

/-- Either all members are met and succeed, or one is met that fails. -/
theorem InTurn.all_or_stuck {α : Type} {succeeds P : α → Prop} {as : List α}
    (h : InTurn succeeds P as) :
    (∀ a ∈ as, P a ∧ succeeds a) ∨ ∃ a ∈ as, P a ∧ ¬ succeeds a := by
  induction as with
  | nil => exact .inl fun _ ha => absurd ha List.not_mem_nil
  | cons a as ih =>
    obtain ⟨ha, hrest⟩ := h
    by_cases hs : succeeds a
    · rcases ih (hrest hs) with hall | ⟨b, hb, hstuck⟩
      · exact .inl (List.forall_mem_cons.2 ⟨⟨ha, hs⟩, hall⟩)
      · exact .inr ⟨b, List.mem_cons_of_mem a hb, hstuck⟩
    · exact .inr ⟨a, List.mem_cons_self, ha, hs⟩

end DocPath
