import DocPath.Focus
import DocPath.Proofs.Similar
import DocPath.Proofs.Action

/-!
# Documents that differ in the order of entries

Two documents without repeated keys that are equal up to the order of entries look the same to
whoever reads them by position in a sequence and by key in a mapping. Between mappings this is a
matter of lookups alone, and operations that keep lookups alike keep documents alike.

* `Value.Alike`, `Entries.Alike`, `Focus.Alike` — the relation for values, entries and focuses;
* `Value.alike_sequence_iff`, `Value.alike_mapping_iff` — the relation in terms of parts;
* `Value.Reordered` — alike values, up to their order;
* `Entries.Alike.exists_perm` — alike entries, one beside the other;
* `Entries.Alike.insert`, `Entries.Alike.merge`, … — **writing and picking keep entries alike**.
-/

namespace DocPath

/-! ### Values -/

/-- Equal up to the order of the entries of mappings, in none of which a key occurs twice. -/
structure Value.Alike (v w : Value) : Prop where
  wellFormed : v.WellFormed
  similar : v.Similar w

/-- Entries with the same keys, each of them once, and alike values. -/
structure Entries.Alike (m m' : Entries Value) : Prop where
  left : Entries.Distinct m
  right : Entries.Distinct m'
  lookup (k : String) : Option.Rel Value.Alike (Entries.get? m k) (Entries.get? m' k)

namespace Value

theorem alike_refl {v : Value} (h : v.WellFormed) : v.Alike v := ⟨h, .refl v⟩

/-- What is alike to a document without repeated keys has none either. -/
theorem Alike.right {v w : Value} (h : v.Alike w) : w.WellFormed := h.similar.wellFormed h.wellFormed

theorem Alike.isDefined {v w : Value} (h : v.Alike w) : v.isDefined = w.isDefined :=
  h.similar.isDefined

theorem Alike.isVoid {v w : Value} (h : v.Alike w) : v.isVoid = w.isVoid := by
  cases h.similar <;> rfl

/-- Two leaves are alike only if they are the same. -/
theorem Alike.of_isLeaf {v w : Value} (h : v.Alike w) (hv : v.isLeaf = true) : w = v := by
  cases h.similar with
  | refl => rfl
  | _ => exact absurd hv (by simp [isLeaf])

/-- Sequences are alike element by element. -/
theorem alike_sequence_iff {vs ws : List Value} :
    (sequence vs).Alike (.sequence ws) ↔ List.Forall₂ Alike vs ws := by
  constructor
  · intro h
    have hvs := (allWellFormed_iff vs).1 h.wellFormed
    have hsimilar : List.Forall₂ Similar vs ws := by
      cases h.similar with
      | refl => exact List.forall₂_same.2 fun v _ => .refl v
      | sequence hs => exact similarItems_iff.1 hs
    exact Related.imp_of_mem hsimilar fun v hv _ h => ⟨hvs v hv, h⟩
  · intro h
    refine ⟨(allWellFormed_iff vs).2 fun v hv => ?_, .sequence (similarItems_iff.2 ?_)⟩
    · obtain ⟨w, -, hw⟩ := Related.exists_mem h hv
      exact hw.wellFormed
    · exact h.imp fun _ _ h => h.similar

theorem Alike.of_sequence {vs : List Value} {w : Value} (h : (sequence vs).Alike w) :
    ∃ ws, w = .sequence ws ∧ List.Forall₂ Alike vs ws := by
  have hw : ∃ ws, w = .sequence ws := by
    cases h.similar with
    | refl => exact ⟨vs, rfl⟩
    | sequence _ => exact ⟨_, rfl⟩
  obtain ⟨ws, rfl⟩ := hw
  exact ⟨ws, rfl, alike_sequence_iff.1 h⟩

/-- Alike values, up to their order. -/
def Reordered (vs ws : List Value) : Prop := ∃ us, List.Forall₂ Alike vs us ∧ us.Perm ws

theorem reordered_iff {vs ws : List Value} :
    Reordered vs ws ↔ Multiset.Rel Alike (vs : Multiset Value) ws := Related.rel_coe_iff.symm

theorem reordered_singleton {v w : Value} (h : v.Alike w) : Reordered [v] [w] :=
  ⟨[w], .cons h .nil, .refl _⟩

theorem Reordered.exists_left {vs ws : List Value} (h : Reordered vs ws) {v : Value} (hv : v ∈ vs) :
    ∃ w ∈ ws, v.Alike w := Multiset.exists_mem_of_rel_of_mem (reordered_iff.1 h) hv

theorem Reordered.exists_right {vs ws : List Value} (h : Reordered vs ws) {w : Value}
    (hw : w ∈ ws) : ∃ v ∈ vs, v.Alike w :=
  Multiset.exists_mem_of_rel_of_mem (Multiset.rel_flip.2 (reordered_iff.1 h)) hw

/-- Whether anything is defined does not depend on the order. -/
theorem Reordered.any_isDefined {vs ws : List Value} (h : Reordered vs ws) :
    vs.any isDefined = ws.any isDefined := by
  rw [Bool.eq_iff_iff, List.any_eq_true, List.any_eq_true]
  constructor
  · intro hvs
    obtain ⟨v, hv, hd⟩ := hvs
    obtain ⟨w, hw, hvw⟩ := h.exists_left hv
    exact ⟨w, hw, hvw.isDefined ▸ hd⟩
  · intro hws
    obtain ⟨w, hw, hd⟩ := hws
    obtain ⟨v, hv, hvw⟩ := h.exists_right hw
    exact ⟨v, hv, hvw.isDefined.symm ▸ hd⟩

end Value

/-! ### Entries -/

namespace Entries

variable {m m' part part' : Entries Value}

theorem lookup_of_forall₂ (h : List.Forall₂ (fun a b => a.1 = b.1 ∧ a.2.Alike b.2) m m')
    (k : String) : Option.Rel Value.Alike (get? m k) (get? m' k) := by
  induction h with
  | nil => exact .none
  | @cons a b _ _ hab _ ih =>
    obtain ⟨k', v⟩ := a
    obtain ⟨_, w⟩ := b
    obtain ⟨rfl, hvw⟩ := hab
    rw [get?_cons, get?_cons]
    split
    · exact .some hvw
    · exact ih

/-- The order of entries does not show in lookups. -/
theorem get?_perm (h : m.Perm m') (hd : Distinct m) (k : String) : get? m k = get? m' k := by
  have hd' : Distinct m' := (h.map Prod.fst).nodup_iff.1 hd
  cases hk : get? m k with
  | some v => exact (get?_of_mem hd' (h.mem_iff.1 (mem_of_get? hk))).symm
  | none =>
    refine (get?_eq_none_iff.2 fun hmem => get?_eq_none_iff.1 hk ?_).symm
    exact (h.map Prod.fst).mem_iff.2 hmem

/-- Either a key has no value on both sides, or it has alike values. -/
theorem Alike.lookup_cases (h : Alike m m') (k : String) :
    (get? m k = none ∧ get? m' k = none) ∨
      ∃ v w, get? m k = some v ∧ get? m' k = some w ∧ v.Alike w := by
  have hk := h.lookup k
  revert hk
  generalize get? m k = o
  generalize get? m' k = o'
  intro hk
  cases hk with
  | none => exact .inl ⟨rfl, rfl⟩
  | some hv => exact .inr ⟨_, _, rfl, rfl, hv⟩

theorem Alike.get?_eq_none (h : Alike m m') {k : String} : get? m k = none ↔ get? m' k = none := by
  rcases h.lookup_cases k with ⟨hk, hk'⟩ | ⟨v, w, hk, hk', -⟩ <;> simp [hk, hk']

theorem Alike.contains (h : Alike m m') (k : String) : contains m k = Entries.contains m' k := by
  rw [Entries.contains, Entries.contains]
  rcases h.lookup_cases k with ⟨hk, hk'⟩ | ⟨v, w, hk, hk', -⟩
  · rw [hk, hk']
  · rw [hk, hk']
    rfl

theorem eq_nil_iff : m = [] ↔ ∀ k, get? m k = none := by
  constructor
  · rintro rfl k
    rfl
  · intro h
    cases m with
    | nil => rfl
    | cons e m =>
      have hk := h e.1
      rw [get?_cons, if_pos (beq_self_eq_true e.1)] at hk
      exact absurd hk (by simp)

theorem Alike.isEmpty (h : Alike m m') : m.isEmpty = m'.isEmpty := by
  rw [Bool.eq_iff_iff, List.isEmpty_iff, List.isEmpty_iff, eq_nil_iff, eq_nil_iff]
  exact forall_congr' fun k => h.get?_eq_none

theorem alike_nil : Alike [] [] := ⟨List.nodup_nil, List.nodup_nil, fun _ => .none⟩

/-! ### Operations on alike entries -/

theorem Alike.insert (h : Alike m m') (k : String) {v w : Value} (hv : v.Alike w) :
    Alike (insert m k v) (Entries.insert m' k w) := by
  refine ⟨distinct_insert h.left k v, distinct_insert h.right k w, fun k' => ?_⟩
  by_cases hk : k' = k
  · rw [hk, get?_insert_self, get?_insert_self]
    exact .some hv
  · rw [get?_insert_of_ne m v hk, get?_insert_of_ne m' w hk]
    exact h.lookup k'

theorem Alike.erase (h : Alike m m') (k : String) : Alike (erase m k) (Entries.erase m' k) := by
  refine ⟨distinct_filter h.left _, distinct_filter h.right _, fun k' => ?_⟩
  by_cases hk : k' = k
  · rw [hk, get?_erase_self, get?_erase_self]
    exact .none
  · rw [get?_erase_of_ne m hk, get?_erase_of_ne m' hk]
    exact h.lookup k'

theorem Alike.without (h : Alike m m') (names : List String) :
    Alike (without names m) (Entries.without names m') := by
  refine ⟨distinct_filter h.left _, distinct_filter h.right _, fun k => ?_⟩
  rw [get?_without, get?_without]
  split
  · exact .none
  · exact h.lookup k

theorem Alike.merge (h : Alike m m') (hp : Alike part part') :
    Alike (merge m part) (Entries.merge m' part') := by
  refine ⟨distinct_merge h.left part, distinct_merge h.right part', fun k => ?_⟩
  rw [get?_merge hp.left, get?_merge hp.right]
  rcases hp.lookup_cases k with ⟨hk, hk'⟩ | ⟨v, w, hk, hk', hv⟩
  · rw [hk, hk']
    exact h.lookup k
  · rw [hk, hk']
    exact .some hv

theorem Alike.pick (h : Alike m m') (names : List String) :
    Alike (pick names m) (Entries.pick names m') := by
  -- the named entries are written one after another
  have hwrite (base base' : Entries Value) (hb : Alike base base') :
      Alike (Entries.merge base (names.filterMap fun k => (Entries.get? m k).map fun v => (k, v)))
        (Entries.merge base' (names.filterMap fun k => (Entries.get? m' k).map fun v => (k, v))) := by
    induction names generalizing base base' with
    | nil => exact hb
    | cons k names ih =>
      rw [List.filterMap_cons, List.filterMap_cons]
      rcases h.lookup_cases k with ⟨hk, hk'⟩ | ⟨v, w, hk, hk', hv⟩
      · rw [hk, hk']
        exact ih base base' hb
      · rw [hk, hk']
        exact ih _ _ (hb.insert k hv)
  exact hwrite [] [] alike_nil

/-- Alike entries, each beside the one with its key. -/
theorem Alike.exists_perm (h : Alike m m') :
    ∃ c : Entries Value, List.Forall₂ (fun a b => a.1 = b.1 ∧ a.2.Alike b.2) m c ∧ c.Perm m' := by
  induction m generalizing m' with
  | nil =>
    obtain rfl : m' = [] := eq_nil_iff.2 fun k => h.get?_eq_none.1 rfl
    exact ⟨[], .nil, .nil⟩
  | cons e m ih =>
    obtain ⟨k, v⟩ := e
    obtain ⟨hk, -⟩ := List.nodup_cons.1 (show (k :: keys m).Nodup from h.left)
    have hrest : Alike m (Entries.erase m' k) := by
      have herase := h.erase k
      rwa [erase_cons, if_pos rfl, erase_of_get?_none (get?_eq_none_iff.2 hk)] at herase
    obtain ⟨c, hc, hperm⟩ := ih hrest
    have hfirst : get? ((k, v) :: m) k = some v := by
      rw [get?_cons, if_pos (beq_self_eq_true k)]
    rcases h.lookup_cases k with ⟨hk, -⟩ | ⟨v', w, hk, hk', hv⟩
    · exact absurd (hfirst.symm.trans hk) (by simp)
    · obtain rfl : v = v' := Option.some.inj (hfirst.symm.trans hk)
      refine ⟨(k, w) :: c, .cons ⟨rfl, hv⟩ hc, ?_⟩
      exact (hperm.cons _).trans (perm_cons_erase h.right hk').symm

end Entries

namespace Value

/-- Mappings are alike if lookups are. -/
theorem alike_mapping_iff {m m' : Entries Value} :
    (mapping m).Alike (.mapping m') ↔ Entries.Alike m m' := by
  constructor
  · intro h
    obtain ⟨hd, hm⟩ := h.wellFormed
    rw [entriesWellFormed_iff] at hm
    have hbeside {c : Entries Value} (hc : SimilarEntries m c) : Entries.Alike m c := by
      refine ⟨hd, by rwa [Entries.Distinct, ← hc.keys_eq], Entries.lookup_of_forall₂ ?_⟩
      exact Related.imp_of_mem (similarEntries_iff.1 hc) fun e he _ h => ⟨h.1, hm e he, h.2⟩
    cases h.similar with
    | refl => exact hbeside (similarEntries_refl m)
    | mapping hc hperm =>
      refine ⟨hd, h.right.1, fun k => ?_⟩
      rw [← Entries.get?_perm hperm (hbeside hc).right]
      exact (hbeside hc).lookup k
  · intro h
    obtain ⟨c, hc, hperm⟩ := h.exists_perm
    refine ⟨⟨h.left, (entriesWellFormed_iff m).2 fun e he => ?_⟩, ?_⟩
    · obtain ⟨e', -, -, he'⟩ := Related.exists_mem hc he
      exact he'.wellFormed
    · exact .mapping (similarEntries_iff.2 (hc.imp fun _ _ h => ⟨h.1, h.2.similar⟩)) hperm

theorem Alike.of_mapping {m : Entries Value} {w : Value} (h : (mapping m).Alike w) :
    ∃ m', w = .mapping m' ∧ Entries.Alike m m' := by
  have hw : ∃ m', w = .mapping m' := by
    cases h.similar with
    | refl => exact ⟨m, rfl⟩
    | mapping _ _ => exact ⟨_, rfl⟩
  obtain ⟨m', rfl⟩ := hw
  exact ⟨m', rfl, alike_mapping_iff.1 h⟩

end Value

/-! ### Focuses -/

/-- Nothing on both sides, or alike values. -/
def Focus.Alike : Focus → Focus → Prop
  | .absent, .absent => True
  | .value v, .value w => v.Alike w
  | _, _ => False

theorem Focus.Alike.of_value {v : Value} {s : Focus} (h : (Focus.value v).Alike s) :
    ∃ w, s = .value w ∧ v.Alike w := by
  cases s with
  | absent => exact absurd h id
  | value w => exact ⟨w, rfl, h⟩

theorem Focus.Alike.of_absent {s : Focus} (h : Focus.absent.Alike s) : s = .absent := by
  cases s with
  | absent => rfl
  | value w => exact absurd h id

theorem Focus.Alike.value? {s s' : Focus} (h : s.Alike s') :
    Option.Rel Value.Alike s.value? s'.value? := by
  cases s with
  | absent => rw [h.of_absent]; exact .none
  | value v => obtain ⟨w, rfl, hw⟩ := h.of_value; exact .some hw

end DocPath
