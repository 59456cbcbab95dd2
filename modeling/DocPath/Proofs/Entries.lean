import DocPath.Entries
import Mathlib.Data.List.Nodup

/-!
# Laws of ordered entries

What writing, removing and merging do to lookups, to the list of keys and to one another. None of
these laws but those on `ofList` and `Distinct` asks for keys that occur only once.

* `Entries.get?_erase_of_ne`, `Entries.insert_of_get?`, `Entries.erase_of_get?_none` — a write
  elsewhere is not seen, and a write of what is there does nothing;
* `Entries.insert_insert_self` — the last write under a key counts;
* `Entries.insert_insert_perm`, `Entries.erase_insert_of_ne`, `Entries.erase_erase_comm` — writes
  under two keys commute, up to the order of entries where both are new;
* `Entries.merge_of_get?`, `Entries.ofList_of_distinct` — merges that change nothing;
* `Entries.distinct_merge`, `Entries.distinct_ofList` — no key comes to occur twice;
* `Entries.keys_merge`, `Entries.lasts`, `Entries.get?_merge`, `Entries.ofList_perm_lasts` — the keys, and
  the entries that remain, when one entry is written after another;
* `Entries.get?_of_mem`, `Entries.eq_of_get?`, `Entries.perm_cons_erase`, `Entries.exists_split` — what
  lookups find, and what removing leaves, where no key occurs twice.
-/

namespace DocPath

namespace Entries

variable {α : Type}

/-! ### Writes at one key -/

theorem erase_cons (k k' : String) (v : α) (m : Entries α) :
    erase ((k', v) :: m) k = if k' = k then erase m k else (k', v) :: erase m k := by
  rw [erase, List.filter_cons]
  by_cases h : k' = k <;> simp [h, erase]

theorem insert_cons (k k' : String) (v v' : α) (m : Entries α) :
    insert ((k', v') :: m) k v = if k' = k then (k', v) :: m else (k', v') :: insert m k v := by
  rw [insert]
  by_cases h : k' = k
  · simp [h]
  · simp [h, Ne.symm h]

/-- A write of what is there already does nothing. -/
theorem insert_of_get? {m : Entries α} {k : String} {v : α} (h : get? m k = some v) :
    insert m k v = m := by
  induction m with
  | nil => exact absurd h (by simp [get?_nil])
  | cons e m ih =>
    obtain ⟨k', v'⟩ := e
    rw [get?_cons] at h
    rw [insert_cons]
    by_cases hk : k' = k
    · subst hk
      rw [if_pos (beq_self_eq_true k')] at h
      rw [if_pos rfl, Option.some.inj h]
    · rw [if_neg (by simpa using Ne.symm hk)] at h
      rw [if_neg hk, ih h]

/-- Removing a key that is not there does nothing. -/
theorem erase_of_get?_none {m : Entries α} {k : String} (h : get? m k = none) :
    erase m k = m := by
  induction m with
  | nil => rfl
  | cons e m ih =>
    obtain ⟨k', v'⟩ := e
    rw [get?_cons] at h
    rw [erase_cons]
    by_cases hk : k' = k
    · subst hk
      rw [if_pos (beq_self_eq_true k')] at h
      exact absurd h (by simp)
    · rw [if_neg (by simpa using Ne.symm hk)] at h
      rw [if_neg hk, ih h]

theorem insert_insert_self (m : Entries α) (k : String) (v w : α) :
    insert (insert m k v) k w = insert m k w := by
  induction m with
  | nil => rw [insert, insert_cons, if_pos rfl, insert]
  | cons e m ih =>
    obtain ⟨k', v'⟩ := e
    rw [insert_cons, insert_cons]
    by_cases hk : k' = k
    · rw [if_pos hk, if_pos hk, insert_cons, if_pos hk]
    · rw [if_neg hk, if_neg hk, insert_cons, if_neg hk, ih]

/-! ### Writes at two keys -/

theorem get?_erase_of_ne (m : Entries α) {k k' : String} (h : k' ≠ k) :
    get? (erase m k) k' = get? m k' := by
  induction m with
  | nil => rfl
  | cons e m ih =>
    obtain ⟨k₀, v₀⟩ := e
    rw [erase_cons, get?_cons]
    by_cases hk : k₀ = k
    · rw [if_pos hk, ih, if_neg (by simpa [hk] using h)]
    · rw [if_neg hk, get?_cons, ih]

theorem erase_insert_of_ne (m : Entries α) {a b : String} (h : a ≠ b) (v : α) :
    erase (insert m a v) b = insert (erase m b) a v := by
  induction m with
  | nil => rw [insert, erase_cons, if_neg h]; rfl
  | cons e m ih =>
    obtain ⟨k, w⟩ := e
    rw [insert_cons, erase_cons]
    by_cases ha : k = a
    · subst ha
      rw [if_pos rfl, if_neg h, erase_cons, if_neg h, insert_cons, if_pos rfl]
    · rw [if_neg ha, erase_cons, ih]
      by_cases hb : k = b
      · rw [if_pos hb, if_pos hb]
      · rw [if_neg hb, if_neg hb, insert_cons, if_neg ha]

theorem erase_erase_comm (m : Entries α) (a b : String) :
    erase (erase m a) b = erase (erase m b) a := by
  rw [erase, erase, erase, erase, List.filter_filter, List.filter_filter]
  congr 1
  funext e
  exact Bool.and_comm _ _

/-- Writes under two keys commute up to the order of entries, which shows only where both keys
are new. -/
theorem insert_insert_perm (m : Entries α) {a b : String} (h : a ≠ b) (v w : α) :
    (insert (insert m a v) b w).Perm (insert (insert m b w) a v) := by
  induction m with
  | nil =>
    rw [insert, insert_cons, if_neg h, insert, insert_cons, if_neg (Ne.symm h)]
    exact List.Perm.swap _ _ _
  | cons e m ih =>
    obtain ⟨k, x⟩ := e
    rw [insert_cons, insert_cons]
    by_cases ha : k = a
    · have hb : k ≠ b := fun hb => h (ha.symm.trans hb)
      rw [if_pos ha, if_neg hb, insert_cons, insert_cons, if_neg hb, if_pos ha]
    · by_cases hb : k = b
      · rw [if_neg ha, if_pos hb, insert_cons, insert_cons, if_pos hb, if_neg ha]
      · rw [if_neg ha, if_neg hb, insert_cons, insert_cons, if_neg hb, if_neg ha]
        exact ih.cons _

/-! ### Merging and picking -/

theorem merge_cons (m : Entries α) (e : String × α) (part : Entries α) :
    merge m (e :: part) = merge (insert m e.1 e.2) part := rfl

/-- Merging in what is there already does nothing. -/
theorem merge_of_get? {m part : Entries α} (h : ∀ e ∈ part, get? m e.1 = some e.2) :
    merge m part = m := by
  induction part with
  | nil => rfl
  | cons e part ih =>
    rw [merge_cons, insert_of_get? (h e List.mem_cons_self)]
    exact ih fun e' he' => h e' (List.mem_cons_of_mem e he')

theorem mem_insert {m : Entries α} {k : String} {v : α} {e : String × α} (h : e ∈ insert m k v) :
    e = (k, v) ∨ e ∈ m := by
  induction m with
  | nil => exact .inl (List.mem_singleton.1 h)
  | cons e' m ih =>
    obtain ⟨k', v'⟩ := e'
    rw [insert_cons] at h
    by_cases hk : k' = k
    · rw [if_pos hk, hk] at h
      exact (List.mem_cons.1 h).imp_right (List.mem_cons_of_mem _)
    · rw [if_neg hk] at h
      rcases List.mem_cons.1 h with rfl | h
      · exact .inr List.mem_cons_self
      · exact (ih h).imp_right (List.mem_cons_of_mem _)

theorem mem_merge {m part : Entries α} {e : String × α} (h : e ∈ merge m part) :
    e ∈ part ∨ e ∈ m := by
  induction part generalizing m with
  | nil => exact .inr h
  | cons e' part ih =>
    rw [merge_cons] at h
    rcases ih h with h | h
    · exact .inl (List.mem_cons_of_mem e' h)
    · rcases mem_insert h with rfl | h
      · exact .inl List.mem_cons_self
      · exact .inr h

theorem mem_ofList {pairs : List (String × α)} {e : String × α} (h : e ∈ ofList pairs) :
    e ∈ pairs := by
  rcases mem_merge h with h | h
  · exact h
  · exact absurd h List.not_mem_nil

theorem get?_of_mem_pick {names : List String} {m : Entries α} {e : String × α}
    (h : e ∈ pick names m) : get? m e.1 = some e.2 := by
  obtain ⟨k, -, hk⟩ := List.mem_filterMap.1 (mem_ofList h)
  obtain ⟨v, hv, rfl⟩ := Option.map_eq_some_iff.1 hk
  exact hv

theorem pick_nil (names : List String) : pick names ([] : Entries α) = [] := by
  have h : (names.filterMap fun k => (get? ([] : Entries α) k).map fun v => (k, v)) = [] :=
    List.filterMap_eq_nil_iff.2 fun k _ => rfl
  rw [pick, h]
  rfl

theorem mem_of_get? {m : Entries α} {k : String} {v : α} (h : get? m k = some v) : (k, v) ∈ m := by
  induction m with
  | nil => exact absurd h (by simp [get?_nil])
  | cons e m ih =>
    obtain ⟨k', v'⟩ := e
    rw [get?_cons] at h
    by_cases hk : k = k'
    · subst hk
      rw [if_pos (beq_self_eq_true k)] at h
      rw [Option.some.inj h]
      exact List.mem_cons_self
    · rw [if_neg (by simpa using hk)] at h
      exact List.mem_cons_of_mem _ (ih h)

theorem contains_eq_true_iff {m : Entries α} {k : String} :
    contains m k = true ↔ k ∈ m.keys := by
  induction m with
  | nil => simp [contains, get?_nil, keys]
  | cons e m ih =>
    obtain ⟨k', v'⟩ := e
    rw [contains, get?_cons, keys, List.map_cons, List.mem_cons]
    by_cases hk : k = k'
    · simp [hk]
    · rw [if_neg (by simpa using hk), or_iff_right hk]
      exact ih

theorem mem_keys_insert {m : Entries α} {k k' : String} {v : α} :
    k' ∈ (insert m k v).keys ↔ k' = k ∨ k' ∈ m.keys := by
  induction m with
  | nil => rw [insert]; simp [keys]
  | cons e m ih =>
    obtain ⟨k₀, v₀⟩ := e
    rw [insert_cons]
    by_cases hk : k₀ = k
    · simp [hk, keys]
    · rw [if_neg hk]
      have ih : k' ∈ List.map Prod.fst (insert m k v) ↔ k' = k ∨ k' ∈ List.map Prod.fst m := ih
      simp only [keys, List.map_cons, List.mem_cons, ih]
      exact or_left_comm

theorem keys_insert_of_mem {m : Entries α} {k : String} (h : k ∈ m.keys) (v : α) :
    (insert m k v).keys = m.keys := by
  induction m with
  | nil => exact absurd h List.not_mem_nil
  | cons e m ih =>
    obtain ⟨k', v'⟩ := e
    rw [insert_cons]
    by_cases hk : k' = k
    · rw [if_pos hk]
      rfl
    · rw [if_neg hk]
      have h : k ∈ k' :: keys m := h
      exact congrArg (k' :: ·) (ih ((List.mem_cons.1 h).resolve_left (Ne.symm hk)))

theorem mem_keys_merge {m part : Entries α} {k : String} :
    k ∈ (merge m part).keys ↔ k ∈ m.keys ∨ k ∈ part.keys := by
  induction part generalizing m with
  | nil => simp [merge, keys]
  | cons e part ih =>
    rw [merge_cons, ih, mem_keys_insert]
    simp only [keys, List.map_cons, List.mem_cons]
    tauto

/-- A named key of the mapping is a key of the part that the names pick. -/
theorem mem_keys_pick {names : List String} {m : Entries α} {k : String} (hn : k ∈ names)
    (hm : k ∈ m.keys) : k ∈ (pick names m).keys := by
  rw [pick, ofList, mem_keys_merge]
  have hk : (get? m k).isSome := contains_eq_true_iff.2 hm
  obtain ⟨v, hv⟩ := Option.isSome_iff_exists.1 hk
  refine .inr (List.mem_map.2 ⟨(k, v), List.mem_filterMap.2 ⟨k, hn, ?_⟩, rfl⟩)
  rw [hv]
  rfl

/-! ### Keys that occur once -/

theorem distinct_insert {m : Entries α} (h : Distinct m) (k : String) (v : α) :
    Distinct (insert m k v) := by
  induction m with
  | nil => exact List.nodup_singleton k
  | cons e m ih =>
    obtain ⟨k', v'⟩ := e
    obtain ⟨hk', hm⟩ := List.nodup_cons.1 (show (k' :: keys m).Nodup from h)
    rw [insert_cons]
    by_cases hk : k' = k
    · rw [if_pos hk]
      exact h
    · rw [if_neg hk]
      refine List.nodup_cons.2 ⟨fun hmem => ?_, ih hm⟩
      rcases mem_keys_insert.1 hmem with rfl | hmem
      · exact hk rfl
      · exact hk' hmem

theorem distinct_merge {m : Entries α} (h : Distinct m) (part : Entries α) :
    Distinct (merge m part) := by
  induction part generalizing m with
  | nil => exact h
  | cons e part ih => exact ih (distinct_insert h e.1 e.2)

theorem distinct_ofList (pairs : List (String × α)) : Distinct (ofList pairs) :=
  distinct_merge (show Distinct ([] : Entries α) from List.nodup_nil) pairs

theorem insert_of_not_mem_keys {m : Entries α} {k : String} (h : k ∉ m.keys) (v : α) :
    insert m k v = m ++ [(k, v)] := by
  induction m with
  | nil => rfl
  | cons e m ih =>
    obtain ⟨k', v'⟩ := e
    have h : k ∉ k' :: keys m := h
    have hne : ¬ k' = k := fun hk => h (by rw [hk]; exact List.mem_cons_self)
    rw [insert_cons, if_neg hne, ih fun hk => h (List.mem_cons_of_mem k' hk), List.cons_append]

/-- Pairs with distinct keys are entries as they stand. -/
theorem ofList_of_distinct {m : Entries α} (h : Distinct m) : ofList m = m := by
  have hmerge (base rest : Entries α) (hd : (base.keys ++ rest.keys).Nodup) :
      merge base rest = base ++ rest := by
    induction rest generalizing base with
    | nil => exact (List.append_nil base).symm
    | cons e rest ih =>
      obtain ⟨k, v⟩ := e
      have hnew : k ∉ base.keys := fun hk =>
        (List.nodup_append.1 hd).2.2 k hk k List.mem_cons_self rfl
      rw [merge_cons, insert_of_not_mem_keys hnew, ih, List.append_assoc, List.singleton_append]
      rw [keys, List.map_append, List.append_assoc]
      exact hd
  exact hmerge [] m h

/-! ### Lookups where keys occur once -/

theorem get?_eq_none_iff {m : Entries α} {k : String} : get? m k = none ↔ k ∉ m.keys := by
  rw [← contains_eq_true_iff, contains, Option.not_isSome_iff_eq_none]

/-- A lookup finds every entry, since no other one has its key. -/
theorem get?_of_mem {m : Entries α} (h : Distinct m) {e : String × α} (he : e ∈ m) :
    get? m e.1 = some e.2 := by
  induction m with
  | nil => exact absurd he List.not_mem_nil
  | cons e' m ih =>
    obtain ⟨k', v'⟩ := e'
    obtain ⟨hk', hm⟩ := List.nodup_cons.1 (show (k' :: keys m).Nodup from h)
    rw [get?_cons]
    rcases List.mem_cons.1 he with rfl | he
    · rw [if_pos (beq_self_eq_true k')]
    · have hne : e.1 ≠ k' := fun hk => hk' (hk ▸ List.mem_map_of_mem he)
      rw [if_neg (by simpa using hne), ih hm he]

theorem distinct_filter {m : Entries α} (h : Distinct m) (keep : String × α → Bool) :
    Distinct (m.filter keep) := h.sublist (List.Sublist.map Prod.fst List.filter_sublist)

theorem get?_without (names : List String) (m : Entries α) (k : String) :
    get? (without names m) k = if k ∈ names then none else get? m k := by
  induction m with
  | nil => exact (ite_self none).symm
  | cons e m ih =>
    obtain ⟨k', v'⟩ := e
    rw [without, List.filter_cons, ← without, get?_cons]
    by_cases hk : k = k'
    · subst hk
      rw [if_pos (beq_self_eq_true k)]
      by_cases hn : k ∈ names
      · rw [if_neg (by simpa using hn), ih, if_pos hn, if_pos hn]
      · rw [if_pos (by simpa using hn), get?_cons, if_pos (beq_self_eq_true k), if_neg hn]
    · have hne : ¬ (k == k') = true := by simpa using hk
      rw [if_neg hne, ← ih]
      split
      · rw [get?_cons, if_neg hne]
      · rfl

/-! ### One entry written after another -/

/-- A list in which nothing occurs twice has nothing to erase. -/
theorem eraseDups_of_nodup {ks : List String} (h : ks.Nodup) : ks.eraseDups = ks := by
  induction ks with
  | nil => rfl
  | cons k ks ih =>
    obtain ⟨hk, hks⟩ := List.nodup_cons.1 h
    have hfilter : (ks.filter fun k' => !k' == k) = ks := by
      apply List.filter_eq_self.2
      intro k' hk'
      have hne : k' ≠ k := fun heq => hk (heq ▸ hk')
      simpa using hne
    rw [List.eraseDups_cons, hfilter, ih hks]

/-- **The keys of entries written over a mapping**: its own first, and then the new ones, each where it
first occurs. -/
theorem keys_merge {m : Entries α} (h : Distinct m) (pairs : List (String × α)) :
    keys (merge m pairs) = (keys m ++ keys pairs).eraseDups := by
  induction pairs generalizing m with
  | nil =>
    show keys m = (keys m ++ []).eraseDups
    rw [List.append_nil, eraseDups_of_nodup h]
  | cons e pairs ih =>
    obtain ⟨k, v⟩ := e
    rw [merge_cons, ih (distinct_insert h k v)]
    show _ = (keys m ++ k :: keys pairs).eraseDups
    by_cases hk : k ∈ keys m
    · have hskip : (k :: keys pairs).removeAll (keys m) = (keys pairs).removeAll (keys m) := by
        rw [List.cons_removeAll, if_neg (by simpa using hk)]
      rw [keys_insert_of_mem hk, List.eraseDups_append, List.eraseDups_append, hskip]
    · have hnew : keys (insert m k v) = keys m ++ [k] := by
        rw [insert_of_not_mem_keys hk, keys, List.map_append]
        rfl
      rw [hnew, List.append_assoc, List.singleton_append]

/-- New keys follow the old ones in their own order if none of them occurs twice. -/
theorem keys_merge_of_distinct {m part : Entries α} (h : Distinct m) (hpart : Distinct part) :
    keys (merge m part) = keys m ++ (keys part).filter fun k => !contains m k := by
  have hnew : (keys part).removeAll (keys m) = (keys part).filter fun k => !contains m k := by
    apply List.filter_congr
    intro k _
    rw [Bool.eq_iff_iff]
    simp [← contains_eq_true_iff]
  rw [keys_merge h, List.eraseDups_append, eraseDups_of_nodup h, hnew,
    eraseDups_of_nodup (hpart.filter _)]

/-- The entries that no later one of the same key overrides. -/
def lasts : List (String × α) → List (String × α)
  | [] => []
  | e :: pairs => if e.1 ∈ keys pairs then lasts pairs else e :: lasts pairs

theorem mem_keys_lasts {pairs : List (String × α)} {k : String} :
    k ∈ keys (lasts pairs) ↔ k ∈ keys pairs := by
  induction pairs with
  | nil => exact Iff.rfl
  | cons e pairs ih =>
    obtain ⟨k', v⟩ := e
    show _ ↔ k ∈ k' :: keys pairs
    rw [lasts, List.mem_cons]
    split
    · rename_i hk'
      rw [ih]
      constructor
      · exact .inr
      · rintro (rfl | hk)
        · exact hk'
        · exact hk
    · show k ∈ k' :: keys (lasts pairs) ↔ _
      rw [List.mem_cons, ih]

theorem distinct_lasts (pairs : List (String × α)) : Distinct (lasts pairs) := by
  induction pairs with
  | nil => exact List.nodup_nil
  | cons e pairs ih =>
    rw [lasts]
    split
    · exact ih
    · rename_i hk
      exact List.nodup_cons.2 ⟨fun hmem => hk (mem_keys_lasts.1 hmem), ih⟩

theorem lasts_of_distinct {m : Entries α} (h : Distinct m) : lasts m = m := by
  induction m with
  | nil => rfl
  | cons e m ih =>
    obtain ⟨hk, hm⟩ := List.nodup_cons.1 (show (e.1 :: keys m).Nodup from h)
    rw [lasts, if_neg hk, ih hm]

/-- What is written last under a key is found there. -/
theorem get?_merge_lasts (m : Entries α) (pairs : List (String × α)) (k : String) :
    get? (merge m pairs) k = (get? (lasts pairs) k).or (get? m k) := by
  induction pairs generalizing m with
  | nil => rfl
  | cons e pairs ih =>
    obtain ⟨k', v⟩ := e
    rw [merge_cons, ih, lasts]
    by_cases hk : k = k'
    · subst hk
      rw [get?_insert_self]
      split
      · rename_i hmem
        obtain ⟨w, hw⟩ := Option.isSome_iff_exists.1 (contains_eq_true_iff.2 (mem_keys_lasts.2 hmem))
        rw [hw]
        rfl
      · rename_i hmem
        rw [get?_eq_none_iff.2 fun h => hmem (mem_keys_lasts.1 h), get?_cons, beq_self_eq_true]
        rfl
    · rw [get?_insert_of_ne m v hk]
      split
      · rfl
      · rw [get?_cons, if_neg (by simpa using hk)]

/-- What is found among them under a key is the value of the last entry of this key. -/
theorem get?_lasts_eq_some_iff {pairs : List (String × α)} {k : String} {v : α} :
    get? (lasts pairs) k = some v ↔
      ∃ before after, pairs = before ++ (k, v) :: after ∧ k ∉ keys after := by
  induction pairs with
  | nil =>
    constructor
    · intro h
      exact absurd h (by simp [lasts, get?_nil])
    · rintro ⟨before, after, h, -⟩
      exact absurd h (by simp)
  | cons e pairs ih =>
    obtain ⟨k', v'⟩ := e
    -- the last entry of the key is the first of the list, or it is found in the rest
    have hsplit : (∃ before after, (k', v') :: pairs = before ++ (k, v) :: after ∧ k ∉ keys after) ↔
        (k = k' ∧ v' = v ∧ k' ∉ keys pairs) ∨ get? (lasts pairs) k = some v := by
      rw [ih]
      constructor
      · rintro ⟨before, after, h, hk⟩
        cases before with
        | nil =>
          obtain ⟨⟨rfl, rfl⟩, rfl⟩ : (k' = k ∧ v' = v) ∧ pairs = after := by simpa using h
          exact .inl ⟨rfl, rfl, hk⟩
        | cons e' before => exact .inr ⟨before, after, (List.cons.inj h).2, hk⟩
      · rintro (⟨rfl, rfl, hk⟩ | ⟨before, after, rfl, hk⟩)
        · exact ⟨[], pairs, rfl, hk⟩
        · exact ⟨(k', v') :: before, after, rfl, hk⟩
    rw [hsplit, lasts]
    by_cases hmem : k' ∈ keys pairs
    · simp [hmem]
    · rw [if_neg hmem, get?_cons]
      by_cases hk : k = k'
      · subst hk
        have hnone : get? (lasts pairs) k = none := get?_eq_none_iff.2 fun h => hmem (mem_keys_lasts.1 h)
        simp [hmem, hnone]
      · simp [hk]

/-- What is laid over a mapping is found first. -/
theorem get?_merge {part : Entries α} (h : Distinct part) (m : Entries α) (k : String) :
    get? (merge m part) k = (get? part k).or (get? m k) := by
  rw [get?_merge_lasts, lasts_of_distinct h]

theorem get?_ofList (pairs : List (String × α)) (k : String) :
    get? (ofList pairs) k = get? (lasts pairs) k := by
  rw [ofList, get?_merge_lasts, get?_nil, Option.or_none]

theorem get?_eq_some_iff {m : Entries α} (h : Distinct m) {k : String} {v : α} :
    get? m k = some v ↔ (k, v) ∈ m := ⟨mem_of_get?, fun hmem => get?_of_mem h hmem⟩

/-- Of the entries written one after another those remain that no later one overrides. -/
theorem ofList_perm_lasts (pairs : List (String × α)) : (ofList pairs).Perm (lasts pairs) := by
  apply (List.perm_ext_iff_of_nodup (distinct_ofList pairs).of_map (distinct_lasts pairs).of_map).2
  rintro ⟨k, v⟩
  rw [← get?_eq_some_iff (distinct_ofList pairs), get?_ofList, get?_eq_some_iff (distinct_lasts pairs)]

/-! ### Entries taken apart -/

/-- Entries are known by their keys in order and by what is found under each. -/
theorem eq_of_get? {m m' : Entries α} (h : Distinct m) (hkeys : keys m = keys m')
    (hget : ∀ k, get? m k = get? m' k) : m = m' := by
  induction m generalizing m' with
  | nil => exact (List.map_eq_nil_iff.1 hkeys.symm).symm
  | cons e m ih =>
    obtain ⟨k, v⟩ := e
    cases m' with
    | nil => exact absurd hkeys (by simp [keys])
    | cons e' m' =>
      obtain ⟨k', v'⟩ := e'
      obtain ⟨rfl, hrest⟩ : k = k' ∧ keys m = keys m' := List.cons.inj hkeys
      obtain ⟨hk, hm⟩ := List.nodup_cons.1 (show (k :: keys m).Nodup from h)
      have hfirst := hget k
      simp only [get?_cons, beq_self_eq_true, if_true, Option.some.injEq] at hfirst
      have hothers : ∀ k₀, get? m k₀ = get? m' k₀ := by
        intro k₀
        by_cases hk₀ : k₀ = k
        · rw [hk₀, get?_eq_none_iff.2 hk, get?_eq_none_iff.2 (hrest ▸ hk)]
        · have h₀ := hget k₀
          rwa [get?_cons, get?_cons, if_neg (by simpa using hk₀), if_neg (by simpa using hk₀)] at h₀
      rw [hfirst, ih hm hrest hothers]

/-- An entry that a lookup finds may as well stand first. -/
theorem perm_cons_erase {m : Entries α} (h : Distinct m) {k : String} {v : α}
    (hk : get? m k = some v) : m.Perm ((k, v) :: erase m k) := by
  induction m with
  | nil => exact absurd hk (by simp [get?_nil])
  | cons e m ih =>
    obtain ⟨k', v'⟩ := e
    obtain ⟨hk', hm⟩ := List.nodup_cons.1 (show (k' :: keys m).Nodup from h)
    rw [get?_cons] at hk
    rw [erase_cons]
    by_cases heq : k = k'
    · subst heq
      rw [if_pos (beq_self_eq_true k)] at hk
      rw [if_pos rfl, Option.some.inj hk, erase_of_get?_none (get?_eq_none_iff.2 hk')]
    · rw [if_neg (by simpa using heq)] at hk
      rw [if_neg (Ne.symm heq)]
      exact ((ih hm hk).cons _).trans (List.Perm.swap _ _ _)

/-- The one entry of a key stands between entries of other keys, and these are left without it. -/
theorem exists_split {m : Entries α} (h : Distinct m) {k : String} {v : α}
    (hk : get? m k = some v) : ∃ before after, m = before ++ (k, v) :: after ∧ k ∉ keys before ∧
      k ∉ keys after ∧ erase m k = before ++ after := by
  obtain ⟨before, after, rfl⟩ := List.append_of_mem (mem_of_get? hk)
  have hkeys : keys (before ++ (k, v) :: after) = keys before ++ k :: keys after := by
    simp only [keys, List.map_append, List.map_cons]
  rw [Distinct, hkeys, List.nodup_middle, List.nodup_cons, List.mem_append, not_or] at h
  obtain ⟨⟨hbefore, hafter⟩, -⟩ := h
  refine ⟨before, after, rfl, hbefore, hafter, ?_⟩
  have happend : erase (before ++ (k, v) :: after) k = erase before k ++ erase ((k, v) :: after) k :=
    List.filter_append ..
  rw [happend, erase_cons, if_pos rfl, erase_of_get?_none (get?_eq_none_iff.2 hbefore),
    erase_of_get?_none (get?_eq_none_iff.2 hafter)]

end Entries

end DocPath
