import DocPath.Value.Equality
import DocPath.Proofs.Entries
import DocPath.Proofs.Related

/-!
# Equality up to the order of entries

How `Value.Similar` looks at lists of values and at entries, and what keeps it.

* `Value.similarItems_iff`, `Value.similarEntries_iff` — similar lists, member by member;
* `Value.Similar.isDefined`, `Value.Similar.wellFormed` — similar values are defined alike, and neither
  has a repeated key if the other one has none;
* `Value.similarEntries_insert` — writing similar values under one key.
-/

namespace DocPath

namespace Value

theorem similarItems_iff {as bs : List Value} :
    SimilarItems as bs ↔ List.Forall₂ Similar as bs := by
  constructor
  · intro h
    induction as generalizing bs with
    | nil => cases h; exact .nil
    | cons a as ih =>
      cases h with
      | cons ha has => exact .cons ha (ih has)
  · intro h
    induction h with
    | nil => exact .nil
    | cons ha _ ih => exact .cons ha ih

theorem similarEntries_refl (m : Entries Value) : SimilarEntries m m := by
  induction m with
  | nil => exact .nil
  | cons e m ih => exact .cons (.refl e.2) ih

theorem similar_of_perm {as bs : Entries Value} (h : as.Perm bs) :
    Similar (.mapping as) (.mapping bs) := .mapping (similarEntries_refl as) h

theorem similar_mapping {as bs : Entries Value} (h : SimilarEntries as bs) :
    Similar (.mapping as) (.mapping bs) := .mapping h (List.Perm.refl bs)

/-- Entries with the same keys in the same order and similar values, entry by entry. -/
theorem similarEntries_iff {as bs : Entries Value} :
    SimilarEntries as bs ↔ List.Forall₂ (fun a b => a.1 = b.1 ∧ Similar a.2 b.2) as bs := by
  constructor
  · intro h
    induction as generalizing bs with
    | nil => cases h; exact .nil
    | cons a as ih =>
      cases h with
      | cons ha has => exact .cons ⟨rfl, ha⟩ (ih has)
  · intro h
    induction h with
    | nil => exact .nil
    | @cons a b _ _ hab _ ih =>
      obtain ⟨k, v⟩ := a
      obtain ⟨_, w⟩ := b
      obtain ⟨rfl, hvw⟩ := hab
      exact .cons hvw ih

/-- Similar values are defined alike. -/
theorem Similar.isDefined {v w : Value} (h : Similar v w) : v.isDefined = w.isDefined := by
  cases h <;> rfl

/-- Similar pairs have similar second halves. -/
theorem Similar.of_ofEntry {k k' : String} {v w : Value}
    (h : Similar (ofEntry (k, v)) (ofEntry (k', w))) : Similar v w := by
  rw [ofEntry, ofEntry] at h
  cases h with
  | refl => exact .refl v
  | sequence h =>
    cases h with
    | cons _ h =>
      cases h with
      | cons h _ => exact h

theorem SimilarEntries.keys_eq {as bs : Entries Value} (h : SimilarEntries as bs) :
    Entries.keys as = Entries.keys bs := by
  rw [similarEntries_iff] at h
  induction h with
  | nil => rfl
  | cons h _ ih => exact congrArg₂ List.cons h.1 ih

mutual

/-- No key occurs twice in what is similar to a document in which none does. -/
theorem Similar.wellFormed {v w : Value} : Similar v w → v.WellFormed → w.WellFormed
  | .refl _, hv => hv
  | .sequence h, hv => h.wellFormed hv
  | @Similar.mapping _ bs cs h hperm, hv => by
    obtain ⟨hd, hv⟩ := hv
    rw [Entries.Distinct, h.keys_eq] at hd
    refine ⟨(hperm.map Prod.fst).nodup_iff.1 hd, (entriesWellFormed_iff cs).2 fun e he => ?_⟩
    exact (entriesWellFormed_iff bs).1 (h.wellFormed hv) e (hperm.mem_iff.2 he)

theorem SimilarItems.wellFormed {vs ws : List Value} :
    SimilarItems vs ws → AllWellFormed vs → AllWellFormed ws
  | .nil, _ => trivial
  | .cons h hs, ⟨hv, hvs⟩ => ⟨h.wellFormed hv, hs.wellFormed hvs⟩

theorem SimilarEntries.wellFormed {as bs : Entries Value} :
    SimilarEntries as bs → EntriesWellFormed as → EntriesWellFormed bs
  | .nil, _ => trivial
  | .cons h hs, ⟨hv, hvs⟩ => ⟨h.wellFormed hv, hs.wellFormed hvs⟩

end

theorem similarEntries_insert (m : Entries Value) (k : String) {v w : Value} (h : Similar v w) :
    SimilarEntries (Entries.insert m k v) (Entries.insert m k w) := by
  induction m with
  | nil => exact .cons h .nil
  | cons e m ih =>
    obtain ⟨k', u⟩ := e
    rw [Entries.insert_cons, Entries.insert_cons]
    by_cases hk : k' = k
    · rw [if_pos hk, if_pos hk]
      exact .cons h (similarEntries_refl m)
    · rw [if_neg hk, if_neg hk]
      exact .cons (.refl u) ih

end Value

end DocPath
