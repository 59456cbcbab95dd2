import DocPath.Value.Basic
import DocPath.Proofs.Entries

/-!
# Sound documents

A document as a caller holds it has no `undefined` in it and no key twice in one mapping. What is
found in such a document is again of this kind, or it is the `undefined` of a place that is not there.

* `Value.Sound`, `Value.Clean` — sound values, and sound values together with `undefined`;
* `Value.sound_sequence_iff`, `Value.sound_mapping_iff` — soundness of the parts.
-/

namespace DocPath

namespace Value

/-- No `undefined` at any depth, and no key twice in one mapping. -/
structure Sound (v : Value) : Prop where
  undefinedFree : v.UndefinedFree
  wellFormed : v.WellFormed

/-- Sound, or the `undefined` of a missing place. -/
def Clean (v : Value) : Prop := v = .undefined ∨ v.Sound

theorem Sound.clean {v : Value} (h : v.Sound) : v.Clean := .inr h

theorem Sound.isDefined {v : Value} (h : v.Sound) : v.isDefined = true :=
  isDefined_of_undefinedFree h.undefinedFree

theorem Clean.sound {v : Value} (h : v.Clean) (hd : v.isDefined = true) : v.Sound := by
  rcases h with rfl | h
  · exact absurd hd (by decide)
  · exact h

theorem sound_sequence_iff {vs : List Value} : (sequence vs).Sound ↔ ∀ v ∈ vs, v.Sound := by
  constructor
  · intro h v hv
    exact ⟨(allUndefinedFree_iff vs).1 h.undefinedFree v hv,
      (allWellFormed_iff vs).1 h.wellFormed v hv⟩
  · intro h
    exact ⟨(allUndefinedFree_iff vs).2 fun v hv => (h v hv).undefinedFree,
      (allWellFormed_iff vs).2 fun v hv => (h v hv).wellFormed⟩

theorem sound_mapping_iff {m : Entries Value} :
    (mapping m).Sound ↔ Entries.Distinct m ∧ ∀ e ∈ m, e.2.Sound := by
  constructor
  · intro h
    refine ⟨h.wellFormed.1, fun e he => ⟨?_, ?_⟩⟩
    · exact (entriesUndefinedFree_iff m).1 h.undefinedFree e he
    · exact (entriesWellFormed_iff m).1 h.wellFormed.2 e he
  · intro h
    obtain ⟨hd, h⟩ := h
    exact ⟨(entriesUndefinedFree_iff m).2 fun e he => (h e he).undefinedFree, hd,
      (entriesWellFormed_iff m).2 fun e he => (h e he).wellFormed⟩

theorem Clean.of_mem_sequence {vs : List Value} (h : (sequence vs).Clean) {v : Value}
    (hv : v ∈ vs) : v.Sound := sound_sequence_iff.1 (h.sound rfl) v hv

theorem Clean.distinct {m : Entries Value} (h : (mapping m).Clean) : Entries.Distinct m :=
  (sound_mapping_iff.1 (h.sound rfl)).1

theorem Clean.of_mem_mapping {m : Entries Value} (h : (mapping m).Clean) {e : String × Value}
    (he : e ∈ m) : e.2.Sound := (sound_mapping_iff.1 (h.sound rfl)).2 e he

/-- What stands under a key of a clean mapping is defined. -/
theorem Clean.isDefined_of_get? {m : Entries Value} (h : (mapping m).Clean) {k : String}
    {v : Value} (hv : Entries.get? m k = some v) : v.isDefined = true :=
  (h.of_mem_mapping (Entries.mem_of_get? hv)).isDefined

end Value

end DocPath
