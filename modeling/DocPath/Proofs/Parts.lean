import DocPath.Proofs.Identity

/-!
# Parts of a mapping put back

The step to a part of a mapping hands on the entries under the named keys, and puts what became of them
back. Under a named key there is then what the answer has there, and nothing if it has nothing. Under any
other key an answer that has something is heard too, and otherwise the entry stays. No entry that stays
moves, and new ones follow at the end.

* `Entries.pick_congr` — a part is known by what is found under the named keys;
* `Navigator.get?_replacePart`, `Navigator.keys_replacePart` — **what is found in a mapping after its part
  was replaced**, and in which order;
* `Navigator.transform_submap` — the step asks once and puts the answer back;
* `Navigator.part_replaced` — the law for the step, with any continuation.
-/

namespace DocPath

variable {σ : Type}

namespace Entries

variable {α : Type}

/-- A part is known by what is found under the named keys. -/
theorem pick_congr {names : List String} {m m' : Entries α}
    (h : ∀ k ∈ names, get? m k = get? m' k) : pick names m = pick names m' := by
  rw [pick, pick]
  congr 1
  apply List.filterMap_congr
  intro k hk
  rw [h k hk]

theorem keys_without (names : List String) (m : Entries α) :
    keys (without names m) = (keys m).filter fun k => !names.contains k := by
  rw [keys, keys, without, List.filter_map]
  rfl

end Entries

namespace Navigator

/-! ### The entries afterwards -/

/-- The names of the entries that go when the part is replaced. -/
theorem contains_dropped (names : List String) (part : Entries Value) (k : String) :
    (names.filter fun k => !Entries.contains part k).contains k =
      (names.contains k && !Entries.contains part k) := by
  rw [Bool.eq_iff_iff]
  simp

/-- **Under a named key there is what the answer has there**; under another key the answer wins over the
entry that was there. -/
theorem get?_replacePart (names : List String) (m : Entries Value) {part : Entries Value}
    (hpart : part.Distinct) (k : String) :
    Entries.get? (replacePart names m part) k =
      if k ∈ names then Entries.get? part k else (Entries.get? part k).or (Entries.get? m k) := by
  rw [replacePart, Entries.get?_merge hpart, Entries.get?_without]
  cases hk : Entries.get? part k with
  | some v => simp
  | none => simp [Entries.contains, hk]

theorem distinct_replacePart (names : List String) {m : Entries Value} (hm : m.Distinct)
    (part : Entries Value) : (replacePart names m part).Distinct :=
  Entries.distinct_merge (Entries.distinct_filter hm _) part

/-- **The entries that stay keep their order**, and new ones follow in the order of the answer. -/
theorem keys_replacePart (names : List String) {m part : Entries Value} (hm : m.Distinct)
    (hpart : part.Distinct) :
    (replacePart names m part).keys =
      (m.keys.filter fun k => part.contains k || !names.contains k) ++
        part.keys.filter fun k => !m.contains k := by
  have hstay : (Entries.without (names.filter fun k => !part.contains k) m).keys =
      m.keys.filter fun k => part.contains k || !names.contains k := by
    rw [Entries.keys_without]
    apply List.filter_congr
    intro k _
    rw [contains_dropped]
    cases names.contains k <;> cases part.contains k <;> rfl
  have hnew : (part.keys.filter fun k =>
        !(Entries.without (names.filter fun k => !part.contains k) m).contains k) =
      part.keys.filter fun k => !m.contains k := by
    apply List.filter_congr
    intro k hk
    have hk : Entries.get? part k ≠ none := fun h => Entries.get?_eq_none_iff.1 h hk
    rw [Entries.contains, Entries.get?_without]
    simp [hk, Entries.contains]
  have hdistinct : (Entries.without (names.filter fun k => !part.contains k) m).Distinct :=
    Entries.distinct_filter hm _
  rw [replacePart, Entries.keys_merge_of_distinct hdistinct hpart, hstay, hnew]

/-- In an empty mapping the answer is all there is. -/
theorem replacePart_nil (names : List String) {part : Entries Value} (hpart : part.Distinct) :
    replacePart names [] part = part := Entries.ofList_of_distinct hpart

/-! ### The step -/

theorem entriesOf_void {names : List String} {s : Focus} (h : s.isVoid = true) :
    entriesOf names s = .ok [] := by
  cases s with
  | absent => rfl
  | value v =>
    cases v with
    | null | undefined => rfl
    | _ => exact absurd h Bool.false_ne_true

/-- An answer from which a part can be read: a mapping, or nothing for the empty one. -/
theorem partAnswered_eq {names : List String} {r : Focus} {part : Entries Value}
    (h : r = .value (.mapping part) ∨ r = .absent ∧ part = []) : partAnswered names r = .ok part := by
  rcases h with rfl | ⟨rfl, rfl⟩ <;> rfl

/-- **The step to a part asks once**, about the part that is there, and puts the answer back. -/
theorem transform_submap {names : List String} {s : Focus} {m : Entries Value}
    (hs : entriesOf names s = .ok m) (next : Continuation σ) :
    (submap names).transform s next =
      next (.value (.mapping (Entries.pick names m))) >>= fun r =>
        Action.ofExcept ((partAnswered names r).map fun part =>
          if s.isVoid && part.isEmpty then s else .value (.mapping (replacePart names m part))) := by
  rw [transform_eq_carryOut _ rfl]
  show Action.ofExcept (exchangeSubmap names s) >>= _ = _
  rw [exchangeSubmap, hs]
  exact Exchange.carryOut_single _ _ next

theorem exec_transform_submap {names : List String} {s : Focus} {m : Entries Value}
    (hs : entriesOf names s = .ok m) {next : Continuation σ} {st st' : σ} {r : Focus}
    {part : Entries Value} (hr : r = .value (.mapping part) ∨ r = .absent ∧ part = [])
    (hrun : (next (.value (.mapping (Entries.pick names m)))).exec st = (.ok r, st')) :
    ((submap names).transform s next).exec st =
      (.ok (if s.isVoid && part.isEmpty then s else .value (.mapping (replacePart names m part))),
        st') := by
  rw [transform_submap hs, Action.exec_bind, hrun]
  dsimp only
  rw [Action.exec_ofExcept, partAnswered_eq hr]
  rfl

/-- Selecting goes on from the part alone. -/
theorem selectAlong_submap_congr {names : List String} {v w : Value} (h : partOf names v = partOf names w)
    (q : List Navigator) (terminal : Value → Action σ Unit) :
    selectAlong (.submap names :: q) v terminal = selectAlong (.submap names :: q) w terminal := by
  simp only [selectAlong, select, h]

/-- **A part is replaced exactly.** Let what follows the step answer with a mapping, `absent` counting as
the empty one. In a mapping there is then under a named key what the answer has there, if anything, and
under another key what the answer has there, else what was there before. The entries that stay come first,
in their order, and new ones follow in the order of the answer. So the step finds in the new mapping what it
finds in the answer; and where the part comes back as it was, the mapping is the same as before. A void
value stays as it is if the answer is empty, and otherwise gives way to the answer. That no mapping has a
key twice is what being an ordered mapping means. -/
theorem part_replaced (names : List String) (next : Continuation σ) (st st' : σ) :
    let step := submap names
    let answers (m part : Entries Value) := part.Distinct ∧ ∃ r,
      (next (.value (.mapping (m.pick names)))).exec st = (.ok r, st') ∧
      (r = .value (.mapping part) ∨ r = .absent ∧ part = [])
    (∀ m part : Entries Value, m.Distinct → answers m part →
      ∃ m' : Entries Value, m'.Distinct ∧
        (step.transform (.value (.mapping m)) next).exec st = (.ok (.value (.mapping m')), st') ∧
        (∀ k ∈ names, m'.get? k = part.get? k) ∧
        (∀ k, k ∉ names → m'.get? k = (part.get? k).or (m.get? k)) ∧
        m'.keys = (m.keys.filter fun k => part.contains k || !names.contains k) ++
          (part.keys.filter fun k => !m.contains k) ∧
        ∀ (q : List Navigator) (config : Config), (⟨step :: q, config⟩ : Path).select (.mapping m') =
          (⟨step :: q, config⟩ : Path).select (.mapping part)) ∧
    (∀ m : Entries Value, answers m (m.pick names) →
      (step.transform (.value (.mapping m)) next).exec st = (.ok (.value (.mapping m)), st')) ∧
    (∀ (s : Focus) (part : Entries Value), s.isVoid = true → answers [] part →
      (step.transform s next).exec st =
        (.ok (if part = [] then s else .value (.mapping part)), st')) := by
  intro step answers
  refine ⟨?_, ?_, ?_⟩
  · rintro m part hm ⟨hpart, r, hrun, hr⟩
    have hget := get?_replacePart names m hpart
    refine ⟨replacePart names m part, distinct_replacePart names hm part,
      exec_transform_submap rfl hr hrun, ?_, ?_, keys_replacePart names hm hpart, ?_⟩
    · intro k hk
      rw [hget, if_pos hk]
    · intro k hk
      rw [hget, if_neg hk]
    · intro q config
      have hpick : (replacePart names m part).pick names = part.pick names :=
        Entries.pick_congr fun k hk => by rw [hget, if_pos hk]
      have hpart : partOf names (.mapping (replacePart names m part)) = partOf names (.mapping part) :=
        congrArg (fun m => Except.ok (Value.mapping m)) hpick
      rw [Path.select, Path.select, Path.selectWith, Path.selectWith, selectAlong_submap_congr hpart]
  · rintro m ⟨-, r, hrun, hr⟩
    rw [exec_transform_submap rfl hr hrun, replacePart_pick]
    rfl
  · rintro s part hs ⟨hpart, r, hrun, hr⟩
    have hentries : entriesOf names s = .ok [] := entriesOf_void hs
    rw [exec_transform_submap hentries hr hrun, hs, replacePart_nil names hpart]
    cases part <;> rfl

/-- One named entry goes, another one and an unnamed one get new values, and one comes to be there; null
stays as long as the answer is empty. -/
theorem part_replaced_mixed :
    let names := ["c", "a", "z", "a"]
    let m : Entries Value := [("a", .integer 1), ("b", .integer 2), ("c", .integer 3)]
    let part : Entries Value := [("d", .null), ("c", .undefined), ("b", .bool true)]
    let next : Continuation (List Focus) := fun f => do
      modify (f :: ·)
      pure (match f with
        | .value (.mapping []) => .absent
        | _ => .value (.mapping part))
    (∃ m' : Entries Value,
      ((submap names).transform (.value (.mapping m)) next).exec [] =
        (.ok (.value (.mapping m')), [.value (.mapping [("c", .integer 3), ("a", .integer 1)])]) ∧
      m'.get? "a" = none ∧ m'.get? "c" = some .undefined ∧ m'.get? "b" = some (.bool true) ∧
      m'.keys = ["b", "c", "d"]) ∧
    ((submap names).transform (.value .null) next).exec [] =
      (.ok (.value .null), [.value (.mapping [])]) := by
  intro names m part next
  have hm : m.Distinct := by simp [m, Entries.Distinct, Entries.keys]
  have hpart : part.Distinct := by simp [part, Entries.Distinct, Entries.keys]
  obtain ⟨hreplaced, -, -⟩ := part_replaced names next []
    [.value (.mapping [("c", .integer 3), ("a", .integer 1)])]
  obtain ⟨-, -, hvoid⟩ := part_replaced names next [] [.value (.mapping [])]
  obtain ⟨m', -, hrun, hnamed, hother, hkeys, -⟩ :=
    hreplaced m part hm ⟨hpart, .value (.mapping part), rfl, .inl rfl⟩
  constructor
  · exact ⟨m', hrun, hnamed "a" (by decide), hnamed "c" (by decide), hother "b" (by decide), hkeys⟩
  · exact hvoid (.value .null) [] rfl ⟨List.nodup_nil, .absent, rfl, .inr ⟨rfl, rfl⟩⟩

end Navigator

end DocPath
