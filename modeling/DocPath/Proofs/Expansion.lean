import DocPath.Proofs.Access
import DocPath.Proofs.Hereditary
import DocPath.Proofs.Renaming

/-!
# Steps that stand for longer paths

The step to the values of a mapping goes where the second halves of its entries are, and the step to the
keys where the first halves are; the step to an end of a sequence goes where an index does. The short way
edits an entry in place. The long way makes a pair of it, edits the pair as a sequence, and reads an entry
off it again. Both are the same for every update that never answers `absent`, which would leave half a pair;
at an end of a sequence they are the same for all updates.

* `Navigator.Present` — a continuation that never answers `absent`;
* `Navigator.transform_item` — an index at a sequence;
* `Navigator.mapEntries_second`, `Navigator.mapEntries_first` — **entries edited by halves are values and
  keys edited in place**, equal keys included;
* `Path.steps_expand` — the law for the four steps.
-/

namespace DocPath

variable {σ α : Type}

namespace Navigator

/-- The continuation never answers `absent`. -/
def Present (next : Continuation σ) : Prop := ∀ f, Action.Ensures (· ≠ .absent) (next f)

theorem Present.logged {next : Continuation σ} (h : Present next) : Present (Action.logged next) :=
  fun f => (h f).logged

/-! ### An index at a sequence -/

section

variable {index : Int64} {vs : List Value} {i : Nat}

theorem transform_nth (hi : Sequence.resolveIndex index vs.length = some i) (next : Continuation σ) :
    (nth index).transform (.value (.sequence vs)) next =
      Sequence.updateAt (fun v => next (.value v)) vs i >>= fun ws => pure (.value (.sequence ws)) := by
  rw [transform, transformNth, hi]

theorem reach_nth (hi : Sequence.resolveIndex index vs.length = some i) {v : Value}
    (hv : vs[i]? = some v) : (nth index).reach (.sequence vs) = .ok [v] := by
  rw [reach_access rfl, child_nth hi, hv, Option.getD_some]

/-- **The element at an index is edited**, and the sequence stands around the answer. -/
theorem transform_item {v : Value} (hi : Sequence.resolveIndex index vs.length = some i)
    (hv : vs[i]? = some v) (next : Continuation σ) :
    (nth index).transform (.value (.sequence vs)) next =
      next (.value v) >>= fun r => pure (.value (.sequence (Exchange.replaceAt vs i r))) := by
  have hlt : i < vs.length := (List.getElem?_eq_some_iff.1 hv).1
  rw [transform_nth hi, Exchange.updateAt_eq _ _ i hlt, bind_assoc, hv, Option.getD_some]
  rfl

end

/-! ### Entries edited by halves -/

section

variable {next : Continuation σ}

/-- The second half of an entry is its value: the entry keeps its key. -/
theorem updateEntry_second (h : Present next) (e : String × Value) :
    Mapping.updateEntry (fun pair => (nth 1).transform (.value pair) next) e =
      next (.value e.2) >>= fun r => pure (r.value?.map fun w => (e.1, w)) := by
  rw [Mapping.updateEntry, Value.ofEntry, transform_item (i := 1) rfl rfl, bind_assoc]
  apply (h (.value e.2)).bind_congr
  intro r hr
  cases r with
  | absent => exact absurd rfl hr
  | value w => rfl

/-- The first half of an entry is its key: the answer about it must be a key, and the value stays. -/
theorem updateEntry_first (h : Present next) (e : String × Value) :
    Mapping.updateEntry (fun pair => (nth 0).transform (.value pair) next) e =
      Mapping.renameKey (fun v => next (.value v)) e := by
  rw [Mapping.updateEntry, Value.ofEntry, transform_item (i := 0) rfl rfl, bind_assoc, Mapping.renameKey]
  apply (h (.value (.string e.1))).bind_congr
  intro r hr
  cases r with
  | absent => exact absurd rfl hr
  | value w =>
    show Action.ofExcept (Mapping.entryOf (.sequence [w, e.2])) >>= _ =
      Action.ofExcept (Mapping.keyOf w) >>= _
    rw [Mapping.entryOf_pair]
    cases Mapping.keyOf w <;> rfl

theorem collect_second (h : Present next) (m : Entries Value) :
    Mapping.collect (Mapping.updateEntry fun pair => (nth 1).transform (.value pair) next) m =
      Mapping.mapValues (fun v => next (.value v)) m := by
  have hask := Exchange.ask_of_accept (x := Exchange.values m) rfl next
  have hcollect := Exchange.collect_eq (Exchange.values m) next (fun e => .value e.2)
    (fun e r => r.value?.map fun w => (e.1, w)) _ (by rw [hask]; exact updateEntry_second h) m
  rw [hcollect, hask, Exchange.mapValues_eq]
  rfl

/-- **Editing the second halves of all entries is editing the values.** No two entries come to have one
key, so that none is lost when the edited entries are joined. -/
theorem mapEntries_second (h : Present next) {m : Entries Value} (hm : m.Distinct) :
    Mapping.mapEntries (fun pair => (nth 1).transform (.value pair) next) m =
      Mapping.mapValues (fun v => next (.value v)) m := by
  rw [Mapping.mapEntries, collect_second h, Exchange.mapValues_eq, bind_assoc]
  congr 1
  funext rs
  have hdistinct : (Exchange.revalued m rs).Distinct :=
    List.Nodup.sublist (Exchange.keys_revalued_sublist m rs) hm
  rw [pure_bind, Entries.ofList_of_distinct hdistinct]

/-- **Editing the first halves of all entries is editing the keys**, and entries that come to have one key
are joined in the same way. -/
theorem mapEntries_first (h : Present next) (m : Entries Value) :
    Mapping.mapEntries (fun pair => (nth 0).transform (.value pair) next) m =
      Mapping.mapKeys (fun v => next (.value v)) m := by
  have hentry := funext (updateEntry_first h)
  rw [Mapping.mapEntries, hentry, Mapping.mapKeys]

theorem transformAlong_mapVals (h : Present next) {m : Entries Value} (hm : m.Distinct) :
    transformAlong [.mapVals] (.value (.mapping m)) next =
      transformAlong [.all, .nth 1] (.value (.mapping m)) next := by
  simp only [transformAlong]
  show Mapping.mapValues (fun v => next (.value v)) m >>= _ = Mapping.mapEntries _ m >>= _
  rw [mapEntries_second h hm]

theorem transformAlong_mapKeys (h : Present next) (m : Entries Value) :
    transformAlong [.mapKeys] (.value (.mapping m)) next =
      transformAlong [.all, .nth 0] (.value (.mapping m)) next := by
  simp only [transformAlong]
  show Mapping.mapKeys (fun v => next (.value v)) m >>= _ = Mapping.mapEntries _ m >>= _
  rw [mapEntries_first h]

end

/-! ### What is reached -/

/-- A navigator hands on one focus for each member of a list, and the rest of the path reaches one focus
in each of them. -/
theorem reachedAlong_each {n : Navigator} {path : List Navigator} {v : Value} {xs : List α}
    {about answer : α → Value} (hn : n.reach v = .ok (xs.map about))
    (h : ∀ x, reachedAlong path (about x) = ⟨[answer x], none⟩) :
    reachedAlong (n :: path) v = ⟨xs.map answer, none⟩ := by
  rw [reachedAlong, hn, Reached.andThen]
  clear hn
  induction xs with
  | nil => rfl
  | cons x xs ih => rw [List.map_cons, Reached.join, ih, h, List.map_cons]; rfl

/-- All halves that an index names in the entries of a mapping. -/
theorem reachedAlong_halves {index : Int64} {half : String × Value → Value}
    (hhalf : ∀ e, (nth index).reach (Value.ofEntry e) = .ok [half e]) (m : Entries Value) :
    reachedAlong [.all, .nth index] (.mapping m) = ⟨m.map half, none⟩ := by
  apply reachedAlong_each rfl
  intro e
  rw [reachedAlong, hhalf]
  rfl

theorem reachedAlong_mapVals (m : Entries Value) :
    reachedAlong [.mapVals] (.mapping m) = reachedAlong [.all, .nth 1] (.mapping m) := by
  rw [reachedAlong_halves fun e => reach_nth (i := 1) rfl rfl]
  exact reachedAlong_each rfl fun _ => rfl

theorem reachedAlong_mapKeys (m : Entries Value) :
    reachedAlong [.mapKeys] (.mapping m) = reachedAlong [.all, .nth 0] (.mapping m) := by
  rw [reachedAlong_halves fun e => reach_nth (i := 0) rfl rfl]
  exact reachedAlong_each rfl fun _ => rfl

/-! ### Ends of a sequence -/

section

variable {vs : List Value}

/-- The first element has the index 0, and the last one has the index -1. -/
theorem resolveIndex_ends (hvs : vs ≠ []) (hlength : vs.length < 2 ^ 63) :
    Sequence.resolveIndex 0 vs.length = some 0 ∧
      Sequence.resolveIndex (-1) vs.length = some (vs.length - 1) := by
  have hpos : 0 < vs.length := List.length_pos_of_ne_nil hvs
  have hfirst : (0 : Int64).toInt = 0 := rfl
  have hlast : (-1 : Int64).toInt = -1 := rfl
  rw [Sequence.resolveIndex_eq_some_iff hlength, Sequence.resolveIndex_eq_some_iff hlength,
    Sequence.Names, Sequence.Names, hfirst, hlast]
  omega

theorem reachedAlong_first (hvs : vs ≠ []) (hlength : vs.length < 2 ^ 63) :
    reachedAlong [.first] (.sequence vs) = reachedAlong [.nth 0] (.sequence vs) := by
  have hhead := List.head?_eq_some_head hvs
  have hitem := reach_nth (resolveIndex_ends hvs hlength).1 (List.head?_eq_getElem? ▸ hhead)
  rw [reachedAlong, reachedAlong, hitem, reach, firstIn, hhead, Option.toList_some]

theorem reachedAlong_last (hvs : vs ≠ []) (hlength : vs.length < 2 ^ 63) :
    reachedAlong [.last] (.sequence vs) = reachedAlong [.nth (-1)] (.sequence vs) := by
  have hend := List.getLast?_eq_some_getLast hvs
  have hitem := reach_nth (resolveIndex_ends hvs hlength).2 (List.getLast?_eq_getElem? ▸ hend)
  rw [reachedAlong, reachedAlong, hitem, reach, lastIn, hend, Option.toList_some]

/-- The element at an end is edited as the one at an index that names its position. -/
theorem transformAlong_end {n : Navigator} {index : Int64} (position : Nat → Nat)
    (hi : Sequence.resolveIndex index vs.length = some (position vs.length)) (next : Continuation σ)
    (hn : n.transform (.value (.sequence vs)) next =
      transformEnd n position (.value (.sequence vs)) next) :
    transformAlong [n] (.value (.sequence vs)) next =
      transformAlong [.nth index] (.value (.sequence vs)) next := by
  simp only [transformAlong]
  rw [hn, transform_nth hi, transformEnd]

theorem transformAlong_first (hvs : vs ≠ []) (hlength : vs.length < 2 ^ 63) (next : Continuation σ) :
    transformAlong [.first] (.value (.sequence vs)) next =
      transformAlong [.nth 0] (.value (.sequence vs)) next :=
  transformAlong_end (fun _ => 0) (resolveIndex_ends hvs hlength).1 next rfl

theorem transformAlong_last (hvs : vs ≠ []) (hlength : vs.length < 2 ^ 63) (next : Continuation σ) :
    transformAlong [.last] (.value (.sequence vs)) next =
      transformAlong [.nth (-1)] (.value (.sequence vs)) next :=
  transformAlong_end (fun length => length - 1) (resolveIndex_ends hvs hlength).2 next rfl

end

end Navigator

/-! ### The four steps -/

namespace Path

/-- **The short ways and the long ways.** On every mapping the step to the values is the step to the entries
and on to their second halves, and the step to the keys is the one to their first halves: they select alike,
and they transform alike where the update never answers `absent`, whatever it reads and writes and wherever
it fails. On every sequence that is not empty the steps to its ends are steps to its first and last index,
with any update. -/
theorem steps_expand (config : Config) :
    let step (n : Navigator) : Path := ⟨[n], config⟩
    let half (index : Int64) : Path := ⟨[.all, .nth index], config⟩
    (∀ m : Entries Value,
      (step .mapVals).SelectsAs (half 1) (.mapping m) ∧
      (step .mapKeys).SelectsAs (half 0) (.mapping m) ∧
      (m.Distinct → ∀ (σ : Type) (update : Focus → Action σ Focus), Navigator.Present update →
        (step .mapVals).TransformsAs (half 1) (.value (.mapping m)) update ∧
        (step .mapKeys).TransformsAs (half 0) (.value (.mapping m)) update)) ∧
    ∀ vs : List Value, vs ≠ [] → vs.length < 2 ^ 63 →
      (step .first).SelectsAs (step (.nth 0)) (.sequence vs) ∧
      (step .last).SelectsAs (step (.nth (-1))) (.sequence vs) ∧
      ∀ (σ : Type) (update : Focus → Action σ Focus),
        (step .first).TransformsAs (step (.nth 0)) (.value (.sequence vs)) update ∧
        (step .last).TransformsAs (step (.nth (-1))) (.value (.sequence vs)) update := by
  intro step half
  have hstep {n : Navigator} (hn : n.isCustom = false) : Navigator.BuiltIn (step n).navigators :=
    List.forall_mem_singleton.2 hn
  have hhalf (index : Int64) : Navigator.BuiltIn (half index).navigators :=
    List.forall_mem_cons.2 ⟨rfl, hstep rfl⟩
  refine ⟨fun m => ⟨?_, ?_, fun hm σ update hupdate => ⟨?_, ?_⟩⟩,
    fun vs hvs hlength => ⟨?_, ?_, fun σ update => ⟨?_, ?_⟩⟩⟩
  · exact selectsAs_of_reached (hstep rfl) (hhalf 1) (Navigator.reachedAlong_mapVals m)
  · exact selectsAs_of_reached (hstep rfl) (hhalf 0) (Navigator.reachedAlong_mapKeys m)
  · exact transformsAs_of_logged (Navigator.transformAlong_mapVals hupdate hm)
      (Navigator.transformAlong_mapVals hupdate.logged hm)
  · exact transformsAs_of_logged (Navigator.transformAlong_mapKeys hupdate m)
      (Navigator.transformAlong_mapKeys hupdate.logged m)
  · exact selectsAs_of_reached (hstep rfl) (hstep rfl) (Navigator.reachedAlong_first hvs hlength)
  · exact selectsAs_of_reached (hstep rfl) (hstep rfl) (Navigator.reachedAlong_last hvs hlength)
  · exact transformsAs_of_logged (Navigator.transformAlong_first hvs hlength update)
      (Navigator.transformAlong_first hvs hlength _)
  · exact transformsAs_of_logged (Navigator.transformAlong_last hvs hlength update)
      (Navigator.transformAlong_last hvs hlength _)

/-- Both keys give way to one number, which is then the key of one entry; and the last element is removed. -/
theorem steps_expand_colliding :
    let m : Entries Value := [("a", .integer 1), ("b", .integer 2)]
    let numbered : Focus → Action Nat Focus := fun _ => do
      modify (· + 1)
      pure (.value (.integer 7))
    let removing : Focus → Action Nat Focus := fun _ => pure .absent
    let vs : List Value := [.integer 1, .null]
    (⟨[.mapKeys], {}⟩ : Path).TransformsAs ⟨[.all, .nth 0], {}⟩ (.value (.mapping m)) numbered ∧
      ((⟨[.all, .nth 0], {}⟩ : Path).transformWith (.value (.mapping m)) numbered).exec 0 =
        (.ok (.value (.mapping [("7", .integer 2)])), 2) ∧
      (⟨[.last], {}⟩ : Path).TransformsAs ⟨[.nth (-1)], {}⟩ (.value (.sequence vs)) removing ∧
      ((⟨[.nth (-1)], {}⟩ : Path).transformWith (.value (.sequence vs)) removing).exec 0 =
        (.ok (.value (.sequence [.integer 1])), 0) := by
  intro m numbered removing vs
  have hpresent : Navigator.Present numbered := by
    intro f s r s' hr
    cases hr
    exact Focus.noConfusion
  obtain ⟨hmappings, hsequences⟩ := steps_expand {}
  obtain ⟨-, -, hentries⟩ := hmappings m
  obtain ⟨-, -, hends⟩ := hsequences vs (by simp [vs]) (by decide)
  have hkeys := (hentries (show ["a", "b"].Nodup by decide) Nat numbered hpresent).2
  have hlast := (hends Nat removing).2
  refine ⟨hkeys, by rfl, hlast, ?_⟩
  rw [← hlast.run_eq]
  rfl

/-- An update that answers `absent` tells both ways apart: it removes a value together with its key, but
from a pair only the second half. -/
example :
    let m : Entries Value := [("a", .integer 1)]
    (⟨[.mapVals], {}⟩ : Path).setValue .absent (.mapping m) = .ok (.mapping []) ∧
      (⟨[.all, .nth 1], {}⟩ : Path).setValue .absent (.mapping m) = .error (.invalidEntry "sequence") :=
  ⟨by rfl, by rfl⟩

end Path

end DocPath
