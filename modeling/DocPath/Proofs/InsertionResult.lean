import DocPath.Proofs.Deletion
import DocPath.Proofs.Insertion
import DocPath.Proofs.PutGet

/-!
# What an insertion makes of a place

An insertion point reads a void value as the empty sequence, and writes a sequence whatever it is
answered. So where nothing is inserted a sequence stays as it is, and with it the whole document; but a
void value becomes an empty sequence. One element inserted before an index is found at an index of its
own, and removing it there gives the sequence back. An index at an end does what the insertion points of
this end do.

* `Navigator.rewrite_insertion` — **an insertion point writes the elements with what is inserted**;
* `Navigator.childAlong_putAlong` — what is put at a place is found there;
* `Path.setValue_insertion`, `Path.insertion_of_nothing` — an insertion below a place, and **nothing
  inserted there**;
* `Path.inserted_found`, `Path.insertion_at_ends` — the inserted element at its index, and the two ends;
* `Path.insertion_then_removal` — **one element inserted, and removed again**.
-/

namespace DocPath

namespace Navigator

variable {i : Navigator} {path : List Navigator}

/-! ### One insertion point -/

/-- **An insertion point writes the elements with what is inserted.** -/
theorem rewrite_insertion (hi : i.isInsertionPoint = true) (r s : Focus) :
    i.rewrite (fun _ => .ok r) s =
      (itemsOf i s >>= fun vs => i.inserted vs r).map fun us => .value (.sequence us) := by
  rw [rewrite, exchange_eq_inserted hi]
  cases itemsOf i s with
  | error e => rfl
  | ok vs =>
    exact Exchange.settle_single i.offering
      (fun a => (i.inserted vs a).map fun us => .value (.sequence us)) fun _ => .ok r

theorem itemsOf_void {v : Value} (hv : v.isVoid = true) : itemsOf i (.value v) = .ok [] := by
  cases v with
  | null | undefined => rfl
  | _ => exact absurd hv Bool.false_ne_true

theorem itemsOf_other {v : Value} (hs : v.isSequence = false) (hv : v.isVoid = false) :
    itemsOf i (.value v) = .error (i.wantsSequence v.kind) := by
  cases v with
  | sequence us => exact absurd hs.symm Bool.false_ne_true
  | null | undefined => exact absurd hv.symm Bool.false_ne_true
  | _ => rfl

/-! ### An insertion below a place -/

/-- **What is put at a place is found there.** -/
theorem childAlong_putAlong (hp : ∀ n ∈ path, n.isAccess = true) {v w : Value} {r : Focus}
    (h : putAlong path v (.value w) = .ok r) : ∃ v', r = .value v' ∧ childAlong path v' = w := by
  induction path generalizing v r with
  | nil => cases h; exact ⟨w, rfl, rfl⟩
  | cons n path ih =>
    obtain ⟨hn, hp⟩ := List.forall_mem_cons.1 hp
    obtain ⟨s, hs, h⟩ := (Action.bind_eq_ok _ _ _).1 h
    obtain ⟨u, rfl, hu⟩ := ih hp hs
    obtain ⟨put, hx⟩ := exchange_access hn v
    have hput : (Exchange.single (.value (n.child v)) put).rebuild ([u].map .value) = .ok r := by
      rw [putChild, hx] at h
      exact h
    have hreads : n.ReadsBack := by
      obtain ⟨name, rfl⟩ | ⟨index, rfl⟩ := eq_key_or_eq_nth hn <;> exact trivial
    have hnotAll : n = .all → v.isMapping = false := by
      rintro rfl
      exact absurd hn Bool.false_ne_true
    obtain ⟨v', rfl, hv'⟩ := reach_of_rebuild hreads hnotAll hx rfl hput
    rw [reach_access hn, Except.ok.injEq, List.singleton_inj] at hv'
    exact ⟨v', rfl, by rw [childAlong, hv', hu]⟩

end Navigator

/-- An insertion below a place is made there, and put back. -/
theorem Path.setValue_insertion (c : List Navigator) (config : Config)
    (hc : ∀ m ∈ c, m.isAccess = true) {i : Navigator} (hi : i.isInsertionPoint = true) (r : Focus)
    (v : Value) :
    (⟨c ++ [i], config⟩ : Path).setValue r v =
      ((Navigator.itemsOf i (.value (Navigator.childAlong c v)) >>= fun vs => i.inserted vs r) >>=
        fun us => Navigator.putAlong c v (.value (.sequence us))) >>=
          Path.finish ⟨c ++ [i], config⟩ := by
  have hb := Navigator.builtIn_insertion (Navigator.builtIn_of_isAccess hc) hi
  have h := Path.map_eq ⟨c ++ [i], config⟩ hb (fun _ => r) v
  have hplace : Navigator.rewriteAlong [i] (fun _ => .ok r) (.value (Navigator.childAlong c v)) =
      i.rewrite (fun _ => .ok r) (.value (Navigator.childAlong c v)) := rfl
  rw [Navigator.rewriteAlong_append, Navigator.rewriteAlong_access hc, hplace,
    Navigator.rewrite_insertion hi] at h
  refine h.trans ?_
  cases Navigator.itemsOf i (.value (Navigator.childAlong c v)) >>= fun vs => i.inserted vs r <;> rfl

/-- **Inserting nothing.** At an insertion point below a place where a sequence is, the document stays as
it is. Where the value is void, an empty sequence is written there instead, and where this succeeds the
document is another one. Any other value is refused. That no mapping has a key twice is what being an
ordered mapping means. -/
theorem Path.insertion_of_nothing (c : List Navigator) (config : Config)
    (hc : ∀ m ∈ c, m.isAccess = true) {i : Navigator} (hi : i.isInsertionPoint = true) {v : Value}
    (hu : v.UndefinedFree) (hw : v.WellFormed) :
    let parent : Path := ⟨c, config⟩
    let whole : Path := ⟨c ++ [i], config⟩
    ∃ x, parent.select v = .ok [x] ∧
      (x.isSequence = true → whole.setValue .absent v = .ok v) ∧
      (x.isVoid = true →
        whole.setValue .absent v = parent.setValue (.value (.sequence [])) v ∧
          ∀ v', whole.setValue .absent v = .ok v' → v' ≠ v) ∧
      (x.isSequence = false → x.isVoid = false →
        whole.setValue .absent v = .error (i.wantsSequence x.kind)) := by
  intro parent whole
  have hv : v.Clean := (Value.Sound.mk hu hw).clean
  have hwhole := Path.setValue_insertion c config hc hi .absent v
  refine ⟨Navigator.childAlong c v, parent.select_access hc v, fun hx => ?_, fun hx => ?_,
    fun hs hx => ?_⟩
  · obtain ⟨us, hplace⟩ : ∃ us, Navigator.childAlong c v = .sequence us := by
      cases hplace : Navigator.childAlong c v with
      | sequence us => exact ⟨us, rfl⟩
      | _ => rw [hplace] at hx; exact absurd hx Bool.false_ne_true
    have hback := Navigator.putAlong_childAlong hc hv
    rw [hplace] at hback hwhole
    refine hwhole.trans ?_
    show Navigator.putAlong c v (.value (.sequence us)) >>= whole.finish = _
    rw [hback]
    rfl
  · have hwrite : whole.setValue .absent v =
        Navigator.putAlong c v (.value (.sequence [])) >>= whole.finish := by
      rw [hwhole, Navigator.itemsOf_void hx]
      rfl
    refine ⟨hwrite.trans (parent.setValue_access hc _ v).symm, fun v' hv' => ?_⟩
    -- a sequence is found in the new document, and none in the old one
    rintro rfl
    rw [hwrite, Action.bind_eq_ok] at hv'
    obtain ⟨r, hput, hr⟩ := hv'
    obtain ⟨v'', rfl, hplace⟩ := Navigator.childAlong_putAlong hc hput
    obtain rfl : v'' = v' := Except.ok.inj hr
    rw [hplace] at hx
    exact absurd hx Bool.false_ne_true
  · rw [hwhole, Navigator.itemsOf_other hs hx]
    rfl

/-- Below a key that is missing an empty sequence appears, though nothing is inserted. -/
theorem Path.insertion_of_nothing_missing :
    let c : List Navigator := [.key "a"]
    let v : Value := .mapping [("b", .null)]
    let v' : Value := .mapping [("b", .null), ("a", .sequence [])]
    v.UndefinedFree ∧ v.WellFormed ∧
      (⟨c ++ [.beforeIndex 3], {}⟩ : Path).setValue .absent v = .ok v' ∧ v' ≠ v := by
  intro c v v'
  have hu : v.UndefinedFree := by
    simp [v, Value.UndefinedFree, Value.EntriesUndefinedFree]
  have hw : v.WellFormed := by
    simp [v, Value.WellFormed, Value.EntriesWellFormed, Entries.Distinct, Entries.keys]
  obtain ⟨x, hx, -, hvoid, -⟩ :=
    Path.insertion_of_nothing c {} (by decide) (i := .beforeIndex 3) rfl hu hw
  have hselect : (⟨c, {}⟩ : Path).select v = .ok [.undefined] := by rfl
  obtain rfl : x = .undefined := by simpa using hx.symm.trans hselect
  obtain ⟨hwrite, hother⟩ := hvoid rfl
  have hv' : (⟨c ++ [.beforeIndex 3], {}⟩ : Path).setValue .absent v = .ok v' := by
    rw [hwrite]
    rfl
  exact ⟨hu, hw, hv', hother v' hv'⟩

/-- Null becomes the empty sequence where nothing is inserted into it. -/
theorem Path.insertion_of_nothing_null :
    ∃ v', (⟨[.beforeElem], {}⟩ : Path).setValue .absent .null = .ok v' ∧ v' ≠ .null :=
  ⟨.sequence [], rfl, by simp⟩

/-! ### One element inserted -/

/-- An insertion point at the root writes the elements with what is inserted. -/
theorem Path.setValue_point (config : Config) {i : Navigator} (hi : i.isInsertionPoint = true)
    (r : Focus) {v : Value} {vs : List Value} (hv : Navigator.itemsOf i (.value v) = .ok vs) :
    (⟨[i], config⟩ : Path).setValue r v = (i.inserted vs r).map .sequence := by
  have h := Path.setValue_insertion [] config (by simp) hi r v
  rw [Navigator.childAlong, hv] at h
  refine h.trans ?_
  show (i.inserted vs r >>= _) >>= _ = _
  cases i.inserted vs r <;> rfl

/-- An inserted element is found, and removed, at its index. -/
theorem Path.inserted_found {vs : List Value} (hlen : vs.length + 1 < 2 ^ 63) {index : Int64} {i : Nat}
    (hi : Sequence.resolveInsertIndex index vs.length = some i) (w : Value) (config : Config) :
    let there : Path := ⟨[.nth (if 0 ≤ index then index else index - 1)], config⟩
    there.select (.sequence (vs.insertIdx i w)) = .ok [w] ∧
      there.setValue .absent (.sequence (vs.insertIdx i w)) = .ok (.sequence vs) := by
  intro there
  have hle := ((Sequence.resolveInsertIndex_eq_some_iff (Nat.lt_of_succ_lt hlen)).1 hi).2
  have hj : Sequence.resolveIndex (if 0 ≤ index then index else index - 1)
      (vs.insertIdx i w).length = some i :=
    List.length_insertIdx_of_le_length hle w ▸ Sequence.resolveIndex_inserted hlen hi
  constructor
  · rw [Path.select_step rfl, Navigator.child_nth hj, List.getElem?_insertIdx_self, if_pos hle,
      Option.getD_some]
  · rw [Path.setValue_step rfl, Navigator.putChild_nth hj, Exchange.replaceAt,
      List.eraseIdx_insertIdx_self]
    rfl

/-- The insertion points of one end agree with the index of this end. -/
theorem Path.insertion_at_ends {v : Value} {vs : List Value} (hlen : vs.length < 2 ^ 63)
    (hv : v = .sequence vs ∨ (v.isVoid = true ∧ vs = [])) (w : Value) (config : Config) :
    let only (n : Navigator) : Path := ⟨[n], config⟩
    ((only .beforeElem).setValue (.value w) v = .ok (.sequence (w :: vs)) ∧
        (only (.beforeIndex 0)).setValue (.value w) v = .ok (.sequence (w :: vs)) ∧
        (only .beginning).setValue (.value (.sequence [w])) v = .ok (.sequence (w :: vs))) ∧
      ((only .afterElem).setValue (.value w) v = .ok (.sequence (vs ++ [w])) ∧
        (only (.beforeIndex (Int64.ofNat vs.length))).setValue (.value w) v =
          .ok (.sequence (vs ++ [w])) ∧
        (only .ending).setValue (.value (.sequence [w])) v = .ok (.sequence (vs ++ [w]))) := by
  intro only
  have hitems (n : Navigator) : Navigator.itemsOf n (.value v) = .ok vs := by
    rcases hv with rfl | ⟨hvoid, rfl⟩
    · rfl
    · exact Navigator.itemsOf_void hvoid
  have hpoint (i : Navigator) (hi : i.isInsertionPoint = true) (r : Focus) :=
    Path.setValue_point config hi r (hitems i)
  obtain ⟨hfirst, hlast⟩ := Sequence.resolveInsertIndex_ends hlen
  refine ⟨⟨hpoint .beforeElem rfl _, ?_, hpoint .beginning rfl _⟩,
    hpoint .afterElem rfl _, ?_, hpoint .ending rfl _⟩
  · rw [hpoint _ rfl, Navigator.inserted, hfirst]
    rfl
  · rw [hpoint _ rfl, Navigator.inserted, hlast]
    show Except.ok (Value.sequence (vs.insertIdx vs.length w)) = _
    rw [List.insertIdx_length_self]

/-- **One element inserted, and removed again.** An element can be inserted before the indices of the
elements, counted from either end, and before the length. It is found at this index, less one if it counts
from the end, and removing it there gives the sequence back. In front of all elements and behind them, in
void values too, inserting it before an index, at the end, and as a sequence of one element are all the
same. That a sequence has fewer than 2^63 elements, the new one included, is what being indexed by words
means. -/
theorem Path.insertion_then_removal (vs : List Value) (hlen : vs.length + 1 < 2 ^ 63) (w : Value)
    (index : Int64) (config : Config) :
    let only (n : Navigator) : Path := ⟨[n], config⟩
    let j := if 0 ≤ index then index else index - 1
    let inRange := -(vs.length : Int) ≤ index.toInt ∧ index.toInt ≤ vs.length
    let inserted := (only (.beforeIndex index)).setValue (.value w) (.sequence vs)
    ((∃ s, inserted = .ok s) ↔ inRange) ∧
    (∀ s, inserted = .ok s → (∃ us, s = .sequence us ∧ us.length = vs.length + 1) ∧
      (only (.nth j)).select s = .ok [w] ∧
      (only (.nth j)).setValue .absent s = .ok (.sequence vs)) ∧
    (¬ inRange → inserted = .error (.indexOutOfRange index vs.length)) ∧
    (∀ v, v = .sequence vs ∨ (v.isVoid = true ∧ vs = []) →
      ((only .beforeElem).setValue (.value w) v = .ok (.sequence (w :: vs)) ∧
        (only (.beforeIndex 0)).setValue (.value w) v = .ok (.sequence (w :: vs)) ∧
        (only .beginning).setValue (.value (.sequence [w])) v = .ok (.sequence (w :: vs))) ∧
      ((only .afterElem).setValue (.value w) v = .ok (.sequence (vs ++ [w])) ∧
        (only (.beforeIndex (Int64.ofNat vs.length))).setValue (.value w) v =
          .ok (.sequence (vs ++ [w])) ∧
        (only .ending).setValue (.value (.sequence [w])) v = .ok (.sequence (vs ++ [w])))) := by
  intro only j inRange inserted
  have hlen' : vs.length < 2 ^ 63 := Nat.lt_of_succ_lt hlen
  have hrange : _ ↔ inRange := Sequence.exists_resolveInsertIndex_iff hlen' index
  have hinserted : inserted = ((Navigator.beforeIndex index).inserted vs (.value w)).map .sequence :=
    Path.setValue_point config rfl (.value w) rfl
  have hends (v : Value) (hv : v = .sequence vs ∨ (v.isVoid = true ∧ vs = [])) :=
    Path.insertion_at_ends hlen' hv w config
  rw [Navigator.inserted] at hinserted
  cases hi : Sequence.resolveInsertIndex index vs.length with
  | none =>
    have hout : ¬ inRange := fun hin => by
      obtain ⟨i, hi'⟩ := hrange.2 hin
      exact absurd (hi.symm.trans hi') (by simp)
    have herror : inserted = .error (.indexOutOfRange index vs.length) := by
      rw [hinserted, hi]
      rfl
    have hfails (s : Value) : inserted ≠ .ok s := by simp [herror]
    refine ⟨⟨fun h => ?_, fun hin => absurd hin hout⟩, fun s hs => absurd hs (hfails s),
      fun _ => herror, hends⟩
    obtain ⟨s, hs⟩ := h
    exact absurd hs (hfails s)
  | some i =>
    have hin : inRange := hrange.1 ⟨i, hi⟩
    have hle := ((Sequence.resolveInsertIndex_eq_some_iff hlen').1 hi).2
    have hok : inserted = .ok (.sequence (vs.insertIdx i w)) := by
      rw [hinserted, hi]
      rfl
    refine ⟨⟨fun _ => hin, fun _ => ⟨_, hok⟩⟩, fun s hs => ?_, fun hout => absurd hin hout, hends⟩
    obtain rfl : .sequence (vs.insertIdx i w) = s := Except.ok.inj (hok.symm.trans hs)
    exact ⟨⟨_, rfl, List.length_insertIdx_of_le_length hle w⟩, Path.inserted_found hlen hi w config⟩

/-- Before the last of two elements there is the last but one of three; before a third there is none. -/
theorem Path.insertion_then_removal_before_last :
    let vs : List Value := [.null, .bool true]
    let s : Value := .sequence [.null, .bool false, .bool true]
    vs.length + 1 < 2 ^ 63 ∧
      (⟨[.beforeIndex (-1)], {}⟩ : Path).setValue (.value (.bool false)) (.sequence vs) = .ok s ∧
      (⟨[.nth (-2)], {}⟩ : Path).select s = .ok [.bool false] ∧
      (⟨[.nth (-2)], {}⟩ : Path).setValue .absent s = .ok (.sequence vs) ∧
      (⟨[.beforeIndex 3], {}⟩ : Path).setValue (.value .null) (.sequence vs) =
        .error (.indexOutOfRange 3 2) := by
  intro vs s
  have hlen : vs.length + 1 < 2 ^ 63 := by decide
  obtain ⟨-, hfound, -, -⟩ := Path.insertion_then_removal vs hlen (.bool false) (-1) {}
  obtain ⟨-, -, hfails, -⟩ := Path.insertion_then_removal vs hlen .null 3 {}
  have hi : Sequence.resolveInsertIndex (-1) vs.length = some 1 := by decide
  have hs : (⟨[.beforeIndex (-1)], {}⟩ : Path).setValue (.value (.bool false)) (.sequence vs) =
      .ok s := by
    rw [Path.setValue_point (v := .sequence vs) {} rfl (.value (.bool false)) rfl,
      Navigator.inserted, hi]
    rfl
  have hj : (if (0 : Int64) ≤ -1 then -1 else -1 - 1) = (-2 : Int64) := by decide
  obtain ⟨-, hselect, hremove⟩ := hfound s hs
  rw [hj] at hselect hremove
  exact ⟨hlen, hs, hselect, hremove, hfails (by decide)⟩

end DocPath
