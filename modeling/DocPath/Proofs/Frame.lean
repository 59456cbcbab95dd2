import DocPath.Proofs.Identity
import DocPath.Proofs.Similar

/-!
# What updates below a step must keep

The six navigators that go down to children of a value look at little of what they find there:
whether it is defined, and on the way through the entries of a mapping that the pairs stay pairs. As
long as updates below keep that much, the step finds and writes the same places after an update as
before it.

* `Value.Keeps` — what an update must keep;
* `Exchange.Shape.check`, `Exchange.Shape.keeps`, `Exchange.Shape.succeeds`,
  `Exchange.Shape.similar` — kept answers pass, make a kept value, do so whatever their order of
  entries, and alike answers make alike values;
* `Exchange.Shape.again` — **after kept answers, the step meets them again, and a second round of
  answers makes what it would have made at once**.
-/

namespace DocPath

/-! ### What an update keeps -/

/-- Defined values stay defined, strings stay as they are, and pairs keep their key. -/
structure Value.Keeps (v w : Value) : Prop where
  isDefined : v.isDefined = true → w.isDefined = true
  string : ∀ s, v = .string s → w = .string s
  entry : ∀ k u, v = Value.ofEntry (k, u) → ∃ u', w = Value.ofEntry (k, u')

namespace Value

theorem Keeps.refl (v : Value) : v.Keeps v := ⟨id, fun _ h => h, fun _ u h => ⟨u, h⟩⟩

theorem Keeps.trans {u v w : Value} (h : u.Keeps v) (h' : v.Keeps w) : u.Keeps w := by
  refine ⟨fun hd => h'.isDefined (h.isDefined hd), fun s hs => h'.string s (h.string s hs), ?_⟩
  intro k x hx
  obtain ⟨x', hx'⟩ := h.entry k x hx
  exact h'.entry k x' hx'

theorem keeps_mapping {v : Value} (m : Entries Value) (h : v.isMapping = true ∨ v.isVoid = true) :
    v.Keeps (.mapping m) := by
  refine ⟨fun _ => rfl, ?_, ?_⟩
  · intro s hs
    subst hs
    exact absurd h (by simp [isMapping, isVoid])
  · intro k u hu
    subst hu
    exact absurd h (by simp [ofEntry, isMapping, isVoid])

/-- Of the elements of a sequence it is asked only that strings stay. -/
theorem keeps_sequence {vs ws : List Value}
    (h : List.Forall₂ (fun v w => ∀ s, v = .string s → w = .string s) vs ws) :
    (sequence vs).Keeps (.sequence ws) := by
  refine ⟨fun _ => rfl, fun s hs => absurd hs (by simp), ?_⟩
  intro k u hu
  obtain rfl : vs = [.string k, u] := Value.sequence.inj hu
  obtain ⟨a, _, ha, hrest, rfl⟩ := List.forall₂_cons_left_iff.1 h
  obtain ⟨b, _, -, hnil, rfl⟩ := List.forall₂_cons_left_iff.1 hrest
  obtain rfl := List.forall₂_nil_left_iff.1 hnil
  exact ⟨b, by rw [ha k rfl, ofEntry]⟩

/-- Pairs with the keys of a mapping, in order, are the pairs of a mapping with these keys. -/
theorem exists_pairs {m : Entries Value} {bs : List Value}
    (h : List.Forall₂ (fun e b => ∃ u, b = ofEntry (e.1, u)) m bs) :
    ∃ m' : Entries Value, bs = pairs m' ∧ Entries.keys m' = Entries.keys m := by
  induction h with
  | nil => exact ⟨[], rfl, rfl⟩
  | @cons e _ _ _ hb _ ih =>
    obtain ⟨u, rfl⟩ := hb
    obtain ⟨m', rfl, hm'⟩ := ih
    exact ⟨(e.1, u) :: m', rfl, congrArg (e.1 :: ·) hm'⟩

/-- Pairs of entries that are kept are pairs of entries with the same keys. -/
theorem pairs_of_keeps {m : Entries Value} {bs : List Value}
    (h : List.Forall₂ Keeps (pairs m) bs) : ∃ m' : Entries Value, bs = pairs m' ∧
      Entries.keys m' = Entries.keys m :=
  exists_pairs ((List.forall₂_map_left_iff.1 h).imp fun e _ hb => hb.entry e.1 e.2 rfl)

end Value

namespace Navigator

theorem Descends.restores {n : Navigator} (h : n.Descends) : n.Restores := by
  cases n <;> first | exact trivial | exact absurd h (by simp [Descends])

end Navigator

namespace Exchange

variable {n : Navigator} {v : Value} {vs : List Value} {x : Exchange}

/-! ### One round of answers -/

/-- Kept answers pass the test of the exchange. -/
theorem Shape.check (h : Shape n v vs x) {bs : List Value} (hb : List.Forall₂ Value.Keeps vs bs) :
    ∀ b ∈ bs, x.check (.value b) = .ok () := by
  cases h with
  | entries m =>
    obtain ⟨m', rfl, -⟩ := Value.pairs_of_keeps hb
    intro b hb
    obtain ⟨e, -, rfl⟩ := List.mem_map.1 (show b ∈ m'.map Value.ofEntry from hb)
    rfl
  | _ => exact fun _ _ => rfl

/-- Answers that leave strings as they are make a kept value. -/
theorem Shape.keeps (h : Shape n v vs x) {bs : List Value}
    (hb : List.Forall₂ (fun v b => ∀ s, v = .string s → b = .string s) vs bs) {r : Focus}
    (hr : x.rebuild (bs.map .value) = .ok r) : ∃ w, r = .value w ∧ v.Keeps w := by
  cases h with
  | idle => cases hr; exact ⟨v, rfl, .refl v⟩
  | unreachable n e =>
    obtain ⟨b, rfl, -⟩ := Related.singleton_left hb
    obtain ⟨-, rfl⟩ := rebuild_unreachable_eq_ok hr
    exact ⟨v, rfl, .refl v⟩
  | slot name m => cases hr; exact ⟨_, rfl, Value.keeps_mapping _ (.inl rfl)⟩
  | fresh name hv =>
    obtain ⟨b, rfl, -⟩ := Related.singleton_left hb
    obtain rfl := Except.ok.inj hr
    cases hd : b.isDefined with
    | false => exact ⟨v, rfl, .refl v⟩
    | true => exact ⟨_, rfl, Value.keeps_mapping _ (.inr hv)⟩
  | item hi hn =>
    rename_i vs i
    obtain ⟨b, rfl, hkept⟩ := Related.singleton_left hb
    cases hr
    refine ⟨_, rfl, Value.keeps_sequence ?_⟩
    have hsame : List.Forall₂ (fun v b => ∀ s, v = .string s → b = .string s) vs vs :=
      List.forall₂_same.2 fun _ _ _ hs => hs
    have h := Related.set hsame i hkept
    rwa [List.set_getElem_self] at h
  | items vs =>
    cases hr
    refine ⟨_, rfl, Value.keeps_sequence ?_⟩
    rwa [filterMap_value?]
  | values m => cases hr; exact ⟨_, rfl, Value.keeps_mapping _ (.inl rfl)⟩
  | entries m => cases hr; exact ⟨_, rfl, Value.keeps_mapping _ (.inl rfl)⟩

/-- Answers that define no more than others make a value if the others do. -/
theorem Shape.succeeds (h : Shape n v vs x) {bs cs : List Value}
    (hd : List.Forall₂ (fun b c => c.isDefined = true → b.isDefined = true) bs cs) {r : Focus}
    (hr : x.rebuild (bs.map .value) = .ok r) : ∃ r', x.rebuild (cs.map .value) = .ok r' := by
  cases h with
  | unreachable n e =>
    cases hd with
    | nil => exact ⟨r, hr⟩
    | @cons b c _ _ hbc _ =>
      have hr : (Exchange.unreachable e (.value v)).rebuild [.value b] = .ok r := hr
      obtain ⟨rfl, -⟩ := rebuild_unreachable_eq_ok hr
      cases c with
      | undefined => exact ⟨.value v, rfl⟩
      | _ => exact absurd (hbc rfl) (by decide)
  | fresh name hv => cases cs <;> exact ⟨_, rfl⟩
  | _ => exact ⟨_, rfl⟩

theorem similarEntries_revalued (m : Entries Value) {bs cs : List Value}
    (hs : List.Forall₂ Value.Similar bs cs) :
    Value.SimilarEntries (revalued m (bs.map .value)) (revalued m (cs.map .value)) := by
  induction hs generalizing m with
  | nil => cases m <;> exact .nil
  | cons hbc _ ih =>
    cases m with
    | nil => exact .nil
    | cons e m => exact .cons hbc (ih m)

theorem similarEntries_of_pairs {m m' : Entries Value} (hk : Entries.keys m = Entries.keys m')
    (hs : List.Forall₂ Value.Similar (Value.pairs m) (Value.pairs m')) :
    Value.SimilarEntries m m' := by
  induction m generalizing m' with
  | nil =>
    cases m' with
    | nil => exact .nil
    | cons e' m' => exact absurd hk (by simp [Entries.keys])
  | cons e m ih =>
    cases m' with
    | nil => exact absurd hk (by simp [Entries.keys])
    | cons e' m' =>
      obtain ⟨k, u⟩ := e
      obtain ⟨k', u'⟩ := e'
      obtain ⟨hk, hks⟩ := List.cons.inj (show k :: Entries.keys m = k' :: Entries.keys m' from hk)
      subst hk
      obtain ⟨hu, hus⟩ := List.forall₂_cons.1 hs
      exact .cons hu.of_ofEntry (ih hks hus)

/-- Similar answers make similar values. -/
theorem Shape.similar (h : Shape n v vs x) (hv : v.Clean) {bs cs : List Value}
    (hb : List.Forall₂ Value.Keeps vs bs) (hc : List.Forall₂ Value.Keeps vs cs)
    (hs : List.Forall₂ Value.Similar bs cs) {w w' : Value}
    (hr : x.rebuild (bs.map .value) = .ok (.value w))
    (hr' : x.rebuild (cs.map .value) = .ok (.value w')) : w.Similar w' := by
  cases h with
  | idle => cases hr; cases hr'; exact .refl v
  | unreachable n e =>
    obtain ⟨b, rfl, -⟩ := Related.singleton_left hb
    obtain ⟨c, rfl, -⟩ := Related.singleton_left hc
    obtain rfl := Focus.value.inj (rebuild_unreachable_eq_ok hr).2
    obtain rfl := Focus.value.inj (rebuild_unreachable_eq_ok hr').2
    exact .refl _
  | slot name m =>
    obtain ⟨b, rfl, -⟩ := Related.singleton_left hb
    obtain ⟨c, rfl, -⟩ := Related.singleton_left hc
    have hbc := (List.forall₂_cons.1 hs).1
    cases hr
    cases hr'
    show (Value.mapping (Navigator.writeEntry m name (.value b))).Similar
      (.mapping (Navigator.writeEntry m name (.value c)))
    rw [Navigator.writeEntry, Navigator.writeEntry, hbc.isDefined]
    split
    · exact Value.similar_mapping (Value.similarEntries_insert m name hbc)
    · exact .refl _
  | fresh name hv =>
    obtain ⟨b, rfl, -⟩ := Related.singleton_left hb
    obtain ⟨c, rfl, -⟩ := Related.singleton_left hc
    have hbc := (List.forall₂_cons.1 hs).1
    have hr := Except.ok.inj hr
    have hr' := Except.ok.inj hr'
    rw [← hbc.isDefined] at hr'
    cases hd : b.isDefined with
    | false =>
      rw [hd] at hr hr'
      cases hr
      cases hr'
      exact .refl _
    | true =>
      rw [hd] at hr hr'
      cases hr
      cases hr'
      exact Value.similar_mapping (.cons hbc .nil)
  | item hi hn =>
    rename_i vs i
    obtain ⟨b, rfl, -⟩ := Related.singleton_left hb
    obtain ⟨c, rfl, -⟩ := Related.singleton_left hc
    cases hr
    cases hr'
    have hrefl : List.Forall₂ Value.Similar vs vs := List.forall₂_same.2 fun u _ => .refl u
    exact .sequence (Value.similarItems_iff.2
      (Related.set hrefl i (List.forall₂_cons.1 hs).1))
  | items vs =>
    cases hr
    cases hr'
    rw [filterMap_value?, filterMap_value?]
    exact .sequence (Value.similarItems_iff.2 hs)
  | values m =>
    cases hr
    cases hr'
    exact Value.similar_mapping (similarEntries_revalued m hs)
  | entries m =>
    obtain ⟨m₁, rfl, hk₁⟩ := Value.pairs_of_keeps hb
    obtain ⟨m₂, rfl, hk₂⟩ := Value.pairs_of_keeps hc
    rw [rebuild_entries_of_keys hv.distinct hk₁] at hr
    rw [rebuild_entries_of_keys hv.distinct hk₂] at hr'
    cases hr
    cases hr'
    exact Value.similar_mapping (similarEntries_of_pairs (hk₁.trans hk₂.symm) hs)

/-! ### A second round of answers -/

/-- Where a first round of kept answers writes nothing under a key, nothing was there, since a clean
mapping has something defined under each of its keys. -/
theorem get?_of_keeps_undefined {m : Entries Value} (hm : (Value.mapping m).Clean) {name : String}
    {b : Value} (hb : (Navigator.valueUnder name (.mapping m)).Keeps b)
    (hd : b.isDefined = false) : Entries.get? m name = none := by
  cases hg : Entries.get? m name with
  | none => rfl
  | some a =>
    have ha : (Navigator.valueUnder name (.mapping m)).isDefined = true := by
      rw [Navigator.valueUnder, hg]
      exact hm.isDefined_of_get? hg
    rw [hb.isDefined ha] at hd
    exact absurd hd (by decide)

/-- **After kept answers, the step asks about these answers again, and kept answers of a second
round make what they would have made at once.** -/
theorem Shape.again (hn : n.Descends) (h : Shape n v vs x) (hx : n.exchange (.value v) = .ok x)
    (hv : v.Clean) {bs : List Value} (hb : List.Forall₂ Value.Keeps vs bs) {w : Value}
    (hr : x.rebuild (bs.map .value) = .ok (.value w)) :
    ∃ x', n.exchange (.value w) = .ok x' ∧ Shape n w bs x' ∧
      ∀ cs, List.Forall₂ Value.Keeps bs cs →
        x'.rebuild (cs.map .value) = x.rebuild (cs.map .value) := by
  have hreach : n.reach v = .ok vs := hn.reach hx h
  have hpairs : n = .all → ∀ m, v = .mapping m → Entries.Distinct m ∧
      ∃ m' : Entries Value, bs = Value.pairs m' ∧ Entries.keys m' = Entries.keys m := by
    intro hall m hm
    subst hall hm
    obtain rfl : Value.pairs m = vs := Except.ok.inj hreach
    exact ⟨hv.distinct, Value.pairs_of_keeps hb⟩
  obtain ⟨u, x', heq, hx', hshape⟩ := h.next hx hb.length_eq.symm hpairs hr
  obtain rfl := Focus.value.inj heq
  refine ⟨x', hx', hshape, fun cs hc => ?_⟩
  have hdef : List.Forall₂ (fun b c => b.isDefined = true → c.isDefined = true) bs cs :=
    hc.imp fun _ _ h => h.isDefined
  refine h.rebuild_again hx hb.length_eq.symm hdef ?_ ?_ hr hx'
  · intro name m b _ hname hm hbs _ hd _
    subst hname hm hbs
    obtain rfl : [Navigator.valueUnder name (.mapping m)] = vs := Except.ok.inj hreach
    exact get?_of_keeps_undefined hv (List.forall₂_cons.1 hb).1 hd
  · intro hall m hm
    obtain ⟨hd, m₁, rfl, hk₁⟩ := hpairs hall m hm
    obtain ⟨m₂, rfl, hk₂⟩ := Value.pairs_of_keeps hc
    exact ⟨hd, m₁, m₂, rfl, rfl, hk₁, hk₂.trans hk₁⟩

end Exchange

end DocPath
