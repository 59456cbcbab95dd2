import DocPath.Proofs.Independence
import DocPath.Proofs.Kinds

/-!
# Removal

Answering every focus of a path with nothing removes them all. Where the path ends at all the children
of a value, or at one under a name, and at tests of them, what is left holds nothing that the path could
find: what was removed is gone, what stayed failed a test and fails it again, and no test further up is
met by another value than the one that was rebuilt below it. So a second removal changes nothing. At an
end of a sequence or at an index this would not be so, because another element takes the place of the
one that was removed.

* `Navigator.removeAlong` — a focus without what a path finds in it;
* `Navigator.Cleared` — values in which nothing is left to remove;
* `Navigator.cleared_of_restores` — **a step stays clear where its children are**;
* `Value.Trims` — what a removal below a step leaves for the step to look at;
* `Navigator.clears_emptying`, `Navigator.clears_step` — **the last step that removes, and those before
  it, leave a value that is clear**;
* `Path.removal_complete` — the law for whole paths.
-/

namespace DocPath

namespace Navigator

/-- The steps to children and to the keys of a mapping, and the tests. -/
def isStep : Navigator → Bool
  | .all | .mapVals | .mapKeys | .first | .last | .key _ | .nth _ | .pred _ => true
  | _ => false

/-- Where such a step removes, nothing comes to stand in the place of what was removed. -/
def isEmptying : Navigator → Bool
  | .all | .mapVals | .mapKeys | .key _ => true
  | _ => false

/-- A focus without the focuses that the path finds in it. -/
def removeAlong (path : List Navigator) : Focus → Except NavError Focus :=
  rewriteAlong path fun _ => .ok .absent

/-- Nothing is left to remove: removing changes nothing, and nothing defined is found. -/
structure Cleared (path : List Navigator) (v : Value) : Prop where
  unchanged : removeAlong path (.value v) = .ok (.value v)
  nothing : ∀ w ∈ (reachedAlong path v).focuses, w.isDefined = false

variable {n : Navigator} {path tests : List Navigator}

theorem isStep_of_isEmptying (hn : n.isEmptying = true) : n.isStep = true := by
  cases n <;> first | rfl | exact absurd hn (by simp [isEmptying])

theorem isStep_of_isTest (hn : n.isTest = true) : n.isStep = true := by
  cases n <;> first | rfl | exact absurd hn (by simp [isTest])

theorem isCustom_of_isStep (hn : n.isStep = true) : n.isCustom = false := by
  cases n <;> first | rfl | exact absurd hn (by simp [isStep])

theorem isForeign_of_descends (hn : n.Descends) : n.isForeign = false := by
  cases n <;> first | rfl | exact absurd hn (by simp [Descends])

/-! ### Where nothing is left -/

/-- **A step stays clear where its children are**, if it gives the value back when they stay. -/
theorem cleared_of_restores (hn : n.isCustom = false) (hi : n.isInsertionPoint = false)
    (hp : BuiltIn path) {v : Value} {x : Exchange} (hx : n.exchange (.value v) = .ok x)
    (hr : x.Restores (.value v)) (us : List Value) (hasked : x.asked = us.map .value)
    (h : ∀ u ∈ us, Cleared path u) : Cleared (n :: path) v := by
  constructor
  · refine rewrite_eq_ok_iff.2
      ⟨x, x.asked, hx, List.forall₂_same.2 fun f hf => ?_, hr.check, hr.rebuild⟩
    obtain ⟨u, hu, rfl⟩ := List.mem_map.1 (hasked ▸ hf)
    exact (h u hu).unchanged
  · rcases n.exchange_value_cases hn hi v with ⟨e, -, he⟩ | ⟨us', x', hreach, hx', hasked'⟩
    · exact absurd (hx.symm.trans he) (by simp)
    · obtain rfl : x = x' := Except.ok.inj (hx.symm.trans hx')
      obtain rfl : us = us' :=
        List.map_injective_iff.2 (fun _ _ => Focus.value.inj) (hasked.symm.trans hasked')
      have herror : (Reached.join (reachedAlong path) us).error = none :=
        Reached.error_join_eq_none_iff.2 fun u hu =>
          error_reachedAlong_of_rewriteAlong hp (h u hu).unchanged
      intro w hw
      rw [reachedAlong, hreach, Reached.andThen, Reached.focuses_join herror] at hw
      obtain ⟨u, hu, hw⟩ := List.mem_flatMap.1 hw
      exact (h u hu).nothing w hw

theorem cleared_idle (hn : n.isCustom = false) (hi : n.isInsertionPoint = false)
    (hp : BuiltIn path) {v : Value} (hx : n.exchange (.value v) = .ok (.idle (.value v))) :
    Cleared (n :: path) v :=
  cleared_of_restores hn hi hp hx (Exchange.restores_idle _) [] rfl
    fun _ hu => absurd hu List.not_mem_nil

theorem cleared_items (hp : BuiltIn path) {vs : List Value} (h : ∀ v ∈ vs, Cleared path v) :
    Cleared (.all :: path) (.sequence vs) :=
  cleared_of_restores rfl rfl hp rfl (Exchange.restores_items vs) vs rfl h

theorem cleared_values (hp : BuiltIn path) {m : Entries Value} (h : ∀ e ∈ m, Cleared path e.2) :
    Cleared (.mapVals :: path) (.mapping m) :=
  cleared_of_restores rfl rfl hp rfl (Exchange.restores_values m) (m.map Prod.snd)
    (List.map_map).symm (List.forall_mem_map.2 h)

theorem cleared_keys (hp : BuiltIn path) {m : Entries Value} (hd : Entries.Distinct m)
    (h : ∀ e ∈ m, Cleared path (.string e.1)) : Cleared (.mapKeys :: path) (.mapping m) :=
  cleared_of_restores rfl rfl hp rfl (Exchange.restores_keys hd)
    (m.map fun e : String × Value => Value.string e.1) (List.map_map).symm (List.forall_mem_map.2 h)

theorem cleared_entries (hp : BuiltIn path) {m : Entries Value} (hd : Entries.Distinct m)
    (h : ∀ e ∈ m, Cleared path (Value.ofEntry e)) : Cleared (.all :: path) (.mapping m) :=
  cleared_of_restores rfl rfl hp rfl (Exchange.restores_entries hd) (Value.pairs m)
    (List.map_map).symm (List.forall_mem_map.2 h)

/-! ### Tests -/

theorem removeAlong_pred (holds : Value → Bool) (path : List Navigator) (v : Value) :
    removeAlong (.pred holds :: path) (.value v) =
      if holds v then removeAlong path (.value v) else .ok (.value v) := by
  show (if holds v then Exchange.single (.value v) .ok else .idle (.value v)).settle
    (removeAlong path) = _
  split
  · rw [Exchange.settle_single]
    cases removeAlong path (.value v) <;> rfl
  · rfl

/-- A value that fails a test is clear there, whatever comes after the test. -/
theorem cleared_test (hp : BuiltIn path) {holds : Value → Bool} {v : Value}
    (h : holds v = true → Cleared path v) : Cleared (.pred holds :: path) v := by
  have hx : (pred holds).exchange (.value v) =
      .ok (if holds v then .single (.value v) .ok else .idle (.value v)) := rfl
  cases hv : holds v with
  | true =>
    rw [hv, if_pos rfl] at hx
    exact cleared_of_restores rfl rfl hp hx (Exchange.restores_single rfl) [v] rfl
      (List.forall_mem_singleton.2 (h hv))
  | false =>
    rw [hv, if_neg Bool.false_ne_true] at hx
    exact cleared_idle rfl rfl hp hx

theorem builtIn_of_tests (ht : ∀ m ∈ tests, m.isTest = true) : BuiltIn tests :=
  fun m hm => isCustom_of_isStep (isStep_of_isTest (ht m hm))

/-- **A value passes all the tests and is removed, or nothing is left to remove.** -/
theorem removed_or_cleared (ht : ∀ m ∈ tests, m.isTest = true) (v : Value) :
    removeAlong tests (.value v) = .ok .absent ∨ Cleared tests v := by
  induction tests with
  | nil => exact .inl rfl
  | cons m tests ih =>
    have ht' : ∀ k ∈ tests, k.isTest = true := fun k hk => ht k (List.mem_cons_of_mem m hk)
    have hb := builtIn_of_tests ht'
    cases m with
    | pred holds =>
      cases hv : holds v with
      | true =>
        rw [removeAlong_pred, if_pos hv]
        exact (ih ht').imp_right fun hc => cleared_test hb fun _ => hc
      | false => exact .inr (cleared_test hb fun h => absurd (hv.symm.trans h) (by decide))
    | _ => exact absurd (ht _ List.mem_cons_self) (by simp [isTest])

/-- What tests leave is the value itself. -/
theorem cleared_of_kept (ht : ∀ m ∈ tests, m.isTest = true) {v w : Value}
    (h : removeAlong tests (.value v) = .ok (.value w)) : w = v ∧ Cleared tests v := by
  rcases removed_or_cleared ht v with hgone | hc
  · exact absurd (h.symm.trans hgone) (by simp)
  · exact ⟨Focus.value.inj (Except.ok.inj (h.symm.trans hc.unchanged)), hc⟩

end Navigator

/-! ### What the steps above look at -/

namespace Value

/-- Strings stay as they are, and a pair keeps its key as long as it can be read as an entry. -/
structure Trims (v w : Value) : Prop where
  string : ∀ s, v = .string s → w = .string s
  entry : ∀ e e', v = ofEntry e → Mapping.entryOf w = .ok e' → ∃ u, w = ofEntry (e.1, u)

theorem Keeps.trims {v w : Value} (h : v.Keeps w) : v.Trims w :=
  ⟨h.string, fun e _ he _ => h.entry e.1 e.2 he⟩

/-- A pair from which something was removed is not read as an entry any more. -/
theorem trims_sequence {vs ws : List Value} (h : ws.Sublist vs) :
    (sequence vs).Trims (.sequence ws) := by
  refine ⟨fun s hs => absurd hs (by simp), fun e e' hv he => ?_⟩
  obtain rfl : vs = [.string e.1, e.2] := Value.sequence.inj hv
  have hlen : ws.length = 2 := by
    unfold Mapping.entryOf at he
    split at he
    · rename_i hws
      rw [Value.sequence.inj hws]
      rfl
    · exact absurd he (by simp)
  obtain rfl := h.eq_of_length hlen
  exact ⟨e.2, rfl⟩

/-- Pairs that are still read as entries are pairs with the same keys. -/
theorem pairs_of_trims {m : Entries Value} {bs : List Value}
    (h : List.Forall₂ Trims (pairs m) bs)
    (hb : ∀ b ∈ bs, Exchange.checkEntry (.value b) = .ok ()) :
    ∃ m' : Entries Value, bs = pairs m' ∧ Entries.keys m' = Entries.keys m := by
  have h : List.Forall₂ (fun b e => (ofEntry e).Trims b) bs m := (List.forall₂_map_left_iff.1 h).flip
  refine exists_pairs (Related.imp_of_mem h fun b hmem e htrims => ?_).flip
  obtain ⟨e', he', -⟩ := (Action.map_eq_ok _ _ _).1 (hb b hmem)
  exact htrims.entry e e' rfl he'

end Value

/-! ### Writes of nothing -/

namespace Writes

variable {name : String} {v w u : Value}

theorem valueUnder_none (h : Writes name v none w) : Navigator.valueUnder name w = .undefined := by
  cases h with
  | erase m => rw [Navigator.valueUnder, Entries.get?_erase_self, Option.getD_none]
  | nothing hv => cases v <;> first | rfl | exact absurd hv (by simp [Value.isMapping])

theorem none_again (h : Writes name v none w) : Writes name w none w := by
  cases h with
  | erase m =>
    rw [writes_mapping_iff, Entries.erase_of_get?_none (Entries.get?_erase_self m name)]
  | nothing hv => exact .nothing hv

/-- Writing what is there changes nothing. -/
theorem eq_of_self (h : Writes name v (some u) w) (hd : u.isDefined = true)
    (hu : Navigator.valueUnder name v = u) : w = v := by
  cases h with
  | insert m =>
    rw [Navigator.valueUnder] at hu
    cases hg : Entries.get? m name with
    | none =>
      rw [hg] at hu
      exact absurd hd (by rw [← hu]; decide)
    | some u' =>
      rw [hg] at hu
      obtain rfl : u' = u := hu
      rw [Entries.insert_of_get? hg]
  | fresh hv =>
    obtain rfl : Value.undefined = u := by
      rw [← hu]
      cases v <;> first | rfl | exact absurd hv (by simp [Value.isVoid])
    exact absurd hd (by decide)

end Writes

namespace Navigator

/-! ### What a removal leaves -/

/-- A removal along the path that succeeds leaves a value in which nothing is left to remove, and in
which the steps above find what they found before. -/
def Clears (path : List Navigator) : Prop :=
  ∀ v r, v.WellFormed → removeAlong path (.value v) = .ok r →
    ∃ w, r = .value w ∧ v.Trims w ∧ Cleared path w

variable {n : Navigator} {path tests : List Navigator}

/-- A value that is clear is what a removal leaves of it. -/
theorem Cleared.left {v : Value} {r : Focus} (h : Cleared path v)
    (hr : removeAlong path (.value v) = .ok r) :
    ∃ w, r = .value w ∧ v.Trims w ∧ Cleared path w :=
  ⟨v, Except.ok.inj (hr.symm.trans h.unchanged), (Value.Keeps.refl v).trims, h⟩

/-- The elements that tests leave. -/
theorem kept_of_tests (ht : ∀ m ∈ tests, m.isTest = true) {vs : List Value} {rs : List Focus}
    (h : List.Forall₂ (fun v r => removeAlong tests (.value v) = .ok r) vs rs) :
    (rs.filterMap Focus.value?).Sublist vs ∧
      ∀ w ∈ rs.filterMap Focus.value?, Cleared tests w := by
  induction h with
  | nil => exact ⟨.slnil, fun _ hw => absurd hw List.not_mem_nil⟩
  | @cons v r _ _ hr _ ih =>
    obtain ⟨hsub, hcleared⟩ := ih
    cases r with
    | absent => exact ⟨hsub.cons v, hcleared⟩
    | value w =>
      obtain ⟨rfl, hw⟩ := cleared_of_kept ht hr
      exact ⟨hsub.cons_cons w, List.forall_mem_cons.2 ⟨hw, hcleared⟩⟩

/-- The entries that tests leave, when they are asked about some part of each entry. -/
theorem cleared_of_mem_made (ht : ∀ m ∈ tests, m.isTest = true) (about : String × Value → Value)
    (made : String × Value → Focus → Option (String × Value))
    (hgone : ∀ e, made e .absent = none) (hkept : ∀ e, made e (.value (about e)) = some e)
    {m : Entries Value} {rs : List Focus}
    (hrs : List.Forall₂ (fun f r => removeAlong tests f = .ok r) (m.map fun e => .value (about e)) rs)
    {e : String × Value} (he : e ∈ (m.zip rs).filterMap fun y => made y.1 y.2) :
    Cleared tests (about e) := by
  obtain ⟨⟨e₀, a⟩, hy, he⟩ := List.mem_filterMap.1 he
  have ha : removeAlong tests (.value (about e₀)) = .ok a := (Exchange.answers_of_mem_zip hrs hy).2
  have he : made e₀ a = some e := he
  cases a with
  | absent => exact absurd (he.symm.trans (hgone e₀)) (by simp)
  | value w =>
    obtain ⟨rfl, hw⟩ := cleared_of_kept ht ha
    obtain rfl : e = e₀ := Option.some.inj (he.symm.trans (hkept e₀))
    exact hw

theorem clears_all (ht : ∀ m ∈ tests, m.isTest = true) : Clears (.all :: tests) := by
  have hb := builtIn_of_tests ht
  intro v r _ hr
  obtain ⟨x, rs, hx, hrs, -, hrebuild⟩ := rewrite_eq_ok_iff.1 hr
  obtain rfl := Except.ok.inj hx
  cases v with
  | sequence vs =>
    cases hrebuild
    obtain ⟨hsub, hcleared⟩ := kept_of_tests ht (List.forall₂_map_left_iff.1 hrs)
    exact ⟨_, rfl, Value.trims_sequence hsub, cleared_items hb hcleared⟩
  | mapping m =>
    cases hrebuild
    exact ⟨_, rfl, (Value.keeps_mapping _ (.inl rfl)).trims,
      cleared_entries hb (Entries.distinct_ofList _) fun e he =>
        cleared_of_mem_made ht Value.ofEntry (fun _ => Exchange.reentered) (fun _ => rfl)
          (fun _ => rfl) hrs (Entries.mem_ofList he)⟩
  | _ => exact (cleared_idle rfl rfl hb rfl).left hr

theorem clears_mapVals (ht : ∀ m ∈ tests, m.isTest = true) : Clears (.mapVals :: tests) := by
  have hb := builtIn_of_tests ht
  intro v r _ hr
  obtain ⟨x, rs, hx, hrs, -, hrebuild⟩ := rewrite_eq_ok_iff.1 hr
  cases v with
  | mapping m =>
    cases hx
    cases hrebuild
    exact ⟨_, rfl, (Value.keeps_mapping _ (.inl rfl)).trims, cleared_values hb fun e he =>
      cleared_of_mem_made ht Prod.snd (fun e r => r.value?.map fun w => (e.1, w)) (fun _ => rfl)
        (fun _ => rfl) hrs he⟩
  | sequence vs => exact absurd hx (by simp [exchange, exchangeValues, Focus.isLeaf, Value.isLeaf])
  | _ => exact (cleared_idle rfl rfl hb rfl).left hr

theorem clears_mapKeys (ht : ∀ m ∈ tests, m.isTest = true) : Clears (.mapKeys :: tests) := by
  have hb := builtIn_of_tests ht
  intro v r _ hr
  obtain ⟨x, rs, hx, hrs, -, hrebuild⟩ := rewrite_eq_ok_iff.1 hr
  cases v with
  | mapping m =>
    cases hx
    cases hrebuild
    exact ⟨_, rfl, (Value.keeps_mapping _ (.inl rfl)).trims,
      cleared_keys hb (Entries.distinct_ofList _) fun e he =>
        cleared_of_mem_made ht (fun e => .string e.1) Exchange.rekeyed (fun _ => rfl) (fun _ => rfl)
          hrs (Entries.mem_ofList he)⟩
  | sequence vs => exact absurd hx (by simp [exchange, exchangeKeys, Focus.isLeaf, Value.isLeaf])
  | _ => exact (cleared_idle rfl rfl hb rfl).left hr

theorem focuses_reachedAlong_key (name : String) (path : List Navigator) (v : Value) :
    (reachedAlong (.key name :: path) v).focuses =
      (reachedAlong path (valueUnder name v)).focuses := by
  show (reachedAlong path (valueUnder name v) ++ Reached.nothing).focuses = _
  rw [Reached.append_nothing]

/-- Tests find a value, if anything, that is the one they are asked about. -/
theorem eq_of_mem_tests (ht : ∀ m ∈ tests, m.isTest = true) {v w : Value}
    (hw : w ∈ (reachedAlong tests v).focuses) : w = v := by
  induction tests with
  | nil => exact List.mem_singleton.1 hw
  | cons m tests ih =>
    have ih := ih fun k hk => ht k (List.mem_cons_of_mem m hk)
    cases m with
    | pred holds =>
      have hw : w ∈ (Reached.join (reachedAlong tests) (if holds v then [v] else [])).focuses := hw
      split at hw
      · rw [Reached.join, Reached.join, Reached.append_nothing] at hw
        exact ih hw
      · exact absurd hw List.not_mem_nil
    | _ => exact absurd (ht _ List.mem_cons_self) (by simp [isTest])

/-- Where nothing is under a key nothing is written, whether tests accept what is missing or not. -/
theorem cleared_key_of_missing (ht : ∀ m ∈ tests, m.isTest = true) {name : String} {v : Value}
    (hv : valueUnder name v = .undefined) (hsame : Writes name v none v) :
    Cleared (.key name :: tests) v := by
  have hanswer : ∃ a, removeAlong tests (.value .undefined) = .ok a ∧ a.written = none := by
    rcases removed_or_cleared ht .undefined with hgone | hc
    · exact ⟨.absent, hgone, rfl⟩
    · exact ⟨.value .undefined, hc.unchanged, rfl⟩
  obtain ⟨a, ha, hnone⟩ := hanswer
  constructor
  · refine rewrite_key_eq_ok_iff.2 ⟨a, v, ?_, ?_, rfl⟩
    · rw [hv]
      exact ha
    · rw [hnone]
      exact hsame
  · intro u hu
    rw [focuses_reachedAlong_key, hv] at hu
    rw [eq_of_mem_tests ht hu]
    rfl

/-- Under a key there is nothing after a removal, or what failed a test. -/
theorem clears_key (ht : ∀ m ∈ tests, m.isTest = true) (name : String) :
    Clears (.key name :: tests) := by
  intro v r _ hr
  obtain ⟨a, w, ha, hw, rfl⟩ := rewrite_key_eq_ok_iff.1 hr
  refine ⟨w, rfl, hw.keeps.trims, ?_⟩
  cases hwritten : a.written with
  | none =>
    rw [hwritten] at hw
    exact cleared_key_of_missing ht hw.valueUnder_none hw.none_again
  | some u =>
    rw [hwritten] at hw
    cases a with
    | absent => exact absurd hwritten (by simp [Focus.written])
    | value u' =>
      -- the value under the key failed a test, and is written back
      have hd : u'.isDefined = true ∧ u' = u := by simpa [Focus.written] using hwritten
      obtain ⟨hd, rfl⟩ := hd
      obtain ⟨hu, hc⟩ := cleared_of_kept ht ha
      obtain rfl := hw.eq_of_self hd hu.symm
      exact ⟨hr, fun u hu => hc.nothing u (focuses_reachedAlong_key name tests w ▸ hu)⟩

/-- **The last step that removes leaves a value that is clear.** -/
theorem clears_emptying (hn : n.isEmptying = true) (ht : ∀ m ∈ tests, m.isTest = true) :
    Clears (n :: tests) := by
  cases n with
  | all => exact clears_all ht
  | mapVals => exact clears_mapVals ht
  | mapKeys => exact clears_mapKeys ht
  | key name => exact clears_key ht name
  | _ => exact absurd hn (by simp [isEmptying])

end Navigator

/-! ### The steps before -/

/-- **The answers that made a value are asked about in it, and give it back.** -/
theorem Exchange.Shape.restores_next {n : Navigator} {v : Value} {vs ws : List Value} {x : Exchange}
    (h : Shape n v vs x) (hx : n.exchange (.value v) = .ok x) (hlen : ws.length = vs.length)
    (hpairs : n = .all → ∀ m, v = .mapping m → Entries.Distinct m ∧
      ∃ m' : Entries Value, ws = Value.pairs m' ∧ Entries.keys m' = Entries.keys m)
    {r : Focus} (hr : x.rebuild (ws.map .value) = .ok r) :
    ∃ w x', r = .value w ∧ n.exchange (.value w) = .ok x' ∧ x'.asked = ws.map .value ∧
      x'.Restores (.value w) := by
  obtain ⟨w, x', rfl, hx', hshape'⟩ := h.next hx hlen hpairs hr
  have hagain : x'.rebuild (ws.map .value) = x.rebuild (ws.map .value) := by
    refine h.rebuild_again hx hlen (List.forall₂_same.2 fun _ _ hd => hd) ?_ ?_ hr hx'
    · intro name m b c _ _ hb hc hbd hcd
      obtain rfl := (List.cons.inj (hb.symm.trans hc)).1
      exact absurd (hbd.symm.trans hcd) (by decide)
    · intro hall m hm
      obtain ⟨hd, m', hm', hk⟩ := hpairs hall m hm
      exact ⟨hd, m', m', hm', hm', hk, hk⟩
  refine ⟨w, x', rfl, hx', hshape'.asked, fun f hf => ?_, ?_⟩
  · obtain ⟨b, hb, rfl⟩ := List.mem_map.1 (hshape'.asked ▸ hf)
    exact hshape'.check (List.forall₂_same.2 fun u _ => .refl u) b hb
  · rw [hshape'.asked, hagain, hr]

namespace Navigator

variable {n : Navigator} {path tests : List Navigator}

theorem clears_children (hn : n.Descends) (hp : BuiltIn path) (h : Clears path) :
    Clears (n :: path) := by
  intro v r hv hr
  obtain ⟨x, vs, rs, hx, hshape, hrs, hcheck, hrebuild⟩ := hn.rewrite_value_eq_ok_iff.1 hr
  have hreach := hn.reach hx hshape
  have hwf : ∀ u ∈ vs, u.WellFormed := fun u hu => by
    rcases admitted_reach Value.hereditary_wellFormed (isForeign_of_descends hn)
      (Focus.admitted_value hv) hreach u hu with rfl | hu
    · exact trivial
    · exact hu
  obtain ⟨ws, rfl, hws⟩ := Focus.exists_values
    (Related.imp_of_mem hrs fun u hu r hur => h u r (hwf u hu) hur)
  have hpairs : n = .all → ∀ m, v = .mapping m → Entries.Distinct m ∧
      ∃ m' : Entries Value, ws = Value.pairs m' ∧ Entries.keys m' = Entries.keys m := by
    intro hall m hm
    subst hall hm
    obtain rfl : Exchange.entries m = x := Except.ok.inj hx
    obtain rfl : Value.pairs m = vs := Except.ok.inj hreach
    exact ⟨hv.1, Value.pairs_of_trims (hws.imp fun _ _ hw => hw.1) fun b hb =>
      hcheck _ (List.mem_map_of_mem hb)⟩
  obtain ⟨w, x', rfl, hx', hasked, hrestores⟩ :=
    hshape.restores_next hx hws.length_eq.symm hpairs hrebuild
  obtain ⟨_, hw, hkept⟩ := hshape.keeps (hws.imp fun _ _ hw => hw.1.string) hrebuild
  obtain rfl := Focus.value.inj hw
  refine ⟨w, rfl, hkept.trims,
    cleared_of_restores hn.isCustom hn.isInsertionPoint hp hx' hrestores ws hasked fun u hu => ?_⟩
  obtain ⟨_, -, -, hc⟩ := Related.exists_mem hws.flip hu
  exact hc

/-- Keys are not taken apart, so below the keys of a mapping nothing is removed. -/
theorem clears_below_keys (hp : BuiltIn path) (h : Clears path) : Clears (.mapKeys :: path) := by
  intro v r hv hr
  cases v with
  | mapping m =>
    obtain ⟨x, rs, hx, hrs, -, -⟩ := rewrite_eq_ok_iff.1 hr
    obtain rfl : Exchange.keys m = x := Except.ok.inj hx
    have hrs : List.Forall₂ (fun (e : String × Value) r =>
        removeAlong path (.value (.string e.1)) = .ok r) m rs := List.forall₂_map_left_iff.1 hrs
    refine (cleared_keys hp hv.1 fun e he => ?_).left hr
    obtain ⟨a, -, ha⟩ := Related.exists_mem hrs he
    obtain ⟨w, -, htrims, hc⟩ := h (.string e.1) a trivial ha
    obtain rfl := htrims.string e.1 rfl
    exact hc
  | sequence vs =>
    obtain ⟨x, -, hx, -⟩ := rewrite_eq_ok_iff.1 hr
    exact absurd hx (by simp [exchange, exchangeKeys, Focus.isLeaf, Value.isLeaf])
  | _ => exact (cleared_idle rfl rfl hp rfl).left hr

/-- A test is met again by the value that is rebuilt behind it, and may fail now. -/
theorem clears_test (hp : BuiltIn path) (h : Clears path) (holds : Value → Bool) :
    Clears (.pred holds :: path) := by
  intro v r hv hr
  cases hvh : holds v with
  | true =>
    rw [removeAlong_pred, if_pos hvh] at hr
    obtain ⟨w, rfl, htrims, hc⟩ := h v r hv hr
    exact ⟨w, rfl, htrims, cleared_test hp fun _ => hc⟩
  | false => exact (cleared_test hp fun h => absurd (hvh.symm.trans h) (by decide)).left hr

/-- **A step before it leaves a value that is clear as well.** -/
theorem clears_step (hn : n.isStep = true) (hp : BuiltIn path) (h : Clears path) :
    Clears (n :: path) := by
  cases n with
  | all => exact clears_children trivial hp h
  | mapVals => exact clears_children trivial hp h
  | first => exact clears_children trivial hp h
  | last => exact clears_children trivial hp h
  | key name => exact clears_children trivial hp h
  | nth index => exact clears_children trivial hp h
  | mapKeys => exact clears_below_keys hp h
  | pred holds => exact clears_test hp h holds
  | _ => exact absurd hn (by simp [isStep])

/-- **Along a path to such a step, a removal leaves a value in which nothing is left to remove.** -/
theorem clears_path {front : List Navigator} (hfront : ∀ m ∈ front, m.isStep = true)
    (hn : n.isEmptying = true) (ht : ∀ m ∈ tests, m.isTest = true) :
    BuiltIn (front ++ n :: tests) ∧ Clears (front ++ n :: tests) := by
  induction front with
  | nil =>
    exact ⟨List.forall_mem_cons.2
      ⟨isCustom_of_isStep (isStep_of_isEmptying hn), builtIn_of_tests ht⟩, clears_emptying hn ht⟩
  | cons m front ih =>
    obtain ⟨hm, hfront⟩ := List.forall_mem_cons.1 hfront
    obtain ⟨hb, hclears⟩ := ih hfront
    exact ⟨List.forall_mem_cons.2 ⟨isCustom_of_isStep hm, hb⟩, clears_step hm hb hclears⟩

end Navigator

/-- **Removal is complete and idempotent.** Along a path that ends at all children, or at one under a
name, and at tests, a removal that succeeds leaves a document in which the path finds nothing defined,
and removing once more leaves that very document. That no mapping has a key twice is what being an
ordered mapping means. -/
theorem Path.removal_complete (p : Path) {front tests : List Navigator} {n : Navigator}
    (hpath : p.navigators = front ++ n :: tests) (hfront : ∀ m ∈ front, m.isStep = true)
    (hn : n.isEmptying = true) (ht : ∀ m ∈ tests, m.isTest = true) (v v' : Value)
    (hv : v.WellFormed) (h : p.setValue .absent v = .ok v') :
    p.isMatch v' = .ok false ∧ p.setValue .absent v' = .ok v' := by
  obtain ⟨hb, hclears⟩ := Navigator.clears_path hfront hn ht
  rw [← hpath] at hb hclears
  have hset (v : Value) :
      p.setValue .absent v = Navigator.removeAlong p.navigators (.value v) >>= p.finish :=
    p.map_eq hb (fun _ => .absent) v
  rw [hset] at h
  obtain ⟨r, hr, hfinish⟩ := (Action.bind_eq_ok _ _ _).1 h
  obtain ⟨w, rfl, -, hcleared⟩ := hclears v r hv hr
  obtain rfl : w = v' := Except.ok.inj hfinish
  constructor
  · have herror := Navigator.error_reachedAlong_of_rewriteAlong hb hcleared.unchanged
    have hnone : (Navigator.reachedAlong p.navigators w).focuses.any Value.isDefined = false :=
      List.any_eq_false.2 fun u hu => by rw [hcleared.nothing u hu]; decide
    rw [Path.isMatch, Navigator.matchesAlong_eq p.navigators hb, Reached.toExcept, herror]
    exact congrArg Except.ok hnone
  · rw [hset, hcleared.unchanged]
    rfl

/-- A run in which one mapping loses its only entry and another one comes to fail a test, and in which
a null, a scalar and what failed the last test stay. -/
theorem Path.removal_complete_below_tests :
    let mixed : Value → Bool := fun
      | .mapping m => m.length > 1
      | _ => true
    let p : Path :=
      ⟨[.mapVals, .pred Value.isDefined, .all, .pred mixed, .key "n", .pred Value.isLeaf], {}⟩
    let v : Value := .mapping
      [("a", .sequence
        [.mapping [("n", .bool true), ("k", .null)],
          .mapping [("k", .null), ("n", .sequence [.null])], .null]),
        ("b", .string "text")]
    let v' : Value := .mapping
      [("a", .sequence
        [.mapping [("k", .null)], .mapping [("k", .null), ("n", .sequence [.null])], .null]),
        ("b", .string "text")]
    p.isMatch v = .ok true ∧ p.setValue .absent v = .ok v' ∧
      p.isMatch v' = .ok false ∧ p.setValue .absent v' = .ok v' := by
  intro mixed p v v'
  have hmatch : p.isMatch v = .ok true := by rfl
  have hremoved : p.setValue .absent v = .ok v' := by rfl
  have hpath : p.navigators =
      [.mapVals, .pred Value.isDefined, .all, .pred mixed] ++ .key "n" :: [.pred Value.isLeaf] := rfl
  have hv : v.WellFormed := by
    simp [v, Value.WellFormed, Value.AllWellFormed, Value.EntriesWellFormed, Entries.Distinct,
      Entries.keys]
  exact ⟨hmatch, hremoved,
    p.removal_complete hpath (by decide) rfl (by decide) v v' hv hremoved⟩

end DocPath
