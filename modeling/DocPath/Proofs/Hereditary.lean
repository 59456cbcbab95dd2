import DocPath.Proofs.Exchange
import DocPath.Proofs.Sound
import Mathlib.Data.List.InsertIdx

/-!
# What every transform keeps

A property of documents that is one of all their parts is kept by every transform, as long as what is
put into the document comes from the document or from an update that keeps it too. Two such properties
are that nothing is `undefined` and that no mapping has a key twice. The steps below a place may be
asked about `undefined` or about nothing at all, though neither is part of the document; what they make
of these must not get into it.

* `Value.Hereditary` — such properties; `Value.hereditary_undefinedFree`,
  `Value.hereditary_wellFormed` and `Value.hereditary_sound` are three of them;
* `Focus.Admitted`, `Focus.Answers` — what may be asked about, and what may be answered to it;
* `Navigator.preserves_exchange` — **at one navigator, permitted answers make a permitted answer**;
* `Navigator.admitted_reach` — what it hands on when it selects;
* `Navigator.ensures_transformAlong` — along a path;
* `Path.transform_undefinedFree`, `Path.transform_undefinedFree_inserting` — **no `undefined` gets into
  a rebuilt document**.
-/

namespace DocPath

variable {σ : Type} {Φ : Value → Prop} {K : List String → Prop}

namespace Value

/-- A property of values that is one of all their parts; of a mapping it may ask something of its
keys, which fewer keys and one new key keep. -/
structure Hereditary (Φ : Value → Prop) (K : List String → Prop) : Prop where
  string (s : String) : Φ (.string s)
  sequence (vs : List Value) : Φ (.sequence vs) ↔ ∀ v ∈ vs, Φ v
  mapping (m : Entries Value) : Φ (.mapping m) ↔ K (Entries.keys m) ∧ ∀ e ∈ m, Φ e.2
  noKeys : K []
  fewerKeys {ks ks' : List String} : ks'.Sublist ks → K ks → K ks'
  newKey {ks : List String} {k : String} : K ks → k ∉ ks → K (ks ++ [k])

theorem hereditary_undefinedFree : Hereditary UndefinedFree fun _ => True where
  string _ := trivial
  sequence vs := allUndefinedFree_iff vs
  mapping m := (entriesUndefinedFree_iff m).trans (iff_of_eq (true_and _).symm)
  noKeys := trivial
  fewerKeys _ _ := trivial
  newKey _ _ := trivial

theorem hereditary_wellFormed : Hereditary WellFormed List.Nodup where
  string _ := trivial
  sequence vs := allWellFormed_iff vs
  mapping m := and_congr_right fun _ => entriesWellFormed_iff m
  noKeys := List.nodup_nil
  fewerKeys := List.Nodup.sublist
  newKey h hk := List.nodup_append.2 ⟨h, List.nodup_singleton _, fun a ha b hb => by
    rw [List.mem_singleton.1 hb]
    exact fun hab => hk (hab ▸ ha)⟩

theorem hereditary_sound : Hereditary Sound List.Nodup where
  string _ := ⟨trivial, trivial⟩
  sequence _ := sound_sequence_iff
  mapping _ := sound_mapping_iff
  noKeys := hereditary_wellFormed.noKeys
  fewerKeys := hereditary_wellFormed.fewerKeys
  newKey := hereditary_wellFormed.newKey

namespace Hereditary

/-! ### Entries -/

variable {m part : Entries Value}

theorem insert (h : Hereditary Φ K) (hm : Φ (.mapping m)) (k : String) {v : Value} (hv : Φ v) :
    Φ (.mapping (Entries.insert m k v)) := by
  obtain ⟨hkeys, hvalues⟩ := (h.mapping m).1 hm
  refine (h.mapping _).2 ⟨?_, fun e he => ?_⟩
  · by_cases hk : k ∈ Entries.keys m
    · rw [Entries.keys_insert_of_mem hk]
      exact hkeys
    · rw [Entries.insert_of_not_mem_keys hk, Entries.keys, List.map_append]
      exact h.newKey hkeys hk
  · rcases Entries.mem_insert he with rfl | he
    · exact hv
    · exact hvalues e he

theorem merge (h : Hereditary Φ K) (hm : Φ (.mapping m)) (hp : ∀ e ∈ part, Φ e.2) :
    Φ (.mapping (Entries.merge m part)) := by
  induction part generalizing m with
  | nil => exact hm
  | cons e part ih =>
    rw [Entries.merge_cons]
    exact ih (h.insert hm e.1 (hp e List.mem_cons_self)) fun e' he' =>
      hp e' (List.mem_cons_of_mem e he')

theorem empty (h : Hereditary Φ K) : Φ (.mapping []) :=
  (h.mapping []).2 ⟨h.noKeys, fun _ he => absurd he List.not_mem_nil⟩

theorem ofList (h : Hereditary Φ K) {pairs : List (String × Value)} (hp : ∀ e ∈ pairs, Φ e.2) :
    Φ (.mapping (Entries.ofList pairs)) := h.merge h.empty hp

theorem filter (h : Hereditary Φ K) (hm : Φ (.mapping m)) (keep : String × Value → Bool) :
    Φ (.mapping (m.filter keep)) := by
  obtain ⟨hkeys, hvalues⟩ := (h.mapping m).1 hm
  refine (h.mapping _).2 ⟨h.fewerKeys ?_ hkeys, fun e he => hvalues e (List.mem_filter.1 he).1⟩
  exact List.Sublist.map Prod.fst List.filter_sublist

theorem pick (h : Hereditary Φ K) (hm : Φ (.mapping m)) (names : List String) :
    Φ (.mapping (Entries.pick names m)) := by
  refine h.ofList fun e he => ?_
  obtain ⟨k, -, hk⟩ := List.mem_filterMap.1 he
  obtain ⟨v, hv, rfl⟩ := Option.map_eq_some_iff.1 hk
  exact ((h.mapping m).1 hm).2 _ (Entries.mem_of_get? hv)

theorem replacePart (h : Hereditary Φ K) (hm : Φ (.mapping m)) (hp : Φ (.mapping part))
    (names : List String) : Φ (.mapping (Navigator.replacePart names m part)) :=
  h.merge (h.filter hm _) ((h.mapping part).1 hp).2

theorem ofEntry (h : Hereditary Φ K) {e : String × Value} (he : Φ e.2) : Φ (Value.ofEntry e) := by
  refine (h.sequence _).2 fun v hv => ?_
  rcases List.mem_cons.1 hv with rfl | hv
  · exact h.string e.1
  · rw [List.mem_singleton.1 hv]
    exact he

theorem entryOf (h : Hereditary Φ K) {v : Value} (hv : Φ v) {e : String × Value}
    (he : Mapping.entryOf v = .ok e) : Φ e.2 := by
  unfold Mapping.entryOf at he
  split at he
  · rename_i k u
    obtain ⟨_, -, he⟩ := (Action.bind_eq_ok _ _ _).1 he
    cases he
    exact (h.sequence _).1 hv u (List.mem_cons_of_mem k List.mem_cons_self)
  · exact absurd he (by simp)

end Hereditary

end Value

/-! ### Questions and answers -/

/-- What may be asked about: nothing, `undefined`, or a value with the property. -/
def Focus.Admitted (Φ : Value → Prop) : Focus → Prop
  | .absent => True
  | .value v => v = .undefined ∨ Φ v

/-- What may be answered: nothing, or a value with the property; and `undefined` to `undefined`. -/
def Focus.Answers (Φ : Value → Prop) (s r : Focus) : Prop :=
  r = .absent ∨ (∃ w, r = .value w ∧ Φ w) ∨ (s = .value .undefined ∧ r = .value .undefined)

namespace Focus

theorem admitted_value {v : Value} (h : Φ v) : (value v).Admitted Φ := .inr h

theorem Admitted.of_isDefined {v : Value} (h : (value v).Admitted Φ) (hd : v.isDefined = true) :
    Φ v := by
  rcases h with rfl | h
  · exact absurd hd (by decide)
  · exact h

theorem Admitted.answers {s : Focus} (h : s.Admitted Φ) : s.Answers Φ s := by
  cases s with
  | absent => exact .inl rfl
  | value v =>
    rcases h with rfl | h
    · exact .inr (.inr ⟨rfl, rfl⟩)
    · exact .inr (.inl ⟨v, rfl, h⟩)

theorem answers_value {s : Focus} {w : Value} (h : Φ w) : s.Answers Φ (.value w) :=
  .inr (.inl ⟨w, rfl, h⟩)

/-- Something defined is answered by what has the property. -/
theorem Answers.of_isDefined {s : Focus} {w : Value} (h : s.Answers Φ (.value w))
    (hd : w.isDefined = true) : Φ w := by
  rcases h with h | ⟨u, hu, hw⟩ | ⟨-, h⟩
  · exact absurd h (by simp)
  · cases hu
    exact hw
  · cases h
    exact absurd hd (by decide)

/-- Where nothing was, only what has the property is put. -/
theorem Answers.of_absent {w : Value} (h : absent.Answers Φ (.value w)) : Φ w := by
  rcases h with h | ⟨u, hu, hw⟩ | ⟨h, -⟩
  · exact absurd h (by simp)
  · cases hu
    exact hw
  · exact absurd h (by simp)

/-- What has the property is replaced by what has it. -/
theorem Answers.of_value {v w : Value} (hv : Φ v) (h : (value v).Answers Φ (.value w)) : Φ w := by
  rcases h with h | ⟨u, hu, hw⟩ | ⟨hs, h⟩
  · exact absurd h (by simp)
  · cases hu
    exact hw
  · cases hs
    cases h
    exact hv

end Focus

/-- The exchange asks about what it may, and permitted answers make a permitted answer about `s`. -/
structure Exchange.Preserves (x : Exchange) (Φ : Value → Prop) (s : Focus) : Prop where
  asked : ∀ f ∈ x.asked, f.Admitted Φ
  rebuild : ∀ rs r, List.Forall₂ (Focus.Answers Φ) x.asked rs → x.rebuild rs = .ok r →
    s.Answers Φ r

namespace Exchange

/-! ### Kinds of exchanges -/

theorem preserves_idle {s : Focus} (hs : s.Admitted Φ) : (idle s).Preserves Φ s := by
  refine ⟨fun f hf => absurd hf List.not_mem_nil, fun rs r _ hr => ?_⟩
  cases hr
  exact hs.answers

theorem preserves_single {f s : Focus} {put : Focus → Except NavError Focus} (hf : f.Admitted Φ)
    (h : ∀ a r, f.Answers Φ a → put a = .ok r → s.Answers Φ r) : (single f put).Preserves Φ s := by
  refine ⟨List.forall_mem_singleton.2 hf, fun rs r hrs hr => ?_⟩
  obtain ⟨a, _, ha, hnil, rfl⟩ := List.forall₂_cons_left_iff.1 hrs
  exact h a r ha hr

theorem preserves_unreachable (e : NavError) {s : Focus} (hs : s.Admitted Φ) :
    (unreachable e s).Preserves Φ s := by
  refine preserves_single (.inl rfl) fun a r _ hr => ?_
  cases a with
  | absent => cases hr; exact hs.answers
  | value w =>
    have hr : (if w.isDefined then Except.error e else .ok s) = .ok r := hr
    cases hd : w.isDefined with
    | true => rw [hd] at hr; exact absurd hr (by simp)
    | false => rw [hd] at hr; cases hr; exact hs.answers

theorem preserves_fresh (h : Value.Hereditary Φ K) (name : String) {s : Focus}
    (hs : s.Admitted Φ) : (fresh name s).Preserves Φ s := by
  refine preserves_single (.inl rfl) fun a r ha hr => ?_
  cases a with
  | absent => cases hr; exact hs.answers
  | value w =>
    obtain rfl : (if w.isDefined then .value (.mapping [(name, w)]) else s) = r := Except.ok.inj hr
    cases hd : w.isDefined with
    | true => exact Focus.answers_value (h.insert h.empty name (ha.of_isDefined hd))
    | false => exact hs.answers

theorem preserves_slot (h : Value.Hereditary Φ K) (name : String) {m : Entries Value}
    (hm : Φ (.mapping m)) : (slot name m).Preserves Φ (.value (.mapping m)) := by
  refine preserves_single ?_ fun a r ha hr => ?_
  · show Navigator.valueUnder name (.mapping m) = _ ∨ _
    rw [Navigator.valueUnder]
    cases hg : Entries.get? m name with
    | none => exact .inl rfl
    | some v => exact .inr (((h.mapping m).1 hm).2 _ (Entries.mem_of_get? hg))
  · cases hr
    have herase : Φ (.mapping (Entries.erase m name)) := h.filter hm _
    refine Focus.answers_value ?_
    cases a with
    | absent => exact herase
    | value w =>
      rw [Navigator.writeEntry]
      cases hd : w.isDefined with
      | true => exact h.insert hm name (ha.of_isDefined hd)
      | false => exact herase

theorem preserves_item (h : Value.Hereditary Φ K) {vs : List Value} (hvs : Φ (.sequence vs)) {i : Nat}
    (hi : i < vs.length) : (item vs i).Preserves Φ (.value (.sequence vs)) := by
  have hmem := (h.sequence vs).1 hvs
  rw [item, List.getElem?_eq_getElem hi, Option.getD_some]
  have hv : Φ vs[i] := hmem _ (List.getElem_mem hi)
  refine preserves_single (.inr hv) fun a r ha hr => ?_
  cases hr
  refine Focus.answers_value ((h.sequence _).2 fun u hu => ?_)
  cases a with
  | absent => exact hmem u (List.mem_of_mem_eraseIdx hu)
  | value w =>
    rcases List.mem_or_eq_of_mem_set hu with hu | rfl
    · exact hmem u hu
    · exact ha.of_value hv

theorem preserves_items (h : Value.Hereditary Φ K) {vs : List Value} (hvs : Φ (.sequence vs)) :
    (items vs).Preserves Φ (.value (.sequence vs)) := by
  have hmem := (h.sequence vs).1 hvs
  constructor
  · intro f hf
    obtain ⟨v, hv, rfl⟩ := List.mem_map.1 hf
    exact .inr (hmem v hv)
  · intro rs r hrs hr
    cases hr
    refine Focus.answers_value ((h.sequence _).2 fun w hw => ?_)
    obtain ⟨a, ha, hw⟩ := List.mem_filterMap.1 hw
    obtain ⟨f, hf, hfa⟩ := Related.exists_mem hrs.flip ha
    obtain ⟨v, hv, rfl⟩ := List.mem_map.1 hf
    cases a with
    | absent => exact absurd hw (by simp [Focus.value?])
    | value u =>
      obtain rfl : u = w := Option.some.inj hw
      have hfa : (Focus.value v).Answers Φ (.value u) := hfa
      exact hfa.of_value (hmem v hv)

/-- Each answer about an entry stands beside the entry that it is about. -/
theorem answers_of_mem_zip {R : Focus → Focus → Prop} {about : String × Value → Focus}
    {m : Entries Value} {rs : List Focus} (hrs : List.Forall₂ R (m.map about) rs)
    {y : (String × Value) × Focus} (hy : y ∈ m.zip rs) : y.1 ∈ m ∧ R (about y.1) y.2 := by
  rw [List.forall₂_map_left_iff] at hrs
  exact ⟨(List.of_mem_zip hy).1, (List.forall₂_zip hrs) hy⟩

theorem keys_revalued_sublist (m : Entries Value) (rs : List Focus) :
    (Entries.keys (revalued m rs)).Sublist (Entries.keys m) := by
  induction m generalizing rs with
  | nil => exact List.Sublist.refl _
  | cons e m ih =>
    cases rs with
    | nil => exact List.nil_sublist _
    | cons r rs =>
      cases r with
      | absent => exact (ih rs).cons e.1
      | value w => exact (ih rs).cons_cons e.1

theorem preserves_values (h : Value.Hereditary Φ K) {m : Entries Value} (hm : Φ (.mapping m)) :
    (values m).Preserves Φ (.value (.mapping m)) := by
  obtain ⟨hkeys, hvalues⟩ := (h.mapping m).1 hm
  constructor
  · intro f hf
    obtain ⟨e, he, rfl⟩ := List.mem_map.1 hf
    exact .inr (hvalues e he)
  · intro rs r hrs hr
    cases hr
    refine Focus.answers_value ((h.mapping _).2 ⟨h.fewerKeys (keys_revalued_sublist m rs) hkeys, ?_⟩)
    intro e he
    obtain ⟨y, hy, he⟩ := List.mem_filterMap.1 he
    obtain ⟨hmem, ha⟩ := answers_of_mem_zip hrs hy
    obtain ⟨w, hw, rfl⟩ := Option.map_eq_some_iff.1 he
    obtain ⟨e', a⟩ := y
    cases a with
    | absent => exact absurd hw (by simp [Focus.value?])
    | value u =>
      obtain rfl : u = w := Option.some.inj hw
      exact ha.of_value (hvalues e' hmem)

theorem preserves_collected (h : Value.Hereditary Φ K) {m : Entries Value}
    {about : String × Value → Focus} {check : Focus → Except NavError Unit}
    {made : String × Value → Focus → Option (String × Value)}
    (habout : ∀ e ∈ m, (about e).Admitted Φ)
    (hmade : ∀ e ∈ m, ∀ a e', (about e).Answers Φ a → made e a = some e' → Φ e'.2) :
    (collected about check made m).Preserves Φ (.value (.mapping m)) := by
  constructor
  · intro f hf
    obtain ⟨e, he, rfl⟩ := List.mem_map.1 hf
    exact habout e he
  · intro rs r hrs hr
    cases hr
    refine Focus.answers_value (h.ofList fun e he => ?_)
    obtain ⟨y, hy, he⟩ := List.mem_filterMap.1 he
    obtain ⟨hmem, ha⟩ := answers_of_mem_zip hrs hy
    exact hmade y.1 hmem y.2 e ha he

theorem preserves_keys (h : Value.Hereditary Φ K) {m : Entries Value} (hm : Φ (.mapping m)) :
    (keys m).Preserves Φ (.value (.mapping m)) := by
  have hvalues := ((h.mapping m).1 hm).2
  refine preserves_collected h (fun e _ => .inr (h.string e.1)) fun e he a e' _ hmade => ?_
  obtain ⟨w, -, hw⟩ := Option.bind_eq_some_iff.1 hmade
  obtain ⟨k, -, rfl⟩ := Option.map_eq_some_iff.1 hw
  exact hvalues e he

theorem preserves_entries (h : Value.Hereditary Φ K) {m : Entries Value} (hm : Φ (.mapping m)) :
    (entries m).Preserves Φ (.value (.mapping m)) := by
  have hpair : ∀ e ∈ m, Φ (Value.ofEntry e) := fun e he => h.ofEntry (((h.mapping m).1 hm).2 e he)
  refine preserves_collected h (fun e he => .inr (hpair e he)) fun e he a e' ha hmade => ?_
  cases a with
  | absent => exact absurd hmade (by simp [reentered, Focus.value?])
  | value w =>
    have hmade : (Mapping.entryOf w).toOption = some e' := hmade
    cases hw : Mapping.entryOf w with
    | error e => rw [hw] at hmade; exact absurd hmade (by simp [Except.toOption])
    | ok e'' =>
      rw [hw] at hmade
      obtain rfl : e'' = e' := Option.some.inj hmade
      exact h.entryOf (ha.of_value (hpair e he)) hw

end Exchange

namespace Navigator

/-! ### The navigators -/

/-- What the navigator hands on is made by a function of the user. -/
def isForeign : Navigator → Bool
  | .view _ | .parser _ _ | .custom _ => true
  | _ => false

theorem isCustom_of_isForeign {n : Navigator} (h : n.isForeign = false) : n.isCustom = false := by
  cases n <;> first | rfl | exact absurd h (by simp [isForeign])

theorem preserves_exchangeElements (h : Value.Hereditary Φ K) {s : Focus} (hs : s.Admitted Φ) :
    (exchangeElements s).Preserves Φ s := by
  cases s with
  | absent => exact Exchange.preserves_idle hs
  | value v =>
    cases v with
    | sequence vs => exact Exchange.preserves_items h (hs.of_isDefined rfl)
    | mapping m => exact Exchange.preserves_entries h (hs.of_isDefined rfl)
    | _ => exact Exchange.preserves_idle hs

theorem preserves_exchangeValues (h : Value.Hereditary Φ K) {s : Focus} (hs : s.Admitted Φ)
    {x : Exchange} (hx : exchangeValues s = .ok x) : x.Preserves Φ s := by
  cases s with
  | absent => cases hx; exact Exchange.preserves_idle hs
  | value v =>
    cases v with
    | mapping m => cases hx; exact Exchange.preserves_values h (hs.of_isDefined rfl)
    | sequence vs => exact absurd hx (by simp [exchangeValues, Focus.isLeaf, Value.isLeaf])
    | _ => cases hx; exact Exchange.preserves_idle hs

theorem preserves_exchangeKeys (h : Value.Hereditary Φ K) {s : Focus} (hs : s.Admitted Φ)
    {x : Exchange} (hx : exchangeKeys s = .ok x) : x.Preserves Φ s := by
  cases s with
  | absent => cases hx; exact Exchange.preserves_idle hs
  | value v =>
    cases v with
    | mapping m => cases hx; exact Exchange.preserves_keys h (hs.of_isDefined rfl)
    | sequence vs => exact absurd hx (by simp [exchangeKeys, Focus.isLeaf, Value.isLeaf])
    | _ => cases hx; exact Exchange.preserves_idle hs

theorem preserves_exchangeEnd (h : Value.Hereditary Φ K) {n : Navigator} {position : Nat → Nat}
    (hp : ∀ length, 0 < length → position length < length) {s : Focus} (hs : s.Admitted Φ)
    {x : Exchange} (hx : exchangeEnd n position s = .ok x) : x.Preserves Φ s := by
  cases s with
  | absent => cases hx; exact Exchange.preserves_idle hs
  | value v =>
    cases v with
    | sequence vs =>
      cases vs with
      | nil => cases hx; exact Exchange.preserves_idle hs
      | cons w ws =>
        cases hx
        exact Exchange.preserves_item h (hs.of_isDefined rfl) (hp _ (Nat.succ_pos ws.length))
    | mapping m => exact absurd hx (by simp [exchangeEnd, Focus.isLeaf, Value.isLeaf])
    | _ => cases hx; exact Exchange.preserves_idle hs

theorem preserves_exchangeKey (h : Value.Hereditary Φ K) (name : String) {s : Focus}
    (hs : s.Admitted Φ) : (exchangeKey name s).Preserves Φ s := by
  cases s with
  | absent => exact Exchange.preserves_fresh h name hs
  | value v =>
    cases v with
    | mapping m => exact Exchange.preserves_slot h name (hs.of_isDefined rfl)
    | null => exact Exchange.preserves_fresh h name hs
    | undefined => exact Exchange.preserves_fresh h name hs
    | _ => exact Exchange.preserves_unreachable _ hs

theorem preserves_exchangeNth (h : Value.Hereditary Φ K) (index : Int64) {s : Focus}
    (hs : s.Admitted Φ) : (exchangeNth index s).Preserves Φ s := by
  cases s with
  | absent => exact Exchange.preserves_unreachable _ hs
  | value v =>
    cases v with
    | sequence vs =>
      rw [exchangeNth]
      cases hi : Sequence.resolveIndex index vs.length with
      | none => exact Exchange.preserves_unreachable _ hs
      | some i => exact Exchange.preserves_item h (hs.of_isDefined rfl) (lt_of_resolveIndex hi)
    | _ => exact Exchange.preserves_unreachable _ hs

/-- The elements among which something is inserted. -/
theorem mem_itemsOf (h : Value.Hereditary Φ K) {n : Navigator} {s : Focus} (hs : s.Admitted Φ)
    {vs : List Value} (hvs : itemsOf n s = .ok vs) : ∀ v ∈ vs, Φ v := by
  rcases itemsOf_eq_ok hvs with ⟨-, rfl⟩ | rfl
  · exact fun _ hv => absurd hv List.not_mem_nil
  · exact (h.sequence vs).1 (hs.of_isDefined rfl)

theorem preserves_exchangeSplice (h : Value.Hereditary Φ K) {n : Navigator}
    {place : List Value → List Value → List Value}
    (hplace : ∀ vs added w, w ∈ place vs added → w ∈ vs ∨ w ∈ added) {s : Focus}
    (hs : s.Admitted Φ) {x : Exchange} (hx : exchangeSplice n place s = .ok x) :
    x.Preserves Φ s := by
  obtain ⟨vs, hvs, rfl⟩ := (Action.map_eq_ok _ _ _).1 hx
  have hmem := mem_itemsOf h hs hvs
  have hempty : Φ (.sequence []) := (h.sequence []).2 fun _ hv => absurd hv List.not_mem_nil
  have hput {added : List Value} (hadded : ∀ w ∈ added, Φ w) : Φ (.sequence (place vs added)) :=
    (h.sequence _).2 fun w hw => (hplace vs added w hw).elim (hmem w) (hadded w)
  refine Exchange.preserves_single (.inr hempty) fun a r ha hr => ?_
  cases a with
  | absent => cases hr; exact Focus.answers_value ((h.sequence vs).2 hmem)
  | value w =>
    have hw : Φ w := ha.of_value hempty
    cases w with
    | sequence added => cases hr; exact Focus.answers_value (hput ((h.sequence added).1 hw))
    | _ => cases hr; exact Focus.answers_value (hput (List.forall_mem_singleton.2 hw))

theorem preserves_exchangeEdge (h : Value.Hereditary Φ K) {n : Navigator}
    {place : List Value → Value → List Value}
    (hplace : ∀ vs u w, w ∈ place vs u → w ∈ vs ∨ w = u) {s : Focus} (hs : s.Admitted Φ)
    {x : Exchange} (hx : exchangeEdge n place s = .ok x) : x.Preserves Φ s := by
  obtain ⟨vs, hvs, rfl⟩ := (Action.map_eq_ok _ _ _).1 hx
  have hmem := mem_itemsOf h hs hvs
  refine Exchange.preserves_single trivial fun a r ha hr => ?_
  cases a with
  | absent => cases hr; exact Focus.answers_value ((h.sequence vs).2 hmem)
  | value u =>
    cases hr
    refine Focus.answers_value ((h.sequence _).2 fun w hw => ?_)
    rcases hplace vs u w hw with hw | rfl
    · exact hmem w hw
    · exact ha.of_absent

theorem preserves_exchangeBefore (h : Value.Hereditary Φ K) {index : Int64} {s : Focus}
    (hs : s.Admitted Φ) {x : Exchange} (hx : exchangeBefore index s = .ok x) : x.Preserves Φ s := by
  obtain ⟨vs, hvs, rfl⟩ := (Action.map_eq_ok _ _ _).1 hx
  have hmem := mem_itemsOf h hs hvs
  refine Exchange.preserves_single trivial fun a r ha hr => ?_
  cases a with
  | absent => cases hr; exact Focus.answers_value ((h.sequence vs).2 hmem)
  | value u =>
    dsimp only at hr
    cases hi : Sequence.resolveInsertIndex index vs.length with
    | none => rw [hi] at hr; exact absurd hr (by simp)
    | some i =>
      rw [hi] at hr
      cases hr
      refine Focus.answers_value ((h.sequence _).2 fun w hw => ?_)
      rcases List.eq_or_mem_of_mem_insertIdx hw with rfl | hw
      · exact ha.of_absent
      · exact hmem w hw

theorem preserves_exchangeSubmap (h : Value.Hereditary Φ K) {names : List String} {s : Focus}
    (hs : s.Admitted Φ) {x : Exchange} (hx : exchangeSubmap names s = .ok x) :
    x.Preserves Φ s := by
  obtain ⟨m, hm, rfl⟩ := (Action.map_eq_ok _ _ _).1 hx
  have hm : Φ (.mapping m) := by
    cases s with
    | absent => cases hm; exact h.empty
    | value v =>
      cases v with
      | mapping m' => cases hm; exact hs.of_isDefined rfl
      | null => cases hm; exact h.empty
      | undefined => cases hm; exact h.empty
      | _ => exact absurd hm (by simp [entriesOf, Focus.isVoid, Value.isVoid])
  refine Exchange.preserves_single (.inr (h.pick hm names)) fun a r ha hr => ?_
  obtain ⟨part, hpart, rfl⟩ := (Action.map_eq_ok _ _ _).1 hr
  have hpart : Φ (.mapping part) := by
    cases a with
    | absent => cases hpart; exact h.empty
    | value w =>
      cases w with
      | mapping part' => cases hpart; exact ha.of_isDefined rfl
      | _ => exact absurd hpart (by simp [partAnswered])
  split
  · exact hs.answers
  · exact Focus.answers_value (h.replacePart hm hpart names)

theorem mem_realign {marked : List (Bool × Value)} {edited : List Value} {w : Value}
    (hw : w ∈ realign marked edited) : w ∈ marked.map Prod.snd ∨ w ∈ edited := by
  induction marked generalizing edited with
  | nil => exact absurd hw List.not_mem_nil
  | cons y marked ih =>
    obtain ⟨b, v⟩ := y
    rw [List.map_cons]
    cases b with
    | false =>
      rcases List.mem_cons.1 hw with rfl | hw
      · exact .inl List.mem_cons_self
      · exact (ih hw).imp_left (List.mem_cons_of_mem _)
    | true =>
      cases edited with
      | nil => exact (ih hw).imp_left (List.mem_cons_of_mem _)
      | cons u edited =>
        have hrest (hw : w ∈ realign marked edited) :
            w ∈ v :: marked.map Prod.snd ∨ w ∈ u :: edited :=
          (ih hw).imp (List.mem_cons_of_mem _) (List.mem_cons_of_mem _)
        rw [realign] at hw
        split at hw
        · rcases List.mem_cons.1 hw with rfl | hw
          · exact .inr List.mem_cons_self
          · exact hrest hw
        · exact hrest hw

/-- Marking keeps all elements, in order. -/
theorem map_snd_markMatching {holds : Value → Except NavError Bool} {vs : List Value}
    {marked : List (Bool × Value)} (h : markMatching holds vs = .ok marked) :
    marked.map Prod.snd = vs := by
  induction vs generalizing marked with
  | nil => cases h; rfl
  | cons v vs ih =>
    rw [markMatching] at h
    obtain ⟨b, -, h⟩ := (Action.bind_eq_ok _ _ _).1 h
    obtain ⟨rest, hrest, h⟩ := (Action.bind_eq_ok _ _ _).1 h
    cases h
    exact congrArg (v :: ·) (ih hrest)

theorem preserves_exchangeMatching (h : Value.Hereditary Φ K)
    {holds : Value → Except NavError Bool} {s : Focus} (hs : s.Admitted Φ) {x : Exchange}
    (hx : exchangeMatching holds s = .ok x) : x.Preserves Φ s := by
  cases s with
  | absent => cases hx; exact Exchange.preserves_idle hs
  | value v =>
    cases v with
    | mapping m => exact absurd hx (by simp [exchangeMatching, Focus.isLeaf, Value.isLeaf])
    | sequence vs =>
      obtain ⟨marked, hmarked, rfl⟩ := (Action.map_eq_ok _ _ _).1 hx
      have hmem : ∀ w ∈ marked.map Prod.snd, Φ w := by
        rw [map_snd_markMatching hmarked]
        exact (h.sequence vs).1 (hs.of_isDefined rfl)
      have hmatching : Φ (.sequence (matching marked)) := by
        refine (h.sequence _).2 fun w hw => hmem w ?_
        obtain ⟨y, hy, rfl⟩ := List.mem_map.1 hw
        exact List.mem_map_of_mem (List.mem_filter.1 hy).1
      refine Exchange.preserves_single (.inr hmatching) fun a r ha hr => ?_
      obtain ⟨edited, hedited, rfl⟩ := (Action.map_eq_ok _ _ _).1 hr
      have hedited : ∀ w ∈ edited, Φ w := by
        cases a with
        | absent => cases hedited; exact fun _ hw => absurd hw List.not_mem_nil
        | value u =>
          cases u with
          | sequence ws => cases hedited; exact (h.sequence _).1 (ha.of_isDefined rfl)
          | _ => exact absurd hedited (by simp [editedAnswered])
      exact Focus.answers_value ((h.sequence _).2 fun w hw =>
        (mem_realign hw).elim (hmem w) (hedited w))
    | _ => cases hx; exact Exchange.preserves_idle hs

/-- **At one navigator, permitted answers make a permitted answer.** -/
theorem preserves_exchange (h : Value.Hereditary Φ K) {n : Navigator} (hn : n.isForeign = false)
    {s : Focus} (hs : s.Admitted Φ) {x : Exchange} (hx : n.exchange s = .ok x) :
    x.Preserves Φ s := by
  cases n with
  | all => cases hx; exact preserves_exchangeElements h hs
  | mapVals => exact preserves_exchangeValues h hs hx
  | mapKeys => exact preserves_exchangeKeys h hs hx
  | first => exact preserves_exchangeEnd h (fun _ hl => hl) hs hx
  | last => exact preserves_exchangeEnd h (fun _ hl => Nat.sub_lt hl Nat.one_pos) hs hx
  | beginning =>
    exact preserves_exchangeSplice h (fun _ _ _ hw => (List.mem_append.1 hw).symm) hs hx
  | ending => exact preserves_exchangeSplice h (fun _ _ _ hw => List.mem_append.1 hw) hs hx
  | beforeElem => exact preserves_exchangeEdge h (fun _ _ _ hw => (List.mem_cons.1 hw).symm) hs hx
  | afterElem =>
    refine preserves_exchangeEdge h (fun _ _ _ hw => ?_) hs hx
    exact (List.mem_append.1 hw).imp_right List.mem_singleton.1
  | key name => cases hx; exact preserves_exchangeKey h name hs
  | nth index => cases hx; exact preserves_exchangeNth h index hs
  | beforeIndex index => exact preserves_exchangeBefore h hs hx
  | pred holds =>
    obtain rfl : (if holds s.orUndefined then Exchange.single s .ok else .idle s) = x :=
      Except.ok.inj hx
    split
    · refine Exchange.preserves_single hs fun a r ha hr => ?_
      cases hr
      exact ha
    · exact Exchange.preserves_idle hs
  | submap names => exact preserves_exchangeSubmap h hs hx
  | filterer path => exact preserves_exchangeMatching h hs hx
  | view project => exact absurd hn (by simp [isForeign])
  | parser parse unparse => exact absurd hn (by simp [isForeign])
  | custom user => exact absurd hn (by simp [isForeign])

/-- What a navigator hands on when it selects is permitted too. -/
theorem admitted_reach (h : Value.Hereditary Φ K) {n : Navigator} (hn : n.isForeign = false)
    {v : Value} (hv : (Focus.value v).Admitted Φ) {ws : List Value} (hr : n.reach v = .ok ws) :
    ∀ w ∈ ws, (Focus.value w).Admitted Φ := by
  cases hi : n.isInsertionPoint with
  | true =>
    have hnil : n.reach v = .ok [] := by
      cases n <;> first | rfl | exact absurd hi (by simp [isInsertionPoint])
    obtain rfl : [] = ws := Except.ok.inj (hnil.symm.trans hr)
    exact fun _ hw => absurd hw List.not_mem_nil
  | false =>
    rcases n.exchange_value_cases (isCustom_of_isForeign hn) hi v with
      ⟨e, he, -⟩ | ⟨vs, x, hvs, hx, hasked⟩
    · exact absurd (he.symm.trans hr) (by simp)
    · obtain rfl : vs = ws := Except.ok.inj (hvs.symm.trans hr)
      intro w hw
      refine (preserves_exchange h hn hv hx).asked (.value w) ?_
      rw [hasked]
      exact List.mem_map_of_mem hw

/-! ### Paths -/

/-- **Along a path, permitted answers of the update make a permitted answer.** -/
theorem ensures_transformAlong (h : Value.Hereditary Φ K) (path : List Navigator)
    (hp : ∀ n ∈ path, n.isForeign = false) {update : Focus → Action σ Focus}
    (hu : ∀ f, f.Admitted Φ → Action.Ensures (f.Answers Φ) (update f)) {s : Focus}
    (hs : s.Admitted Φ) : Action.Ensures (s.Answers Φ) (transformAlong path s update) := by
  induction path generalizing s with
  | nil => exact hu s hs
  | cons n path ih =>
    have hn := hp n List.mem_cons_self
    have ih {f : Focus} := ih (fun m hm => hp m (List.mem_cons_of_mem n hm)) (s := f)
    rw [transformAlong, transform_eq_carryOut n (isCustom_of_isForeign hn)]
    refine (Action.ensures_ofExcept fun x hx => hx).bind fun x hx => ?_
    have hx : x.Preserves Φ s := preserves_exchange h hn hs hx
    have hask : ∀ f ∈ x.asked, Action.Ensures (f.Answers Φ)
        (x.ask (fun f => transformAlong path f update) f) := by
      intro f hf
      rw [Exchange.ask_eq]
      refine (ih (hx.asked f hf)).bind fun a ha => Action.ensures_ofExcept fun r hr => ?_
      obtain ⟨_, -, hr⟩ := (Action.bind_eq_ok _ _ _).1 hr
      cases hr
      exact ha
    exact (Action.Ensures.mapM hask).bind fun rs hrs =>
      Action.ensures_ofExcept fun r hr => hx.rebuild rs r hrs hr

end Navigator

/-- **No `undefined` gets into a rebuilt document.** A transform without navigators of the user, the
update of which never makes an `undefined` of anything else, leaves no `undefined` in a document that
had none, at any depth. -/
theorem Path.transform_undefinedFree (p : Path) (hp : ∀ n ∈ p.navigators, n.isForeign = false)
    (v : Value) (hv : v.UndefinedFree) (update : Focus → Action σ Focus)
    (hu : ∀ f st r st', (update f).exec st = (.ok r, st') →
      r = .absent ∨ (∃ w, r = .value w ∧ w.UndefinedFree) ∨
        (f = .value .undefined ∧ r = .value .undefined))
    (st st' : σ) (v' : Value) (h : (p.tryTransform update v).exec st = (.ok v', st')) :
    v'.UndefinedFree := by
  obtain ⟨r, st₁, hr, hfinish⟩ := (Action.exec_bind_eq_ok _ _ _ _ _).1 h
  have hanswer : (Focus.value v).Answers Value.UndefinedFree r :=
    Navigator.ensures_transformAlong Value.hereditary_undefinedFree p.navigators hp
      (fun f _ => hu f) (Focus.admitted_value hv) st r st₁ hr
  rw [Action.exec_ofExcept] at hfinish
  have hfinish : p.finish r = .ok v' := congrArg Prod.fst hfinish
  cases r with
  | absent =>
    rw [finish] at hfinish
    split at hfinish
    · cases hfinish
      exact trivial
    · exact absurd hfinish (by simp)
  | value w =>
    obtain rfl : w = v' := Except.ok.inj hfinish
    exact hanswer.of_value hv

/-- A run in which steps are asked about a missing place, about nothing at all and about `undefined`,
and in which one empty sequence is all that comes of it. -/
theorem Path.transform_undefinedFree_inserting :
    let p : Path := ⟨[.submap ["a", "z"], .key "z", .beforeElem, .submap ["n"], .key "n"], {}⟩
    let v : Value := .mapping [("a", .null), ("b", .integer 1)]
    let update : Focus → Action Nat Focus := fun f => do
      modify (· + 1)
      match f with
      | .value .undefined => pure f
      | _ => pure .absent
    let v' : Value := .mapping [("a", .null), ("b", .integer 1), ("z", .sequence [])]
    v.UndefinedFree ∧ (p.tryTransform update v).exec 0 = (.ok v', 1) ∧ v'.UndefinedFree := by
  intro p v update v'
  have hp : ∀ n ∈ p.navigators, n.isForeign = false := by decide
  have hv : v.UndefinedFree := by simp [v, Value.UndefinedFree, Value.EntriesUndefinedFree]
  have hrun : (p.tryTransform update v).exec 0 = (.ok v', 1) := by rfl
  refine ⟨hv, hrun, p.transform_undefinedFree hp v hv update ?_ 0 1 v' hrun⟩
  intro f st r st' h
  cases f with
  | absent => cases h; exact .inl rfl
  | value w =>
    cases w with
    | undefined => cases h; exact .inr (.inr ⟨rfl, rfl⟩)
    | _ => cases h; exact .inl rfl

end DocPath
