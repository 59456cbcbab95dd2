import DocPath.Proofs.Exchange

/-!
# Steps to children

Six navigators go down to children of a value. Between them they carry out eight kinds of exchanges,
and whatever children are put in the place of the old ones, the same step finds them again. The pairs
of a mapping are left out of this: they are children only as long as they stay pairs.

* `Navigator.Descends` — the six navigators;
* `Exchange.Shape`, `Navigator.shape_of_exchange` — **the kinds of exchanges that they carry out**;
* `Exchange.Shape.asked`, `Navigator.Descends.reach` — the children that are asked about and selected;
* `Exchange.Shape.next` — **the step meets what was answered to it**;
* `Exchange.Shape.rebuild_again` — **a second round of answers makes what it would have made at once**.
-/

namespace DocPath

/-- The steps to children of a value. -/
def Navigator.Descends : Navigator → Prop
  | .all | .mapVals | .first | .last | .key _ | .nth _ => True
  | _ => False

/-! ### The kinds of exchanges -/

/-- The exchanges of the steps to children, each with the value at which it takes place and the
children that it asks about. -/
inductive Exchange.Shape : Navigator → Value → List Value → Exchange → Prop
  | idle (n : Navigator) (v : Value) : Shape n v [] (.idle (.value v))
  | unreachable (n : Navigator) (e : NavError) (v : Value) :
      Shape n v [.undefined] (.unreachable e (.value v))
  | slot (name : String) (m : Entries Value) :
      Shape (.key name) (.mapping m) [Navigator.valueUnder name (.mapping m)] (.slot name m)
  | fresh (name : String) {v : Value} (hv : v.isVoid = true) :
      Shape (.key name) v [.undefined] (.fresh name (.value v))
  | item {n : Navigator} {vs : List Value} {i : Nat} (hi : i < vs.length)
      (hn : ∀ ws : List Value, ws.length = vs.length →
        n.exchange (.value (.sequence ws)) = .ok (.item ws i)) :
      Shape n (.sequence vs) [vs[i]] (.item vs i)
  | items (vs : List Value) : Shape .all (.sequence vs) vs (.items vs)
  | values (m : Entries Value) : Shape .mapVals (.mapping m) (m.map Prod.snd) (.values m)
  | entries (m : Entries Value) : Shape .all (.mapping m) (Value.pairs m) (.entries m)

namespace Navigator

theorem Descends.isCustom {n : Navigator} (h : n.Descends) : n.isCustom = false := by
  cases n <;> first | rfl | exact absurd h (by simp [Descends])

theorem Descends.isInsertionPoint {n : Navigator} (h : n.Descends) :
    n.isInsertionPoint = false := by
  cases n <;> first | rfl | exact absurd h (by simp [Descends])

theorem shape_of_exchangeEnd {n : Navigator} {position : Nat → Nat}
    (hp : ∀ length, 0 < length → position length < length)
    (hn : ∀ s, n.exchange s = exchangeEnd n position s) {v : Value} {x : Exchange}
    (hx : n.exchange (.value v) = .ok x) : ∃ vs, Exchange.Shape n v vs x := by
  have hx' := hx
  rw [hn] at hx'
  cases v with
  | sequence vs =>
    cases vs with
    | nil => cases hx'; exact ⟨_, .idle _ _⟩
    | cons w ws =>
      cases hx'
      have hlt : position (w :: ws).length < (w :: ws).length := hp _ (Nat.succ_pos ws.length)
      refine ⟨_, .item hlt fun us hus => ?_⟩
      rw [hn]
      cases us with
      | nil => exact absurd hus (by simp)
      | cons u us => rw [exchangeEnd, hus]
  | mapping m => exact absurd hx' (by simp [exchangeEnd, Focus.isLeaf, Value.isLeaf])
  | _ => cases hx'; exact ⟨_, .idle _ _⟩

/-- **The steps to children carry out exchanges of these kinds.** -/
theorem shape_of_exchange {n : Navigator} (hn : n.Descends) {v : Value} {x : Exchange}
    (hx : n.exchange (.value v) = .ok x) : ∃ vs, Exchange.Shape n v vs x := by
  cases n with
  | all =>
    obtain rfl : exchangeElements (.value v) = x := Except.ok.inj hx
    cases v with
    | sequence vs => exact ⟨_, .items vs⟩
    | mapping m => exact ⟨_, .entries m⟩
    | _ => exact ⟨_, .idle _ _⟩
  | mapVals =>
    cases v with
    | mapping m => cases hx; exact ⟨_, .values m⟩
    | sequence vs => exact absurd hx (by simp [exchange, exchangeValues, Focus.isLeaf, Value.isLeaf])
    | _ => cases hx; exact ⟨_, .idle _ _⟩
  | first => exact shape_of_exchangeEnd (fun _ h => h) (fun _ => rfl) hx
  | last => exact shape_of_exchangeEnd (fun _ h => Nat.sub_lt h Nat.one_pos) (fun _ => rfl) hx
  | key name =>
    obtain rfl : exchangeKey name (.value v) = x := Except.ok.inj hx
    cases v with
    | mapping m => exact ⟨_, .slot name m⟩
    | null => exact ⟨_, .fresh name rfl⟩
    | undefined => exact ⟨_, .fresh name rfl⟩
    | _ => exact ⟨_, .unreachable _ _ _⟩
  | nth index =>
    obtain rfl : exchangeNth index (.value v) = x := Except.ok.inj hx
    cases v with
    | sequence vs =>
      rw [exchangeNth]
      cases h : Sequence.resolveIndex index vs.length with
      | none => exact ⟨_, .unreachable _ _ _⟩
      | some i =>
        refine ⟨_, .item (lt_of_resolveIndex h) fun ws hws => ?_⟩
        show Except.ok (exchangeNth index (.value (.sequence ws))) = _
        rw [exchangeNth, hws, h]
    | _ => exact ⟨_, .unreachable _ _ _⟩
  | _ => exact absurd hn (by simp [Descends])

end Navigator

/-! ### What is found where something was put -/

theorem Value.eq_undefined {v : Value} (h : v.isDefined = false) : v = .undefined := by
  cases v <;> first | rfl | exact absurd h (by simp [isDefined])

/-- What was written under a key is found there; `undefined` is found where nothing was written. -/
theorem Navigator.valueUnder_writeEntry (m : Entries Value) (name : String) (w : Value) :
    valueUnder name (.mapping (writeEntry m name (.value w))) = w := by
  rw [valueUnder, writeEntry]
  cases hw : w.isDefined with
  | true => rw [if_pos rfl, Entries.get?_insert_self, Option.getD_some]
  | false =>
    rw [if_neg Bool.false_ne_true, Entries.get?_erase_self, Value.eq_undefined hw]
    rfl

namespace Exchange

theorem filterMap_value? (ws : List Value) : (ws.map Focus.value).filterMap Focus.value? = ws := by
  rw [List.filterMap_map]
  exact List.filterMap_some

/-- The values of entries that got new values. -/
theorem map_snd_revalued (m : Entries Value) (ws : List Value) (h : ws.length = m.length) :
    (revalued m (ws.map .value)).map Prod.snd = ws := by
  induction m generalizing ws with
  | nil =>
    rw [List.length_eq_zero_iff.1 h]
    rfl
  | cons e m ih =>
    cases ws with
    | nil => exact absurd h (by simp)
    | cons w ws => exact congrArg (w :: ·) (ih ws (Nat.succ.inj h))

/-- Entries of which the pairs are answered with their old keys are rebuilt as answered. -/
theorem rebuild_entries_of_keys {m m' : Entries Value} (hd : Entries.Distinct m)
    (hk : Entries.keys m' = Entries.keys m) :
    (entries m).rebuild ((Value.pairs m').map .value) = .ok (.value (.mapping m')) := by
  have hd' : Entries.Distinct m' := by rw [Entries.Distinct, hk]; exact hd
  have hlen : m'.length = m.length := by
    have h := congrArg List.length hk
    rwa [Entries.keys, Entries.keys, List.length_map, List.length_map] at h
  have hsame {m m' : Entries Value} (hlen : m'.length = m.length) :
      (m.zip ((Value.pairs m').map Focus.value)).filterMap (fun y => reentered y.2) = m' := by
    induction m generalizing m' with
    | nil => rw [List.length_eq_zero_iff.1 hlen]; rfl
    | cons e m ih =>
      cases m' with
      | nil => exact absurd hlen (by simp)
      | cons e' m' => exact congrArg (e' :: ·) (ih (Nat.succ.inj hlen))
  show Except.ok (Focus.value (.mapping (Entries.ofList _))) = _
  rw [hsame hlen, Entries.ofList_of_distinct hd']

/-- A place that is not there takes `undefined` alone, and stays as it is. -/
theorem rebuild_unreachable_eq_ok {e : NavError} {s r : Focus} {b : Value}
    (h : (unreachable e s).rebuild [.value b] = .ok r) : b = .undefined ∧ r = s := by
  have h : (if b.isDefined then Except.error e else .ok s) = .ok r := h
  cases hd : b.isDefined with
  | true => rw [hd] at h; exact absurd h (by simp)
  | false =>
    rw [hd] at h
    exact ⟨Value.eq_undefined hd, (Except.ok.inj h).symm⟩

variable {n : Navigator} {v : Value} {vs : List Value} {x : Exchange}

theorem Shape.asked (h : Shape n v vs x) : x.asked = vs.map .value := by
  cases h with
  | item hi hn =>
    rename_i vs i
    show [Focus.value (vs[i]?.getD .undefined)] = _
    rw [List.getElem?_eq_getElem hi]
    rfl
  | values m => exact List.map_map.symm
  | entries m => exact List.map_map.symm
  | _ => rfl

end Exchange

/-- The children that are asked about are those that selecting hands on. -/
theorem Navigator.Descends.reach {n : Navigator} (hn : n.Descends) {v : Value} {vs : List Value}
    {x : Exchange} (hx : n.exchange (.value v) = .ok x) (h : Exchange.Shape n v vs x) :
    n.reach v = .ok vs := by
  rcases n.exchange_value_cases hn.isCustom hn.isInsertionPoint v with
    ⟨e, -, he⟩ | ⟨us, x', hr, hx', hasked⟩
  · rw [hx] at he
    exact absurd he (by simp)
  · obtain rfl : x = x' := Except.ok.inj (hx.symm.trans hx')
    rw [h.asked] at hasked
    rw [hr, List.map_injective_iff.2 (fun _ _ => Focus.value.inj) hasked]

/-- **The step meets what was answered to it.** Of the pairs of a mapping it is asked that they are
answered by pairs with the same keys. -/
theorem Exchange.Shape.next {n : Navigator} {v : Value} {vs ws : List Value} {x : Exchange}
    (h : Shape n v vs x) (hx : n.exchange (.value v) = .ok x) (hlen : ws.length = vs.length)
    (hpairs : n = .all → ∀ m, v = .mapping m → Entries.Distinct m ∧
      ∃ m' : Entries Value, ws = Value.pairs m' ∧ Entries.keys m' = Entries.keys m)
    {r : Focus} (hr : x.rebuild (ws.map .value) = .ok r) :
    ∃ w x', r = .value w ∧ n.exchange (.value w) = .ok x' ∧ Shape n w ws x' := by
  cases h with
  | idle =>
    obtain rfl := List.length_eq_zero_iff.1 hlen
    cases hr
    exact ⟨v, _, rfl, hx, .idle n v⟩
  | unreachable n e =>
    obtain ⟨w, rfl⟩ := List.length_eq_one_iff.1 hlen
    obtain ⟨rfl, rfl⟩ := rebuild_unreachable_eq_ok hr
    exact ⟨v, _, rfl, hx, .unreachable n e v⟩
  | slot name m =>
    obtain ⟨w, rfl⟩ := List.length_eq_one_iff.1 hlen
    cases hr
    have hshape := Shape.slot name (Navigator.writeEntry m name (.value w))
    rw [Navigator.valueUnder_writeEntry] at hshape
    exact ⟨_, _, rfl, rfl, hshape⟩
  | fresh name hvoid =>
    obtain ⟨w, rfl⟩ := List.length_eq_one_iff.1 hlen
    obtain rfl := Except.ok.inj hr
    cases hw : w.isDefined with
    | false =>
      obtain rfl := Value.eq_undefined hw
      exact ⟨v, _, rfl, hx, .fresh name hvoid⟩
    | true =>
      have hone : Navigator.valueUnder name (.mapping [(name, w)]) = w := by
        rw [Navigator.valueUnder, Entries.get?_cons, if_pos (beq_self_eq_true name),
          Option.getD_some]
      have hshape := Shape.slot name [(name, w)]
      rw [hone] at hshape
      exact ⟨_, _, rfl, rfl, hshape⟩
  | item hi hn =>
    rename_i vs i
    obtain ⟨w, rfl⟩ := List.length_eq_one_iff.1 hlen
    cases hr
    have hset : (vs.set i w).length = vs.length := List.length_set
    have hi' : i < (vs.set i w).length := hset.symm ▸ hi
    have hshape := Shape.item hi' fun us hus => hn us (hus.trans hset)
    rw [List.getElem_set_self] at hshape
    exact ⟨_, _, rfl, hn _ hset, hshape⟩
  | items vs =>
    cases hr
    rw [filterMap_value?]
    exact ⟨_, _, rfl, rfl, .items ws⟩
  | values m =>
    cases hr
    have hshape := Shape.values (revalued m (ws.map .value))
    rw [map_snd_revalued m ws (hlen.trans (List.length_map _))] at hshape
    exact ⟨_, _, rfl, rfl, hshape⟩
  | entries m =>
    obtain ⟨hd, m', rfl, hk⟩ := hpairs rfl m rfl
    rw [rebuild_entries_of_keys hd hk] at hr
    cases hr
    exact ⟨_, _, rfl, rfl, .entries m'⟩

/-! ### A second round of answers -/

namespace Exchange

theorem writeEntry_writeEntry {m : Entries Value} {name : String} {b c : Value}
    (hdef : b.isDefined = true → c.isDefined = true)
    (hback : b.isDefined = false → c.isDefined = true → Entries.get? m name = none) :
    Navigator.writeEntry (Navigator.writeEntry m name (.value b)) name (.value c) =
      Navigator.writeEntry m name (.value c) := by
  cases hb : b.isDefined with
  | true =>
    rw [Navigator.writeEntry, Navigator.writeEntry, Navigator.writeEntry, hb, hdef hb]
    exact Entries.insert_insert_self m name b c
  | false =>
    rw [Navigator.writeEntry, Navigator.writeEntry, Navigator.writeEntry, hb]
    show (if c.isDefined then Entries.insert (Entries.erase m name) name c
      else Entries.erase (Entries.erase m name) name) = _
    cases hc : c.isDefined with
    | true =>
      rw [Entries.erase_of_get?_none (hback hb hc)]
      rfl
    | false => exact Entries.erase_of_get?_none (Entries.get?_erase_self m name)

theorem revalued_revalued (m : Entries Value) {bs cs : List Value}
    (hlen : bs.length = m.length) :
    revalued (revalued m (bs.map .value)) (cs.map .value) = revalued m (cs.map .value) := by
  induction m generalizing bs cs with
  | nil => rfl
  | cons e m ih =>
    cases bs with
    | nil => exact absurd hlen (by simp)
    | cons b bs =>
      cases cs with
      | nil => rfl
      | cons c cs => exact congrArg ((e.1, c) :: ·) (ih (Nat.succ.inj hlen))

variable {n : Navigator} {v : Value} {vs bs cs : List Value} {x : Exchange}

/-- **A second round of answers makes what it would have made at once**, if nothing that was defined
in the first round gets lost in the second, no entry that the first round removed is written again,
and pairs stay pairs with their keys. -/
theorem Shape.rebuild_again (h : Shape n v vs x) (hx : n.exchange (.value v) = .ok x)
    (hlen : bs.length = vs.length)
    (hdef : List.Forall₂ (fun b c => b.isDefined = true → c.isDefined = true) bs cs)
    (hback : ∀ name m b c, n = .key name → v = .mapping m → bs = [b] → cs = [c] →
      b.isDefined = false → c.isDefined = true → Entries.get? m name = none)
    (hpairs : n = .all → ∀ m, v = .mapping m → Entries.Distinct m ∧
      ∃ m₁ m₂ : Entries Value, bs = Value.pairs m₁ ∧ cs = Value.pairs m₂ ∧
        Entries.keys m₁ = Entries.keys m ∧ Entries.keys m₂ = Entries.keys m)
    {w : Value} (hr : x.rebuild (bs.map .value) = .ok (.value w)) {x' : Exchange}
    (hx' : n.exchange (.value w) = .ok x') :
    x'.rebuild (cs.map .value) = x.rebuild (cs.map .value) := by
  cases h with
  | idle =>
    cases hr
    rw [Except.ok.inj (hx.symm.trans hx')]
  | unreachable n e =>
    obtain ⟨b, rfl⟩ := List.length_eq_one_iff.1 hlen
    obtain rfl := Focus.value.inj (rebuild_unreachable_eq_ok hr).2
    rw [Except.ok.inj (hx.symm.trans hx')]
  | slot name m =>
    obtain ⟨b, rfl⟩ := List.length_eq_one_iff.1 hlen
    obtain ⟨c, rfl, hbc⟩ := Related.singleton_left hdef
    cases hr
    cases hx'
    have hwrite := writeEntry_writeEntry hbc (hback name m b c rfl rfl rfl rfl)
    exact congrArg (fun es => Except.ok (Focus.value (.mapping es))) hwrite
  | fresh name hvoid =>
    obtain ⟨b, rfl⟩ := List.length_eq_one_iff.1 hlen
    obtain ⟨c, rfl, hbc⟩ := Related.singleton_left hdef
    have hr := Except.ok.inj hr
    cases hd : b.isDefined with
    | false =>
      rw [hd] at hr
      cases hr
      rw [Except.ok.inj (hx.symm.trans hx')]
    | true =>
      rw [hd] at hr
      cases hr
      cases hx'
      show Except.ok (Focus.value (.mapping (Navigator.writeEntry [(name, b)] name (.value c)))) =
        Except.ok (if c.isDefined then .value (.mapping [(name, c)]) else .value v)
      rw [if_pos (hbc hd), Navigator.writeEntry, if_pos (hbc hd), Entries.insert_cons, if_pos rfl]
  | item hi hn =>
    rename_i vs i
    obtain ⟨b, rfl⟩ := List.length_eq_one_iff.1 hlen
    obtain ⟨c, rfl, -⟩ := Related.singleton_left hdef
    cases hr
    obtain rfl : Exchange.item (vs.set i b) i = x' :=
      Except.ok.inj ((hn (vs.set i b) List.length_set).symm.trans hx')
    show Except.ok (Focus.value (.sequence ((vs.set i b).set i c))) = _
    rw [List.set_set]
    rfl
  | items vs =>
    cases hr
    cases hx'
    rfl
  | values m =>
    cases hr
    cases hx'
    show Except.ok (Focus.value (.mapping (revalued (revalued m _) _))) = _
    rw [revalued_revalued m (hlen.trans (List.length_map _))]
    rfl
  | entries m =>
    obtain ⟨hd, m₁, m₂, rfl, rfl, hk₁, hk₂⟩ := hpairs rfl m rfl
    rw [rebuild_entries_of_keys hd hk₁] at hr
    cases hr
    obtain rfl : Exchange.entries m₁ = x' := Except.ok.inj hx'
    have hd₁ : Entries.Distinct m₁ := by rw [Entries.Distinct, hk₁]; exact hd
    rw [rebuild_entries_of_keys hd₁ (hk₂.trans hk₁.symm), rebuild_entries_of_keys hd hk₂]

end Exchange

end DocPath
