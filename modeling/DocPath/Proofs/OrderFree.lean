import DocPath.Proofs.Alike
import DocPath.Proofs.Hereditary
import Mathlib.Data.Multiset.Bind

/-!
# One step on documents that differ in the order of entries

Most navigators find a place by position or by key, and so do not see in what order the entries of a
mapping stand. Met with two alike values such a navigator asks about alike focuses, in another order
perhaps, and makes alike values of alike answers.

* `Navigator.OrderFree` — the navigators, and what they ask of predicates and of nested paths;
* `Exchange.Alike` — two exchanges that ask alike questions and rebuild alike;
* `Navigator.alike_exchange` — **at alike values the exchanges of a navigator are alike**;
* `Navigator.alike_reach` — what it hands on is alike, up to the order.
-/

namespace DocPath

open DocPath.Action (Agree)

/-! ### Navigators that do not see the order of entries -/

namespace Navigator

mutual

/-- The navigator neither renames entries nor hands on anything made by a function of the user, and
its predicate, or its nested path, does not tell alike values apart. -/
def OrderFree : Navigator → Prop
  | .pred holds => ∀ v w, v.Alike w → holds v = holds w
  | .filterer path => OrderFreeAlong path
  | .mapKeys | .view _ | .parser _ _ | .custom _ => False
  | .all | .mapVals | .first | .last | .key _ | .nth _ | .submap _ => True
  | .beginning | .ending | .beforeElem | .afterElem | .beforeIndex _ => True

/-- The same of every navigator of a path. -/
def OrderFreeAlong : List Navigator → Prop
  | [] => True
  | n :: path => OrderFree n ∧ OrderFreeAlong path

end

theorem OrderFree.isForeign {n : Navigator} (h : n.OrderFree) : n.isForeign = false := by
  cases n <;> first | rfl | exact absurd h (by simp [OrderFree])

theorem OrderFreeAlong.isForeign {path : List Navigator} (h : OrderFreeAlong path) :
    ∀ n ∈ path, n.isForeign = false := by
  induction path with
  | nil => exact fun _ hn => absurd hn List.not_mem_nil
  | cons n path ih => exact List.forall_mem_cons.2 ⟨h.1.isForeign, ih h.2⟩

theorem OrderFreeAlong.builtIn {path : List Navigator} (h : OrderFreeAlong path) : BuiltIn path :=
  fun n hn => isCustom_of_isForeign (h.isForeign n hn)

end Navigator

/-! ### Exchanges -/

/-- The exchanges ask about alike focuses, in whatever order, and rebuild alike places of the answers
of a function that does not tell alike focuses apart. No answer needs to pass a test. -/
structure Exchange.Alike (x x' : Exchange) : Prop where
  left : x.check = accept
  right : x'.check = accept
  asked : Multiset.Rel Focus.Alike x.asked x'.asked
  rebuild (answer : Focus → Focus) :
    (∀ f ∈ x.asked, ∀ f', f.Alike f' → (answer f).Alike (answer f')) →
      Agree Focus.Alike (x.rebuild (x.asked.map answer)) (x'.rebuild (x'.asked.map answer))

namespace Exchange

variable {v w : Value} {vs ws : List Value} {m m' : Entries Value}

theorem alike_idle {s s' : Focus} (h : s.Alike s') : (idle s).Alike (idle s') :=
  ⟨rfl, rfl, .zero, fun _ _ => h⟩

theorem alike_single {f f' : Focus} {put put' : Focus → Except NavError Focus} (hf : f.Alike f')
    (hput : ∀ a a', a.Alike a' → Agree Focus.Alike (put a) (put' a')) :
    (single f put).Alike (single f' put') :=
  ⟨rfl, rfl, .cons hf .zero, fun _ ha => hput _ _ (ha f List.mem_cons_self f' hf)⟩

theorem alike_undefined : (Focus.value .undefined).Alike (.value .undefined) :=
  Value.alike_refl trivial

theorem alike_unreachable (e e' : NavError) {s s' : Focus} (h : s.Alike s') :
    (unreachable e s).Alike (unreachable e' s') := by
  refine alike_single alike_undefined fun a a' ha => ?_
  cases a with
  | absent => rw [ha.of_absent]; exact h
  | value w =>
    obtain ⟨w', rfl, hw⟩ := ha.of_value
    dsimp only
    rw [hw.isDefined]
    split
    · exact trivial
    · exact h

theorem alike_fresh (name : String) {s s' : Focus} (h : s.Alike s') :
    (fresh name s).Alike (fresh name s') := by
  refine alike_single alike_undefined fun a a' ha => ?_
  cases a with
  | absent => rw [ha.of_absent]; exact h
  | value w =>
    obtain ⟨w', rfl, hw⟩ := ha.of_value
    dsimp only
    rw [hw.isDefined]
    split
    · exact Value.alike_mapping_iff.2 (Entries.alike_nil.insert name hw)
    · exact h

theorem alike_valueUnder (h : Entries.Alike m m') (name : String) :
    (Navigator.valueUnder name (.mapping m)).Alike (Navigator.valueUnder name (.mapping m')) := by
  rw [Navigator.valueUnder, Navigator.valueUnder]
  rcases h.lookup_cases name with ⟨hk, hk'⟩ | ⟨v, w, hk, hk', hv⟩
  · rw [hk, hk']
    exact Value.alike_refl trivial
  · rw [hk, hk']
    exact hv

theorem alike_writeEntry (h : Entries.Alike m m') (name : String) {a a' : Focus}
    (ha : a.Alike a') :
    Entries.Alike (Navigator.writeEntry m name a) (Navigator.writeEntry m' name a') := by
  cases a with
  | absent => rw [ha.of_absent]; exact h.erase name
  | value w =>
    obtain ⟨w', rfl, hw⟩ := ha.of_value
    rw [Navigator.writeEntry, Navigator.writeEntry, hw.isDefined]
    split
    · exact h.insert name hw
    · exact h.erase name

theorem alike_slot (name : String) (h : Entries.Alike m m') :
    (slot name m).Alike (slot name m') :=
  alike_single (alike_valueUnder h name) fun _ _ ha =>
    Value.alike_mapping_iff.2 (alike_writeEntry h name ha)

theorem alike_replaceAt (h : List.Forall₂ Value.Alike vs ws) (i : Nat) {a a' : Focus}
    (ha : a.Alike a') : List.Forall₂ Value.Alike (replaceAt vs i a) (replaceAt ws i a') := by
  cases a with
  | absent => rw [ha.of_absent]; exact Related.eraseIdx h i
  | value w =>
    obtain ⟨w', rfl, hw⟩ := ha.of_value
    exact Related.set h i hw

theorem alike_item (h : List.Forall₂ Value.Alike vs ws) (i : Nat) : (item vs i).Alike (item ws i) := by
  refine alike_single ?_ fun a a' ha => Value.alike_sequence_iff.2 (alike_replaceAt h i ha)
  have hi := Related.getElem? h i
  revert hi
  generalize vs[i]? = o
  generalize ws[i]? = o'
  intro hi
  cases hi with
  | none => exact alike_undefined
  | some hv => exact hv

theorem alike_items (h : List.Forall₂ Value.Alike vs ws) : (items vs).Alike (items ws) := by
  refine ⟨rfl, rfl, ?_, fun answer ha => ?_⟩
  · refine Related.rel_coe_iff.2 ⟨ws.map .value, ?_, .refl _⟩
    rw [Exchange.items, List.forall₂_map_left_iff, List.forall₂_map_right_iff]
    exact h
  · have hanswers : List.Forall₂ Focus.Alike ((items vs).asked.map answer)
        ((items ws).asked.map answer) := by
      rw [items, items, List.map_map, List.map_map, List.forall₂_map_left_iff,
        List.forall₂_map_right_iff]
      exact Related.imp_of_mem h fun v hv w hw =>
        ha (.value v) (List.mem_map_of_mem hv) (.value w) hw
    exact Value.alike_sequence_iff.2 (List.rel_filterMap (fun _ _ h => h.value?) hanswers)

/-- What a key finds after every value was given a new one. -/
theorem get?_revalued (hd : Entries.Distinct m) (g : Value → Focus) (k : String) :
    Entries.get? (revalued m (m.map fun e => g e.2)) k =
      (Entries.get? m k).bind fun v => (g v).value? := by
  induction m with
  | nil => rfl
  | cons e m ih =>
    obtain ⟨k', v⟩ := e
    obtain ⟨hk', hm⟩ := List.nodup_cons.1 (show (k' :: Entries.keys m).Nodup from hd)
    have hcons : revalued ((k', v) :: m) (((k', v) :: m).map fun e => g e.2) =
        ((g v).value?.map fun w => (k', w)).toList ++ revalued m (m.map fun e => g e.2) := by
      rw [revalued, List.map_cons, List.zip_cons_cons, List.filterMap_cons]
      cases (g v).value? <;> rfl
    rw [hcons, Entries.get?_cons]
    by_cases hk : k = k'
    · subst hk
      rw [if_pos (beq_self_eq_true k), Option.bind_some]
      cases (g v).value? with
      | none =>
        show Entries.get? (revalued m _) k = none
        rw [ih hm, Entries.get?_eq_none_iff.2 hk']
        rfl
      | some w =>
        show Entries.get? ((k, w) :: revalued m _) k = some w
        rw [Entries.get?_cons, if_pos (beq_self_eq_true k)]
    · have hne : ¬ (k == k') = true := by simpa using hk
      rw [if_neg hne, ← ih hm]
      cases (g v).value? with
      | none => rfl
      | some w =>
        show Entries.get? ((k', w) :: revalued m _) k = _
        rw [Entries.get?_cons, if_neg hne]

theorem alike_values (h : Entries.Alike m m') : (values m).Alike (values m') := by
  have hmap (m : Entries Value) (answer : Focus → Focus) :
      (m.map fun e => Focus.value e.2).map answer = m.map fun e => answer (.value e.2) :=
    List.map_map
  refine ⟨rfl, rfl, ?_, fun answer ha => Value.alike_mapping_iff.2 ⟨?_, ?_, fun k => ?_⟩⟩
  · obtain ⟨c, hc, hperm⟩ := h.exists_perm
    refine Related.rel_coe_iff.2 ⟨c.map fun e => .value e.2, ?_, hperm.map _⟩
    rw [Exchange.values, List.forall₂_map_left_iff, List.forall₂_map_right_iff]
    exact hc.imp fun _ _ h => h.2
  · exact h.left.sublist (keys_revalued_sublist m _)
  · exact h.right.sublist (keys_revalued_sublist m' _)
  · show Option.Rel Value.Alike (Entries.get? (revalued m ((m.map _).map answer)) k)
      (Entries.get? (revalued m' ((m'.map _).map answer)) k)
    rw [hmap, hmap, get?_revalued h.left fun v => answer (.value v),
      get?_revalued h.right fun v => answer (.value v)]
    rcases h.lookup_cases k with ⟨hk, hk'⟩ | ⟨v, w, hk, hk', hv⟩
    · rw [hk, hk']
      exact .none
    · rw [hk, hk', Option.bind_some, Option.bind_some]
      exact (ha (.value v) (List.mem_map_of_mem (Entries.mem_of_get? hk)) (.value w) hv).value?

end Exchange

/-! ### The navigators -/

namespace Navigator

variable {v w : Value}

theorem alike_exchangeElements (h : v.Alike w) (hv : v.isMapping = false) :
    (exchangeElements (.value v)).Alike (exchangeElements (.value w)) := by
  cases v with
  | sequence vs =>
    obtain ⟨ws, rfl, hvs⟩ := h.of_sequence
    exact Exchange.alike_items hvs
  | mapping m => exact absurd hv (by simp [Value.isMapping])
  | _ =>
    obtain rfl := h.of_isLeaf rfl
    exact Exchange.alike_idle h

theorem alike_exchangeValues (h : v.Alike w) :
    Agree Exchange.Alike (exchangeValues (.value v)) (exchangeValues (.value w)) := by
  cases v with
  | sequence vs =>
    obtain ⟨ws, rfl, -⟩ := h.of_sequence
    exact trivial
  | mapping m =>
    obtain ⟨m', rfl, hm⟩ := h.of_mapping
    exact Exchange.alike_values hm
  | _ =>
    obtain rfl := h.of_isLeaf rfl
    exact Exchange.alike_idle h

theorem alike_exchangeEnd (n : Navigator) (position : Nat → Nat) (h : v.Alike w) :
    Agree Exchange.Alike (exchangeEnd n position (.value v)) (exchangeEnd n position (.value w)) := by
  cases v with
  | sequence vs =>
    obtain ⟨ws, rfl, hvs⟩ := h.of_sequence
    cases hvs with
    | nil => exact Exchange.alike_idle h
    | @cons v w vs ws hv hvs =>
      rw [exchangeEnd, exchangeEnd, List.length_cons, List.length_cons, hvs.length_eq]
      exact Exchange.alike_item (.cons hv hvs) _
  | mapping m =>
    obtain ⟨m', rfl, -⟩ := h.of_mapping
    exact trivial
  | _ =>
    obtain rfl := h.of_isLeaf rfl
    exact Exchange.alike_idle h

theorem alike_exchangeKey (name : String) (h : v.Alike w) :
    (exchangeKey name (.value v)).Alike (exchangeKey name (.value w)) := by
  cases v with
  | sequence vs =>
    obtain ⟨ws, rfl, -⟩ := h.of_sequence
    exact Exchange.alike_unreachable _ _ h
  | mapping m =>
    obtain ⟨m', rfl, hm⟩ := h.of_mapping
    exact Exchange.alike_slot name hm
  | null | undefined =>
    obtain rfl := h.of_isLeaf rfl
    exact Exchange.alike_fresh name h
  | _ =>
    obtain rfl := h.of_isLeaf rfl
    exact Exchange.alike_unreachable _ _ h

theorem alike_exchangeNth (index : Int64) (h : v.Alike w) :
    (exchangeNth index (.value v)).Alike (exchangeNth index (.value w)) := by
  cases v with
  | sequence vs =>
    obtain ⟨ws, rfl, hvs⟩ := h.of_sequence
    rw [exchangeNth, exchangeNth, hvs.length_eq]
    cases Sequence.resolveIndex index ws.length with
    | none => exact Exchange.alike_unreachable _ _ h
    | some i => exact Exchange.alike_item hvs i
  | mapping m =>
    obtain ⟨m', rfl, -⟩ := h.of_mapping
    exact Exchange.alike_unreachable _ _ h
  | _ =>
    obtain rfl := h.of_isLeaf rfl
    exact Exchange.alike_unreachable _ _ h

/-- The elements among which something is inserted. -/
theorem agree_itemsOf (n : Navigator) (h : v.Alike w) :
    Agree (List.Forall₂ Value.Alike) (itemsOf n (.value v)) (itemsOf n (.value w)) := by
  cases v with
  | sequence vs =>
    obtain ⟨ws, rfl, hvs⟩ := h.of_sequence
    exact hvs
  | mapping m =>
    obtain ⟨m', rfl, -⟩ := h.of_mapping
    exact trivial
  | null | undefined =>
    obtain rfl := h.of_isLeaf rfl
    exact .nil
  | _ =>
    obtain rfl := h.of_isLeaf rfl
    exact trivial

theorem alike_exchangeSplice (n : Navigator) {place : List Value → List Value → List Value}
    (hplace : ∀ vs ws added added', List.Forall₂ Value.Alike vs ws →
      List.Forall₂ Value.Alike added added' →
        List.Forall₂ Value.Alike (place vs added) (place ws added')) (h : v.Alike w) :
    Agree Exchange.Alike (exchangeSplice n place (.value v)) (exchangeSplice n place (.value w)) := by
  refine (agree_itemsOf n h).map fun vs ws hvs => Exchange.alike_single ?_ fun a a' ha => ?_
  · exact Value.alike_sequence_iff.2 .nil
  · cases a with
    | absent => rw [ha.of_absent]; exact Value.alike_sequence_iff.2 hvs
    | value u =>
      obtain ⟨u', rfl, hu⟩ := ha.of_value
      have hone := Value.alike_sequence_iff.2 (hplace vs ws _ _ hvs (.cons hu .nil))
      cases u with
      | sequence added =>
        obtain ⟨added', rfl, hadded⟩ := hu.of_sequence
        exact Value.alike_sequence_iff.2 (hplace vs ws _ _ hvs hadded)
      | mapping m =>
        obtain ⟨m', rfl, -⟩ := hu.of_mapping
        exact hone
      | _ =>
        obtain rfl := hu.of_isLeaf rfl
        exact hone

theorem alike_exchangeEdge (n : Navigator) {place : List Value → Value → List Value}
    (hplace : ∀ vs ws u u', List.Forall₂ Value.Alike vs ws → u.Alike u' →
      List.Forall₂ Value.Alike (place vs u) (place ws u')) (h : v.Alike w) :
    Agree Exchange.Alike (exchangeEdge n place (.value v)) (exchangeEdge n place (.value w)) := by
  refine (agree_itemsOf n h).map fun vs ws hvs => Exchange.alike_single trivial fun a a' ha => ?_
  cases a with
  | absent => rw [ha.of_absent]; exact Value.alike_sequence_iff.2 hvs
  | value u =>
    obtain ⟨u', rfl, hu⟩ := ha.of_value
    exact Value.alike_sequence_iff.2 (hplace vs ws u u' hvs hu)

theorem alike_exchangeBefore (index : Int64) (h : v.Alike w) :
    Agree Exchange.Alike (exchangeBefore index (.value v)) (exchangeBefore index (.value w)) := by
  refine (agree_itemsOf _ h).map fun vs ws hvs => Exchange.alike_single trivial fun a a' ha => ?_
  cases a with
  | absent => rw [ha.of_absent]; exact Value.alike_sequence_iff.2 hvs
  | value u =>
    obtain ⟨u', rfl, hu⟩ := ha.of_value
    dsimp only
    rw [hvs.length_eq]
    cases Sequence.resolveInsertIndex index ws.length with
    | none => exact trivial
    | some i => exact Value.alike_sequence_iff.2 (Related.insertIdx hvs i hu)

/-- The entries of which the named ones are taken. -/
theorem agree_entriesOf (names : List String) (h : v.Alike w) :
    Agree Entries.Alike (entriesOf names (.value v)) (entriesOf names (.value w)) := by
  cases v with
  | sequence vs =>
    obtain ⟨ws, rfl, -⟩ := h.of_sequence
    exact trivial
  | mapping m =>
    obtain ⟨m', rfl, hm⟩ := h.of_mapping
    exact hm
  | null | undefined =>
    obtain rfl := h.of_isLeaf rfl
    exact Entries.alike_nil
  | _ =>
    obtain rfl := h.of_isLeaf rfl
    exact trivial

/-- The entries that an answer puts in the place of the named ones. -/
theorem agree_partAnswered (names : List String) {a a' : Focus} (ha : a.Alike a') :
    Agree Entries.Alike (partAnswered names a) (partAnswered names a') := by
  cases a with
  | absent => rw [ha.of_absent]; exact Entries.alike_nil
  | value u =>
    obtain ⟨u', rfl, hu⟩ := ha.of_value
    cases u with
    | sequence vs =>
      obtain ⟨ws, rfl, -⟩ := hu.of_sequence
      exact trivial
    | mapping m =>
      obtain ⟨m', rfl, hm⟩ := hu.of_mapping
      exact hm
    | _ =>
      obtain rfl := hu.of_isLeaf rfl
      exact trivial

theorem alike_replacePart {m m' part part' : Entries Value} (h : Entries.Alike m m')
    (hp : Entries.Alike part part') (names : List String) :
    Entries.Alike (replacePart names m part) (replacePart names m' part') := by
  have hgone : (fun k => !Entries.contains part k) = fun k => !Entries.contains part' k :=
    funext fun k => congrArg not (hp.contains k)
  rw [replacePart, replacePart, hgone]
  exact (h.without _).merge hp

theorem alike_exchangeSubmap (names : List String) (h : v.Alike w) :
    Agree Exchange.Alike (exchangeSubmap names (.value v)) (exchangeSubmap names (.value w)) := by
  refine (agree_entriesOf names h).map fun m m' hm => Exchange.alike_single ?_ fun a a' ha => ?_
  · exact Value.alike_mapping_iff.2 (hm.pick names)
  · refine (agree_partAnswered names ha).map fun part part' hp => ?_
    have hvoid : (Focus.value v).isVoid = (Focus.value w).isVoid := h.isVoid
    rw [hvoid, hp.isEmpty]
    split
    · exact h
    · exact Value.alike_mapping_iff.2 (alike_replacePart hm hp names)

/-- Elements with the same marks. -/
def MarkedAlike (y y' : Bool × Value) : Prop := y.1 = y'.1 ∧ y.2.Alike y'.2

variable {marked marked' : List (Bool × Value)}

theorem alike_matching (h : List.Forall₂ MarkedAlike marked marked') :
    List.Forall₂ Value.Alike (matching marked) (matching marked') := by
  induction h with
  | nil => exact .nil
  | @cons y y' _ _ hy _ ih =>
    obtain ⟨b, v⟩ := y
    obtain ⟨_, w⟩ := y'
    obtain ⟨rfl, hvw⟩ := hy
    cases b with
    | false => exact ih
    | true => exact .cons hvw ih

theorem alike_realign (h : List.Forall₂ MarkedAlike marked marked') {edited edited' : List Value}
    (he : List.Forall₂ Value.Alike edited edited') :
    List.Forall₂ Value.Alike (realign marked edited) (realign marked' edited') := by
  induction h generalizing edited edited' with
  | nil => exact .nil
  | @cons y y' _ _ hy _ ih =>
    obtain ⟨b, v⟩ := y
    obtain ⟨_, w⟩ := y'
    obtain ⟨rfl, hvw⟩ := hy
    cases b with
    | false => exact .cons hvw (ih he)
    | true =>
      cases he with
      | nil => exact ih .nil
      | cons hu he =>
        rw [realign, realign, hu.isDefined]
        split
        · exact .cons hu (ih he)
        · exact ih he

/-- The elements that an answer puts in the place of the matching ones. -/
theorem agree_editedAnswered {a a' : Focus} (ha : a.Alike a') :
    Agree (List.Forall₂ Value.Alike) (editedAnswered a) (editedAnswered a') := by
  cases a with
  | absent => rw [ha.of_absent]; exact .nil
  | value u =>
    obtain ⟨u', rfl, hu⟩ := ha.of_value
    cases u with
    | sequence vs =>
      obtain ⟨ws, rfl, hvs⟩ := hu.of_sequence
      exact hvs
    | mapping m =>
      obtain ⟨m', rfl, -⟩ := hu.of_mapping
      exact trivial
    | _ =>
      obtain rfl := hu.of_isLeaf rfl
      exact trivial

theorem alike_exchangeMatching {holds : Value → Except NavError Bool} (h : v.Alike w)
    (hmarks : ∀ vs ws, v = .sequence vs → w = .sequence ws →
      Agree (List.Forall₂ MarkedAlike) (markMatching holds vs) (markMatching holds ws)) :
    Agree Exchange.Alike (exchangeMatching holds (.value v)) (exchangeMatching holds (.value w)) := by
  cases v with
  | sequence vs =>
    obtain ⟨ws, rfl, -⟩ := h.of_sequence
    refine (hmarks vs ws rfl rfl).map fun marked marked' hm => ?_
    refine Exchange.alike_single (Value.alike_sequence_iff.2 (alike_matching hm)) fun a a' ha => ?_
    exact (agree_editedAnswered ha).map fun edited edited' he =>
      Value.alike_sequence_iff.2 (alike_realign hm he)
  | mapping m =>
    obtain ⟨m', rfl, -⟩ := h.of_mapping
    exact trivial
  | _ =>
    obtain rfl := h.of_isLeaf rfl
    exact Exchange.alike_idle h

/-- **At alike values the exchanges of a navigator are alike**, if a step to all elements meets no
mapping and a nested path marks alike elements in the same way. -/
theorem alike_exchange {n : Navigator} (hn : n.OrderFree) (h : v.Alike w)
    (hall : n = .all → v.isMapping = false)
    (hmarks : ∀ path, n = .filterer path → ∀ vs ws, v = .sequence vs → w = .sequence ws →
      Agree (List.Forall₂ MarkedAlike) (markMatching (matchesAlong path) vs)
        (markMatching (matchesAlong path) ws)) :
    Agree Exchange.Alike (n.exchange (.value v)) (n.exchange (.value w)) := by
  cases n with
  | all => exact alike_exchangeElements h (hall rfl)
  | mapVals => exact alike_exchangeValues h
  | first => exact alike_exchangeEnd .first (fun _ => 0) h
  | last => exact alike_exchangeEnd .last (fun length => length - 1) h
  | beginning => exact alike_exchangeSplice _ (fun _ _ _ _ hvs ha => List.rel_append ha hvs) h
  | ending => exact alike_exchangeSplice _ (fun _ _ _ _ hvs ha => List.rel_append hvs ha) h
  | beforeElem => exact alike_exchangeEdge _ (fun _ _ _ _ hvs hu => .cons hu hvs) h
  | afterElem =>
    exact alike_exchangeEdge _ (fun _ _ _ _ hvs hu => List.rel_append hvs (.cons hu .nil)) h
  | key name => exact alike_exchangeKey name h
  | nth index => exact alike_exchangeNth index h
  | beforeIndex index => exact alike_exchangeBefore index h
  | pred holds =>
    show (if holds v then Exchange.single (.value v) .ok else .idle (.value v)).Alike
      (if holds w then Exchange.single (.value w) .ok else .idle (.value w))
    rw [show holds v = holds w from hn v w h]
    split
    · exact Exchange.alike_single h fun _ _ ha => ha
    · exact Exchange.alike_idle h
  | submap names => exact alike_exchangeSubmap names h
  | filterer path => exact alike_exchangeMatching h (hmarks path rfl)
  | mapKeys => exact absurd hn (by simp [OrderFree])
  | view project => exact absurd hn (by simp [OrderFree])
  | parser parse unparse => exact absurd hn (by simp [OrderFree])
  | custom user => exact absurd hn (by simp [OrderFree])

/-- What is handed on at alike values is alike, up to the order. -/
theorem alike_reach {n : Navigator} (hn : n.OrderFree)
    (hx : Agree Exchange.Alike (n.exchange (.value v)) (n.exchange (.value w))) :
    Agree Value.Reordered (n.reach v) (n.reach w) := by
  have hc := isCustom_of_isForeign hn.isForeign
  cases hi : n.isInsertionPoint with
  | true =>
    have hnil : Value.Reordered [] [] := ⟨[], .nil, .nil⟩
    cases n <;> first | exact hnil | exact absurd hi (by simp [isInsertionPoint])
  | false =>
    rcases n.exchange_value_cases hc hi v with ⟨e, hr, he⟩ | ⟨vs, x, hr, he, hasked⟩
    · rw [he] at hx
      obtain ⟨e', he'⟩ := hx.error
      rcases n.exchange_value_cases hc hi w with ⟨e'', hr', -⟩ | ⟨ws, x', -, hx', -⟩
      · rw [hr, hr']
        exact trivial
      · exact absurd (he'.symm.trans hx') (by simp)
    · rw [he] at hx
      obtain ⟨x', he', hx⟩ := hx.ok
      rcases n.exchange_value_cases hc hi w with ⟨e'', -, hx'⟩ | ⟨ws, x'', hr', hx', hasked'⟩
      · exact absurd (he'.symm.trans hx') (by simp)
      · obtain rfl : x' = x'' := Except.ok.inj (he'.symm.trans hx')
        rw [hr, hr']
        have hrel := hx.asked
        rw [hasked, hasked', ← Multiset.map_coe, ← Multiset.map_coe, Multiset.rel_map] at hrel
        exact Value.reordered_iff.2 hrel

end Navigator

end DocPath
