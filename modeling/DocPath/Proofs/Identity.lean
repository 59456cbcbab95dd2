import DocPath.Proofs.Children
import DocPath.Proofs.Rewrite
import DocPath.Proofs.Hereditary

/-!
# The identity law

Answering every focus with itself rebuilds the very same document: the same values, elements and
entries in the same order, and no container where a null was. It fails exactly where selecting
fails, and with the same error.

* `Navigator.Restores` — the navigators of which this holds;
* `Exchange.Restores`, `Navigator.exchange_restores` — **at one navigator**;
* `Navigator.rewriteAlong_ok` — along a path;
* `Path.transform_identity` — the law.
-/

namespace DocPath

variable {σ : Type}

/-- All of the navigators that read a part of the value and write it back. Of a parser it is asked
that what it parses is a document value or `undefined`, and unparses to what it was parsed from. -/
def Navigator.Restores : Navigator → Prop
  | .all | .mapVals | .mapKeys | .first | .last | .key _ | .nth _ | .pred _ | .submap _
  | .filterer _ => True
  | .parser parse unparse => ∀ v w, v.WellFormed → parse v = .ok w →
      w.WellFormed ∧ (w = .undefined ∨ w.UndefinedFree) ∧ unparse w = .ok v
  | .beginning | .ending | .beforeElem | .afterElem | .beforeIndex _ | .view _ | .custom _ => False

namespace Navigator

theorem Restores.isCustom {n : Navigator} (h : n.Restores) : n.isCustom = false := by
  cases n <;> first | rfl | exact absurd h (by simp [Restores])

theorem Restores.isInsertionPoint {n : Navigator} (h : n.Restores) :
    n.isInsertionPoint = false := by
  cases n <;> first | rfl | exact absurd h (by simp [Restores])

end Navigator

/-! ### Writing back what was read -/

theorem Value.Clean.wellFormed {v : Value} (h : v.Clean) : v.WellFormed := by
  rcases h with rfl | h
  · exact trivial
  · exact h.wellFormed

/-- A navigator that restores finds only what a sound document can hold. -/
theorem Navigator.Restores.clean {n : Navigator} (hn : n.Restores) {v : Value} (hv : v.Clean)
    {ws : List Value} (hr : n.reach v = .ok ws) : ∀ w ∈ ws, w.Clean := by
  cases hf : n.isForeign with
  | false => exact admitted_reach Value.hereditary_sound hf hv hr
  | true =>
    cases n with
    | parser parse unparse =>
      obtain ⟨w, hw, rfl⟩ := (Action.map_eq_ok _ _ _).1 (show (parse v).map _ = .ok ws from hr)
      obtain ⟨hwf, hu, -⟩ := hn v w hv.wellFormed hw
      exact List.forall_mem_singleton.2 (hu.imp_right fun hu => ⟨hu, hwf⟩)
    | view project => exact absurd hn (by simp [Restores])
    | custom user => exact absurd hn (by simp [Restores])
    | _ => exact absurd hf (by simp [isForeign])

/-- Answering every focus with itself gives back `s`. -/
structure Exchange.Restores (x : Exchange) (s : Focus) : Prop where
  check : ∀ f ∈ x.asked, x.check f = .ok ()
  rebuild : x.rebuild x.asked = .ok s

namespace Exchange

theorem restores_idle (s : Focus) : (idle s).Restores s := ⟨fun _ _ => rfl, rfl⟩

theorem restores_single {f s : Focus} {put : Focus → Except NavError Focus}
    (h : put f = .ok s) : (single f put).Restores s := ⟨fun _ _ => rfl, h⟩

theorem restores_unreachable (error : NavError) (s : Focus) :
    (unreachable error s).Restores s := restores_single rfl

theorem restores_fresh (name : String) (s : Focus) : (fresh name s).Restores s :=
  restores_single rfl

theorem restores_slot (name : String) {m : Entries Value} (hm : (Value.mapping m).Clean) :
    (slot name m).Restores (.value (.mapping m)) := by
  refine restores_single ?_
  rw [Navigator.valueUnder, Navigator.writeEntry]
  cases hg : Entries.get? m name with
  | none =>
    show Except.ok (Focus.value (.mapping (Entries.erase m name))) = _
    rw [Entries.erase_of_get?_none hg]
  | some v =>
    show Except.ok (Focus.value (.mapping (if v.isDefined then _ else _))) = _
    rw [if_pos (hm.isDefined_of_get? hg)]
    show Except.ok (Focus.value (.mapping (Entries.insert m name v))) = _
    rw [Entries.insert_of_get? hg]

theorem restores_item (vs : List Value) {i : Nat} (hi : i < vs.length) :
    (item vs i).Restores (.value (.sequence vs)) := by
  refine restores_single ?_
  rw [List.getElem?_eq_getElem hi, replaceAt, Option.getD_some, List.set_getElem_self]

theorem restores_items (vs : List Value) : (items vs).Restores (.value (.sequence vs)) := by
  refine ⟨fun _ _ => rfl, ?_⟩
  show Except.ok (Focus.value (.sequence ((vs.map Focus.value).filterMap Focus.value?))) = _
  rw [filterMap_value?]

/-- Answers that are a function of the entries, put back entry by entry. -/
theorem filterMap_zip_map {α β γ : Type} (g : α → β) (h : α × β → Option γ) (m : List α) :
    (m.zip (m.map g)).filterMap h = m.filterMap fun e => h (e, g e) := by
  induction m with
  | nil => rfl
  | cons e m ih => rw [List.map_cons, List.zip_cons_cons, List.filterMap_cons, ih, List.filterMap_cons]

theorem restores_values (m : Entries Value) : (values m).Restores (.value (.mapping m)) := by
  refine ⟨fun _ _ => rfl, ?_⟩
  show Except.ok (Focus.value (.mapping (revalued m (m.map _)))) = _
  rw [revalued, filterMap_zip_map]
  exact congrArg (fun es => Except.ok (Focus.value (.mapping es))) (List.filterMap_some (l := m))

theorem restores_collected {about : String × Value → Focus} {check : Focus → Except NavError Unit}
    {made : String × Value → Focus → Option (String × Value)} {m : Entries Value}
    (hd : Entries.Distinct m) (hc : ∀ e, check (about e) = .ok ())
    (hmade : ∀ e, made e (about e) = some e) :
    (collected about check made m).Restores (.value (.mapping m)) := by
  constructor
  · intro f hf
    obtain ⟨e, -, rfl⟩ := List.mem_map.1 hf
    exact hc e
  · show Except.ok (Focus.value (.mapping (Entries.ofList
      ((m.zip (m.map about)).filterMap fun x => made x.1 x.2)))) = _
    have hsame : (m.filterMap fun e => made e (about e)) = m := by
      rw [show (fun e => made e (about e)) = some from funext hmade, List.filterMap_some]
    rw [filterMap_zip_map, hsame, Entries.ofList_of_distinct hd]

theorem restores_keys {m : Entries Value} (hd : Entries.Distinct m) :
    (keys m).Restores (.value (.mapping m)) :=
  restores_collected hd (fun _ => rfl) fun _ => rfl

theorem restores_entries {m : Entries Value} (hd : Entries.Distinct m) :
    (entries m).Restores (.value (.mapping m)) :=
  restores_collected hd (fun _ => rfl) fun _ => rfl

end Exchange

namespace Navigator

/-! ### Parts put back -/

/-- The picked part put back in its place changes nothing. -/
theorem replacePart_pick (names : List String) (m : Entries Value) :
    replacePart names m (Entries.pick names m) = m := by
  have hwithout : Entries.without
      (names.filter fun k => !Entries.contains (Entries.pick names m) k) m = m := by
    refine List.filter_eq_self.2 fun e he => ?_
    have hkey : e.1 ∈ Entries.keys m := List.mem_map_of_mem he
    have hnot : e.1 ∉ names.filter fun k => !Entries.contains (Entries.pick names m) k := by
      intro hmem
      obtain ⟨hname, hmiss⟩ := List.mem_filter.1 hmem
      have hin := Entries.contains_eq_true_iff.2 (Entries.mem_keys_pick hname hkey)
      rw [hin] at hmiss
      exact absurd hmiss (by decide)
    rw [List.contains_eq_mem, decide_eq_false hnot, Bool.not_false]
  rw [replacePart, hwithout]
  exact Entries.merge_of_get? fun e he => Entries.get?_of_mem_pick he

/-- The matching elements put back in their places change nothing. -/
theorem realign_matching {marked : List (Bool × Value)}
    (h : ∀ x ∈ marked, x.2.isDefined = true) :
    realign marked (matching marked) = marked.map Prod.snd := by
  induction marked with
  | nil => rfl
  | cons x marked ih =>
    obtain ⟨b, v⟩ := x
    have ih := ih fun y hy => h y (List.mem_cons_of_mem _ hy)
    cases b with
    | false => exact congrArg (v :: ·) ih
    | true =>
      show (if v.isDefined then v :: realign marked (matching marked)
        else realign marked (matching marked)) = v :: marked.map Prod.snd
      rw [if_pos (h _ List.mem_cons_self), ih]

/-! ### One navigator -/

/-- A step to children restores a clean value. -/
theorem restores_of_shape {n : Navigator} {v : Value} {vs : List Value} {x : Exchange}
    (h : Exchange.Shape n v vs x) (hv : v.Clean) : x.Restores (.value v) := by
  cases h with
  | idle => exact Exchange.restores_idle _
  | unreachable n e => exact Exchange.restores_unreachable e _
  | slot name m => exact Exchange.restores_slot name hv
  | fresh name => exact Exchange.restores_fresh name _
  | item hi => exact Exchange.restores_item _ hi
  | items vs => exact Exchange.restores_items vs
  | values m => exact Exchange.restores_values m
  | entries m => exact Exchange.restores_entries hv.distinct

theorem restores_exchangeKeys {v : Value} (hv : v.Clean) {x : Exchange}
    (hx : exchangeKeys (.value v) = .ok x) : x.Restores (.value v) := by
  cases v with
  | mapping m => cases hx; exact Exchange.restores_keys hv.distinct
  | sequence vs => exact absurd hx (by simp [exchangeKeys, Focus.isLeaf, Value.isLeaf])
  | _ => cases hx; exact Exchange.restores_idle _

theorem restores_exchangeParsed {parse unparse : Value → Except NavError Value} {v : Value}
    (hback : ∀ w, parse v = .ok w → unparse w = .ok v) {x : Exchange}
    (hx : exchangeParsed parse unparse (.value v) = .ok x) : x.Restores (.value v) := by
  rw [exchangeParsed, Focus.orUndefined] at hx
  cases hp : parse v with
  | error e => rw [hp] at hx; exact absurd hx (by simp [Except.map])
  | ok w =>
    rw [hp] at hx
    cases hx
    refine Exchange.restores_single ?_
    show (unparse w).map Focus.value = .ok (.value v)
    rw [hback w hp]
    rfl

theorem restores_exchangeSubmap {names : List String} {v : Value} {x : Exchange}
    (hx : exchangeSubmap names (.value v) = .ok x) : x.Restores (.value v) := by
  -- a void value has the empty part, and stays as it is while the part is empty
  have hvoid : ((partAnswered names (.value (.mapping (Entries.pick names [])))).map fun part =>
      if true && part.isEmpty then Focus.value v
      else .value (.mapping (replacePart names [] part))) = .ok (.value v) := by
    rw [Entries.pick_nil]
    rfl
  cases v with
  | mapping m =>
    cases hx
    refine Exchange.restores_single ?_
    show Except.ok (Focus.value (.mapping (replacePart names m (Entries.pick names m)))) = _
    rw [replacePart_pick]
  | null => cases hx; exact Exchange.restores_single hvoid
  | undefined => cases hx; exact Exchange.restores_single hvoid
  | _ => exact absurd hx (by simp [exchangeSubmap, entriesOf, Focus.isVoid, Value.isVoid, Except.map])

theorem restores_exchangeMatching {holds : Value → Except NavError Bool} {v : Value}
    (hv : v.Clean) {x : Exchange} (hx : exchangeMatching holds (.value v) = .ok x) :
    x.Restores (.value v) := by
  cases v with
  | sequence vs =>
    rw [exchangeMatching] at hx
    cases hm : markMatching holds vs with
    | error e => rw [hm] at hx; exact absurd hx (by simp [Except.map])
    | ok marked =>
      rw [hm] at hx
      cases hx
      have hvs := Navigator.map_snd_markMatching hm
      refine Exchange.restores_single ?_
      show Except.ok (Focus.value (.sequence (realign marked (matching marked)))) = _
      rw [realign_matching, hvs]
      intro y hy
      exact (hv.of_mem_sequence (hvs ▸ List.mem_map_of_mem hy)).isDefined
  | mapping m => exact absurd hx (by simp [exchangeMatching, Focus.isLeaf, Value.isLeaf])
  | _ => cases hx; exact Exchange.restores_idle _

/-- **At one navigator, answering every focus with itself gives back a clean value.** -/
theorem exchange_restores {n : Navigator} (hn : n.Restores) {v : Value} (hv : v.Clean)
    {x : Exchange} (hx : n.exchange (.value v) = .ok x) : x.Restores (.value v) := by
  have hchildren (hd : n.Descends) : x.Restores (.value v) := by
    obtain ⟨vs, hshape⟩ := shape_of_exchange hd hx
    exact restores_of_shape hshape hv
  cases n with
  | mapKeys => exact restores_exchangeKeys hv hx
  | pred holds =>
    obtain rfl : (if holds v then Exchange.single (.value v) .ok else .idle (.value v)) = x :=
      Except.ok.inj hx
    split
    · exact Exchange.restores_single rfl
    · exact Exchange.restores_idle _
  | parser parse unparse =>
    exact restores_exchangeParsed (fun w hp => (hn v w hv.wellFormed hp).2.2) hx
  | submap names => exact restores_exchangeSubmap hx
  | filterer path => exact restores_exchangeMatching hv hx
  | all => exact hchildren trivial
  | mapVals => exact hchildren trivial
  | first => exact hchildren trivial
  | last => exact hchildren trivial
  | key name => exact hchildren trivial
  | nth index => exact hchildren trivial
  | _ => exact absurd hn (by simp [Restores])

/-! ### Paths -/

/-- Attempts that give every value back succeed where all the traversals do, and else fail as the
first of them that fails. -/
theorem mapM_of_toExcept {R : Value → Reached} {g : Focus → Except NavError Focus}
    {vs : List Value} (h : ∀ v ∈ vs, g (.value v) = (R v).toExcept.map fun _ => .value v) :
    (vs.map Focus.value).mapM g = (Reached.join R vs).toExcept.map fun _ => vs.map .value := by
  induction vs with
  | nil => rfl
  | cons v vs ih =>
    have ih := ih fun w hw => h w (List.mem_cons_of_mem v hw)
    rw [List.map_cons, List.mapM_cons, h v List.mem_cons_self, ih, Reached.join]
    cases hv : (R v).error with
    | some e =>
      have hfail : (R v).toExcept = .error e := by rw [Reached.toExcept, hv]
      rw [Reached.append_of_error_some hv, hfail]
      rfl
    | none =>
      have hgo : (R v).toExcept = .ok (R v).focuses := by rw [Reached.toExcept, hv]
      rw [Reached.append_of_error_none hv, hgo, Reached.toExcept, Reached.toExcept]
      cases (Reached.join R vs).error <;> rfl

/-- Rewriting a clean value by the identity gives the value back, or fails as the traversal does. -/
theorem rewriteAlong_ok (path : List Navigator) (hp : ∀ n ∈ path, n.Restores) {v : Value}
    (hv : v.Clean) :
    rewriteAlong path .ok (.value v) = (reachedAlong path v).toExcept.map fun _ => .value v := by
  induction path generalizing v with
  | nil => rfl
  | cons n path ih =>
    have hn := hp n List.mem_cons_self
    have ih {w : Value} := ih (fun m hm => hp m (List.mem_cons_of_mem n hm)) (v := w)
    rw [rewriteAlong, rewrite, reachedAlong]
    rcases n.exchange_value_cases hn.isCustom hn.isInsertionPoint v with
      ⟨e, hr, hx⟩ | ⟨vs, x, hr, hx, hasked⟩
    · rw [hr, hx]
      rfl
    · obtain ⟨hcheck, hrebuild⟩ := exchange_restores hn hv hx
      have hanswer : ∀ w ∈ vs, (rewriteAlong path .ok (.value w) >>= fun r =>
          x.check r >>= fun _ => pure r) =
          (reachedAlong path w).toExcept.map fun _ => Focus.value w := by
        intro w hw
        rw [ih (hn.clean hv hr w hw)]
        cases (reachedAlong path w).toExcept with
        | error e => rfl
        | ok ws =>
          show (x.check (.value w) >>= fun _ => pure (Focus.value w)) = .ok (.value w)
          rw [hcheck _ (hasked ▸ List.mem_map_of_mem hw)]
          rfl
      rw [hr, hx]
      show x.settle (rewriteAlong path .ok) = _
      rw [Exchange.settle, hasked, mapM_of_toExcept hanswer, Reached.andThen]
      cases (Reached.join (reachedAlong path) vs).toExcept with
      | error e => rfl
      | ok ws =>
        show x.rebuild (vs.map .value) = .ok (.value v)
        rw [← hasked, hrebuild]

end Navigator

/-- **The identity law.** Answering every focus with itself gives back the very same document if
selecting succeeds, and fails with the error of selecting if it does not; the state is not touched.
That no mapping has a key twice is what being an ordered mapping means. -/
theorem Path.transform_identity (p : Path) (hp : ∀ n ∈ p.navigators, n.Restores) (v : Value)
    (hu : v.UndefinedFree) (hw : v.WellFormed) (st : σ) :
    (p.transformWith (.value v) pure).exec st = ((p.select v).map fun _ => .value v, st) := by
  have hb : Navigator.BuiltIn p.navigators := fun n hn => (hp n hn).isCustom
  have hrun : (p.transformWith (.value v) pure : Action σ Focus) =
      Action.ofExcept (Navigator.rewriteAlong p.navigators .ok (.value v)) :=
    Navigator.transformAlong_ofExcept p.navigators hb .ok (.value v)
  rw [hrun, Action.exec_ofExcept, p.select_eq_toExcept hb,
    Navigator.rewriteAlong_ok p.navigators hp (Value.Sound.mk hu hw).clean]

/-- A run in which nulls, the order of entries and the elements that do not match all stay. -/
theorem Path.transform_identity_switch :
    let parse : Value → Except NavError Value := fun
      | .string s => if s = "on" then .ok (.bool true) else .error (.custom "not a switch")
      | _ => .error (.custom "not a switch")
    let unparse : Value → Except NavError Value := fun
      | .bool true => .ok (.string "on")
      | _ => .error (.custom "not a switch")
    let p : Path :=
      ⟨[.submap ["b", "c"], .mapVals, .filterer [.key "k"], .all, .key "k", .parser parse unparse],
        {}⟩
    let v : Value := .mapping
      [("a", .null), ("b", .sequence [.null, .mapping [("x", .null), ("k", .string "on")]])]
    p.select v = .ok [.bool true] ∧
      (p.transformWith (.value v) pure : Action Nat Focus).exec 0 = (.ok (.value v), 0) := by
  intro parse unparse p v
  have hparse : ∀ w u, w.WellFormed → parse w = .ok u →
      u.WellFormed ∧ (u = .undefined ∨ u.UndefinedFree) ∧ unparse u = .ok w := by
    intro w u _ h
    cases w with
    | string s =>
      by_cases hs : s = "on"
      · subst hs
        cases h
        exact ⟨trivial, .inr trivial, rfl⟩
      · exact absurd h (by simp [parse, hs])
    | _ => exact absurd h (by simp [parse])
  have hp : ∀ n ∈ p.navigators, n.Restores := by
    intro n hn
    simp only [p, List.mem_cons, List.not_mem_nil, or_false] at hn
    rcases hn with rfl | rfl | rfl | rfl | rfl | rfl
    case inr.inr.inr.inr.inr => exact hparse
    all_goals exact trivial
  have hu : v.UndefinedFree := by
    simp [v, Value.UndefinedFree, Value.AllUndefinedFree, Value.EntriesUndefinedFree]
  have hw : v.WellFormed := by
    simp [v, Value.WellFormed, Value.AllWellFormed, Value.EntriesWellFormed, Entries.Distinct,
      Entries.keys]
  have hselect : p.select v = .ok [.bool true] := by rfl
  have h := p.transform_identity hp v hu hw 0
  rw [hselect] at h
  exact ⟨hselect, h⟩

end DocPath
