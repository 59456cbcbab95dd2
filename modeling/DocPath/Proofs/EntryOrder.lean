import DocPath.Proofs.OrderFree
import DocPath.Proofs.Rewrite

/-!
# The order of entries does not matter

Documents that differ in the order of entries only are selected from and rebuilt alike by every path
that neither renames entries nor looks at them through functions of the user, as long as no step to
all elements meets a mapping. The two runs meet the values of a mapping in different orders, and an
error in one of them may stop it where the other one has not been; what holds is that both of them
fail or neither does.

* `Navigator.MeetsNoMapping` — no step to all elements meets a mapping, up to the first failure;
* `Navigator.agree_reachedAlong` — **selecting does not see the order of entries**;
* `Navigator.agree_rewriteAlong` — neither does rewriting;
* `Path.entry_order_irrelevant` — both laws for whole paths, and what they say about matching.
-/

namespace DocPath

open DocPath.Action (Agree)

/-! ### Where all elements are visited -/

namespace Navigator

mutual

/-- At `v`, neither the navigator nor a path nested in it visits all pairs of a mapping. A nested path
is followed from element to element as long as it does not fail. -/
def MeetsNoMapping : Navigator → Value → Prop
  | .all, v => v.isMapping = false
  | .filterer path, .sequence vs =>
      InTurn (fun w => (reachedAlong path w).error = none) (MeetsNoMappingAlong path) vs
  | _, _ => True

/-- The same of every step on the way into `v`, the rest of the path being followed from focus to focus
as long as it does not fail. -/
def MeetsNoMappingAlong : List Navigator → Value → Prop
  | [], _ => True
  | n :: path, v => MeetsNoMapping n v ∧ ∀ vs, n.reach v = .ok vs →
      InTurn (fun w => (reachedAlong path w).error = none) (MeetsNoMappingAlong path) vs

end

end Navigator

/-! ### Selecting -/

/-- Both traversals fail, or neither does and their focuses are alike up to the order. -/
structure Reached.Alike (r r' : Reached) : Prop where
  error : r.error = none ↔ r'.error = none
  focuses : r.error = none → Value.Reordered r.focuses r'.focuses

namespace Reached

theorem Alike.toExcept {r r' : Reached} (h : r.Alike r') :
    Agree Value.Reordered r.toExcept r'.toExcept := by
  obtain ⟨vs, e⟩ := r
  obtain ⟨ws, e'⟩ := r'
  have herror : e = none ↔ e' = none := h.error
  cases e with
  | none =>
    obtain rfl := herror.1 rfl
    exact h.focuses rfl
  | some e =>
    cases e' with
    | none => exact absurd (herror.2 rfl) (by simp)
    | some e' => exact trivial

/-- Traversals that go on from alike values, met in different orders. A failure on either side is one
on the other side too: of the members that are met up to the first failure, that one has a partner
which fails as it does. -/
theorem alike_join {g : Value → Reached} {P : Value → Prop} {vs ws : List Value}
    (h : Value.Reordered vs ws) (hturn : InTurn (fun v => (g v).error = none) P vs)
    (hg : ∀ v w, v.Alike w → P v → (g v).Alike (g w)) : (join g vs).Alike (join g ws) := by
  rcases hturn.all_or_stuck with hall | ⟨v, hv, hP, hstuck⟩
  · have hvs : (join g vs).error = none := error_join_eq_none_iff.2 fun v hv => (hall v hv).2
    have hws : (join g ws).error = none := by
      refine error_join_eq_none_iff.2 fun w hw => ?_
      obtain ⟨v, hv, hvw⟩ := h.exists_right hw
      exact (hg v w hvw (hall v hv).1).error.1 (hall v hv).2
    refine ⟨iff_of_true hvs hws, fun _ => Value.reordered_iff.2 ?_⟩
    rw [focuses_join hvs, focuses_join hws, ← Multiset.coe_bind, ← Multiset.coe_bind]
    refine Multiset.rel_bind (fun _ _ hvw => hvw) ((Value.reordered_iff.1 h).mono ?_)
    intro v hv w _ hvw
    exact Value.reordered_iff.1 ((hg v w hvw (hall v hv).1).focuses (hall v hv).2)
  · obtain ⟨w, hw, hvw⟩ := h.exists_left hv
    have hvs : ¬ (join g vs).error = none := fun he => hstuck (error_join_eq_none_iff.1 he v hv)
    have hws : ¬ (join g ws).error = none := fun he =>
      hstuck ((hg v w hvw hP).error.2 (error_join_eq_none_iff.1 he w hw))
    exact ⟨iff_of_false hvs hws, fun he => absurd he hvs⟩

end Reached

namespace Navigator

theorem agree_matchesAlong {path : List Navigator} (hp : BuiltIn path) {v w : Value}
    (h : (reachedAlong path v).Alike (reachedAlong path w)) :
    Agree (· = ·) (matchesAlong path v) (matchesAlong path w) := by
  rw [matchesAlong_eq path hp, matchesAlong_eq path hp]
  exact h.toExcept.map fun _ _ hrel => hrel.any_isDefined

/-- Alike elements are marked in the same way. -/
theorem agree_markMatching {path : List Navigator} (hp : BuiltIn path) {vs ws : List Value}
    (h : List.Forall₂ Value.Alike vs ws)
    (hturn : InTurn (fun v => (reachedAlong path v).error = none) (MeetsNoMappingAlong path) vs)
    (hpath : ∀ v w, v.Alike w → MeetsNoMappingAlong path v →
      (reachedAlong path v).Alike (reachedAlong path w)) :
    Agree (List.Forall₂ MarkedAlike) (markMatching (matchesAlong path) vs)
      (markMatching (matchesAlong path) ws) := by
  induction h with
  | nil => exact .nil
  | @cons v w vs ws hvw _ ih =>
    obtain ⟨hv, hrest⟩ := hturn
    rw [markMatching, markMatching]
    refine (agree_matchesAlong hp (hpath v w hvw hv)).bind fun b b' hb _ hbb' => ?_
    subst hbb'
    -- the path did not fail here, so that the next element is met too
    rw [matchesAlong_eq path hp] at hb
    obtain ⟨us, hus, -⟩ := (Action.map_eq_ok _ _ _).1 hb
    have hnone : (reachedAlong path v).error = none :=
      congrArg Reached.error (Reached.toExcept_eq_ok_iff.1 hus)
    exact (ih (hrest hnone)).bind fun marked marked' _ _ hm => .cons ⟨rfl, hvw⟩ hm

mutual

/-- At alike values the exchanges of an order-free navigator are alike. -/
theorem agree_exchange (n : Navigator) (hn : n.OrderFree) {v w : Value} (h : v.Alike w)
    (hv : MeetsNoMapping n v) : Agree Exchange.Alike (n.exchange (.value v)) (n.exchange (.value w)) := by
  refine alike_exchange hn h ?_ fun path hpath vs ws hvs hws => ?_
  · rintro rfl
    exact hv
  · subst hpath hvs hws
    exact agree_markMatching (OrderFreeAlong.builtIn hn) (Value.alike_sequence_iff.1 h) hv
      fun v w hvw hv => alike_reachedAlong path hn hvw hv
termination_by sizeOf n

/-- **Selecting along a path does not see the order of entries.** -/
theorem alike_reachedAlong (path : List Navigator) (hp : OrderFreeAlong path) {v w : Value}
    (h : v.Alike w) (hv : MeetsNoMappingAlong path v) :
    (reachedAlong path v).Alike (reachedAlong path w) := by
  match path, hp, hv with
  | [], _, _ => exact ⟨Iff.rfl, fun _ => Value.reordered_singleton h⟩
  | n :: path, hp, hv =>
    have hreach := alike_reach hp.1 (agree_exchange n hp.1 h hv.1)
    rw [reachedAlong, reachedAlong]
    cases hr : n.reach v with
    | error e =>
      rw [hr] at hreach
      obtain ⟨e', he'⟩ := hreach.error
      rw [he']
      exact ⟨by simp [Reached.andThen], fun he => absurd he (by simp [Reached.andThen])⟩
    | ok vs =>
      rw [hr] at hreach
      obtain ⟨ws, hws, hrel⟩ := hreach.ok
      rw [hws]
      exact Reached.alike_join hrel (hv.2 vs hr) fun v w hvw hv =>
        alike_reachedAlong path hp.2 hvw hv
termination_by sizeOf path

end

end Navigator

/-! ### Rewriting -/

namespace Exchange

variable {x x' : Exchange} {answer : Focus → Except NavError Focus}

/-- An exchange succeeds only if every focus is answered. -/
theorem settle_eq_error {f : Focus} (hf : f ∈ x.asked) {e : NavError} (he : answer f = .error e) :
    ∃ e', x.settle answer = .error e' := by
  cases h : x.settle answer with
  | error e' => exact ⟨e', rfl⟩
  | ok s =>
    obtain ⟨rs, hrs, -⟩ := (x.settle_eq_ok_iff answer s).1 h
    obtain ⟨r, -, hr⟩ := Related.exists_mem hrs hf
    exact absurd (he.symm.trans hr) (by simp)

/-- An exchange that tests nothing is rebuilt from the answers, when there are all of them. -/
theorem settle_eq_rebuild (hx : x.check = accept) {g : Focus → Focus}
    (hg : ∀ f ∈ x.asked, answer f = .ok (g f)) :
    x.settle answer = x.rebuild (x.asked.map g) := by
  rw [settle, (Action.mapM_eq_ok_iff _ _ (x.asked.map g)).2]
  · rfl
  · rw [List.forall₂_map_right_iff, List.forall₂_same]
    intro f hf
    rw [hg f hf, hx]
    rfl

/-- **Alike exchanges are settled alike**, if alike focuses are answered alike, up to the first one
that is not answered. -/
theorem Alike.settle (h : x.Alike x')
    (hturn : InTurn (fun f => ∃ r, answer f = .ok r)
      (fun f => ∀ f', f.Alike f' → Agree Focus.Alike (answer f) (answer f')) x.asked) :
    Agree Focus.Alike (x.settle answer) (x'.settle answer) := by
  rcases hturn.all_or_stuck with hall | ⟨f, hf, halike, hstuck⟩
  · have hpartner : ∀ f' ∈ x'.asked, ∃ r, answer f' = .ok r := by
      intro f' hf'
      obtain ⟨f, hf, hff'⟩ := Multiset.exists_mem_of_rel_of_mem (Multiset.rel_flip.2 h.asked) hf'
      obtain ⟨halike, r, hr⟩ := hall f hf
      have hagree := halike f' hff'
      rw [hr] at hagree
      obtain ⟨r', hr', -⟩ := hagree.ok
      exact ⟨r', hr'⟩
    -- the answers, as a function of the focus
    let g : Focus → Focus := fun f => (answer f).toOption.getD .absent
    have hg {f : Focus} (hf : ∃ r, answer f = .ok r) : answer f = .ok (g f) := by
      obtain ⟨r, hr⟩ := hf
      show answer f = .ok ((answer f).toOption.getD .absent)
      rw [hr]
      rfl
    rw [settle_eq_rebuild h.left fun f hf => hg (hall f hf).2,
      settle_eq_rebuild h.right fun f' hf' => hg (hpartner f' hf')]
    refine h.rebuild g fun f hf f' hff' => ?_
    obtain ⟨halike, hanswered⟩ := hall f hf
    have hagree := halike f' hff'
    rw [hg hanswered] at hagree
    obtain ⟨r', hr', hrr'⟩ := hagree.ok
    rw [hg ⟨r', hr'⟩] at hr'
    rwa [← Except.ok.inj hr'] at hrr'
  · obtain ⟨f', hf', hff'⟩ := Multiset.exists_mem_of_rel_of_mem h.asked hf
    cases he : answer f with
    | ok r => exact absurd ⟨r, he⟩ hstuck
    | error e =>
      have hagree := halike f' hff'
      rw [he] at hagree
      obtain ⟨e', he'⟩ := hagree.error
      obtain ⟨e₁, h₁⟩ := settle_eq_error hf he
      obtain ⟨e₂, h₂⟩ := settle_eq_error hf' he'
      rw [h₁, h₂]
      exact trivial

end Exchange

namespace Focus

theorem Alike.admitted {s s' : Focus} (h : s.Alike s') : s.Admitted Value.WellFormed := by
  cases s with
  | absent => exact trivial
  | value v =>
    obtain ⟨w, -, hvw⟩ := h.of_value
    exact .inr hvw.wellFormed

theorem alike_self {s : Focus} (h : s.Admitted Value.WellFormed) : s.Alike s := by
  cases s with
  | absent => exact trivial
  | value v =>
    rcases h with rfl | h
    · exact Value.alike_refl trivial
    · exact Value.alike_refl h

theorem Answers.admitted {Φ : Value → Prop} {s r : Focus} (h : s.Answers Φ r) : r.Admitted Φ := by
  rcases h with rfl | ⟨w, rfl, hw⟩ | ⟨-, rfl⟩
  · exact trivial
  · exact .inr hw
  · exact .inl rfl

end Focus

namespace Navigator

variable {path : List Navigator} {update : Focus → Except NavError Focus}

/-- An update that does not tell alike focuses apart makes a well-formed document of a well-formed
one, along a path too. -/
theorem agree_rewriteAlong_self (hp : OrderFreeAlong path)
    (hu : ∀ s s', s.Alike s' → Agree Focus.Alike (update s) (update s')) {s : Focus}
    (hs : s.Alike s) : Agree Focus.Alike (rewriteAlong path update s) (rewriteAlong path update s) := by
  refine Action.agree_self fun r hr => ?_
  have hanswers (f : Focus) (hf : f.Admitted Value.WellFormed) :
      Action.Ensures (f.Answers Value.WellFormed) (Action.ofExcept (update f) : Action Unit Focus) := by
    refine Action.ensures_ofExcept fun r hr => ?_
    have hself := hu f f (Focus.alike_self hf)
    rw [hr] at hself
    cases r with
    | absent => exact .inl rfl
    | value w => exact Focus.answers_value (show w.Alike w from hself).wellFormed
  have hpath := ensures_transformAlong Value.hereditary_wellFormed path hp.isForeign hanswers
    hs.admitted
  rw [transformAlong_ofExcept path hp.builtIn] at hpath
  refine Focus.alike_self (hpath () r () ?_).admitted
  rw [Action.exec_ofExcept, hr]

/-- What an insertion point asks about does not depend on the value. -/
theorem asked_of_isInsertionPoint {n : Navigator} (hi : n.isInsertionPoint = true) {s : Focus}
    {x : Exchange} (hx : n.exchange s = .ok x) :
    x.asked = [.absent] ∨ x.asked = [.value (.sequence [])] := by
  have hone {m : Navigator} {g : List Value → Exchange} (h : (itemsOf m s).map g = .ok x) :
      ∃ vs, x = g vs := by
    obtain ⟨vs, -, rfl⟩ := (Action.map_eq_ok _ _ _).1 h
    exact ⟨vs, rfl⟩
  cases n with
  | beginning => obtain ⟨vs, rfl⟩ := hone hx; exact .inr rfl
  | ending => obtain ⟨vs, rfl⟩ := hone hx; exact .inr rfl
  | beforeElem => obtain ⟨vs, rfl⟩ := hone hx; exact .inl rfl
  | afterElem => obtain ⟨vs, rfl⟩ := hone hx; exact .inl rfl
  | beforeIndex index => obtain ⟨vs, rfl⟩ := hone hx; exact .inl rfl
  | _ => exact absurd hi (by simp [isInsertionPoint])

/-- **Rewriting along a path does not see the order of entries.** -/
theorem agree_rewriteAlong (hp : OrderFreeAlong path)
    (hu : ∀ s s', s.Alike s' → Agree Focus.Alike (update s) (update s')) {v w : Value}
    (h : v.Alike w) (hv : MeetsNoMappingAlong path v) :
    Agree Focus.Alike (rewriteAlong path update (.value v)) (rewriteAlong path update (.value w)) := by
  induction path generalizing v w with
  | nil => exact hu _ _ h
  | cons n path ih =>
    rw [rewriteAlong, rewriteAlong, rewrite, rewrite]
    refine (agree_exchange n hp.1 h hv.1).bind fun x x' hx _ hxx' => hxx'.settle ?_
    cases hi : n.isInsertionPoint with
    | true =>
      -- both runs ask about the same focus, into which selecting does not go
      have hself {f : Focus} (hf : f.Alike f) := agree_rewriteAlong_self hp.2 hu hf
      refine InTurn.of_forall fun f hf f' hff' => ?_
      rcases asked_of_isInsertionPoint hi hx with hasked | hasked
      · rw [hasked, List.mem_singleton] at hf
        subst hf
        rw [hff'.of_absent]
        exact hself trivial
      · rw [hasked, List.mem_singleton] at hf
        subst hf
        obtain ⟨w, rfl, hw⟩ := hff'.of_value
        obtain ⟨ws, rfl, hws⟩ := hw.of_sequence
        obtain rfl := List.forall₂_nil_left_iff.1 hws
        exact hself hff'
    | false =>
      have hc := isCustom_of_isForeign hp.1.isForeign
      rcases n.exchange_value_cases hc hi v with ⟨e, -, he⟩ | ⟨vs, x₁, hr, hx₁, hasked⟩
      · exact absurd (hx.symm.trans he) (by simp)
      · obtain rfl : x = x₁ := Except.ok.inj (hx.symm.trans hx₁)
        rw [hasked]
        refine (hv.2 vs hr).map (fun u hmeet f' hff' => ?_) fun u hu => ?_
        · obtain ⟨u', rfl, huu'⟩ := hff'.of_value
          exact ih hp.2 huu' hmeet
        · obtain ⟨r, hr⟩ := hu
          exact error_reachedAlong_of_rewriteAlong hp.2.builtIn hr

end Navigator

/-! ### Whole paths -/

/-- **The order of entries does not matter.** On two documents that are equal up to the order of
entries, a transform by a function that does not tell such focuses apart fails on both or succeeds on
both, with results that are again equal up to the order of entries. The same holds of selecting, the
focuses being permuted as well, and whether the path matches is the same. -/
theorem Path.entry_order_irrelevant (p : Path) (hp : Navigator.OrderFreeAlong p.navigators)
    (v v' : Value) (h : v.Alike v') (hv : Navigator.MeetsNoMappingAlong p.navigators v)
    (f : Focus → Focus) (hf : ∀ s s', s.Alike s' → (f s).Alike (f s')) :
    Agree Value.Alike (p.map f v) (p.map f v') ∧
      Agree Value.Reordered (p.select v) (p.select v') ∧
        Agree (· = ·) (p.isMatch v) (p.isMatch v') := by
  have hb := hp.builtIn
  have hreached := Navigator.alike_reachedAlong p.navigators hp h hv
  refine ⟨?_, ?_, Navigator.agree_matchesAlong hb hreached⟩
  · have hrewrite : Agree Focus.Alike
        (Navigator.rewriteAlong p.navigators (fun s => .ok (f s)) (.value v))
        (Navigator.rewriteAlong p.navigators (fun s => .ok (f s)) (.value v')) := by
      refine Navigator.agree_rewriteAlong hp (fun s s' hs => ?_) h hv
      exact hf s s' hs
    rw [p.map_eq hb, p.map_eq hb]
    refine hrewrite.bind fun r r' _ _ hr => ?_
    cases r with
    | absent =>
      rw [hr.of_absent]
      refine Action.agree_self fun w hw => ?_
      rw [finish] at hw
      split at hw
      · cases hw
        exact Value.alike_refl trivial
      · exact absurd hw (by simp)
    | value w =>
      obtain ⟨w', rfl, hww'⟩ := hr.of_value
      exact hww'
  · rw [p.select_eq_toExcept hb, p.select_eq_toExcept hb]
    exact hreached.toExcept

/-- A run through both mappings of a document, a filter, a part of a mapping and a predicate, and the
run through the same document with all its mappings reordered. -/
theorem Path.entry_order_irrelevant_nested :
    let p : Path := ⟨[.mapVals, .filterer [.key "n"], .all, .submap ["n", "x"], .key "x",
      .pred Value.isMapping], {}⟩
    let v : Value := .mapping
      [("a", .sequence [.mapping [("n", .integer 1), ("x", .mapping [("s", .null), ("t", .null)])],
        .null]),
        ("b", .sequence [.mapping [("n", .integer 2)]])]
    let v' : Value := .mapping
      [("b", .sequence [.mapping [("n", .integer 2)]]),
        ("a", .sequence
          [.mapping [("x", .mapping [("t", .null), ("s", .null)]), ("n", .integer 1)], .null])]
    let f : Focus → Focus := fun s => .value (.sequence [s.orUndefined])
    p.select v = .ok [.mapping [("s", .null), ("t", .null)]] ∧
      Agree Value.Alike (p.map f v) (p.map f v') ∧
        Agree Value.Reordered (p.select v) (p.select v') ∧
          Agree (· = ·) (p.isMatch v) (p.isMatch v') := by
  intro p v v' f
  have hp : Navigator.OrderFreeAlong p.navigators := by
    refine ⟨trivial, ⟨trivial, trivial⟩, trivial, trivial, trivial, fun u w h => ?_, trivial⟩
    cases h.similar <;> rfl
  have hwf : v.WellFormed := by
    simp [v, Value.WellFormed, Value.EntriesWellFormed, Value.AllWellFormed, Entries.Distinct,
      Entries.keys]
  have h : v.Alike v' := by
    have hx : Value.Similar (.mapping [("s", .null), ("t", .null)])
        (.mapping [("t", .null), ("s", .null)]) := Value.similar_of_perm (.swap _ _ _)
    refine ⟨hwf, .mapping (.cons (.sequence (.cons (.mapping ?_ (.swap _ _ _)) ?_)) ?_) (.swap _ _ _)⟩
    · exact .cons (.refl _) (.cons hx .nil)
    · exact .cons (.refl _) .nil
    · exact .cons (.refl _) .nil
  -- all elements are visited after the filter alone, which hands on a sequence
  have hend (w : Value) : Navigator.MeetsNoMappingAlong
      [.submap ["n", "x"], .key "x", .pred Value.isMapping] w :=
    ⟨trivial, fun _ _ => .of_forall fun _ _ => ⟨trivial, fun _ _ => .of_forall fun _ _ =>
      ⟨trivial, fun _ _ => .of_forall fun _ _ => trivial⟩⟩⟩
  have hfilter (items : List Value) : Navigator.MeetsNoMappingAlong
      (p.navigators.drop 1) (.sequence items) := by
    refine ⟨.of_forall fun _ _ => ⟨trivial, fun _ _ => .of_forall fun _ _ => trivial⟩, ?_⟩
    intro vs hvs
    obtain ⟨marked, -, hvs⟩ := (Action.bind_eq_ok _ _ _).1 hvs
    cases hvs
    exact ⟨⟨rfl, fun _ _ => .of_forall fun w _ => hend w⟩, fun _ => trivial⟩
  have hv : Navigator.MeetsNoMappingAlong p.navigators v := by
    refine ⟨trivial, fun vs hvs => ?_⟩
    cases hvs
    exact ⟨hfilter _, fun _ => ⟨hfilter _, fun _ => trivial⟩⟩
  have hf : ∀ s s', s.Alike s' → (f s).Alike (f s') := by
    intro s s' hs
    cases s with
    | absent => rw [hs.of_absent]; exact Focus.alike_self (.inr ⟨trivial, trivial⟩)
    | value u =>
      obtain ⟨w, rfl, huw⟩ := hs.of_value
      exact Value.alike_sequence_iff.2 (.cons huw .nil)
  exact ⟨rfl, p.entry_order_irrelevant hp v v' h hv f hf⟩

end DocPath
