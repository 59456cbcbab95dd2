import DocPath.Proofs.PutGet
import DocPath.Proofs.Rewrite

/-!
# Two updates in one

Updating a document along a path twice is updating it once with both updates, the second one after the
first. The first run may make mappings of nulls, add entries or remove an `undefined` one; the second
run then goes another way through the document, and ends in the same one all the same.

* `Fuses` — two updates that can be made at once;
* `Exchange.Shape.rebuild_defined_alike` — answers that are defined alike make values defined alike;
* `Fuses.rewrite` — **updates that can be made at once below a step to children can be made at once
  above it**;
* `Path.map_map` — the law for whole paths.
-/

namespace DocPath

variable {P Q T : Focus → Except NavError Focus}

/-- Where `P` succeeds, `Q` succeeds after it with what `T` gives at once, which is defined if the
result of `P` is. -/
def Fuses (P Q T : Focus → Except NavError Focus) (v : Value) : Prop :=
  ∀ r, P (.value v) = .ok r → ∃ w u, r = .value w ∧ Q (.value w) = .ok (.value u) ∧
    T (.value v) = .ok (.value u) ∧ w.isDefined = u.isDefined

theorem Fuses.all {vs : List Value} (h : ∀ v ∈ vs, Fuses P Q T v) {rs : List Focus}
    (hrs : List.Forall₂ (fun v r => P (.value v) = .ok r) vs rs) :
    ∃ bs cs : List Value, rs = bs.map .value ∧
      List.Forall₂ (fun b c => Q (.value b) = .ok (.value c)) bs cs ∧
      List.Forall₂ (fun v c => T (.value v) = .ok (.value c)) vs cs ∧
      List.Forall₂ (fun b c => b.isDefined = c.isDefined) bs cs := by
  induction hrs with
  | nil => exact ⟨[], [], rfl, .nil, .nil, .nil⟩
  | @cons v r vs rs hr _ ih =>
    obtain ⟨b, c, rfl, hQ, hT, hd⟩ := h v List.mem_cons_self r hr
    obtain ⟨bs, cs, rfl, hQs, hTs, hds⟩ := ih fun w hw => h w (List.mem_cons_of_mem v hw)
    exact ⟨b :: bs, c :: cs, rfl, .cons hQ hQs, .cons hT hTs, .cons hd hds⟩

namespace Exchange

variable {n : Navigator} {v : Value} {vs : List Value} {x : Exchange}

/-! ### One step to children -/

/-- Answers about anything but the pairs of a mapping need pass no test. -/
theorem Shape.check_eq_accept (h : Shape n v vs x) (hall : n = .all → v.isMapping = false) :
    x.check = accept := by
  cases h with
  | entries m => exact absurd (hall rfl) (by simp [Value.isMapping])
  | _ => rfl

/-- A step to all elements does not make a mapping of what is none. -/
theorem Shape.isMapping_eq_false (h : Shape .all v vs x) (hv : v.isMapping = false)
    {bs : List Value} (hlen : bs.length = vs.length) {w : Value}
    (hr : x.rebuild (bs.map .value) = .ok (.value w)) : w.isMapping = false := by
  cases h with
  | idle => cases hr; exact hv
  | unreachable _ e =>
    obtain ⟨b, rfl⟩ := List.length_eq_one_iff.1 hlen
    obtain rfl := Focus.value.inj (rebuild_unreachable_eq_ok hr).2
    exact hv
  | item => cases hr; rfl
  | items => cases hr; rfl
  | entries m => exact absurd hv (by simp [Value.isMapping])

/-- Answers that are defined alike make values that are defined alike, if they make any. -/
theorem Shape.rebuild_defined_alike (h : Shape n v vs x) {bs cs : List Value}
    (hd : List.Forall₂ (fun b c => b.isDefined = c.isDefined) bs cs) {r : Focus}
    (hr : x.rebuild (bs.map .value) = .ok r) :
    ∃ w u, r = .value w ∧ x.rebuild (cs.map .value) = .ok (.value u) ∧
      w.isDefined = u.isDefined := by
  cases h with
  | unreachable n e =>
    cases hd with
    | nil => cases hr; exact ⟨v, v, rfl, rfl, rfl⟩
    | @cons b c _ _ hbc _ =>
      have hr : (Exchange.unreachable e (.value v)).rebuild [.value b] = .ok r := hr
      obtain ⟨rfl, rfl⟩ := rebuild_unreachable_eq_ok hr
      obtain rfl := Value.eq_undefined hbc.symm
      exact ⟨v, v, rfl, rfl, rfl⟩
  | fresh name hv =>
    cases hd with
    | nil => cases hr; exact ⟨v, v, rfl, rfl, rfl⟩
    | @cons b c _ _ hbc _ =>
      have hr : (if b.isDefined then Focus.value (.mapping [(name, b)]) else .value v) = r :=
        Except.ok.inj hr
      have hc : (Exchange.fresh name (.value v)).rebuild [.value c] =
          .ok (if c.isDefined then .value (.mapping [(name, c)]) else .value v) := rfl
      rw [← hbc] at hc
      cases hb : b.isDefined with
      | false =>
        rw [hb] at hr hc
        exact ⟨v, v, hr.symm, hc, rfl⟩
      | true =>
        rw [hb] at hr hc
        exact ⟨_, _, hr.symm, hc, rfl⟩
  | idle => cases hr; exact ⟨_, _, rfl, rfl, rfl⟩
  | slot => cases hr; exact ⟨_, _, rfl, rfl, rfl⟩
  | item => cases hr; exact ⟨_, _, rfl, rfl, rfl⟩
  | items => cases hr; exact ⟨_, _, rfl, rfl, rfl⟩
  | values => cases hr; exact ⟨_, _, rfl, rfl, rfl⟩
  | entries => cases hr; exact ⟨_, _, rfl, rfl, rfl⟩

end Exchange

/-- **Updates that can be made at once below a step to children can be made at once above it.** -/
theorem Fuses.rewrite {n : Navigator} (hn : n.Descends) {v : Value}
    (hall : n = .all → v.isMapping = false) {vs : List Value} (hreach : n.reach v = .ok vs)
    (h : ∀ w ∈ vs, Fuses P Q T w) : Fuses (n.rewrite P) (n.rewrite Q) (n.rewrite T) v := by
  intro r hP
  obtain ⟨x, vs', rs, hx, hshape, hrs, -, hr⟩ := hn.rewrite_value_eq_ok_iff.1 hP
  obtain rfl : vs = vs' := Except.ok.inj (hreach.symm.trans (hn.reach hx hshape))
  obtain ⟨bs, cs, rfl, hQ, hT, hd⟩ := Fuses.all h hrs
  have hlen : bs.length = vs.length := hd.length_eq.trans hT.length_eq.symm
  have hmapping : n = .all → ∀ m, v = .mapping m → False := by
    intro hn m hm
    exact absurd (hall hn) (by simp [hm, Value.isMapping])
  -- what both updates make at once, and what the first one makes
  obtain ⟨w, u, rfl, hu, hwu⟩ := hshape.rebuild_defined_alike hd hr
  obtain ⟨w', x', heq, hx', hshape'⟩ :=
    hshape.next hx hlen (fun hn m hm => (hmapping hn m hm).elim) hr
  obtain rfl := Focus.value.inj heq
  have hall' : n = .all → w.isMapping = false := by
    intro hn
    subst hn
    exact hshape.isMapping_eq_false (hall rfl) hlen hr
  -- the second one meets the answers of the first
  have hagain : x'.rebuild (cs.map .value) = x.rebuild (cs.map .value) := by
    refine hshape.rebuild_again hx hlen (hd.imp fun b c hbc hb => hbc.symm.trans hb) ?_
      (fun hn m hm => (hmapping hn m hm).elim) hr hx'
    intro name m b c _ _ hbs hcs hb hc
    subst hbs hcs
    exact absurd ((List.forall₂_cons.1 hd).1.trans hc) (by simp [hb])
  refine ⟨w, u, rfl, ?_, ?_, hwu⟩
  · refine hn.rewrite_value_eq_ok_iff.2 ⟨x', bs, cs.map .value, hx', hshape', ?_, ?_, ?_⟩
    · rwa [List.forall₂_map_right_iff]
    · rw [hshape'.check_eq_accept hall']
      exact fun _ _ => rfl
    · rw [hagain, hu]
  · refine hn.rewrite_value_eq_ok_iff.2 ⟨x, vs, cs.map .value, hx, hshape, ?_, ?_, hu⟩
    · rwa [List.forall₂_map_right_iff]
    · rw [hshape.check_eq_accept hall]
      exact fun _ _ => rfl

namespace Navigator

/-! ### Paths -/

theorem fuses_rewriteAlong (path : List Navigator) (hp : ∀ n ∈ path, n.Descends)
    (h : ∀ w, Fuses P Q T w) {v : Value} (he : (reachedAlong path v).error = none)
    (hv : ElementsOnly path v) :
    Fuses (rewriteAlong path P) (rewriteAlong path Q) (rewriteAlong path T) v := by
  induction path generalizing v with
  | nil => exact h v
  | cons n path ih =>
    have hn := hp n List.mem_cons_self
    have htail {vs : List Value} (hr : n.reach v = .ok vs) := hv.tail hr he
    rw [reachedAlong] at he
    cases hr : n.reach v with
    | error e => rw [hr] at he; exact absurd he (by simp [Reached.andThen])
    | ok vs =>
      rw [hr] at he
      have he : ∀ w ∈ vs, (reachedAlong path w).error = none :=
        Reached.error_join_eq_none_iff.1 he
      exact Fuses.rewrite hn hv.head hr fun w hw =>
        ih (fun m hm => hp m (List.mem_cons_of_mem n hm)) (he w hw) (htail hr w hw)

end Navigator

/-- **Two updates in one.** Updating along a path by a function and then by another one that both give
something defined is the same as updating by one after the other at once, provided that the first
update succeeds and that no step to all elements meets a mapping. -/
theorem Path.map_map (p : Path) (hp : ∀ n ∈ p.navigators, n.Descends) (v : Value)
    (hv : Navigator.ElementsOnly p.navigators v) (f g : Focus → Focus)
    (hf : ∀ s, ∃ w, f s = .value w ∧ w.isDefined = true)
    (hg : ∀ s, ∃ w, g s = .value w ∧ w.isDefined = true) (v' : Value)
    (h : p.map f v = .ok v') :
    ∃ w, p.map g v' = .ok w ∧ p.map (fun s => g (f s)) v = .ok w := by
  have hb : Navigator.BuiltIn p.navigators := fun n hn => (hp n hn).isCustom
  rw [p.map_eq hb] at h
  obtain ⟨r, hr, hfinish⟩ := (Action.bind_eq_ok _ _ _).1 h
  -- at the end of the path both functions give something defined
  have hend : ∀ w, Fuses (fun s => .ok (f s)) (fun s => .ok (g s)) (fun s => .ok (g (f s))) w := by
    intro w s hs
    obtain ⟨a, ha, hda⟩ := hf (.value w)
    obtain ⟨b, hgb, hdb⟩ := hg (.value a)
    obtain rfl : f (.value w) = s := Except.ok.inj hs
    refine ⟨a, b, ha, congrArg Except.ok hgb, ?_, hda.trans hdb.symm⟩
    show Except.ok (g (f (.value w))) = _
    rw [ha, hgb]
  obtain ⟨w, u, rfl, hQ, hT, -⟩ := Navigator.fuses_rewriteAlong p.navigators hp hend
    (Navigator.error_reachedAlong_of_rewriteAlong hb hr) hv r hr
  obtain rfl : w = v' := Except.ok.inj hfinish
  refine ⟨u, ?_, ?_⟩
  · rw [p.map_eq hb, hQ]
    rfl
  · rw [p.map_eq hb, hT]
    rfl

/-- A run that makes a mapping of a null, removes an `undefined` entry and leaves another null. -/
theorem Path.map_map_wrapping :
    let p : Path := ⟨[.all, .key "a", .first, .key "n"], {}⟩
    let v : Value := .sequence [.mapping [("a", .sequence [.null, .integer 7])],
      .mapping [("a", .undefined), ("b", .bool true)], .null]
    let f : Focus → Focus := fun s => .value (.sequence [s.orUndefined])
    let g : Focus → Focus := fun s => .value (.mapping [("was", s.orUndefined)])
    let v' : Value := .sequence
      [.mapping [("a", .sequence [.mapping [("n", .sequence [.undefined])], .integer 7])],
        .mapping [("b", .bool true)], .null]
    let w : Value := .sequence
      [.mapping [("a", .sequence
        [.mapping [("n", .mapping [("was", .sequence [.undefined])])], .integer 7])],
        .mapping [("b", .bool true)], .null]
    p.map f v = .ok v' ∧ p.map g v' = .ok w ∧ p.map (fun s => g (f s)) v = .ok w := by
  intro p v f g v' w
  have hp : ∀ n ∈ p.navigators, n.Descends := by
    intro n hn
    simp only [p, List.mem_cons, List.not_mem_nil, or_false] at hn
    rcases hn with rfl | rfl | rfl | rfl <;> exact trivial
  have hv : Navigator.ElementsOnly p.navigators v := by
    intro before after hpath u hu
    rcases before with _ | ⟨n, before⟩
    · rw [List.mem_singleton.1 hu]
      rfl
    · obtain ⟨-, hpath⟩ := List.cons.inj hpath
      have hall : Navigator.all ∈ [Navigator.key "a", .first, .key "n"] := by
        rw [hpath]
        exact List.mem_append_right before List.mem_cons_self
      simp at hall
  have hf : p.map f v = .ok v' := by rfl
  have hg : p.map g v' = .ok w := by rfl
  obtain ⟨w', hg', hgf⟩ := p.map_map hp v hv f g (fun s => ⟨_, rfl, rfl⟩) (fun s => ⟨_, rfl, rfl⟩)
    v' hf
  obtain rfl : w = w' := Except.ok.inj (hg.symm.trans hg')
  exact ⟨hf, hg, hgf⟩

end DocPath
