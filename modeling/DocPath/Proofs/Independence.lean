import DocPath.Proofs.Frame

/-!
# Independent updates

Two paths that part at two keys of one place, after any steps to children, do not get in each
other's way: their updates can be made in either order, with the same result up to the order of
entries, and neither changes what the other one selects.

* `Tame`, `Swaps`, `Unseen` — updates that keep what the steps above them look at, updates that may
  change places, and an update that a traversal does not notice;
* `Writes`, `Navigator.rewrite_key_eq_ok_iff` — what an update under one key does;
* `Navigator.swaps_keys`, `Navigator.unseen_key` — **updates under two keys are independent**;
* `Swaps.rewrite`, `Unseen.rewrite` — **and stay so above a step to children**;
* `Path.updates_commute` — the law for whole paths.
-/

namespace DocPath

variable {P Q : Focus → Except NavError Focus} {R : Value → Reached}

/-- Every answer about a value is a value that keeps what the steps above look at. -/
def Tame (P : Focus → Except NavError Focus) : Prop :=
  ∀ v r, P (.value v) = .ok r → ∃ w, r = .value w ∧ v.Keeps w

/-- What `P` and then `Q` do to a clean value, `Q` and then `P` do as well, up to the order of
entries. -/
def Swaps (P Q : Focus → Except NavError Focus) : Prop :=
  ∀ v v₁ v₂, v.Clean → P (.value v) = .ok (.value v₁) → Q (.value v₁) = .ok (.value v₂) →
    ∃ w₁ w₂, Q (.value v) = .ok (.value w₁) ∧ P (.value w₁) = .ok (.value w₂) ∧ v₂.Similar w₂

/-- What the traversal reaches in a clean value, it reaches after `P` as well. -/
def Unseen (P : Focus → Except NavError Focus) (R : Value → Reached) : Prop :=
  ∀ v v₁, v.Clean → P (.value v) = .ok (.value v₁) → R v₁ = R v

/-! ### Updates under a key -/

/-- The value that an answer writes under a key, if it writes one. -/
def Focus.written : Focus → Option Value
  | .value w => if w.isDefined then some w else none
  | .absent => none

/-- Writing something, or nothing, under a key of a value leaves another value. -/
inductive Writes (name : String) : Value → Option Value → Value → Prop
  | insert (m : Entries Value) (w : Value) :
      Writes name (.mapping m) (some w) (.mapping (Entries.insert m name w))
  | erase (m : Entries Value) : Writes name (.mapping m) none (.mapping (Entries.erase m name))
  | fresh {v : Value} (hv : v.isVoid = true) (w : Value) :
      Writes name v (some w) (.mapping [(name, w)])
  | nothing {v : Value} (hv : v.isMapping = false) : Writes name v none v

theorem writes_mapping_iff {name : String} {m : Entries Value} {w : Value} {o : Option Value} :
    Writes name (.mapping m) o w ↔ w = .mapping (match o with
      | some u => Entries.insert m name u
      | none => Entries.erase m name) := by
  constructor
  · intro h
    cases h with
    | insert => rfl
    | erase => rfl
    | fresh hv => exact absurd hv (by simp [Value.isVoid])
    | nothing hv => exact absurd hv (by simp [Value.isMapping])
  · intro h
    subst h
    cases o with
    | none => exact .erase m
    | some u => exact .insert m u

theorem writes_void_iff {name : String} {v w : Value} {o : Option Value} (hv : v.isVoid = true) :
    Writes name v o w ↔ w = match o with
      | some u => .mapping [(name, u)]
      | none => v := by
  constructor
  · intro h
    cases h with
    | insert => exact absurd hv (by simp [Value.isVoid])
    | erase => exact absurd hv (by simp [Value.isVoid])
    | fresh => rfl
    | nothing => rfl
  · intro h
    subst h
    cases o with
    | none => exact .nothing (by cases v <;> first | rfl | exact absurd hv (by simp [Value.isVoid]))
    | some u => exact .fresh hv u

theorem writes_leaf_iff {name : String} {v w : Value} {o : Option Value} (hv : v.isVoid = false)
    (hm : v.isMapping = false) : Writes name v o w ↔ o = none ∧ w = v := by
  constructor
  · intro h
    cases h with
    | insert => exact absurd hm (by simp [Value.isMapping])
    | erase => exact absurd hm (by simp [Value.isMapping])
    | fresh hv' => exact absurd hv' (by simp [hv])
    | nothing => exact ⟨rfl, rfl⟩
  · intro h
    obtain ⟨rfl, rfl⟩ := h
    exact .nothing hm

theorem Writes.keeps {name : String} {v w : Value} {o : Option Value} (h : Writes name v o w) :
    v.Keeps w := by
  cases h with
  | insert m w => exact Value.keeps_mapping _ (.inl rfl)
  | erase m => exact Value.keeps_mapping _ (.inl rfl)
  | fresh hv w => exact Value.keeps_mapping _ (.inr hv)
  | nothing hv => exact .refl v

/-- A write under one key is not seen under another one. -/
theorem Writes.valueUnder {a b : String} (hab : a ≠ b) {v w : Value} {o : Option Value}
    (h : Writes a v o w) : Navigator.valueUnder b w = Navigator.valueUnder b v := by
  cases h with
  | insert m w =>
    rw [Navigator.valueUnder, Navigator.valueUnder, Entries.get?_insert_of_ne m w hab.symm]
  | erase m => rw [Navigator.valueUnder, Navigator.valueUnder, Entries.get?_erase_of_ne m hab.symm]
  | fresh hv w =>
    have hnew : Navigator.valueUnder b (.mapping [(a, w)]) = .undefined := by
      rw [Navigator.valueUnder, Entries.get?_cons, if_neg (by simpa using hab.symm)]
      rfl
    rw [hnew]
    cases v <;> first | rfl | exact absurd hv (by simp [Value.isVoid])
  | nothing hv => rfl

/-- Writes under two keys may change places. -/
theorem Writes.swap {a b : String} (hab : a ≠ b) {v v₁ v₂ : Value} {o o' : Option Value}
    (h : Writes a v o v₁) (h' : Writes b v₁ o' v₂) :
    ∃ w₁ w₂, Writes b v o' w₁ ∧ Writes a w₁ o w₂ ∧ v₂.Similar w₂ := by
  have hone {k k' : String} (hk : k ≠ k') (w : Value) :
      Entries.erase [(k, w)] k' = [(k, w)] := by
    rw [Entries.erase_cons, if_neg hk]
    rfl
  cases h with
  | insert m w =>
    cases h' with
    | insert _ w' =>
      exact ⟨_, _, .insert m w', .insert _ w,
        Value.similar_of_perm (Entries.insert_insert_perm m hab w w')⟩
    | erase =>
      refine ⟨_, _, .erase m, .insert _ w, ?_⟩
      rw [Entries.erase_insert_of_ne m hab w]
      exact .refl _
    | fresh hv => exact absurd hv (by simp [Value.isVoid])
    | nothing hv => exact absurd hv (by simp [Value.isMapping])
  | erase m =>
    cases h' with
    | insert _ w' =>
      refine ⟨_, _, .insert m w', .erase _, ?_⟩
      rw [Entries.erase_insert_of_ne m hab.symm w']
      exact .refl _
    | erase =>
      refine ⟨_, _, .erase m, .erase _, ?_⟩
      rw [Entries.erase_erase_comm]
      exact .refl _
    | fresh hv => exact absurd hv (by simp [Value.isVoid])
    | nothing hv => exact absurd hv (by simp [Value.isMapping])
  | fresh hvoid w =>
    have hv : v.isMapping = false := by
      cases v <;> first | rfl | exact absurd hvoid (by simp [Value.isVoid])
    cases h' with
    | insert _ w' =>
      exact ⟨_, _, .fresh hvoid w', .insert _ w,
        Value.similar_of_perm (Entries.insert_insert_perm [] hab w w')⟩
    | erase =>
      refine ⟨_, _, .nothing hv, .fresh hvoid w, ?_⟩
      rw [hone hab w]
      exact .refl _
    | fresh hv => exact absurd hv (by simp [Value.isVoid])
    | nothing hv => exact absurd hv (by simp [Value.isMapping])
  | nothing hv =>
    cases h' with
    | insert => exact absurd hv (by simp [Value.isMapping])
    | erase => exact absurd hv (by simp [Value.isMapping])
    | fresh hvoid w' =>
      refine ⟨_, _, .fresh hvoid w', .erase _, ?_⟩
      rw [hone hab.symm w']
      exact .refl _
    | nothing => exact ⟨_, _, .nothing hv, .nothing hv, .refl v⟩

namespace Exchange

theorem rebuild_slot (name : String) (m : Entries Value) (r : Focus) :
    (slot name m).rebuild [r] = .ok (.value (.mapping (match r.written with
      | some w => Entries.insert m name w
      | none => Entries.erase m name))) := by
  cases r with
  | absent => rfl
  | value w => cases w <;> rfl

theorem rebuild_fresh (name : String) (s r : Focus) :
    (fresh name s).rebuild [r] = .ok (match r.written with
      | some w => .value (.mapping [(name, w)])
      | none => s) := by
  cases r with
  | absent => rfl
  | value w => cases w <;> rfl

theorem rebuild_unreachable (e : NavError) (s r : Focus) :
    (unreachable e s).rebuild [r] = match r.written with
      | some _ => .error e
      | none => .ok s := by
  cases r with
  | absent => rfl
  | value w => cases w <;> rfl

/-- What the exchange of a key makes of an answer. -/
theorem rebuild_key_eq_ok_iff {name : String} {v : Value} {r s : Focus} :
    (Navigator.exchangeKey name (.value v)).rebuild [r] = .ok s ↔
      ∃ w, s = .value w ∧ Writes name v r.written w := by
  have hvalue (u : Value) :
      (.ok (.value u) : Except NavError Focus) = .ok s ↔ ∃ w, s = .value w ∧ w = u := by
    constructor
    · intro h
      exact ⟨u, (Except.ok.inj h).symm, rfl⟩
    · intro h
      obtain ⟨w, rfl, rfl⟩ := h
      rfl
  have hfresh (hv : v.isVoid = true) :
      (fresh name (.value v)).rebuild [r] = .ok s ↔
        ∃ w, s = .value w ∧ Writes name v r.written w := by
    simp only [rebuild_fresh, writes_void_iff hv]
    cases r.written with
    | none => exact hvalue v
    | some u => exact hvalue _
  have hunreachable (e : NavError) (hv : v.isVoid = false) (hm : v.isMapping = false) :
      (unreachable e (.value v)).rebuild [r] = .ok s ↔
        ∃ w, s = .value w ∧ Writes name v r.written w := by
    simp only [rebuild_unreachable, writes_leaf_iff hv hm]
    cases r.written with
    | none =>
      simp only [true_and]
      exact hvalue v
    | some u => simp
  cases v with
  | mapping m =>
    show (slot name m).rebuild [r] = _ ↔ _
    simp only [rebuild_slot, writes_mapping_iff]
    exact hvalue _
  | null => exact hfresh rfl
  | undefined => exact hfresh rfl
  | _ => exact hunreachable _ rfl rfl

theorem settle_single (f : Focus) (put : Focus → Except NavError Focus)
    (answer : Focus → Except NavError Focus) :
    (single f put).settle answer = answer f >>= fun r => (single f put).rebuild [r] := by
  show [f].mapM _ >>= _ = _
  rw [List.mapM_cons]
  cases answer f <;> rfl

end Exchange

namespace Navigator

/-- The exchange of a key asks about the value under it. -/
theorem exchangeKey_eq_single (name : String) (v : Value) :
    ∃ put, exchangeKey name (.value v) = .single (.value (valueUnder name v)) put := by
  have hfresh : ∃ put, Exchange.fresh name (.value v) = .single (.value .undefined) put := by
    rw [Exchange.fresh]
    exact ⟨_, rfl⟩
  have hunreachable (e : NavError) :
      ∃ put, Exchange.unreachable e (.value v) = .single (.value .undefined) put := by
    rw [Exchange.unreachable]
    exact ⟨_, rfl⟩
  cases v with
  | mapping m =>
    show ∃ put, Exchange.slot name m = _
    rw [Exchange.slot]
    exact ⟨_, rfl⟩
  | null => exact hfresh
  | undefined => exact hfresh
  | _ => exact hunreachable _

/-- A rewrite by a key writes what is answered about the value under it. -/
theorem rewrite_key_eq_ok_iff {name : String} {v : Value} {s : Focus} :
    (key name).rewrite P (.value v) = .ok s ↔
      ∃ r w, P (.value (valueUnder name v)) = .ok r ∧ Writes name v r.written w ∧
        s = .value w := by
  have hkey : (key name).rewrite P (.value v) = P (.value (valueUnder name v)) >>= fun r =>
      (exchangeKey name (.value v)).rebuild [r] := by
    obtain ⟨put, hput⟩ := exchangeKey_eq_single name v
    show (exchangeKey name (.value v)).settle P = _
    rw [hput]
    exact Exchange.settle_single _ put P
  rw [hkey, Action.bind_eq_ok]
  constructor
  · intro h
    obtain ⟨r, hr, h⟩ := h
    obtain ⟨w, rfl, hw⟩ := Exchange.rebuild_key_eq_ok_iff.1 h
    exact ⟨r, w, hr, hw, rfl⟩
  · intro h
    obtain ⟨r, w, hr, hw, rfl⟩ := h
    exact ⟨r, hr, Exchange.rebuild_key_eq_ok_iff.2 ⟨w, rfl, hw⟩⟩

theorem tame_key (name : String) (P : Focus → Except NavError Focus) :
    Tame ((key name).rewrite P) := by
  intro v s h
  obtain ⟨r, w, -, hw, rfl⟩ := rewrite_key_eq_ok_iff.1 h
  exact ⟨w, rfl, hw.keeps⟩

/-- **Updates under two keys may change places**, whatever is below the keys. -/
theorem swaps_keys {a b : String} (hab : a ≠ b) (P Q : Focus → Except NavError Focus) :
    Swaps ((key a).rewrite P) ((key b).rewrite Q) := by
  intro v v₁ v₂ _ h h'
  obtain ⟨r, _, hr, hw, heq⟩ := rewrite_key_eq_ok_iff.1 h
  obtain rfl := Focus.value.inj heq
  obtain ⟨r', _, hr', hw', heq'⟩ := rewrite_key_eq_ok_iff.1 h'
  obtain rfl := Focus.value.inj heq'
  obtain ⟨w₁, w₂, hw₁, hw₂, hs⟩ := hw.swap hab hw'
  rw [hw.valueUnder hab] at hr'
  rw [← hw₁.valueUnder hab.symm] at hr
  exact ⟨w₁, w₂, rewrite_key_eq_ok_iff.2 ⟨r', w₁, hr', hw₁, rfl⟩,
    rewrite_key_eq_ok_iff.2 ⟨r, w₂, hr, hw₂, rfl⟩, hs⟩

/-- **An update under one key is not seen under another one.** -/
theorem unseen_key {a b : String} (hab : a ≠ b) (P : Focus → Except NavError Focus)
    (path : List Navigator) : Unseen ((key a).rewrite P) (reachedAlong (.key b :: path)) := by
  intro v v₁ _ h
  obtain ⟨r, _, -, hw, heq⟩ := rewrite_key_eq_ok_iff.1 h
  obtain rfl := Focus.value.inj heq
  rw [reachedAlong, reachedAlong, reach, reach, hw.valueUnder hab]

end Navigator

/-! ### Steps to children -/

theorem Tame.exists_values (hP : Tame P) {vs : List Value} {rs : List Focus}
    (h : List.Forall₂ (fun v r => P (.value v) = .ok r) vs rs) :
    ∃ bs : List Value, rs = bs.map .value ∧
      List.Forall₂ (fun v b => P (.value v) = .ok (.value b)) vs bs := by
  refine Focus.exists_values (h.imp fun v r hr => ?_)
  obtain ⟨b, rfl, -⟩ := hP v r hr
  exact ⟨b, rfl, hr⟩

theorem Tame.keeps (hP : Tame P) {vs bs : List Value}
    (h : List.Forall₂ (fun v b => P (.value v) = .ok (.value b)) vs bs) :
    List.Forall₂ Value.Keeps vs bs := by
  refine h.imp fun v b hb => ?_
  obtain ⟨w, hw, hkept⟩ := hP v _ hb
  rwa [Focus.value.inj hw]

namespace Navigator

variable {n : Navigator}

/-- A rewrite at a step to children succeeds when every child is rewritten and the children make a
value. -/
theorem Descends.rewrite_eq_ok_iff (hn : n.Descends) (hP : Tame P) {v : Value} {s : Focus} :
    n.rewrite P (.value v) = .ok s ↔
      ∃ x vs bs, n.exchange (.value v) = .ok x ∧ Exchange.Shape n v vs x ∧
        List.Forall₂ (fun v b => P (.value v) = .ok (.value b)) vs bs ∧
          x.rebuild (bs.map .value) = .ok s := by
  rw [hn.rewrite_value_eq_ok_iff]
  constructor
  · intro h
    obtain ⟨x, vs, rs, hx, hshape, hrs, -, h⟩ := h
    obtain ⟨bs, rfl, hbs⟩ := hP.exists_values hrs
    exact ⟨x, vs, bs, hx, hshape, hbs, h⟩
  · intro h
    obtain ⟨x, vs, bs, hx, hshape, hbs, h⟩ := h
    refine ⟨x, vs, bs.map .value, hx, hshape, ?_, fun r hr => ?_, h⟩
    · rwa [List.forall₂_map_right_iff]
    · obtain ⟨b, hb, rfl⟩ := List.mem_map.1 hr
      exact hshape.check (hP.keeps hbs) b hb

end Navigator

theorem Tame.rewrite {n : Navigator} (hn : n.Descends) (hP : Tame P) : Tame (n.rewrite P) := by
  intro v r h
  obtain ⟨x, vs, bs, -, hshape, hbs, h⟩ := (hn.rewrite_eq_ok_iff hP).1 h
  exact hshape.keeps ((hP.keeps hbs).imp fun _ _ hb => hb.string) h

/-- Updates that may change places at each of several values may do so at all of them. -/
theorem Swaps.all (h : Swaps P Q) {vs as bs : List Value} (hv : ∀ v ∈ vs, v.Clean)
    (ha : List.Forall₂ (fun v a => P (.value v) = .ok (.value a)) vs as)
    (hb : List.Forall₂ (fun a b => Q (.value a) = .ok (.value b)) as bs) :
    ∃ cs ds : List Value, List.Forall₂ (fun v c => Q (.value v) = .ok (.value c)) vs cs ∧
      List.Forall₂ (fun c d => P (.value c) = .ok (.value d)) cs ds ∧
        List.Forall₂ Value.Similar bs ds := by
  induction ha generalizing bs with
  | nil =>
    obtain rfl := List.forall₂_nil_left_iff.1 hb
    exact ⟨[], [], .nil, .nil, .nil⟩
  | @cons v a vs as hva _ ih =>
    obtain ⟨b, bs, hab, hbs, rfl⟩ := List.forall₂_cons_left_iff.1 hb
    obtain ⟨c, d, hc, hd, hs⟩ := h v a b (hv v List.mem_cons_self) hva hab
    obtain ⟨cs, ds, hcs, hds, hss⟩ := ih (fun w hw => hv w (List.mem_cons_of_mem v hw)) hbs
    exact ⟨c :: cs, d :: ds, .cons hc hcs, .cons hd hds, .cons hs hss⟩

/-- **Updates that may change places may do so above a step to children.** -/
theorem Swaps.rewrite {n : Navigator} (hn : n.Descends) (hP : Tame P) (hQ : Tame Q)
    (h : Swaps P Q) : Swaps (n.rewrite P) (n.rewrite Q) := by
  intro v v₁ v₂ hv h₁ h₂
  obtain ⟨x, vs, as, hx, hshape, has, hr₁⟩ := (hn.rewrite_eq_ok_iff hP).1 h₁
  have hkas := hP.keeps has
  -- the second update meets the answers of the first one
  obtain ⟨x₁, hx₁, hshape₁, hagain⟩ := hshape.again hn hx hv hkas hr₁
  obtain ⟨x₁', as', bs, hx₁', hshape₁', hbs, hr₂⟩ := (hn.rewrite_eq_ok_iff hQ).1 h₂
  obtain rfl : x₁ = x₁' := Except.ok.inj (hx₁.symm.trans hx₁')
  obtain rfl : as = as' := Except.ok.inj ((hn.reach hx₁ hshape₁).symm.trans (hn.reach hx₁ hshape₁'))
  have hkbs := hQ.keeps hbs
  rw [hagain bs hkbs] at hr₂
  -- below, the updates change places
  have hclean := hn.restores.clean hv (hn.reach hx hshape)
  obtain ⟨cs, ds, hcs, hds, hs⟩ := h.all hclean has hbs
  have hkcs := hQ.keeps hcs
  have hkds := hP.keeps hds
  have hkvbs : List.Forall₂ Value.Keeps vs bs :=
    Related.trans (fun _ _ _ h h' => h.trans h') hkas hkbs
  have hkvds : List.Forall₂ Value.Keeps vs ds :=
    Related.trans (fun _ _ _ h h' => h.trans h') hkcs hkds
  -- the other order defines no more on its way than this one at its end, and succeeds therefore
  have hdefds : List.Forall₂ (fun b d => d.isDefined = true → b.isDefined = true) bs ds :=
    hs.imp fun b d hbd hd => hbd.isDefined.trans hd
  have hdefcs : List.Forall₂ (fun b c => c.isDefined = true → b.isDefined = true) bs cs :=
    Related.trans (S := fun d c => Value.Keeps c d)
      (fun _ _ _ hbd hcd hc => hbd (hcd.isDefined hc)) hdefds hkds.flip
  obtain ⟨r, hr⟩ := hshape.succeeds hdefcs hr₂
  obtain ⟨w₁, rfl, -⟩ := hshape.keeps (hkcs.imp fun _ _ hc => hc.string) hr
  obtain ⟨y, hy, hshapey, hagainy⟩ := hshape.again hn hx hv hkcs hr
  obtain ⟨r', hr'⟩ := hshape.succeeds hdefds hr₂
  obtain ⟨w₂, rfl, -⟩ := hshape.keeps (hkvds.imp fun _ _ hd => hd.string) hr'
  refine ⟨w₁, w₂, (hn.rewrite_eq_ok_iff hQ).2 ⟨x, vs, cs, hx, hshape, hcs, hr⟩,
    (hn.rewrite_eq_ok_iff hP).2 ⟨y, cs, ds, hy, hshapey, hds, ?_⟩,
    hshape.similar hv hkvbs hkvds hs hr₂ hr'⟩
  rw [hagainy ds hkds, hr']

/-- **An update that a traversal does not notice goes unnoticed above a step to children.** -/
theorem Unseen.rewrite {n : Navigator} (hn : n.Descends) (hP : Tame P) (h : Unseen P R) :
    Unseen (n.rewrite P) fun v => .andThen R (n.reach v) := by
  intro v v₁ hv h₁
  obtain ⟨x, vs, as, hx, hshape, has, hr⟩ := (hn.rewrite_eq_ok_iff hP).1 h₁
  obtain ⟨x₁, hx₁, hshape₁, -⟩ := hshape.again hn hx hv (hP.keeps has) hr
  have hreach := hn.reach hx hshape
  have hclean := hn.restores.clean hv hreach
  have hall : List.Forall₂ (fun v u => R u = R v) vs as :=
    ((List.forall₂_and_left _ _).2 ⟨hclean, has⟩).imp fun u a hu => h u a hu.1 hu.2
  show Reached.andThen R (n.reach v₁) = .andThen R (n.reach v)
  rw [hn.reach hx₁ hshape₁, hreach]
  exact Reached.join_congr hall

namespace Navigator

/-! ### Paths -/

theorem tame_rewriteAlong {path : List Navigator} (hp : ∀ n ∈ path, n.Descends) (hP : Tame P) :
    Tame (rewriteAlong path P) := by
  induction path with
  | nil => exact hP
  | cons n path ih =>
    exact (ih fun m hm => hp m (List.mem_cons_of_mem n hm)).rewrite (hp n List.mem_cons_self)

theorem swaps_rewriteAlong {path : List Navigator} (hp : ∀ n ∈ path, n.Descends) (hP : Tame P)
    (hQ : Tame Q) (h : Swaps P Q) : Swaps (rewriteAlong path P) (rewriteAlong path Q) := by
  induction path with
  | nil => exact h
  | cons n path ih =>
    have hp' : ∀ m ∈ path, m.Descends := fun m hm => hp m (List.mem_cons_of_mem n hm)
    exact (ih hp').rewrite (hp n List.mem_cons_self) (tame_rewriteAlong hp' hP)
      (tame_rewriteAlong hp' hQ)

theorem unseen_rewriteAlong {path : List Navigator} (hp : ∀ n ∈ path, n.Descends) (hP : Tame P)
    {q : List Navigator} (h : Unseen P (reachedAlong q)) :
    Unseen (rewriteAlong path P) (reachedAlong (path ++ q)) := by
  induction path with
  | nil => exact h
  | cons n path ih =>
    have hp' : ∀ m ∈ path, m.Descends := fun m hm => hp m (List.mem_cons_of_mem n hm)
    exact (ih hp').rewrite (hp n List.mem_cons_self) (tame_rewriteAlong hp' hP)

end Navigator

theorem Navigator.builtIn_of_descends {c : List Navigator} (hc : ∀ n ∈ c, n.Descends) (a : String)
    {path : List Navigator} (hp : BuiltIn path) : BuiltIn (c ++ .key a :: path) := by
  intro n hn
  rcases List.mem_append.1 hn with hn | hn
  · exact (hc n hn).restores.isCustom
  · rcases List.mem_cons.1 hn with rfl | hn
    · rfl
    · exact hp n hn

/-- What `Path.map` gives along steps to children that end at a key. -/
theorem Path.map_eq_ok_iff (c : List Navigator) (hc : ∀ n ∈ c, n.Descends) (a : String)
    (path : List Navigator) (hp : Navigator.BuiltIn path) (config : Config) (f : Focus → Focus)
    (v w : Value) :
    Path.map ⟨c ++ .key a :: path, config⟩ f v = .ok w ↔
      Navigator.rewriteAlong c
        ((Navigator.key a).rewrite (Navigator.rewriteAlong path fun s => .ok (f s))) (.value v) =
          .ok (.value w) := by
  have hb := Navigator.builtIn_of_descends hc a hp
  rw [Path.map_eq _ hb, Navigator.rewriteAlong_append, Action.bind_eq_ok]
  constructor
  · intro h
    obtain ⟨s, hs, hw⟩ := h
    obtain ⟨u, rfl, -⟩ := Navigator.tame_rewriteAlong hc (Navigator.tame_key a _) v s hs
    obtain rfl : u = w := Except.ok.inj hw
    exact hs
  · exact fun h => ⟨.value w, h, rfl⟩

/-- One half of the law below: what can be done in one order can be done in the other. -/
theorem Path.updates_swap (c : List Navigator) (hc : ∀ n ∈ c, n.Descends) {a b : String}
    (hab : a ≠ b) (p' q' : List Navigator) (hp : Navigator.BuiltIn p') (hq : Navigator.BuiltIn q')
    (config config' : Config) {v : Value} (hv : v.Clean) (f g : Focus → Focus) {w : Value}
    (h : (Path.map ⟨c ++ .key a :: p', config⟩ f v >>=
      Path.map ⟨c ++ .key b :: q', config'⟩ g) = .ok w) :
    ∃ w', (Path.map ⟨c ++ .key b :: q', config'⟩ g v >>=
      Path.map ⟨c ++ .key a :: p', config⟩ f) = .ok w' ∧ w.Similar w' := by
  obtain ⟨v₁, h₁, h₂⟩ := (Action.bind_eq_ok _ _ _).1 h
  rw [Path.map_eq_ok_iff c hc a p' hp] at h₁
  rw [Path.map_eq_ok_iff c hc b q' hq] at h₂
  obtain ⟨w₁, w₂, hw₁, hw₂, hs⟩ := Navigator.swaps_rewriteAlong hc (Navigator.tame_key a _)
    (Navigator.tame_key b _) (Navigator.swaps_keys hab _ _) v v₁ w hv h₁ h₂
  refine ⟨w₂, (Action.bind_eq_ok _ _ _).2 ⟨w₁, ?_, ?_⟩, hs⟩
  · rwa [Path.map_eq_ok_iff c hc b q' hq]
  · rwa [Path.map_eq_ok_iff c hc a p' hp]

/-- **Independent updates commute and do not see each other.** Let two paths begin with the same
steps to children and part at two different keys. On a sound document the two updates succeed in one
order exactly when they do in the other, with the same result up to the order of entries; and what
the second path selects is the same before and after the update of the first. -/
theorem Path.updates_commute (c : List Navigator) (hc : ∀ n ∈ c, n.Descends) {a b : String}
    (hab : a ≠ b) (p' q' : List Navigator) (hp : Navigator.BuiltIn p') (hq : Navigator.BuiltIn q')
    (config config' : Config) (v : Value) (hu : v.UndefinedFree) (hw : v.WellFormed)
    (f g : Focus → Focus) :
    let p : Path := ⟨c ++ .key a :: p', config⟩
    let q : Path := ⟨c ++ .key b :: q', config'⟩
    ((∃ w, (p.map f v >>= q.map g) = .ok w) ↔ ∃ w, (q.map g v >>= p.map f) = .ok w) ∧
      (∀ w w', (p.map f v >>= q.map g) = .ok w → (q.map g v >>= p.map f) = .ok w' →
        w.Similar w') ∧
      ∀ v₁, p.map f v = .ok v₁ → q.select v₁ = q.select v := by
  intro p q
  have hv : v.Clean := (Value.Sound.mk hu hw).clean
  refine ⟨⟨?_, ?_⟩, ?_, ?_⟩
  · intro h
    obtain ⟨w, h⟩ := h
    obtain ⟨w', h', -⟩ := Path.updates_swap c hc hab p' q' hp hq config config' hv f g h
    exact ⟨w', h'⟩
  · intro h
    obtain ⟨w, h⟩ := h
    obtain ⟨w', h', -⟩ := Path.updates_swap c hc hab.symm q' p' hq hp config' config hv g f h
    exact ⟨w', h'⟩
  · intro w w' h h'
    obtain ⟨w'', h'', hs⟩ := Path.updates_swap c hc hab p' q' hp hq config config' hv f g h
    rwa [Except.ok.inj (h'.symm.trans h'')]
  · intro v₁ h
    have hb : Navigator.BuiltIn q.navigators := Navigator.builtIn_of_descends hc b hq
    rw [Path.map_eq_ok_iff c hc a p' hp] at h
    rw [q.select_eq_toExcept hb, q.select_eq_toExcept hb]
    exact congrArg Reached.toExcept (Navigator.unseen_rewriteAlong hc (Navigator.tame_key a _)
      (Navigator.unseen_key hab _ q') v v₁ hv h)

/-- A run in which each of two updates makes a mapping of a null that the other one then extends. -/
theorem Path.updates_commute_on_null :
    let p : Path := ⟨[.all, .key "a", .key "x"], {}⟩
    let q : Path := ⟨[.all, .key "b"], {}⟩
    let f : Focus → Focus := fun _ => .value (.integer 7)
    let g : Focus → Focus := fun s => if s.isVoid then .value (.integer 5) else .absent
    let v : Value := .sequence [.mapping [("b", .bool true)], .null]
    let v₁ : Value := .sequence [.mapping [("b", .bool true), ("a", .mapping [("x", .integer 7)])],
      .mapping [("a", .mapping [("x", .integer 7)])]]
    let w : Value := .sequence [.mapping [("a", .mapping [("x", .integer 7)])],
      .mapping [("a", .mapping [("x", .integer 7)]), ("b", .integer 5)]]
    let w' : Value := .sequence [.mapping [("a", .mapping [("x", .integer 7)])],
      .mapping [("b", .integer 5), ("a", .mapping [("x", .integer 7)])]]
    (p.map f v >>= q.map g) = .ok w ∧ (q.map g v >>= p.map f) = .ok w' ∧ w.Similar w' ∧
      p.map f v = .ok v₁ ∧ q.select v₁ = q.select v := by
  intro p q f g v v₁ w w'
  have hc : ∀ n ∈ [Navigator.all], n.Descends := List.forall_mem_singleton.2 trivial
  have hp : Navigator.BuiltIn [.key "x"] := List.forall_mem_singleton.2 rfl
  have hq : Navigator.BuiltIn [] := fun n hn => absurd hn List.not_mem_nil
  have hu : v.UndefinedFree := by
    simp [v, Value.UndefinedFree, Value.AllUndefinedFree, Value.EntriesUndefinedFree]
  have hw : v.WellFormed := by
    simp [v, Value.WellFormed, Value.AllWellFormed, Value.EntriesWellFormed, Entries.Distinct,
      Entries.keys]
  have hpq : (p.map f v >>= q.map g) = .ok w := by rfl
  have hqp : (q.map g v >>= p.map f) = .ok w' := by rfl
  have hv₁ : p.map f v = .ok v₁ := by rfl
  obtain ⟨-, hsimilar, hselect⟩ := Path.updates_commute [.all] hc (show "a" ≠ "b" by decide)
    [.key "x"] [] hp hq {} {} v hu hw f g
  exact ⟨hpq, hqp, hsimilar w w' hpq hqp, hv₁, hselect v₁ hv₁⟩

end DocPath
