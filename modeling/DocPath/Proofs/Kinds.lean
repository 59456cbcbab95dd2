import DocPath.Proofs.Exchange

/-!
# What kind of document a transform leaves

Most steps rebuild the value that they meet, and however they do it the result is of one family with
that value: a sequence stays a sequence, a mapping stays a mapping, a scalar stays as it is, and a void
value may become a sequence or a mapping. Only tests, projections and parsers pass the answer of the
rest of the path on as their own. So a document can get lost as a whole only along a path that has no
other steps.

* `Navigator.isTest`, `Navigator.isPassage` — the steps that rebuild nothing themselves;
* `Focus.Rebuilt` — what a step can make of a focus;
* `Navigator.rebuilt_of_exchange` — **what every other step makes of the focus that it meets**;
* `Navigator.ensures_value`, `Navigator.ensures_rebuilt` — the same along a path;
* `Path.transform_keeps_kind` — the law for whole paths, and what root removal changes.
-/

namespace DocPath

variable {σ : Type}

namespace Navigator

/-- A test goes on with the very value that it met, or not at all. -/
def isTest : Navigator → Bool
  | .pred _ => true
  | _ => false

/-- A passage rebuilds nothing: what the rest of the path answers, unparsed if need be, is its own
answer. -/
def isPassage : Navigator → Bool
  | .pred _ | .view _ | .parser _ _ => true
  | _ => false

end Navigator

/-! ### One step -/

namespace Focus

/-- What a step can make of a focus: it hands the focus back, or makes a sequence or a mapping of it,
if it was one or was void. -/
inductive Rebuilt : Focus → Focus → Prop
  | same (s : Focus) : Rebuilt s s
  | sequence (us vs : List Value) : Rebuilt (.value (.sequence us)) (.value (.sequence vs))
  | mapping (m m' : Entries Value) : Rebuilt (.value (.mapping m)) (.value (.mapping m'))
  | newSequence {s : Focus} (hs : s.isVoid = true) (vs : List Value) :
      Rebuilt s (.value (.sequence vs))
  | newMapping {s : Focus} (hs : s.isVoid = true) (m : Entries Value) :
      Rebuilt s (.value (.mapping m))

/-- A value is never rebuilt to nothing. -/
theorem Rebuilt.exists_value {v : Value} {r : Focus} (h : (value v).Rebuilt r) :
    ∃ w, r = .value w := by
  cases h <;> exact ⟨_, rfl⟩

/-- The family of a value that was rebuilt. -/
theorem Rebuilt.family {v w : Value} (h : (value v).Rebuilt (.value w)) :
    (v.isSequence = true → w.isSequence = true) ∧ (v.isMapping = true → w.isMapping = true) ∧
      (v.isLeaf = true → v.isVoid = false → w = v) ∧
      (v.isVoid = true → w = v ∨ w.isMapping = true ∨ w.isSequence = true) := by
  cases h with
  | same => exact ⟨id, id, fun _ _ => rfl, fun _ => .inl rfl⟩
  | sequence us vs =>
    exact ⟨fun _ => rfl, fun h => absurd h Bool.false_ne_true,
      fun h => absurd h Bool.false_ne_true, fun _ => .inr (.inr rfl)⟩
  | mapping m m' =>
    exact ⟨fun h => absurd h Bool.false_ne_true, fun _ => rfl,
      fun h => absurd h Bool.false_ne_true, fun _ => .inr (.inl rfl)⟩
  | newSequence hs vs =>
    have hs : v.isVoid = true := hs
    refine ⟨fun _ => rfl, fun h => ?_, fun _ h => ?_, fun _ => .inr (.inr rfl)⟩
    · cases v <;> first | exact absurd h Bool.false_ne_true | exact absurd hs Bool.false_ne_true
    · exact absurd (hs.symm.trans h) (by decide)
  | newMapping hs m =>
    have hs : v.isVoid = true := hs
    refine ⟨fun h => ?_, fun _ => rfl, fun _ h => ?_, fun _ => .inr (.inl rfl)⟩
    · cases v <;> first | exact absurd h Bool.false_ne_true | exact absurd hs Bool.false_ne_true
    · exact absurd (hs.symm.trans h) (by decide)

end Focus

/-- Whatever is answered, the exchange makes of `s` what a step can make of it. -/
def Exchange.Rebuilds (x : Exchange) (s : Focus) : Prop :=
  ∀ rs r, x.rebuild rs = .ok r → s.Rebuilt r

namespace Exchange

theorem rebuilds_idle (s : Focus) : (idle s).Rebuilds s := by
  intro rs r hr
  cases hr
  exact .same s

theorem rebuilds_single {f s : Focus} {put : Focus → Except NavError Focus}
    (h : ∀ a r, put a = .ok r → s.Rebuilt r) : (single f put).Rebuilds s :=
  fun rs r hr => h (rs.headD .absent) r hr

theorem rebuilds_unreachable (e : NavError) (s : Focus) : (unreachable e s).Rebuilds s := by
  refine rebuilds_single fun a r hr => ?_
  cases a with
  | absent => cases hr; exact .same s
  | value w =>
    dsimp only at hr
    split at hr
    · exact absurd hr (by simp)
    · cases hr; exact .same s

theorem rebuilds_fresh (name : String) {s : Focus} (hs : s.isVoid = true) :
    (fresh name s).Rebuilds s := by
  refine rebuilds_single fun a r hr => ?_
  cases a with
  | absent => cases hr; exact .same s
  | value w =>
    obtain rfl := Except.ok.inj hr
    split
    · exact .newMapping hs _
    · exact .same s

theorem rebuilds_slot (name : String) (m : Entries Value) :
    (slot name m).Rebuilds (.value (.mapping m)) := by
  refine rebuilds_single fun a r hr => ?_
  cases hr
  exact .mapping m _

theorem rebuilds_item (vs : List Value) (i : Nat) :
    (item vs i).Rebuilds (.value (.sequence vs)) := by
  refine rebuilds_single fun a r hr => ?_
  cases hr
  exact .sequence vs _

end Exchange

namespace Navigator

theorem rebuilt_of_exchangeElements {s : Focus} : (exchangeElements s).Rebuilds s := by
  cases s with
  | absent => exact Exchange.rebuilds_idle _
  | value v =>
    cases v with
    | sequence vs => intro rs r hr; cases hr; exact .sequence vs _
    | mapping m => intro rs r hr; cases hr; exact .mapping m _
    | _ => exact Exchange.rebuilds_idle _

theorem rebuilt_of_exchangeValues {s : Focus} {x : Exchange} (hx : exchangeValues s = .ok x) :
    x.Rebuilds s := by
  cases s with
  | absent => cases hx; exact Exchange.rebuilds_idle _
  | value v =>
    cases v with
    | mapping m => cases hx; intro rs r hr; cases hr; exact .mapping m _
    | sequence vs => exact absurd hx (by simp [exchangeValues, Focus.isLeaf, Value.isLeaf])
    | _ => cases hx; exact Exchange.rebuilds_idle _

theorem rebuilt_of_exchangeKeys {s : Focus} {x : Exchange} (hx : exchangeKeys s = .ok x) :
    x.Rebuilds s := by
  cases s with
  | absent => cases hx; exact Exchange.rebuilds_idle _
  | value v =>
    cases v with
    | mapping m => cases hx; intro rs r hr; cases hr; exact .mapping m _
    | sequence vs => exact absurd hx (by simp [exchangeKeys, Focus.isLeaf, Value.isLeaf])
    | _ => cases hx; exact Exchange.rebuilds_idle _

theorem rebuilt_of_exchangeEnd (n : Navigator) (position : Nat → Nat) {s : Focus} {x : Exchange}
    (hx : exchangeEnd n position s = .ok x) : x.Rebuilds s := by
  cases s with
  | absent => cases hx; exact Exchange.rebuilds_idle _
  | value v =>
    cases v with
    | sequence vs =>
      cases vs with
      | nil => cases hx; exact Exchange.rebuilds_idle _
      | cons w ws => cases hx; exact Exchange.rebuilds_item _ _
    | mapping m => exact absurd hx (by simp [exchangeEnd, Focus.isLeaf, Value.isLeaf])
    | _ => cases hx; exact Exchange.rebuilds_idle _

theorem rebuilt_of_exchangeKey (name : String) (s : Focus) : (exchangeKey name s).Rebuilds s := by
  cases s with
  | absent => exact Exchange.rebuilds_fresh name rfl
  | value v =>
    cases v with
    | mapping m => exact Exchange.rebuilds_slot name m
    | null => exact Exchange.rebuilds_fresh name rfl
    | undefined => exact Exchange.rebuilds_fresh name rfl
    | _ => exact Exchange.rebuilds_unreachable _ _

theorem rebuilt_of_exchangeNth (index : Int64) (s : Focus) : (exchangeNth index s).Rebuilds s := by
  cases s with
  | absent => exact Exchange.rebuilds_unreachable _ _
  | value v =>
    cases v with
    | sequence vs =>
      rw [exchangeNth]
      cases Sequence.resolveIndex index vs.length with
      | none => exact Exchange.rebuilds_unreachable _ _
      | some i => exact Exchange.rebuilds_item vs i
    | _ => exact Exchange.rebuilds_unreachable _ _

/-- What has elements to insert among may be rebuilt to any sequence. -/
theorem rebuilt_of_itemsOf {n : Navigator} {s : Focus} {us : List Value}
    (hs : itemsOf n s = .ok us) (vs : List Value) : s.Rebuilt (.value (.sequence vs)) := by
  rcases itemsOf_eq_ok hs with ⟨hs, -⟩ | rfl
  · exact .newSequence hs vs
  · exact .sequence us vs

theorem rebuilt_of_exchangeSplice {n : Navigator} {place : List Value → List Value → List Value}
    {s : Focus} {x : Exchange} (hx : exchangeSplice n place s = .ok x) : x.Rebuilds s := by
  obtain ⟨us, hus, rfl⟩ := (Action.map_eq_ok _ _ _).1 hx
  refine Exchange.rebuilds_single fun a r hr => ?_
  cases a with
  | absent => cases hr; exact rebuilt_of_itemsOf hus _
  | value w => cases w <;> cases hr <;> exact rebuilt_of_itemsOf hus _

theorem rebuilt_of_exchangeEdge {n : Navigator} {place : List Value → Value → List Value}
    {s : Focus} {x : Exchange} (hx : exchangeEdge n place s = .ok x) : x.Rebuilds s := by
  obtain ⟨us, hus, rfl⟩ := (Action.map_eq_ok _ _ _).1 hx
  refine Exchange.rebuilds_single fun a r hr => ?_
  cases a <;> cases hr <;> exact rebuilt_of_itemsOf hus _

theorem rebuilt_of_exchangeBefore {index : Int64} {s : Focus} {x : Exchange}
    (hx : exchangeBefore index s = .ok x) : x.Rebuilds s := by
  obtain ⟨us, hus, rfl⟩ := (Action.map_eq_ok _ _ _).1 hx
  refine Exchange.rebuilds_single fun a r hr => ?_
  cases a with
  | absent => cases hr; exact rebuilt_of_itemsOf hus _
  | value w =>
    dsimp only at hr
    split at hr
    · cases hr; exact rebuilt_of_itemsOf hus _
    · exact absurd hr (by simp)

theorem rebuilt_of_exchangeSubmap {names : List String} {s : Focus} {x : Exchange}
    (hx : exchangeSubmap names s = .ok x) : x.Rebuilds s := by
  obtain ⟨m, hm, rfl⟩ := (Action.map_eq_ok _ _ _).1 hx
  have hmapping (m' : Entries Value) : s.Rebuilt (.value (.mapping m')) := by
    cases s with
    | absent => exact .newMapping rfl m'
    | value v =>
      cases v with
      | mapping m => exact .mapping m m'
      | null => exact .newMapping rfl m'
      | undefined => exact .newMapping rfl m'
      | _ => exact absurd hm (by simp [entriesOf, Focus.isVoid, Value.isVoid])
  refine Exchange.rebuilds_single fun a r hr => ?_
  obtain ⟨part, -, rfl⟩ := (Action.map_eq_ok _ _ _).1 hr
  split
  · exact .same s
  · exact hmapping _

theorem rebuilt_of_exchangeMatching {holds : Value → Except NavError Bool} {s : Focus}
    {x : Exchange} (hx : exchangeMatching holds s = .ok x) : x.Rebuilds s := by
  cases s with
  | absent => cases hx; exact Exchange.rebuilds_idle _
  | value v =>
    cases v with
    | sequence vs =>
      obtain ⟨marked, -, rfl⟩ := (Action.map_eq_ok _ _ _).1 hx
      refine Exchange.rebuilds_single fun a r hr => ?_
      obtain ⟨edited, -, rfl⟩ := (Action.map_eq_ok _ _ _).1 hr
      exact .sequence vs _
    | mapping m => exact absurd hx (by simp [exchangeMatching, Focus.isLeaf, Value.isLeaf])
    | _ => cases hx; exact Exchange.rebuilds_idle _

/-- **Every step but a passage rebuilds the focus that it meets**, whatever it is answered. -/
theorem rebuilt_of_exchange {n : Navigator} (hn : n.isPassage = false) {s : Focus} {x : Exchange}
    (hx : n.exchange s = .ok x) : x.Rebuilds s := by
  cases n with
  | all => cases hx; exact rebuilt_of_exchangeElements
  | mapVals => exact rebuilt_of_exchangeValues hx
  | mapKeys => exact rebuilt_of_exchangeKeys hx
  | first => exact rebuilt_of_exchangeEnd .first (fun _ => 0) hx
  | last => exact rebuilt_of_exchangeEnd .last (fun length => length - 1) hx
  | beginning => exact rebuilt_of_exchangeSplice hx
  | ending => exact rebuilt_of_exchangeSplice hx
  | beforeElem => exact rebuilt_of_exchangeEdge hx
  | afterElem => exact rebuilt_of_exchangeEdge hx
  | key name => cases hx; exact rebuilt_of_exchangeKey name s
  | nth index => cases hx; exact rebuilt_of_exchangeNth index s
  | beforeIndex index => exact rebuilt_of_exchangeBefore hx
  | submap names => exact rebuilt_of_exchangeSubmap hx
  | filterer path => exact rebuilt_of_exchangeMatching hx
  | custom user => cases hx; exact Exchange.rebuilds_idle s
  | pred holds => exact absurd hn (by simp [isPassage])
  | view project => exact absurd hn (by simp [isPassage])
  | parser parse unparse => exact absurd hn (by simp [isPassage])

/-! ### Paths -/

/-- One step that is no passage, before whatever comes next. -/
theorem ensures_rebuilt_transform {n : Navigator} (hn : n.isPassage = false)
    (hc : n.isCustom = false) (s : Focus) (next : Continuation σ) :
    Action.Ensures s.Rebuilt (n.transform s next) := by
  rw [transform_eq_carryOut n hc]
  refine (Action.ensures_ofExcept fun x hx => rebuilt_of_exchange hn hx).bind fun x hx => ?_
  exact (Action.ensures_true _).bind fun rs _ => Action.ensures_ofExcept fun r hr => hx rs r hr

/-- A passage answers with a value where the rest of the path does. -/
theorem ensures_value_passage {n : Navigator} (hn : n.isPassage = true) {next : Continuation σ}
    (h : ∀ v, Action.Ensures (fun r => ∃ w, r = Focus.value w) (next (.value v))) (v : Value) :
    Action.Ensures (fun r => ∃ w, r = Focus.value w) (n.transform (.value v) next) := by
  cases n with
  | pred holds =>
    show Action.Ensures _ (if holds v then next (.value v) else pure (.value v))
    split
    · exact h v
    · exact Action.ensures_pure ⟨v, rfl⟩
  | view project => exact h (project v)
  | parser parse unparse =>
    refine (Action.ensures_true _).bind fun parsed _ => (h parsed).bind fun r hr => ?_
    obtain ⟨w, rfl⟩ := hr
    exact (Action.ensures_true _).bind fun u _ => Action.ensures_pure ⟨u, rfl⟩
  | _ => exact absurd hn (by simp [isPassage])

/-- **Along a path with a step that is no passage, a value is answered by a value.** -/
theorem ensures_value (path : List Navigator) (hp : BuiltIn path)
    (hpath : ∃ n ∈ path, n.isPassage = false) (v : Value) (update : Focus → Action σ Focus) :
    Action.Ensures (fun r => ∃ w, r = Focus.value w) (transformAlong path (.value v) update) := by
  induction path generalizing v with
  | nil => obtain ⟨n, hn, -⟩ := hpath; exact absurd hn List.not_mem_nil
  | cons n path ih =>
    cases hn : n.isPassage with
    | false =>
      intro st r st' hr
      exact (ensures_rebuilt_transform hn hp.head (.value v) _ st r st' hr).exists_value
    | true =>
      refine ensures_value_passage hn (fun w => ih hp.tail ?_ w) v
      obtain ⟨m, hm, hmp⟩ := hpath
      rcases List.mem_cons.1 hm with rfl | hm
      · exact absurd (hn.symm.trans hmp) (by decide)
      · exact ⟨m, hm, hmp⟩

/-- **Along a path on which only tests come before such a step, the value is rebuilt.** -/
theorem ensures_rebuilt (tests path : List Navigator) (ht : ∀ m ∈ tests, m.isTest = true)
    {n : Navigator} (hn : n.isPassage = false) (hc : n.isCustom = false) (s : Focus)
    (update : Focus → Action σ Focus) :
    Action.Ensures s.Rebuilt (transformAlong (tests ++ n :: path) s update) := by
  induction tests with
  | nil => exact ensures_rebuilt_transform hn hc s _
  | cons m tests ih =>
    have ih := ih fun k hk => ht k (List.mem_cons_of_mem m hk)
    cases m with
    | pred holds =>
      show Action.Ensures s.Rebuilt
        (if holds s.orUndefined then transformAlong (tests ++ n :: path) s update else pure s)
      split
      · exact ih
      · exact Action.ensures_pure (.same s)
    | _ => exact absurd (ht _ List.mem_cons_self) (by simp [isTest])

end Navigator

/-- **A transform leaves a document of the same kind.** Along a path with a step that is no passage a
transform never answers nothing, so that its end cannot report a removed root. If only tests come
before that step, then a sequence stays a sequence, a mapping a mapping and a scalar itself, and a void
document stays itself or becomes a mapping or a sequence. Whether the root may be removed decides about
nothing but a transform that answers nothing as a whole: a null is left then, in the place of an
error. -/
theorem Path.transform_keeps_kind (navigators : List Navigator)
    (hp : Navigator.BuiltIn navigators) (config : Config) (v : Value)
    (update : Focus → Action σ Focus) (st : σ) :
    let p : Path := ⟨navigators, config⟩
    let strict : Path := ⟨navigators, { config with allowRootRemoval := false }⟩
    let lenient : Path := ⟨navigators, { config with allowRootRemoval := true }⟩
    ((∃ n ∈ navigators, n.isPassage = false) →
      ∀ r st', (p.transformWith (.value v) update).exec st = (.ok r, st') →
        ∃ w, r = .value w ∧ (strict.tryTransform update v).exec st = (.ok w, st') ∧
          (lenient.tryTransform update v).exec st = (.ok w, st')) ∧
    ((∃ tests n rest, navigators = tests ++ n :: rest ∧ (∀ m ∈ tests, m.isTest = true) ∧
        n.isPassage = false) →
      ∀ w st', (p.transformWith (.value v) update).exec st = (.ok (.value w), st') →
        (v.isSequence = true → w.isSequence = true) ∧ (v.isMapping = true → w.isMapping = true) ∧
          (v.isLeaf = true → v.isVoid = false → w = v) ∧
          (v.isVoid = true → w = v ∨ w.isMapping = true ∨ w.isSequence = true)) ∧
    (∀ st', (p.transformWith (.value v) update).exec st = (.ok .absent, st') →
      (strict.tryTransform update v).exec st = (.error .rootRemoved, st') ∧
        (lenient.tryTransform update v).exec st = (.ok .null, st')) ∧
    ((∀ st', (p.transformWith (.value v) update).exec st ≠ (.ok .absent, st')) →
      (strict.tryTransform update v).exec st = (lenient.tryTransform update v).exec st) := by
  intro p strict lenient
  -- how the result of the traversal is finished under each setting
  have hfinish (config' : Config) (r : Except NavError Focus) (st' : σ)
      (h : (p.transformWith (.value v) update).exec st = (r, st')) :
      ((⟨navigators, config'⟩ : Path).tryTransform update v).exec st =
        (r >>= Path.finish ⟨navigators, config'⟩, st') := by
    have h : ((⟨navigators, config'⟩ : Path).transformWith (.value v) update).exec st = (r, st') := h
    rw [Path.tryTransform, Action.exec_bind, h]
    cases r with
    | error e => rfl
    | ok r => exact Action.exec_ofExcept _ _
  refine ⟨?_, ?_, ?_, ?_⟩
  · intro hpath r st' hr
    obtain ⟨w, rfl⟩ := Navigator.ensures_value navigators hp hpath v update st r st' hr
    exact ⟨w, rfl, hfinish _ _ _ hr, hfinish _ _ _ hr⟩
  · intro hpath w st' hr
    obtain ⟨tests, n, rest, rfl, ht, hn⟩ := hpath
    have hc : n.isCustom = false := hp n (List.mem_append_right tests List.mem_cons_self)
    exact (Navigator.ensures_rebuilt tests rest ht hn hc (.value v) update st _ st' hr).family
  · intro st' hr
    exact ⟨hfinish _ _ _ hr, hfinish _ _ _ hr⟩
  · intro hr
    rcases h : (p.transformWith (.value v) update).exec st with ⟨_ | _ | w, st'⟩
    · rw [hfinish _ _ _ h, hfinish _ _ _ h]
      rfl
    · rw [hfinish _ _ _ h, hfinish _ _ _ h]
      rfl
    · exact absurd h (hr st')

/-- A run in which nothing is handed on below an insertion point and a null becomes an empty sequence,
and one along a projection alone, which loses the document. -/
theorem Path.transform_keeps_kind_of_null :
    let rebuilding : List Navigator := [.pred Value.isVoid, .beforeElem, .submap ["n"], .key "n"]
    let passing : List Navigator := [.pred Value.isDefined, .view fun v => .string v.kind]
    let update : Focus → Action Nat Focus := fun _ => do
      modify (· + 1)
      pure .absent
    let w : Value := .sequence []
    ((⟨rebuilding, {}⟩ : Path).transformWith (.value .null) update).exec 0 = (.ok (.value w), 1) ∧
      (w = .null ∨ w.isMapping = true ∨ w.isSequence = true) ∧
      ((⟨rebuilding, {}⟩ : Path).tryTransform update .null).exec 0 = (.ok w, 1) ∧
      ((⟨passing, {}⟩ : Path).tryTransform update .null).exec 0 = (.error .rootRemoved, 1) ∧
      ((⟨passing, { allowRootRemoval := true }⟩ : Path).tryTransform update .null).exec 0 =
        (.ok .null, 1) := by
  intro rebuilding passing update w
  have hrun : ((⟨rebuilding, {}⟩ : Path).transformWith (.value .null) update).exec 0 =
      (.ok (.value w), 1) := by rfl
  have hlost : ((⟨passing, {}⟩ : Path).transformWith (.value .null) update).exec 0 =
      (.ok .absent, 1) := by rfl
  have hrebuilding : ∀ n ∈ rebuilding, n.isCustom = false := by decide
  have hpassing : ∀ n ∈ passing, n.isCustom = false := by decide
  obtain ⟨hvalue, hkind, -⟩ := Path.transform_keeps_kind rebuilding hrebuilding {} .null update 0
  obtain ⟨-, -, hremoved, -⟩ := Path.transform_keeps_kind passing hpassing {} .null update 0
  obtain ⟨w', hw', hstrict, -⟩ :=
    hvalue ⟨.beforeElem, List.mem_cons_of_mem _ List.mem_cons_self, rfl⟩ _ 1 hrun
  obtain rfl := Focus.value.inj hw'
  obtain ⟨-, -, -, hvoid⟩ := hkind
    ⟨[.pred Value.isVoid], .beforeElem, [.submap ["n"], .key "n"], rfl,
      List.forall_mem_singleton.2 rfl, rfl⟩ w 1 hrun
  exact ⟨hrun, hvoid rfl, hstrict, hremoved 1 hlost⟩

end DocPath
