import DocPath.Proofs.Entries
import DocPath.Proofs.Reached

/-!
# Transforms as exchanges

However the navigators are written, what each built-in one does in a transform has the same form:
it hands on a list of focuses, looks at every answer as it comes, and makes the new value of the
place from all the answers together. Nothing in this form depends on the update but the answers.

* `Exchange` — the focuses asked about, the test of one answer, and the value made of them all;
* `Exchange.carryOut` — an exchange with the answers of an update;
* `Navigator.exchange` — the exchange of each built-in navigator;
* `Navigator.transform_eq_carryOut` — **a transform carries its exchange out**;
* `Navigator.exchange_value` — **a transform asks about what selecting hands on**, insertion
  points apart.
-/

namespace DocPath

variable {σ : Type}

/-- What happens at one navigator in a transform. -/
structure Exchange where
  /-- The focuses handed on, in order. -/
  asked : List Focus
  /-- The test that every answer must pass as soon as it is there. -/
  check : Focus → Except NavError Unit
  /-- The new value of the place. -/
  rebuild : List Focus → Except NavError Focus

namespace Exchange

/-- Asks about one focus. -/
def ask (x : Exchange) (next : Focus → Action σ Focus) (f : Focus) : Action σ Focus := do
  let r ← next f
  Action.ofExcept (x.check r)
  pure r

/-- Carries the exchange out with the answers of `next`. -/
def carryOut (x : Exchange) (next : Focus → Action σ Focus) : Action σ Focus := do
  let rs ← x.asked.mapM (x.ask next)
  Action.ofExcept (x.rebuild rs)

/-! ### Kinds of exchanges -/

/-- Every answer will do. -/
def accept : Focus → Except NavError Unit := fun _ => .ok ()

/-- Nothing is asked and nothing changes. -/
def idle (s : Focus) : Exchange := ⟨[], accept, fun _ => .ok s⟩

/-- One focus is asked about. -/
def single (f : Focus) (put : Focus → Except NavError Focus) : Exchange :=
  ⟨[f], accept, fun rs => put (rs.headD .absent)⟩

/-- A place that is not there: something defined cannot be written to it. -/
def unreachable (error : NavError) (s : Focus) : Exchange :=
  single (.value .undefined) fun
    | .value w => if w.isDefined then .error error else .ok s
    | .absent => .ok s

/-- The value under a key of a mapping. -/
def slot (name : String) (m : Entries Value) : Exchange :=
  single (.value (Navigator.valueUnder name (.mapping m))) fun r =>
    .ok (.value (.mapping (Navigator.writeEntry m name r)))

/-- A key of a void value: a mapping is made for something defined. -/
def fresh (name : String) (s : Focus) : Exchange :=
  single (.value .undefined) fun
    | .value w => .ok (if w.isDefined then .value (.mapping [(name, w)]) else s)
    | .absent => .ok s

/-- The sequence with the element at one position replaced, or removed on `absent`. -/
def replaceAt (items : List Value) (i : Nat) : Focus → List Value
  | .value w => items.set i w
  | .absent => items.eraseIdx i

/-- The element at one position of a sequence. -/
def item (items : List Value) (i : Nat) : Exchange :=
  single (.value (items[i]?.getD .undefined)) fun r => .ok (.value (.sequence (replaceAt items i r)))

/-- All elements of a sequence. -/
def items (vs : List Value) : Exchange :=
  ⟨vs.map .value, accept, fun rs => .ok (.value (.sequence (rs.filterMap Focus.value?)))⟩

/-- The entries with new values; an absent answer drops its entry. -/
def revalued (m : Entries Value) (rs : List Focus) : Entries Value :=
  (m.zip rs).filterMap fun x => x.2.value?.map fun w => (x.1.1, w)

/-- All values of a mapping. -/
def values (m : Entries Value) : Exchange :=
  ⟨m.map fun e => .value e.2, accept, fun rs => .ok (.value (.mapping (revalued m rs)))⟩

/-- An answer about a key must be a key, unless it drops the entry. -/
def checkKey : Focus → Except NavError Unit
  | .value w => (Mapping.keyOf w).map fun _ => ()
  | .absent => .ok ()

/-- The entry with the key that was answered. -/
def rekeyed (e : String × Value) (r : Focus) : Option (String × Value) :=
  r.value?.bind fun w => (Mapping.keyOf w).toOption.map fun k => (k, e.2)

/-- An answer about an entry must be a pair, unless it drops the entry. -/
def checkEntry : Focus → Except NavError Unit
  | .value w => (Mapping.entryOf w).map fun _ => ()
  | .absent => .ok ()

/-- The entry that was answered. -/
def reentered (r : Focus) : Option (String × Value) :=
  r.value?.bind fun w => (Mapping.entryOf w).toOption

/-- All entries of a mapping, each of which is asked about and made anew. -/
def collected (about : String × Value → Focus) (check : Focus → Except NavError Unit)
    (made : String × Value → Focus → Option (String × Value)) (m : Entries Value) : Exchange :=
  ⟨m.map about, check, fun rs =>
    .ok (.value (.mapping (Entries.ofList ((m.zip rs).filterMap fun x => made x.1 x.2))))⟩

/-- All keys of a mapping. -/
def keys (m : Entries Value) : Exchange :=
  collected (fun e => .value (.string e.1)) checkKey rekeyed m

/-- All entries of a mapping, as pairs. -/
def entries (m : Entries Value) : Exchange :=
  collected (fun e => .value (Value.ofEntry e)) checkEntry (fun _ => reentered) m

end Exchange

namespace Navigator

/-! ### The exchanges of the navigators -/

def exchangeElements : Focus → Exchange
  | .value (.sequence vs) => .items vs
  | .value (.mapping m) => .entries m
  | s => .idle s

def exchangeValues : Focus → Except NavError Exchange
  | .value (.mapping m) => .ok (.values m)
  | s => if s.isLeaf then .ok (.idle s) else .error (mapVals.wantsMapping s.kind)

def exchangeKeys : Focus → Except NavError Exchange
  | .value (.mapping m) => .ok (.keys m)
  | s => if s.isLeaf then .ok (.idle s) else .error (mapKeys.wantsMapping s.kind)

/-- An element at one end, the position being counted from the length. -/
def exchangeEnd (n : Navigator) (position : Nat → Nat) : Focus → Except NavError Exchange
  | .value (.sequence []) => .ok (.idle (.value (.sequence [])))
  | .value (.sequence (v :: vs)) => .ok (.item (v :: vs) (position (v :: vs).length))
  | s => if s.isLeaf then .ok (.idle s) else .error (n.wantsSequence s.kind)

def exchangeKey (name : String) : Focus → Exchange
  | .value (.mapping m) => .slot name m
  | s => if s.isVoid then .fresh name s else .unreachable ((key name).wantsMapping s.kind) s

def exchangeNth (index : Int64) : Focus → Exchange
  | .value (.sequence vs) =>
    match Sequence.resolveIndex index vs.length with
    | some i => .item vs i
    | none => .unreachable (.indexOutOfRange index vs.length) (.value (.sequence vs))
  | s =>
    if s.isVoid then .unreachable (.indexOutOfRange index 0) s
    else .unreachable ((nth index).wantsSequence s.kind) s

/-- An end at which the elements of a sequence, or any other value, are inserted. -/
def exchangeSplice (n : Navigator) (place : List Value → List Value → List Value) (s : Focus) :
    Except NavError Exchange :=
  (itemsOf n s).map fun vs => .single (.value (.sequence [])) fun
    | .value (.sequence added) => .ok (.value (.sequence (place vs added)))
    | .value w => .ok (.value (.sequence (place vs [w])))
    | .absent => .ok (.value (.sequence vs))

/-- An end at which one element is inserted. -/
def exchangeEdge (n : Navigator) (place : List Value → Value → List Value) (s : Focus) :
    Except NavError Exchange :=
  (itemsOf n s).map fun vs => .single .absent fun
    | .value w => .ok (.value (.sequence (place vs w)))
    | .absent => .ok (.value (.sequence vs))

/-- An index before which one element is inserted. -/
def exchangeBefore (index : Int64) (s : Focus) : Except NavError Exchange :=
  (itemsOf (beforeIndex index) s).map fun vs => .single .absent fun
    | .value w =>
      match Sequence.resolveInsertIndex index vs.length with
      | some i => .ok (.value (.sequence (Sequence.insertAt vs i w)))
      | none => .error (.indexOutOfRange index vs.length)
    | .absent => .ok (.value (.sequence vs))

def exchangeParsed (parse unparse : Value → Except NavError Value) (s : Focus) :
    Except NavError Exchange :=
  (parse s.orUndefined).map fun w => .single (.value w) fun
    | .value w => (unparse w).map .value
    | .absent => .ok .absent

/-- The entries of which the named ones are taken; a void value has none. -/
def entriesOf (names : List String) : Focus → Except NavError (Entries Value)
  | .value (.mapping m) => .ok m
  | s => if s.isVoid then .ok [] else .error ((submap names).wantsMapping s.kind)

/-- The entries that an answer puts in the place of the named ones. -/
def partAnswered (names : List String) : Focus → Except NavError (Entries Value)
  | .value (.mapping part) => .ok part
  | .absent => .ok []
  | .value w => .error ((submap names).mismatch "a mapping result" w.kind)

def exchangeSubmap (names : List String) (s : Focus) : Except NavError Exchange :=
  (entriesOf names s).map fun m => .single (.value (.mapping (Entries.pick names m))) fun r =>
    (partAnswered names r).map fun part =>
      if s.isVoid && part.isEmpty then s else .value (.mapping (replacePart names m part))

/-- The elements that an answer puts in the place of the matching ones. -/
def editedAnswered : Focus → Except NavError (List Value)
  | .value (.sequence edited) => .ok edited
  | .absent => .ok []
  | .value w => .error ((filterer []).mismatch "a sequence result" w.kind)

def exchangeMatching (holds : Value → Except NavError Bool) : Focus → Except NavError Exchange
  | .value (.sequence vs) =>
    (markMatching holds vs).map fun marked => .single (.value (.sequence (matching marked))) fun r =>
      (editedAnswered r).map fun edited => .value (.sequence (realign marked edited))
  | s => if s.isLeaf then .ok (.idle s) else .error ((filterer []).wantsSequence s.kind)

/-- The exchange of a built-in navigator; a navigator of the user has none. -/
def exchange (n : Navigator) (s : Focus) : Except NavError Exchange :=
  match n with
  | .all => .ok (exchangeElements s)
  | .mapVals => exchangeValues s
  | .mapKeys => exchangeKeys s
  | .first => exchangeEnd .first (fun _ => 0) s
  | .last => exchangeEnd .last (fun length => length - 1) s
  | .beginning => exchangeSplice .beginning (fun vs added => added ++ vs) s
  | .ending => exchangeSplice .ending (fun vs added => vs ++ added) s
  | .beforeElem => exchangeEdge .beforeElem (fun vs w => Sequence.prepend w vs) s
  | .afterElem => exchangeEdge .afterElem Sequence.append s
  | .key name => .ok (exchangeKey name s)
  | .nth index => .ok (exchangeNth index s)
  | .beforeIndex index => exchangeBefore index s
  | .pred holds => .ok (if holds s.orUndefined then .single s .ok else .idle s)
  | .view project => .ok (.single (.value (project s.orUndefined)) .ok)
  | .parser parse unparse => exchangeParsed parse unparse s
  | .submap names => exchangeSubmap names s
  | .filterer path => exchangeMatching (matchesAlong path) s
  | .custom _ => .ok (.idle s)

end Navigator

/-! ### A transform carries its exchange out -/

namespace Exchange

/-- An answer that is tested is given back if it passes. -/
theorem ask_eq (x : Exchange) (next : Focus → Action σ Focus) (f : Focus) :
    x.ask next f =
      next f >>= fun r => Action.ofExcept (x.check r >>= fun _ => pure r) := by
  rw [ask]
  congr 1
  funext r
  rw [Action.ofExcept_bind]
  rfl

theorem ask_of_accept {x : Exchange} (h : x.check = accept) (next : Focus → Action σ Focus) :
    x.ask next = next := by
  funext f
  rw [ask, h]
  exact bind_pure (next f)

theorem carryOut_single (f : Focus) (put : Focus → Except NavError Focus)
    (next : Focus → Action σ Focus) :
    (single f put).carryOut next = next f >>= fun r => Action.ofExcept (put r) := by
  rw [carryOut, ask_of_accept rfl]
  show [f].mapM next >>= _ = _
  rw [List.mapM_cons, bind_assoc]
  rfl

theorem carryOut_unreachable (error : NavError) (s : Focus) (next : Focus → Action σ Focus) :
    (unreachable error s).carryOut next = Navigator.transformUnreachable error s next := by
  rw [unreachable, carryOut_single, Navigator.transformUnreachable]
  congr 1
  funext r
  cases r with
  | absent => rfl
  | value w => cases w <;> rfl

theorem updateAt_eq (f : Value → Action σ Focus) (vs : List Value) (i : Nat) (h : i < vs.length) :
    Sequence.updateAt f vs i = f (vs[i]?.getD .undefined) >>= fun r => pure (replaceAt vs i r) := by
  induction vs generalizing i with
  | nil => exact absurd h (Nat.not_lt_zero i)
  | cons v vs ih =>
    cases i with
    | zero =>
      rw [Sequence.updateAt]
      show f v >>= _ = f v >>= _
      congr 1
      funext r
      cases r <;> rfl
    | succ i =>
      rw [Sequence.updateAt, ih i (Nat.lt_of_succ_lt_succ h), bind_assoc]
      show f (vs[i]?.getD .undefined) >>= _ = f (vs[i]?.getD .undefined) >>= _
      congr 1
      funext r
      cases r <;> rfl

theorem carryOut_item (vs : List Value) (i : Nat) (h : i < vs.length)
    (next : Focus → Action σ Focus) :
    (item vs i).carryOut next =
      Sequence.updateAt (fun v => next (.value v)) vs i >>= fun ws =>
        pure (.value (.sequence ws)) := by
  rw [item, carryOut_single, updateAt_eq _ vs i h, bind_assoc]
  rfl

theorem mapItems_eq (f : Value → Action σ Focus) (vs : List Value) :
    Sequence.mapItems f vs = vs.mapM f >>= fun rs => pure (rs.filterMap Focus.value?) := by
  induction vs with
  | nil => rfl
  | cons v vs ih =>
    rw [Sequence.mapItems, ih, List.mapM_cons]
    simp only [bind_assoc, pure_bind]
    congr 1
    funext r
    congr 1
    funext rs
    cases r <;> rfl

theorem mapValues_eq (f : Value → Action σ Focus) (m : Entries Value) :
    Mapping.mapValues f m = (m.mapM fun e => f e.2) >>= fun rs => pure (revalued m rs) := by
  induction m with
  | nil => rfl
  | cons e m ih =>
    obtain ⟨k, v⟩ := e
    rw [Mapping.mapValues, ih, List.mapM_cons]
    simp only [bind_assoc, pure_bind]
    congr 1
    funext r
    congr 1
    funext rs
    cases r <;> rfl

/-- Collecting entries, when each of them is made of one checked answer. -/
theorem collect_eq (x : Exchange) (next : Focus → Action σ Focus) (about : String × Value → Focus)
    (made : String × Value → Focus → Option (String × Value))
    (f : String × Value → Action σ (Option (String × Value)))
    (hf : ∀ e, f e = x.ask next (about e) >>= fun r => pure (made e r)) (m : Entries Value) :
    Mapping.collect f m =
      (m.mapM fun e => x.ask next (about e)) >>= fun rs =>
        pure ((m.zip rs).filterMap fun y => made y.1 y.2) := by
  induction m with
  | nil => rfl
  | cons e m ih =>
    rw [Mapping.collect, ih, hf, List.mapM_cons]
    simp only [bind_assoc, pure_bind]
    congr 1
    funext r
    congr 1
    funext rs
    rw [List.zip_cons_cons, List.filterMap_cons]
    cases made e r <;> rfl

theorem renameKey_eq (next : Focus → Action σ Focus) (m : Entries Value) (e : String × Value) :
    Mapping.renameKey (fun v => next (.value v)) e =
      (keys m).ask next (.value (.string e.1)) >>= fun r => pure (rekeyed e r) := by
  rw [Mapping.renameKey, ask]
  simp only [bind_assoc, pure_bind]
  congr 1
  funext r
  cases r with
  | absent => rfl
  | value w =>
    show Action.ofExcept (Mapping.keyOf w) >>= _ = Action.ofExcept ((Mapping.keyOf w).map _) >>= _
    rw [rekeyed, Focus.value?, Option.bind_some]
    cases Mapping.keyOf w <;> rfl

theorem updateEntry_eq (next : Focus → Action σ Focus) (m : Entries Value) (e : String × Value) :
    Mapping.updateEntry (fun v => next (.value v)) e =
      (entries m).ask next (.value (Value.ofEntry e)) >>= fun r => pure (reentered r) := by
  rw [Mapping.updateEntry, ask]
  simp only [bind_assoc, pure_bind]
  congr 1
  funext r
  cases r with
  | absent => rfl
  | value w =>
    show Action.ofExcept (Mapping.entryOf w) >>= _ =
      Action.ofExcept ((Mapping.entryOf w).map _) >>= _
    rw [reentered, Focus.value?, Option.bind_some]
    cases Mapping.entryOf w <;> rfl

theorem carryOut_items (vs : List Value) (next : Focus → Action σ Focus) :
    (items vs).carryOut next =
      Sequence.mapItems (fun v => next (.value v)) vs >>= fun ws =>
        pure (.value (.sequence ws)) := by
  rw [carryOut, ask_of_accept rfl, items, mapItems_eq, List.mapM_map, bind_assoc]
  rfl

theorem carryOut_values (m : Entries Value) (next : Focus → Action σ Focus) :
    (values m).carryOut next =
      Mapping.mapValues (fun v => next (.value v)) m >>= fun m' => pure (.value (.mapping m')) := by
  rw [carryOut, ask_of_accept rfl, values, mapValues_eq, List.mapM_map, bind_assoc]
  rfl

theorem carryOut_collected (about : String × Value → Focus) (check : Focus → Except NavError Unit)
    (made : String × Value → Focus → Option (String × Value))
    (f : String × Value → Action σ (Option (String × Value))) (m : Entries Value)
    (next : Focus → Action σ Focus)
    (hf : ∀ e, f e =
      (collected about check made m).ask next (about e) >>= fun r => pure (made e r)) :
    (collected about check made m).carryOut next =
      Mapping.collect f m >>= fun es => pure (.value (.mapping (Entries.ofList es))) := by
  rw [carryOut, collect_eq _ next about made f hf, bind_assoc]
  show (m.map about).mapM _ >>= _ = _
  rw [List.mapM_map]
  rfl

theorem carryOut_keys (m : Entries Value) (next : Focus → Action σ Focus) :
    (keys m).carryOut next =
      Mapping.mapKeys (fun v => next (.value v)) m >>= fun m' => pure (.value (.mapping m')) := by
  rw [keys, carryOut_collected _ _ _ _ m next (renameKey_eq next m), Mapping.mapKeys, bind_assoc]
  rfl

theorem carryOut_entries (m : Entries Value) (next : Focus → Action σ Focus) :
    (entries m).carryOut next =
      Mapping.mapEntries (fun v => next (.value v)) m >>= fun m' =>
        pure (.value (.mapping m')) := by
  rw [entries, carryOut_collected _ _ _ _ m next (updateEntry_eq next m), Mapping.mapEntries,
    bind_assoc]
  rfl

end Exchange

namespace Navigator

/-- A resolved index lies in the sequence, however long the sequence is. -/
theorem lt_of_resolveIndex {index : Int64} {length i : Nat}
    (h : Sequence.resolveIndex index length = some i) : i < length := by
  rw [Sequence.resolveIndex] at h
  split at h
  · rename_i hi
    obtain ⟨h0, h1⟩ := hi
    have hi : (Sequence.normalizeIndex index length).toNatClampNeg = i := Option.some.inj h
    rw [← hi]
    show (Sequence.normalizeIndex index length).toInt.toNat < length
    have hsmall := Int64.toInt_lt (Sequence.normalizeIndex index length)
    rcases Nat.lt_or_ge length (2 ^ 63) with hl | hl
    · rw [Int64.lt_iff_toInt_lt, Int64.toInt_ofNat_of_lt hl] at h1
      rw [Int64.le_iff_toInt_le] at h0
      have h0 : 0 ≤ (Sequence.normalizeIndex index length).toInt := h0
      omega
    · omega
  · exact absurd h (by simp)

/-- Elements can be inserted among those of a sequence, and where nothing is yet. -/
theorem itemsOf_eq_ok {n : Navigator} {s : Focus} {vs : List Value} (h : itemsOf n s = .ok vs) :
    (s.isVoid = true ∧ vs = []) ∨ s = .value (.sequence vs) := by
  cases s with
  | absent => cases h; exact .inl ⟨rfl, rfl⟩
  | value v =>
    cases v with
    | sequence us => cases h; exact .inr rfl
    | null => cases h; exact .inl ⟨rfl, rfl⟩
    | undefined => cases h; exact .inl ⟨rfl, rfl⟩
    | _ => exact absurd h (by simp [itemsOf, Focus.isVoid, Value.isVoid])

theorem transformElements_eq (s : Focus) (next : Continuation σ) :
    transformElements s next = (exchangeElements s).carryOut next := by
  cases s with
  | absent => rfl
  | value v =>
    cases v with
    | sequence vs => exact (Exchange.carryOut_items vs next).symm
    | mapping m => exact (Exchange.carryOut_entries m next).symm
    | _ => rfl

theorem transformValues_eq (s : Focus) (next : Continuation σ) :
    transformValues s next = Action.ofExcept (exchangeValues s) >>= fun x => x.carryOut next := by
  cases s with
  | absent => rfl
  | value v =>
    cases v with
    | mapping m => exact (Exchange.carryOut_values m next).symm
    | _ => rfl

theorem transformKeys_eq (s : Focus) (next : Continuation σ) :
    transformKeys s next = Action.ofExcept (exchangeKeys s) >>= fun x => x.carryOut next := by
  cases s with
  | absent => rfl
  | value v =>
    cases v with
    | mapping m => exact (Exchange.carryOut_keys m next).symm
    | _ => rfl

theorem transformEnd_eq (n : Navigator) (position : Nat → Nat)
    (hp : ∀ length, 0 < length → position length < length) (s : Focus) (next : Continuation σ) :
    transformEnd n position s next =
      Action.ofExcept (exchangeEnd n position s) >>= fun x => x.carryOut next := by
  cases s with
  | absent => rfl
  | value v =>
    cases v with
    | sequence vs =>
      cases vs with
      | nil => rfl
      | cons w ws =>
        have hlt := hp (w :: ws).length (Nat.succ_pos ws.length)
        exact (Exchange.carryOut_item (w :: ws) _ hlt next).symm
    | _ => rfl

theorem transformKey_eq (name : String) (s : Focus) (next : Continuation σ) :
    transformKey name s next = (exchangeKey name s).carryOut next := by
  have hfresh (s : Focus) : (Exchange.fresh name s).carryOut next = (do
      match ← next (.value .undefined) with
      | .value w => if w.isDefined then pure (.value (.mapping [(name, w)])) else pure s
      | .absent => pure s) := by
    rw [Exchange.fresh, Exchange.carryOut_single]
    congr 1
    funext r
    cases r with
    | absent => rfl
    | value w => cases w <;> rfl
  cases s with
  | absent => exact (hfresh .absent).symm
  | value v =>
    cases v with
    | mapping m =>
      show _ = (Exchange.slot name m).carryOut next
      rw [Exchange.slot, Exchange.carryOut_single]
      rfl
    | null => exact (hfresh (.value .null)).symm
    | undefined => exact (hfresh (.value .undefined)).symm
    | _ => exact (Exchange.carryOut_unreachable _ _ next).symm

theorem transformNth_eq (index : Int64) (s : Focus) (next : Continuation σ) :
    transformNth index s next = (exchangeNth index s).carryOut next := by
  cases s with
  | absent => exact (Exchange.carryOut_unreachable _ _ next).symm
  | value v =>
    cases v with
    | sequence vs =>
      rw [transformNth, exchangeNth]
      cases h : Sequence.resolveIndex index vs.length with
      | none => exact (Exchange.carryOut_unreachable _ _ next).symm
      | some i => exact (Exchange.carryOut_item vs i (lt_of_resolveIndex h) next).symm
    | _ => exact (Exchange.carryOut_unreachable _ _ next).symm

theorem transformSplice_eq (n : Navigator) (place : List Value → List Value → List Value)
    (s : Focus) (next : Continuation σ) :
    transformSplice n place s next =
      Action.ofExcept (exchangeSplice n place s) >>= fun x => x.carryOut next := by
  rw [transformSplice, exchangeSplice]
  cases itemsOf n s with
  | error e => rfl
  | ok vs =>
    show _ = (Exchange.single _ _).carryOut next
    rw [Exchange.carryOut_single]
    show next _ >>= _ = _
    congr 1
    funext r
    cases r with
    | absent => rfl
    | value w => cases w <;> rfl

theorem transformEdge_eq (n : Navigator) (place : List Value → Value → List Value) (s : Focus)
    (next : Continuation σ) :
    transformEdge n place s next =
      Action.ofExcept (exchangeEdge n place s) >>= fun x => x.carryOut next := by
  rw [transformEdge, exchangeEdge]
  cases itemsOf n s with
  | error e => rfl
  | ok vs =>
    show _ = (Exchange.single _ _).carryOut next
    rw [Exchange.carryOut_single]
    show next _ >>= _ = _
    congr 1
    funext r
    cases r <;> rfl

theorem transformBeforeIndex_eq (index : Int64) (s : Focus) (next : Continuation σ) :
    transformBeforeIndex index s next =
      Action.ofExcept (exchangeBefore index s) >>= fun x => x.carryOut next := by
  rw [transformBeforeIndex, exchangeBefore]
  cases itemsOf (beforeIndex index) s with
  | error e => rfl
  | ok vs =>
    show _ = (Exchange.single _ _).carryOut next
    rw [Exchange.carryOut_single]
    show next _ >>= _ = _
    congr 1
    funext r
    cases r with
    | absent => rfl
    | value w =>
      dsimp only
      cases Sequence.resolveInsertIndex index vs.length <;> rfl

theorem transformParsed_eq (parse unparse : Value → Except NavError Value) (s : Focus)
    (next : Continuation σ) :
    transformParsed parse unparse s next =
      Action.ofExcept (exchangeParsed parse unparse s) >>= fun x => x.carryOut next := by
  rw [transformParsed, exchangeParsed]
  cases parse s.orUndefined with
  | error e => rfl
  | ok w =>
    show _ = (Exchange.single _ _).carryOut next
    rw [Exchange.carryOut_single]
    show next _ >>= _ = _
    congr 1
    funext r
    cases r with
    | absent => rfl
    | value w =>
      dsimp only
      cases unparse w <;> rfl

theorem transformSubmap_eq (names : List String) (s : Focus) (next : Continuation σ) :
    transformSubmap names s next =
      Action.ofExcept (exchangeSubmap names s) >>= fun x => x.carryOut next := by
  -- the entries the names are looked up in, once they are known
  have hpart (m : Entries Value) : (next (.value (.mapping (Entries.pick names m))) >>= fun r =>
      (do
        let part ← match r with
          | .value (.mapping part) => pure part
          | .absent => pure []
          | .value w => throw ((submap names).mismatch "a mapping result" w.kind)
        if s.isVoid && part.isEmpty then pure s
        else pure (.value (.mapping (replacePart names m part))) : Action σ Focus)) =
      (Exchange.single (.value (.mapping (Entries.pick names m))) fun r =>
        (partAnswered names r).map fun part => if s.isVoid && part.isEmpty then s
          else .value (.mapping (replacePart names m part))).carryOut next := by
    rw [Exchange.carryOut_single]
    congr 1
    funext r
    cases r with
    | absent =>
      show (if s.isVoid && _ then pure s else pure _) = Action.ofExcept (.ok (if _ then s else _))
      split <;> rfl
    | value w =>
      cases w with
      | mapping part =>
        show (if s.isVoid && _ then pure s else pure _) =
          Action.ofExcept (.ok (if _ then s else _))
        split <;> rfl
      | _ => rfl
  cases s with
  | absent => exact hpart []
  | value v =>
    cases v with
    | mapping m => exact hpart m
    | null => exact hpart []
    | undefined => exact hpart []
    | _ => rfl

theorem transformMatching_eq (holds : Value → Except NavError Bool) (s : Focus)
    (next : Continuation σ) :
    transformMatching holds s next =
      Action.ofExcept (exchangeMatching holds s) >>= fun x => x.carryOut next := by
  cases s with
  | absent => rfl
  | value v =>
    cases v with
    | sequence vs =>
      rw [transformMatching, exchangeMatching]
      cases markMatching holds vs with
      | error e => rfl
      | ok marked =>
        show _ = (Exchange.single _ _).carryOut next
        rw [Exchange.carryOut_single]
        show next _ >>= _ = _
        congr 1
        funext r
        cases r with
        | absent => rfl
        | value w => cases w <;> rfl
    | _ => rfl

/-- **Every built-in navigator transforms by an exchange.** -/
theorem transform_eq_carryOut (n : Navigator) (hn : n.isCustom = false) (s : Focus)
    (next : Continuation σ) :
    n.transform s next = Action.ofExcept (n.exchange s) >>= fun x => x.carryOut next := by
  cases n with
  | all => exact transformElements_eq s next
  | mapVals => exact transformValues_eq s next
  | mapKeys => exact transformKeys_eq s next
  | first => exact transformEnd_eq .first _ (fun _ h => h) s next
  | last => exact transformEnd_eq .last _ (fun _ h => Nat.sub_lt h Nat.one_pos) s next
  | beginning => exact transformSplice_eq .beginning _ s next
  | ending => exact transformSplice_eq .ending _ s next
  | beforeElem => exact transformEdge_eq .beforeElem _ s next
  | afterElem => exact transformEdge_eq .afterElem _ s next
  | key name => exact transformKey_eq name s next
  | nth index => exact transformNth_eq index s next
  | beforeIndex index => exact transformBeforeIndex_eq index s next
  | pred holds =>
    show (if holds s.orUndefined then next s else pure s) =
      (if holds s.orUndefined then Exchange.single s .ok else .idle s).carryOut next
    split
    · rw [Exchange.carryOut_single]
      exact (bind_pure (next s)).symm
    · rfl
  | view project =>
    show _ = (Exchange.single _ _).carryOut next
    rw [Exchange.carryOut_single]
    exact (bind_pure (next _)).symm
  | parser parse unparse => exact transformParsed_eq parse unparse s next
  | submap names => exact transformSubmap_eq names s next
  | filterer path => exact transformMatching_eq (matchesAlong path) s next
  | custom user => exact absurd (show true = false from hn) (by decide)

/-! ### Transforms ask about what selecting hands on -/

/-- **A transform asks about what selecting hands on**, or fails as selecting does. Insertion
points, at which there is nothing to select, are the exception. -/
theorem exchange_value (n : Navigator) (hn : n.isCustom = false) (hi : n.isInsertionPoint = false)
    (v : Value) :
    (n.exchange (.value v)).map Exchange.asked = (n.reach v).map (List.map Focus.value) := by
  cases n with
  | all =>
    cases v with
    | mapping m => exact congrArg Except.ok (List.map_map).symm
    | _ => rfl
  | mapVals =>
    cases v with
    | mapping m => exact congrArg Except.ok (List.map_map).symm
    | _ => rfl
  | mapKeys =>
    cases v with
    | mapping m => exact congrArg Except.ok (List.map_map).symm
    | _ => rfl
  | first =>
    cases v with
    | sequence vs => cases vs <;> rfl
    | _ => rfl
  | last =>
    cases v with
    | sequence vs =>
      cases vs with
      | nil => rfl
      | cons w ws =>
        show Except.ok [Focus.value ((w :: ws)[(w :: ws).length - 1]?.getD .undefined)] =
          Except.ok ((w :: ws).getLast?.toList.map Focus.value)
        rw [← List.getLast?_eq_getElem?, List.getLast?_cons]
        rfl
    | _ => rfl
  | key name => cases v <;> rfl
  | nth index =>
    cases v with
    | sequence vs =>
      show Except.ok (exchangeNth index (.value (.sequence vs))).asked =
        Except.ok [Focus.value ((Sequence.itemAt? vs index).getD .undefined)]
      rw [exchangeNth, Sequence.itemAt?]
      cases Sequence.resolveIndex index vs.length <;> rfl
    | _ => rfl
  | pred holds =>
    show Except.ok (if holds v then Exchange.single (.value v) .ok else .idle (.value v)).asked =
      Except.ok ((if holds v then [v] else []).map Focus.value)
    cases holds v <;> rfl
  | view project => rfl
  | parser parse unparse =>
    show (exchangeParsed parse unparse (.value v)).map _ = ((parse v).map fun w => [w]).map _
    rw [exchangeParsed, Focus.orUndefined]
    cases parse v <;> rfl
  | submap names =>
    have hvoid : Except.ok [Focus.value (.mapping (Entries.pick names []))] =
        (Except.ok [Focus.value (.mapping [])] : Except NavError (List Focus)) := by
      rw [Entries.pick_nil]
    cases v with
    | null => exact hvoid
    | undefined => exact hvoid
    | _ => rfl
  | filterer path =>
    cases v with
    | sequence vs =>
      show (exchangeMatching (matchesAlong path) (.value (.sequence vs))).map _ =
        (matchingIn (matchesAlong path) (.sequence vs)).map _
      rw [exchangeMatching, matchingIn]
      cases markMatching (matchesAlong path) vs <;> rfl
    | _ => rfl
  | custom user => exact absurd (show true = false from hn) (by decide)
  | _ => exact absurd (show true = false from hi) (by decide)

/-- The two outcomes of meeting a value: the same error for selecting and transforming, or the same
focuses. -/
theorem exchange_value_cases (n : Navigator) (hn : n.isCustom = false)
    (hi : n.isInsertionPoint = false) (v : Value) :
    (∃ e, n.reach v = .error e ∧ n.exchange (.value v) = .error e) ∨
      ∃ vs x, n.reach v = .ok vs ∧ n.exchange (.value v) = .ok x ∧ x.asked = vs.map .value := by
  have h := n.exchange_value hn hi v
  cases hx : n.exchange (.value v) with
  | error e =>
    rw [hx] at h
    cases hr : n.reach v with
    | error e' =>
      rw [hr] at h
      exact .inl ⟨e', rfl, congrArg Except.error (Except.error.inj h)⟩
    | ok vs => rw [hr] at h; exact absurd h (by simp [Except.map])
  | ok x =>
    rw [hx] at h
    cases hr : n.reach v with
    | error e => rw [hr] at h; exact absurd h (by simp [Except.map])
    | ok vs => rw [hr] at h; exact .inr ⟨vs, x, rfl, rfl, Except.ok.inj h⟩

end Navigator

end DocPath
