import DocPath.Proofs.Calls
import DocPath.Proofs.Realignment

/-!
# New keys for the entries of a mapping

Two navigators let an update give the entries of a mapping new keys: the step to the keys, which keeps the
value of each entry, and the step to the entries as pairs. The entries are asked about one after another.
An answer that is no key, or no pair with a key, ends the run at once, and so does a failure. Otherwise
the new entries are written one after another, so that of several with one key only the last counts.

* `Mapping.IsKey`, `Navigator.Makes`, `Navigator.Refuses` — the key that a value stands for, what an answer
  makes of an entry, and which answers are errors;
* `Navigator.Judges`, `Navigator.judges_mapKeys`, `Navigator.judges_all` — the tests of both steps;
* `Entries.Joins`, `Entries.joins_iff` — **the mapping that entries with equal keys leave behind**;
* `Navigator.entries_renamed` — the law for both steps, with any continuation.
-/

namespace DocPath

variable {σ α : Type}

/-! ### Keys and entries that are answered -/

namespace Mapping

/-- The key that a value stands for: a string as it is, an integer in decimal. -/
inductive IsKey : Value → String → Prop
  | string (s : String) : IsKey (.string s) s
  | integer (n : Int64) : IsKey (.integer n) (toString n.toInt)

theorem keyOf_eq_ok_iff {v : Value} {k : String} : keyOf v = .ok k ↔ IsKey v k := by
  constructor
  · intro h
    cases v with
    | string s => cases h; exact .string k
    | integer n => cases h; exact .integer n
    | _ => exact absurd h (by simp [keyOf])
  · rintro ⟨⟩ <;> rfl

/-- Whatever else is answered for a key is an error. -/
theorem keyOf_eq_error_iff {v : Value} {e : NavError} :
    keyOf v = .error e ↔ (∀ k, ¬ IsKey v k) ∧ e = .invalidKey v.kind := by
  simp only [← keyOf_eq_ok_iff]
  cases v <;> simp [keyOf, eq_comm]

theorem entryOf_pair (u v : Value) :
    entryOf (.sequence [u, v]) = (keyOf u).map fun k => (k, v) := by
  rw [entryOf]
  cases keyOf u <;> rfl

theorem entryOf_of_ne {w : Value} (h : ∀ u v, w ≠ .sequence [u, v]) :
    entryOf w = .error (.invalidEntry w.kind) := by
  rw [entryOf]
  exact h

/-- An entry is read from a pair of which the first half is a key. -/
theorem entryOf_eq_ok_iff {w v : Value} {k : String} :
    entryOf w = .ok (k, v) ↔ ∃ u, w = .sequence [u, v] ∧ IsKey u k := by
  constructor
  · intro h
    by_cases hpair : ∃ u v', w = .sequence [u, v']
    · obtain ⟨u, v', rfl⟩ := hpair
      rw [entryOf_pair, Action.map_eq_ok] at h
      obtain ⟨k', hk', hsame⟩ := h
      cases hsame
      exact ⟨u, rfl, keyOf_eq_ok_iff.1 hk'⟩
    · rw [entryOf_of_ne fun u v' hw => hpair ⟨u, v', hw⟩] at h
      exact absurd h (by simp)
  · rintro ⟨u, rfl, hk⟩
    rw [entryOf_pair, keyOf_eq_ok_iff.2 hk]
    rfl

/-- A pair of which the first half is no key is an error, and so is what is no pair. -/
theorem entryOf_eq_error_iff {w : Value} {e : NavError} :
    entryOf w = .error e ↔
      (∃ u v, w = .sequence [u, v] ∧ (∀ k, ¬ IsKey u k) ∧ e = .invalidKey u.kind) ∨
        (∀ u v, w ≠ .sequence [u, v]) ∧ e = .invalidEntry w.kind := by
  by_cases hpair : ∃ u v, w = .sequence [u, v]
  · obtain ⟨u, v, rfl⟩ := hpair
    rw [entryOf_pair, Action.map_eq_error, keyOf_eq_error_iff]
    simp
  · have hne : ∀ u v, w ≠ .sequence [u, v] := fun u v hw => hpair ⟨u, v, hw⟩
    rw [entryOf_of_ne hne]
    simp [hne, eq_comm]

end Mapping

namespace Navigator

/-- What an update is asked about an entry: its key by the step to the keys, else the pair. -/
def about : Navigator → String × Value → Focus
  | .mapKeys, e => .value (.string e.1)
  | _, e => .value (Value.ofEntry e)

/-- What an answer makes of an entry: nothing if it is absent; else an entry with the key that was
answered, and the old value or the one that was answered with it. -/
inductive Makes : Navigator → String × Value → Focus → Option (String × Value) → Prop
  | dropped (n : Navigator) (e : String × Value) : Makes n e .absent none
  | key {w : Value} {k : String} (e : String × Value) :
      Mapping.IsKey w k → Makes .mapKeys e (.value w) (some (k, e.2))
  | pair {w : Value} {k : String} (e : String × Value) (v : Value) :
      Mapping.IsKey w k → Makes .all e (.value (.sequence [w, v])) (some (k, v))

/-- The answers that are errors: what is no key where a key is wanted, and what is no pair. -/
inductive Refuses : Navigator → Value → NavError → Prop
  | key {w : Value} : (∀ k, ¬ Mapping.IsKey w k) → Refuses .mapKeys w (.invalidKey w.kind)
  | pairKey {w : Value} (v : Value) :
      (∀ k, ¬ Mapping.IsKey w k) → Refuses .all (.sequence [w, v]) (.invalidKey w.kind)
  | pair {w : Value} : (∀ u v, w ≠ .sequence [u, v]) → Refuses .all w (.invalidEntry w.kind)

/-- The test of an exchange lets pass the answers that make something of an entry and fails on those that
are errors; and this is what the exchange makes of them. -/
structure Judges (n : Navigator) (check : Focus → Except NavError Unit)
    (made : String × Value → Focus → Option (String × Value)) : Prop where
  makes_iff : ∀ e a o, n.Makes e a o ↔ check a = .ok () ∧ made e a = o
  refuses_iff : ∀ a e, check a = .error e ↔ ∃ w, a = .value w ∧ n.Refuses w e

theorem makes_absent_iff {n : Navigator} {e : String × Value} {o : Option (String × Value)} :
    n.Makes e .absent o ↔ o = none := by
  constructor
  · rintro ⟨⟩
    rfl
  · rintro rfl
    exact .dropped n e

/-- It is enough to know which entry is read from a value that was answered. -/
theorem judges_of_read {n : Navigator} {check : Focus → Except NavError Unit}
    {made : String × Value → Focus → Option (String × Value)}
    (read : String × Value → Value → Except NavError (String × Value))
    (hmakes : ∀ e w o, n.Makes e (.value w) o ↔ ∃ p, read e w = .ok p ∧ some p = o)
    (hrefuses : ∀ e w err, n.Refuses w err ↔ read e w = .error err)
    (habsent : ∀ e, check .absent = .ok () ∧ made e .absent = none)
    (hvalue : ∀ e w, check (.value w) = (read e w).map (fun _ => ()) ∧
      made e (.value w) = (read e w).toOption) : n.Judges check made := by
  constructor
  · intro e a o
    cases a with
    | absent =>
      obtain ⟨hcheck, hmade⟩ := habsent e
      rw [makes_absent_iff, hcheck, hmade]
      simp [eq_comm]
    | value w =>
      obtain ⟨hcheck, hmade⟩ := hvalue e w
      rw [hmakes, hcheck, hmade]
      cases read e w <;> simp [Except.map, Except.toOption]
  · intro a err
    cases a with
    | absent => simp [(habsent default).1]
    | value w =>
      rw [(hvalue default w).1, Action.map_eq_error, ← hrefuses]
      simp

theorem judges_mapKeys : mapKeys.Judges Exchange.checkKey Exchange.rekeyed := by
  apply judges_of_read fun e w => (Mapping.keyOf w).map fun k => (k, e.2)
  · intro e w o
    simp only [Action.map_eq_ok, Mapping.keyOf_eq_ok_iff]
    constructor
    · rintro ⟨⟩
      exact ⟨_, ⟨_, ‹_›, rfl⟩, rfl⟩
    · rintro ⟨p, ⟨k, hk, rfl⟩, rfl⟩
      exact .key e hk
  · intro e w err
    rw [Action.map_eq_error, Mapping.keyOf_eq_error_iff]
    constructor
    · rintro ⟨⟩
      exact ⟨‹_›, rfl⟩
    · rintro ⟨hk, rfl⟩
      exact .key hk
  · exact fun e => ⟨rfl, rfl⟩
  · intro e w
    rw [Exchange.checkKey, Exchange.rekeyed, Focus.value?, Option.bind_some]
    cases Mapping.keyOf w <;> exact ⟨rfl, rfl⟩

theorem judges_all : all.Judges Exchange.checkEntry fun _ => Exchange.reentered := by
  apply judges_of_read fun _ w => Mapping.entryOf w
  · intro e w o
    constructor
    · rintro ⟨⟩
      exact ⟨_, Mapping.entryOf_eq_ok_iff.2 ⟨_, rfl, ‹_›⟩, rfl⟩
    · rintro ⟨⟨k, v⟩, h, rfl⟩
      obtain ⟨u, rfl, hk⟩ := Mapping.entryOf_eq_ok_iff.1 h
      exact .pair e v hk
  · intro e w err
    rw [Mapping.entryOf_eq_error_iff]
    constructor
    · rintro ⟨⟩
      · exact .inl ⟨_, _, rfl, ‹_›, rfl⟩
      · exact .inr ⟨‹_›, rfl⟩
    · rintro (⟨u, v, rfl, hk, rfl⟩ | ⟨hw, rfl⟩)
      · exact .pairKey v hk
      · exact .pair hw
  · exact fun e => ⟨rfl, rfl⟩
  · exact fun e w => ⟨rfl, rfl⟩

end Navigator

/-! ### Entries with equal keys -/

/-- The mapping has the keys of the pairs, each where it first occurs, and under each of them the value of
the last pair with this key. -/
structure Entries.Joins (pairs : List (String × α)) (m : Entries α) : Prop where
  keys_eq : m.keys = (Entries.keys pairs).eraseDups
  last : ∀ before k v after, pairs = before ++ (k, v) :: after → k ∉ Entries.keys after →
    m.get? k = some v

/-- **What is left by pairs written one after another** is the one mapping that joins them. -/
theorem Entries.joins_iff {pairs : List (String × α)} {m : Entries α} :
    Entries.Joins pairs m ↔ m = Entries.ofList pairs := by
  have hkeys : (Entries.ofList pairs).keys = (Entries.keys pairs).eraseDups :=
    Entries.keys_merge (show Entries.Distinct ([] : Entries α) from List.nodup_nil) pairs
  constructor
  · intro h
    refine (Entries.eq_of_get? (Entries.distinct_ofList pairs) (hkeys.trans h.keys_eq.symm) ?_).symm
    intro k
    cases hk : (Entries.ofList pairs).get? k with
    | none =>
      have hnot := Entries.get?_eq_none_iff.1 hk
      rw [hkeys, ← h.keys_eq] at hnot
      exact (Entries.get?_eq_none_iff.2 hnot).symm
    | some v =>
      rw [Entries.get?_ofList] at hk
      obtain ⟨before, after, hsplit, hlast⟩ := Entries.get?_lasts_eq_some_iff.1 hk
      exact (h.last before k v after hsplit hlast).symm
  · rintro rfl
    refine ⟨hkeys, ?_⟩
    intro before k v after hsplit hlast
    rw [Entries.get?_ofList]
    exact Entries.get?_lasts_eq_some_iff.2 ⟨before, after, hsplit, hlast⟩

/-! ### Both steps -/

namespace Navigator

/-- Outcomes of answers that are all let pass. -/
theorem forall₂_makes_iff {n : Navigator} {check : Focus → Except NavError Unit}
    {made : String × Value → Focus → Option (String × Value)} (h : n.Judges check made)
    {m : Entries Value} {answers : List Focus} (hlength : answers.length = m.length)
    {outcomes : List (Option (String × Value))} :
    List.Forall₂ (fun x o => n.Makes x.1 x.2 o) (m.zip answers) outcomes ↔
      (∀ a ∈ answers, check a = .ok ()) ∧ outcomes = (m.zip answers).map fun x => made x.1 x.2 := by
  induction m generalizing answers outcomes with
  | nil =>
    obtain rfl := List.eq_nil_of_length_eq_zero hlength
    simp
  | cons e m ih =>
    obtain ⟨a, answers, rfl⟩ := List.exists_cons_of_length_eq_add_one hlength
    have hlength : answers.length = m.length := Nat.succ.inj hlength
    rw [List.zip_cons_cons, List.forall₂_cons_left_iff, List.map_cons, List.forall_mem_cons]
    constructor
    · rintro ⟨o, os, ho, hos, rfl⟩
      obtain ⟨hcheck, rfl⟩ := (h.makes_iff _ _ _).1 ho
      obtain ⟨hchecks, rfl⟩ := (ih hlength).1 hos
      exact ⟨⟨hcheck, hchecks⟩, rfl⟩
    · rintro ⟨⟨hcheck, hchecks⟩, rfl⟩
      exact ⟨_, _, (h.makes_iff _ _ _).2 ⟨hcheck, rfl⟩, (ih hlength).2 ⟨hchecks, rfl⟩, rfl⟩

/-- An exchange about entries, of which every one is asked about and made anew. -/
theorem exec_collected_eq_ok_iff {n : Navigator} {check : Focus → Except NavError Unit}
    {made : String × Value → Focus → Option (String × Value)} (h : n.Judges check made)
    (m : Entries Value) (next : Continuation σ) (s s' : σ) (r : Focus) :
    ((Exchange.collected n.about check made m).carryOut next).exec s = (.ok r, s') ↔
      ∃ answers outcomes m', ((m.map n.about).mapM next).exec s = (.ok answers, s') ∧
        List.Forall₂ (fun x o => n.Makes x.1 x.2 o) (m.zip answers) outcomes ∧
        Entries.Joins outcomes.reduceOption m' ∧ r = .value (.mapping m') := by
  have hlength {answers : List Focus} (hrun : ((m.map n.about).mapM next).exec s = (.ok answers, s')) :
      answers.length = m.length := by
    have hall : List.Forall₂ (fun _ _ => True) (m.map n.about) answers :=
      Action.Ensures.mapM (fun f _ => Action.ensures_true (next f)) s answers s' hrun
    rw [← hall.length_eq, List.length_map]
  have hmade (answers : List Focus) : ((m.zip answers).map fun x => made x.1 x.2).reduceOption =
      (m.zip answers).filterMap fun x => made x.1 x.2 := by
    rw [List.reduceOption, List.filterMap_map]
    rfl
  rw [Exchange.exec_carryOut_eq_ok_iff]
  constructor
  · rintro ⟨answers, hrun, hchecks, hr⟩
    refine ⟨answers, _, _, hrun, (forall₂_makes_iff h (hlength hrun)).2 ⟨hchecks, rfl⟩,
      Entries.joins_iff.2 rfl, ?_⟩
    rw [hmade]
    exact (Except.ok.inj hr).symm
  · rintro ⟨answers, outcomes, m', hrun, houtcomes, hjoins, rfl⟩
    obtain ⟨hchecks, rfl⟩ := (forall₂_makes_iff h (hlength hrun)).1 houtcomes
    refine ⟨answers, hrun, hchecks, ?_⟩
    rw [Entries.joins_iff.1 hjoins, hmade]
    rfl

/-- The answers that pass are those that are not refused. -/
theorem Judges.check_eq_ok_iff {n : Navigator} {check : Focus → Except NavError Unit}
    {made : String × Value → Focus → Option (String × Value)} (h : n.Judges check made) (a : Focus) :
    check a = .ok () ↔ ∀ w e, a = .value w → ¬ n.Refuses w e := by
  constructor
  · intro hok w e ha hrefused
    have herror := (h.refuses_iff a e).2 ⟨w, ha, hrefused⟩
    rw [hok] at herror
    exact absurd herror (by simp)
  · intro hnot
    cases hcheck : check a with
    | ok u => rfl
    | error e =>
      obtain ⟨w, ha, hrefused⟩ := (h.refuses_iff a e).1 hcheck
      exact absurd hrefused (hnot w e ha)

/-- An exchange about entries fails at the first of them of which the call fails or the answer is refused,
and asks about no later one. -/
theorem exec_collected_eq_error_iff {n : Navigator} {check : Focus → Except NavError Unit}
    {made : String × Value → Focus → Option (String × Value)} (h : n.Judges check made)
    (m : Entries Value) (next : Continuation σ) (s s' : σ) (e : NavError) :
    ((Exchange.collected n.about check made m).carryOut next).exec s = (.error e, s') ↔
      ∃ before x after answers s₁, m = before ++ x :: after ∧
        ((before.map n.about).mapM next).exec s = (.ok answers, s₁) ∧
        (∀ w, .value w ∈ answers → ∀ e', ¬ n.Refuses w e') ∧
        ((next (n.about x)).exec s₁ = (.error e, s') ∨
          ∃ w, (next (n.about x)).exec s₁ = (.ok (.value w), s') ∧ n.Refuses w e) ∧
        (((Exchange.collected n.about check made m).carryOut (Action.logged next)).exec (s, [])).2.2 =
          (before ++ [x]).map n.about := by
  have hpassed (answers : List Focus) : (∀ a ∈ answers, check a = .ok ()) ↔
      ∀ w, .value w ∈ answers → ∀ e', ¬ n.Refuses w e' := by
    simp only [h.check_eq_ok_iff]
    constructor
    · intro hall w hw e'
      exact hall (.value w) hw w e' rfl
    · rintro hall a ha w e' rfl
      exact hall w ha e'
  have hrefused (f : Focus) (s₁ : σ) : (∃ a, (next f).exec s₁ = (.ok a, s') ∧ check a = .error e) ↔
      ∃ w, (next f).exec s₁ = (.ok (.value w), s') ∧ n.Refuses w e := by
    simp only [h.refuses_iff]
    constructor
    · rintro ⟨a, ha, w, rfl, hw⟩
      exact ⟨w, ha, hw⟩
    · rintro ⟨w, ha, hw⟩
      exact ⟨.value w, ha, w, rfl, hw⟩
  have hfails := Exchange.exec_carryOut_eq_error_iff (x := Exchange.collected n.about check made m)
    (fun _ => ⟨_, rfl⟩) next s s' e
  constructor
  · intro hrun
    obtain ⟨fs, f, gs, answers, s₁, hm, hbefore, hchecks, hlast⟩ := hfails.1 hrun
    have hlog := Exchange.log_carryOut_of_error hm hbefore hchecks hlast
    obtain ⟨before, rest, rfl, rfl, hrest⟩ := List.map_eq_append_iff.1 hm
    obtain ⟨x, after, rfl, rfl, rfl⟩ := List.map_eq_cons_iff.1 hrest
    refine ⟨before, x, after, answers, s₁, rfl, hbefore, (hpassed answers).1 hchecks,
      hlast.imp_right (hrefused _ _).1, ?_⟩
    rw [hlog, List.map_append]
    rfl
  · rintro ⟨before, x, after, answers, s₁, rfl, hbefore, hchecks, hlast, -⟩
    exact hfails.2 ⟨before.map n.about, n.about x, after.map n.about, answers, s₁,
      List.map_append.trans rfl, hbefore, (hpassed answers).2 hchecks,
      hlast.imp_right (hrefused _ _).2⟩

theorem exists_judges {n : Navigator} (hn : n = .mapKeys ∨ n = .all) (m : Entries Value) :
    ∃ check made, n.Judges check made ∧ ∀ (τ : Type) (next : Continuation τ),
      n.transform (.value (.mapping m)) next =
        (Exchange.collected n.about check made m).carryOut next := by
  rcases hn with rfl | rfl
  · exact ⟨_, _, judges_mapKeys, fun τ next => transform_eq_carryOut .mapKeys rfl _ next⟩
  · exact ⟨_, _, judges_all, fun τ next => transform_eq_carryOut .all rfl _ next⟩

/-- **New keys for the entries of a mapping.** The step to the keys and the step to the entries succeed
exactly when every entry is answered and every answer makes something of its entry, or drops it. The new
mapping has the keys that were answered, each where it first occurs and with the last of its values; so if no
key was answered twice it holds all that was answered in its order, and otherwise exactly those entries are
lost that a later one with the same key overrides. The steps fail exactly at the first entry of which the
call fails or is answered with what is no key, or no pair; this gives the error, and no later entry is
asked about. -/
theorem entries_renamed {n : Navigator} (hn : n = .mapKeys ∨ n = .all) (m : Entries Value)
    (next : Continuation σ) (st : σ) :
    let run := (n.transform (.value (.mapping m)) next).exec st
    let called := n.calls (.value (.mapping m)) next st
    (∀ r st', run = (.ok r, st') ↔ ∃ answers outcomes m',
      ((m.map n.about).mapM next).exec st = (.ok answers, st') ∧
      List.Forall₂ (fun x o => n.Makes x.1 x.2 o) (m.zip answers) outcomes ∧
      Entries.Joins outcomes.reduceOption m' ∧ r = .value (.mapping m') ∧ called = m.map n.about) ∧
    (∀ e st', run = (.error e, st') ↔ ∃ before x after answers s, m = before ++ x :: after ∧
      ((before.map n.about).mapM next).exec st = (.ok answers, s) ∧
      (∀ w, .value w ∈ answers → ∀ e', ¬ n.Refuses w e') ∧
      ((next (n.about x)).exec s = (.error e, st') ∨
        ∃ w, (next (n.about x)).exec s = (.ok (.value w), st') ∧ n.Refuses w e) ∧
      called = (before ++ [x]).map n.about) ∧
    (∀ (pairs : List (String × Value)) m', Entries.Joins pairs m' →
      ((Entries.keys pairs).Nodup → m' = pairs) ∧ m'.Perm (Entries.lasts pairs)) := by
  intro run called
  obtain ⟨check, made, hjudges, htransform⟩ := exists_judges hn m
  simp only [run, called, calls, htransform]
  refine ⟨fun r st' => ?_, fun e st' => exec_collected_eq_error_iff hjudges m next st st' e, ?_⟩
  · have hok := exec_collected_eq_ok_iff hjudges m next st st' r
    constructor
    · intro hrun
      obtain ⟨answers, outcomes, m', hanswers, houtcomes, hjoins, hr⟩ := hok.1 hrun
      exact ⟨answers, outcomes, m', hanswers, houtcomes, hjoins, hr, Exchange.log_carryOut_of_ok hrun⟩
    · rintro ⟨answers, outcomes, m', hanswers, houtcomes, hjoins, hr, -⟩
      exact hok.2 ⟨answers, outcomes, m', hanswers, houtcomes, hjoins, hr⟩
  · intro pairs m' hjoins
    rw [Entries.joins_iff.1 hjoins]
    exact ⟨Entries.ofList_of_distinct, Entries.ofList_perm_lasts pairs⟩

/-- The number 7 and the text "7" are one key, and the later of the two values stays; a pair of which the
first half is null ends the run before the third entry. -/
theorem entries_renamed_colliding :
    let m : Entries Value := [("a", .integer 1), ("b", .integer 2), ("c", .integer 3), ("d", .null)]
    let answering (answer : Nat → Focus) : Continuation Nat := fun _ => do
      let calls ← get
      set (calls + 1)
      pure (answer calls)
    let newKeys := answering fun
      | 0 => .value (.integer 7)
      | 1 => .absent
      | 2 => .value (.string "c")
      | _ => .value (.string "7")
    let newPairs := answering fun
      | 0 => .value (.sequence [.string "b", .bool true])
      | _ => .value (.sequence [.null, .bool false])
    (mapKeys.transform (.value (.mapping m)) newKeys).exec 0 =
        (.ok (.value (.mapping [("7", .null), ("c", .integer 3)])), 4) ∧
      (all.transform (.value (.mapping m)) newPairs).exec 0 = (.error (.invalidKey "null"), 2) := by
  intro m answering newKeys newPairs
  obtain ⟨hok, -, -⟩ := entries_renamed (.inl rfl) m newKeys 0
  obtain ⟨-, herror, -⟩ := entries_renamed (.inr rfl) m newPairs 0
  have hseven : Mapping.IsKey (.integer 7) "7" := .integer 7
  have hnull : ∀ k, ¬ Mapping.IsKey .null k := by rintro k ⟨⟩
  constructor
  · refine (hok _ 4).2 ⟨[.value (.integer 7), .absent, .value (.string "c"), .value (.string "7")],
      [some ("7", .integer 1), none, some ("c", .integer 3), some ("7", .null)], _, rfl, ?_,
      Entries.joins_iff.2 rfl, rfl, rfl⟩
    exact .cons (.key _ hseven) (.cons (.dropped _ _) (.cons (.key _ (.string "c"))
      (.cons (.key _ (.string "7")) .nil)))
  · refine (herror _ 2).2 ⟨[("a", .integer 1)], ("b", .integer 2), _,
      [.value (.sequence [.string "b", .bool true])], 1, rfl, rfl, ?_, ?_, rfl⟩
    · intro w hw e' hrefused
      obtain rfl : w = .sequence [.string "b", .bool true] := by simpa using hw
      cases hrefused with
      | pairKey _ hkey => exact hkey "b" (.string "b")
      | pair hpair => exact hpair _ _ rfl
    · exact .inr ⟨_, rfl, .pairKey _ hnull⟩

end Navigator

end DocPath
