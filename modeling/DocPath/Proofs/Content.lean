import DocPath.Value.Content
import DocPath.Proofs.Entries

/-!
# Values and untagged content

Every value has a content that a text can hold of it. Trying the kinds in their order finds the value
again, since no kind takes the content of a value of a later kind. `undefined` alone is not found again:
its content is that of null.

* `Value.content` — what a text holds that writes a value;
* `Value.nulled` — a value with null in the place of every `undefined`;
* `Value.FloatFree`, `Value.depth` — no float at any depth, and how deep containers nest;
* **`Content.value?_content`** — the kinds find the value again;
* **`Content.undefinedFree_of_value?`** — no content stands for a value with `undefined` in it.
-/

namespace DocPath

namespace Value

/-! ### Contents, nulls and nesting -/

mutual

/-- What a text holds that writes the value: nothing stands for null and for undefined. -/
def content : Value → Content
  | .null => .nothing
  | .bool b => .bool b
  | .integer n => if 0 ≤ n.toInt then .natural n.toUInt64 else .negative n
  | .float x => .float x
  | .string s => .string s
  | .sequence items => .list (contents items)
  | .mapping m => .record (memberContents m)
  | .undefined => .nothing

def contents : List Value → List Content
  | [] => []
  | v :: vs => content v :: contents vs

def memberContents : List (String × Value) → List (String × Content)
  | [] => []
  | (k, v) :: m => (k, content v) :: memberContents m

end

mutual

/-- The value with null in the place of every `undefined`, at any depth. -/
def nulled : Value → Value
  | .sequence items => .sequence (nulledItems items)
  | .mapping m => .mapping (nulledEntries m)
  | .undefined => .null
  | .null => .null
  | .bool b => .bool b
  | .integer n => .integer n
  | .float x => .float x
  | .string s => .string s

def nulledItems : List Value → List Value
  | [] => []
  | v :: vs => nulled v :: nulledItems vs

def nulledEntries : List (String × Value) → List (String × Value)
  | [] => []
  | (k, v) :: m => (k, nulled v) :: nulledEntries m

end

mutual

/-- No float at any depth. -/
def FloatFree : Value → Prop
  | .sequence items => AllFloatFree items
  | .mapping m => EntriesFloatFree m
  | .float _ => False
  | .null | .bool _ | .integer _ | .string _ | .undefined => True

def AllFloatFree : List Value → Prop
  | [] => True
  | v :: vs => FloatFree v ∧ AllFloatFree vs

def EntriesFloatFree : List (String × Value) → Prop
  | [] => True
  | (_, v) :: m => FloatFree v ∧ EntriesFloatFree m

end

mutual

/-- How many containers nest in the value, itself included. -/
def depth : Value → Nat
  | .sequence items => depthOfItems items + 1
  | .mapping m => depthOfEntries m + 1
  | .null | .bool _ | .integer _ | .float _ | .string _ | .undefined => 0

def depthOfItems : List Value → Nat
  | [] => 0
  | v :: vs => max (depth v) (depthOfItems vs)

def depthOfEntries : List (String × Value) → Nat
  | [] => 0
  | (_, v) :: m => max (depth v) (depthOfEntries m)

end

mutual

/-- Where there is no `undefined`, nothing is replaced. -/
theorem nulled_of_undefinedFree {v : Value} (h : v.UndefinedFree) : v.nulled = v := by
  cases v with
  | sequence items => rw [nulled, nulledItems_of_undefinedFree h]
  | mapping m => rw [nulled, nulledEntries_of_undefinedFree h]
  | undefined => exact h.elim
  | _ => rfl

theorem nulledItems_of_undefinedFree {vs : List Value} (h : AllUndefinedFree vs) :
    nulledItems vs = vs := by
  cases vs with
  | nil => rfl
  | cons v vs => rw [nulledItems, nulled_of_undefinedFree h.1, nulledItems_of_undefinedFree h.2]

theorem nulledEntries_of_undefinedFree {m : List (String × Value)} (h : EntriesUndefinedFree m) :
    nulledEntries m = m := by
  cases m with
  | nil => rfl
  | cons e m =>
    obtain ⟨k, v⟩ := e
    rw [nulledEntries, nulled_of_undefinedFree h.1, nulledEntries_of_undefinedFree h.2]

end

theorem keys_nulledEntries (m : Entries Value) : Entries.keys (nulledEntries m) = Entries.keys m := by
  induction m with
  | nil => rfl
  | cons e m ih =>
    obtain ⟨k, v⟩ := e
    simpa [Entries.keys, nulledEntries] using ih

theorem toNat_toUInt64_of_nonneg {n : Int64} (h : 0 ≤ n.toInt) : (n.toUInt64.toNat : Int) = n.toInt := by
  have hle : (0 : Int64) ≤ n := Int64.le_iff_toInt_le.2 h
  rw [Int64.toNat_toUInt64_of_le hle, ← Int64.toNat_toInt, Int.toNat_of_nonneg h]

end Value

namespace Content

/-! ### The kinds of lists and records -/

/-- A list is taken by no kind before sequences. -/
theorem value?_list (items : List Content) :
    (Content.list items).value? = (values? items).map Value.sequence := by
  simp [value?, scalar?, null?, bool?, integer?, float?, string?]

/-- A record is taken by no kind before mappings. -/
theorem value?_record (members : List (String × Content)) :
    (Content.record members).value? =
      (entries? members).map fun es => Value.mapping (Entries.ofList es) := by
  simp [value?, scalar?, null?, bool?, integer?, float?, string?]

/-! ### The kinds find the value again -/

/-- An integer of either sign is taken as an integer. -/
theorem value?_integer (n : Int64) : (Value.integer n).content.value? = some (.integer n) := by
  rw [Value.content]
  by_cases h : 0 ≤ n.toInt
  · have hlt : n.toInt < 2 ^ 63 := n.toInt_lt
    have hnat := Value.toNat_toUInt64_of_nonneg h
    have hfit : n.toUInt64.toNat < Nat.pow 2 63 := by
      have h63 : Nat.pow 2 63 = 2 ^ 63 := rfl
      omega
    rw [if_pos h]
    simp [value?, scalar?, null?, bool?, integer?, hfit]
  · rw [if_neg h]
    simp [value?, scalar?, null?, bool?, integer?]

mutual

/-- Trying the kinds in their order finds every value again, up to `undefined`. -/
theorem value?_content {v : Value} (h : v.WellFormed) : v.content.value? = some v.nulled := by
  cases v with
  | integer n => exact value?_integer n
  | sequence items =>
    have hitems : values? (Value.contents items) = some (Value.nulledItems items) := values?_contents h
    rw [Value.content, value?_list, hitems, Value.nulled]
    rfl
  | mapping m =>
    have hentries : entries? (Value.memberContents m) = some (Value.nulledEntries m) :=
      entries?_memberContents h.2
    have hdistinct : Entries.Distinct (Value.nulledEntries m) := by
      rw [Entries.Distinct, Value.keys_nulledEntries]
      exact h.1
    rw [Value.content, value?_record, hentries, Option.map_some, Entries.ofList_of_distinct hdistinct,
      Value.nulled]
  | _ => rfl

theorem values?_contents {vs : List Value} (h : Value.AllWellFormed vs) :
    values? (Value.contents vs) = some (Value.nulledItems vs) := by
  cases vs with
  | nil => rfl
  | cons v vs =>
    simp [Value.contents, values?, Value.nulledItems, value?_content h.1, values?_contents h.2]

theorem entries?_memberContents {m : Entries Value} (h : Value.EntriesWellFormed m) :
    entries? (Value.memberContents m) = some (Value.nulledEntries m) := by
  cases m with
  | nil => rfl
  | cons e m =>
    obtain ⟨k, v⟩ := e
    simp [Value.memberContents, entries?, Value.nulledEntries, value?_content h.1,
      entries?_memberContents h.2]

end

/-! ### No kind yields `undefined` -/

/-- No single kind takes a content as `undefined`. -/
theorem undefinedFree_of_scalar? {c : Content} {v : Value} (h : c.scalar? = some v) :
    v.UndefinedFree := by
  cases c with
  | natural n =>
    by_cases hn : n.toNat < Nat.pow 2 63
    · obtain rfl : Value.integer n.toInt64 = v := by
        simpa [scalar?, null?, bool?, integer?, hn] using h
      trivial
    · obtain rfl : Value.float n.toFloat = v := by
        simpa [scalar?, null?, bool?, integer?, float?, hn] using h
      trivial
  | list items => exact absurd h (by simp [scalar?, null?, bool?, integer?, float?, string?])
  | record members => exact absurd h (by simp [scalar?, null?, bool?, integer?, float?, string?])
  | _ =>
    obtain rfl := Option.some.inj h
    trivial

mutual

/-- No content stands for a value with `undefined` in it. -/
theorem undefinedFree_of_value? {c : Content} {v : Value} (h : c.value? = some v) :
    v.UndefinedFree := by
  cases c with
  | list items =>
    rw [value?_list] at h
    obtain ⟨vs, hvs, rfl⟩ := Option.map_eq_some_iff.1 h
    exact (Value.allUndefinedFree_iff vs).2 fun v hv => undefinedFree_of_values? hvs v hv
  | record members =>
    rw [value?_record] at h
    obtain ⟨es, hes, rfl⟩ := Option.map_eq_some_iff.1 h
    exact (Value.entriesUndefinedFree_iff _).2 fun e he =>
      undefinedFree_of_entries? hes e (Entries.mem_ofList he)
  | _ => exact undefinedFree_of_scalar? (by simpa [value?] using h)

theorem undefinedFree_of_values? {cs : List Content} {vs : List Value} (h : values? cs = some vs) :
    ∀ v ∈ vs, v.UndefinedFree := by
  cases cs with
  | nil =>
    obtain rfl := Option.some.inj h
    simp
  | cons c cs =>
    obtain ⟨w, hw, ws, hws, rfl⟩ :
        ∃ w, c.value? = some w ∧ ∃ ws, values? cs = some ws ∧ w :: ws = vs := by
      simpa [values?, Option.bind_eq_some_iff] using h
    intro v hv
    rcases List.mem_cons.1 hv with rfl | hv
    · exact undefinedFree_of_value? hw
    · exact undefinedFree_of_values? hws v hv

theorem undefinedFree_of_entries? {cs : List (String × Content)} {es : List (String × Value)}
    (h : entries? cs = some es) : ∀ e ∈ es, e.2.UndefinedFree := by
  cases cs with
  | nil =>
    obtain rfl := Option.some.inj h
    simp
  | cons m cs =>
    obtain ⟨k, c⟩ := m
    obtain ⟨w, hw, ws, hws, rfl⟩ :
        ∃ w, c.value? = some w ∧ ∃ ws, entries? cs = some ws ∧ (k, w) :: ws = es := by
      simpa [entries?, Option.bind_eq_some_iff] using h
    intro e he
    rcases List.mem_cons.1 he with rfl | he
    · exact undefinedFree_of_value? hw
    · exact undefinedFree_of_entries? hws e he

end

end Content

end DocPath
