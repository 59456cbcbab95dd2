/-!
# Ordered entries

The entries of a mapping, in the order in which their keys were first written. Replacing the
value of a key keeps the key's place; a new key goes to the end.

* `Entries.get?` — the value under a key;
* `Entries.insert`, `Entries.erase` — write and remove one entry;
* `Entries.ofList` — the entries that writing a list of pairs from left to right leaves behind;
* `Entries.pick`, `Entries.without`, `Entries.merge` — part of a mapping, the rest of it, and one
  mapping laid over another;
* `Entries.Distinct` — no key occurs twice, which every one of these operations keeps.
-/

namespace DocPath

/-- Keys with their values, in insertion order. -/
abbrev Entries (α : Type) := List (String × α)

namespace Entries

variable {α : Type}

/-- The keys, in order. -/
def keys (m : Entries α) : List String := m.map Prod.fst

/-- No key occurs twice. -/
def Distinct (m : Entries α) : Prop := m.keys.Nodup

/-- The value under `k`, if there is one. -/
def get? (m : Entries α) (k : String) : Option α := m.lookup k

/-- Whether `k` has a value. -/
def contains (m : Entries α) (k : String) : Bool := (get? m k).isSome

/-- Puts `v` under `k`: in the place that `k` already has, else at the end. -/
def insert : Entries α → String → α → Entries α
  | [], k, v => [(k, v)]
  | (k', v') :: rest, k, v => if k == k' then (k', v) :: rest else (k', v') :: insert rest k v

/-- Removes the entry of `k`; the others keep their order. -/
def erase (m : Entries α) (k : String) : Entries α := m.filter fun e => e.1 != k

/-- Writes `overlay` over `base`: its values win, keys of `base` keep their place and new keys
follow in the order of `overlay`. -/
def merge (base overlay : Entries α) : Entries α := overlay.foldl (fun m e => insert m e.1 e.2) base

/-- The entries left by writing the pairs from left to right: a repeated key keeps its first
place and its last value. -/
def ofList (pairs : List (String × α)) : Entries α := merge [] pairs

/-- The entries of `m` whose keys are named, in the order of the names. -/
def pick (names : List String) (m : Entries α) : Entries α :=
  ofList (names.filterMap fun k => (get? m k).map fun v => (k, v))

/-- `m` without the named entries. -/
def without (names : List String) (m : Entries α) : Entries α :=
  m.filter fun e => !names.contains e.1

/-! ### Reading after writing -/

theorem get?_nil (k : String) : get? ([] : Entries α) k = none := rfl

theorem get?_cons (k k' : String) (v : α) (m : Entries α) :
    get? ((k', v) :: m) k = if k == k' then some v else get? m k := by
  simp only [get?, List.lookup_cons]
  cases k == k' <;> rfl

theorem get?_insert_self (m : Entries α) (k : String) (v : α) : get? (insert m k v) k = some v := by
  induction m with
  | nil => simp [insert, get?_cons]
  | cons e m ih =>
    obtain ⟨k', v'⟩ := e
    by_cases h : k = k' <;> simp [insert, h, get?_cons, ih]

theorem get?_insert_of_ne (m : Entries α) {k k' : String} (v : α) (h : k' ≠ k) :
    get? (insert m k v) k' = get? m k' := by
  induction m with
  | nil => simp [insert, get?_cons, get?_nil, h]
  | cons e m ih =>
    obtain ⟨k₀, v₀⟩ := e
    by_cases h₀ : k = k₀
    · subst h₀
      simp [insert, get?_cons, h]
    · simp [insert, h₀, get?_cons, ih]

theorem get?_erase_self (m : Entries α) (k : String) : get? (erase m k) k = none := by
  induction m with
  | nil => rfl
  | cons e m ih =>
    obtain ⟨k', v'⟩ := e
    by_cases h : k' = k
    · simpa [erase, h] using ih
    · have h' : ¬ k = k' := fun hk => h hk.symm
      simpa [erase, h, h', get?_cons] using ih

end Entries

end DocPath
