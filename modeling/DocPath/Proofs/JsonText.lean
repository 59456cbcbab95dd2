import DocPath.Json.Reader
import DocPath.Json.Writer
import DocPath.Proofs.Content

/-!
# Written JSON reads back

The reader undoes the writer: strings character by character, since what is written for a character is
read as this character whatever follows, and numbers as long as nothing follows that would go on them.

* `Json.readString_writeChar` — the characters of a string;
* `Json.EndsNumber`, `Json.readNumber_integerText` — what may follow a whole number, and integers;
* **`Json.readContent_writeValue`** — a value written at the start of a text is read as its content;
* `Json.readText_write`, `Json.read_write` — what a text that writes a value holds, and its value;
* **`Json.text_round_trip`** — values come back from their text, and no text yields `undefined`.
-/

namespace DocPath

namespace Json

open Text (spanDigits ofDigits)

/-! ### Strings -/

/-- The two digits written for a control character are those of its code. -/
theorem ofRadix?_hexDigits {n : Nat} (h : n < 0x20) :
    Text.ofRadix? 16 ['0', '0', hexDigit (n / 16), hexDigit (n % 16)] = some n := by
  revert n
  decide

theorem readString_control {n : Nat} (h : n < 0x20) (s : List Char) :
    readString ('\\' :: 'u' :: '0' :: '0' :: hexDigit (n / 16) :: hexDigit (n % 16) :: s) =
      consRead (Char.ofNat n) (readString s) := by
  have hhigh : isHighSurrogate n = false := by simp [isHighSurrogate]; omega
  have hlow : isLowSurrogate n = false := by simp [isLowSurrogate]; omega
  simp [readString, ofRadix?_hexDigits h, hhigh, hlow]

theorem readString_plain {c : Char} (hquote : c ≠ '"') (hslash : c ≠ '\\') (hc : ¬ c.toNat < 0x20)
    (s : List Char) : readString (c :: s) = consRead c (readString s) := by
  have hraw : ¬ (decide (c.toNat < 0x20) || c == '\\') = true := by simp [hc, hslash]
  rw [readString, if_neg hraw]
  case x_1 => exact hquote
  case x_2 => exact fun _ _ _ _ _ h => absurd h hslash
  case x_3 => exact fun _ _ h => absurd h hslash

/-- What is written for a character is read as this character, whatever follows. -/
theorem readString_writeChar (c : Char) (s : List Char) :
    readString (writeChar c ++ s) = consRead c (readString s) := by
  unfold writeChar
  split
  case h_8 hquote hslash _ _ _ _ _ =>
    by_cases hc : c.toNat < 0x20
    · have hread := readString_control hc s
      rw [Char.ofNat_toNat] at hread
      rw [if_pos hc]
      exact hread
    · rw [if_neg hc]
      exact readString_plain hquote hslash hc s
  all_goals rfl

theorem readString_flatMap (cs s : List Char) :
    readString (cs.flatMap writeChar ++ '"' :: s) = some (cs, s) := by
  induction cs with
  | nil => rfl
  | cons c cs ih =>
    rw [List.flatMap_cons, List.append_assoc, readString_writeChar, ih]
    rfl

/-! ### Numbers -/

theorem ofDigits_toDigits (n : Nat) : ofDigits (Nat.toDigits 10 n) = n := by
  have h : ofDigits (Nat.toDigits 10 n) = Nat.ofDigitChars 10 (Nat.toDigits 10 n) 0 := by
    rw [Nat.ofDigitChars_eq_foldl]
    rfl
  rw [h, Nat.ofDigitChars_ten_toDigits]

theorem isDigit_of_mem_toDigits {n : Nat} {c : Char} (h : c ∈ Nat.toDigits 10 n) :
    c.isDigit = true :=
  Nat.isDigit_of_mem_toDigits (by decide) (by decide) h

theorem exists_toDigits (n : Nat) : ∃ d ds, Nat.toDigits 10 n = d :: ds ∧ d.isDigit = true := by
  obtain ⟨d, ds, hds⟩ := List.exists_cons_of_ne_nil (Nat.toDigits_ne_nil (n := n) (b := 10))
  exact ⟨d, ds, hds, isDigit_of_mem_toDigits (hds ▸ List.mem_cons_self)⟩

/-- The digits of a positive number do not start with zero. -/
theorem toDigits_of_pos {n : Nat} (h : 0 < n) : ∃ c cs, Nat.toDigits 10 n = c :: cs ∧ c ≠ '0' := by
  induction n using Nat.strongRecOn with
  | ind n ih =>
    rw [Nat.toDigits_eq_if (by decide)]
    by_cases hn : n < 10
    · rw [if_pos hn]
      exact ⟨_, _, rfl, by rw [Ne, Nat.digitChar_eq_zero]; omega⟩
    · obtain ⟨c, cs, hcs, hc⟩ := ih (n / 10) (by omega) (by omega)
      rw [if_neg hn, hcs]
      exact ⟨c, _, rfl, hc⟩

theorem isWhole_toDigits (n : Nat) : isWhole (Nat.toDigits 10 n) = true := by
  by_cases hn : n = 0
  · subst hn
    rfl
  · obtain ⟨c, cs, hcs, hc⟩ := toDigits_of_pos (Nat.pos_of_ne_zero hn)
    rw [hcs]
    simp [isWhole, hc]

/-- Nothing at the start of the text would go on a whole number. -/
def EndsNumber (s : List Char) : Prop :=
  ∀ c ∈ s.head?, c.isDigit = false ∧ c ≠ '.' ∧ c ≠ 'e' ∧ c ≠ 'E'

theorem spanDigits_append {digits s : List Char} (hd : ∀ c ∈ digits, c.isDigit = true)
    (hs : EndsNumber s) : spanDigits (digits ++ s) = (digits, s) := by
  rw [spanDigits, List.takeWhile_append_of_pos hd, List.dropWhile_append_of_pos hd]
  cases s with
  | nil => simp
  | cons c s => simp [(hs c rfl).1]

theorem readFraction_of_ends {s : List Char} (hs : EndsNumber s) :
    readFraction s = some (none, s) := by
  unfold readFraction
  split
  · exact absurd rfl (hs '.' rfl).2.1
  · rfl

theorem readExponent_of_ends {s : List Char} (hs : EndsNumber s) :
    readExponent s = some (none, s) := by
  cases s with
  | nil => rfl
  | cons c s =>
    obtain ⟨-, -, he, hE⟩ := hs c rfl
    simp [readExponent, he, hE]

theorem toList_toString_int (n : Int) : (toString n).toList =
    if n < 0 then '-' :: Nat.toDigits 10 n.natAbs else Nat.toDigits 10 n.natAbs := by
  rw [Int.toString_eq_repr, Int.repr_eq_if]
  by_cases h : n < 0
  · rw [if_neg (by omega), if_pos h, show (-n).toNat = n.natAbs by omega]
    simp
  · rw [if_pos (by omega), if_neg h, show n.toNat = n.natAbs by omega, Nat.toList_repr]

theorem readSign_integer (n : Int) (s : List Char) :
    readSign ((toString n).toList ++ s) = (decide (n < 0), Nat.toDigits 10 n.natAbs ++ s) := by
  rw [toList_toString_int]
  by_cases h : n < 0
  · rw [if_pos h, decide_eq_true h]
    rfl
  · rw [if_neg h, decide_eq_false h]
    obtain ⟨c, cs, hcs, hc⟩ := exists_toDigits n.natAbs
    rw [hcs, List.cons_append]
    unfold readSign
    split
    case h_1 heq =>
      obtain ⟨rfl, -⟩ := List.cons.inj heq
      exact absurd hc (by decide)
    case h_2 => rfl

theorem readNumeral_integer (n : Int) {s : List Char} (hs : EndsNumber s) :
    readNumeral ((toString n).toList ++ s) =
      some (⟨decide (n < 0), Nat.toDigits 10 n.natAbs, none, none⟩, s) := by
  have hspan := spanDigits_append (fun _ => isDigit_of_mem_toDigits (n := n.natAbs)) hs
  rw [readNumeral, readSign_integer]
  simp only [hspan, isWhole_toDigits, if_true, readFraction_of_ends hs, readExponent_of_ends hs,
    Option.bind_eq_bind, Option.bind_some]

/-- The numeral of a word with sign writes this word, as a whole number. -/
theorem wholeNumber?_integer (n : Int64) :
    (⟨decide (n.toInt < 0), Nat.toDigits 10 n.toInt.natAbs, none, none⟩ : Numeral).wholeNumber? =
      some (Value.integer n).content := by
  have hlt : n.toInt < 2 ^ 63 := n.toInt_lt
  have hle : -2 ^ 63 ≤ n.toInt := n.le_toInt
  have h63 : Nat.pow 2 63 = 2 ^ 63 := rfl
  have h64 : Nat.pow 2 64 = 2 ^ 64 := rfl
  simp only [Numeral.wholeNumber?, Value.content, ofDigits_toDigits, Option.isNone_none, Bool.and_self,
    if_true, decide_eq_true_eq]
  by_cases h : n.toInt < 0
  · have habs : -(n.toInt.natAbs : Int) = n.toInt := by omega
    have hfit : 0 < n.toInt.natAbs ∧ n.toInt.natAbs ≤ Nat.pow 2 63 := by omega
    rw [if_pos h, if_pos hfit, if_neg (by omega), habs, Int64.ofInt_toInt]
  · have hfit : n.toInt.natAbs < Nat.pow 2 64 := by omega
    have hnat : n.toInt.natAbs = n.toUInt64.toNat := by
      have := Value.toNat_toUInt64_of_nonneg (Int.not_lt.1 h)
      omega
    rw [if_neg h, if_pos hfit, if_pos (by omega), hnat, Nat.toUInt64_eq, UInt64.ofNat_toNat]

theorem readNumber_integerText (n : Int64) {s : List Char} (hs : EndsNumber s) :
    readNumber ((Value.integerText n).toList ++ s) = some ((Value.integer n).content, s) := by
  simp only [readNumber, Value.integerText, readNumeral_integer n.toInt hs, Numeral.content,
    wholeNumber?_integer, Option.bind_eq_bind, Option.bind_some]

/-! ### One step of the reader -/

theorem skipBlank_cons {c : Char} (hc : isBlank c = false) (s : List Char) :
    skipBlank (c :: s) = c :: s := by
  rw [skipBlank, List.dropWhile_cons_of_neg (by simp [hc])]

theorem readContent_string (fuel room : Nat) (t : String) (s : List Char) :
    readContent (fuel + 1) room (writeString t ++ s) = some (.string t, s) := by
  rw [writeString, List.cons_append, List.append_assoc, readContent, skipBlank_cons (by decide)]
  simp only [List.cons_append, List.nil_append, readString_flatMap, Option.map_some,
    String.ofList_toList]

/-- The first character of a number opens nothing else. -/
theorem ne_of_startsNumber {c d : Char} (hc : c = '-' ∨ c.isDigit = true)
    (hd : d ≠ '-' ∧ d.isDigit = false) : c ≠ d := by
  rintro rfl
  simp [hd] at hc

theorem isBlank_of_startsNumber {c : Char} (hc : c = '-' ∨ c.isDigit = true) :
    isBlank c = false := by
  simp [isBlank, ne_of_startsNumber hc]

theorem readContent_number (fuel room : Nat) {c : Char} (hc : c = '-' ∨ c.isDigit = true)
    (s : List Char) : readContent (fuel + 1) room (c :: s) = readNumber (c :: s) := by
  rw [readContent, skipBlank_cons (isBlank_of_startsNumber hc)]
  split
  case h_7 => rfl
  all_goals
    rename_i heq
    exact absurd (List.cons.inj heq).1 (ne_of_startsNumber hc (by decide))

/-- The text starts neither with a blank nor with the end of an array. -/
def OpensItem (s : List Char) : Prop := ∃ c rest, s = c :: rest ∧ isBlank c = false ∧ c ≠ ']'

theorem OpensItem.append {s : List Char} (h : OpensItem s) (t : List Char) : OpensItem (s ++ t) := by
  obtain ⟨c, rest, rfl, hc⟩ := h
  exact ⟨c, rest ++ t, rfl, hc⟩

theorem readContent_list (fuel room : Nat) {s : List Char} (hs : OpensItem s) :
    readContent (fuel + 1) (room + 1) ('[' :: s) =
      (readItems fuel room s).map fun r => (.list r.1, r.2) := by
  obtain ⟨c, rest, rfl, hblank, hend⟩ := hs
  rw [readContent, skipBlank_cons (by decide)]
  simp only
  rw [skipBlank_cons hblank]
  split
  case h_1 heq => exact absurd (List.cons.inj heq).1 hend
  case h_2 => rfl

theorem readContent_record (fuel room : Nat) {s : List Char} (hs : s.head? = some '"') :
    readContent (fuel + 1) (room + 1) ('\x7b' :: s) =
      (readMembers fuel room s).map fun r => (.record r.1, r.2) := by
  obtain ⟨rest, rfl⟩ := List.head?_eq_some_iff.1 hs
  rfl

section

variable {fuel room : Nat} {s rest : List Char} {c : Content}

theorem readItems_last (h : readContent fuel room s = some (c, ']' :: rest)) :
    readItems (fuel + 1) room s = some ([c], rest) := by
  rw [readItems, h]
  rfl

theorem readItems_more (h : readContent fuel room s = some (c, ',' :: rest)) :
    readItems (fuel + 1) room s = (readItems fuel room rest).map fun r => (c :: r.1, r.2) := by
  rw [readItems, h]
  rfl

theorem readMembers_last (k : String) (h : readContent fuel room s = some (c, '\x7d' :: rest)) :
    readMembers (fuel + 1) room (writeString k ++ ':' :: s) = some ([(k, c)], rest) := by
  rw [writeString, List.cons_append, List.append_assoc, readMembers, skipBlank_cons (by decide)]
  simp only [List.cons_append, List.nil_append, readString_flatMap, skipBlank_cons (c := ':') rfl, h,
    skipBlank_cons (c := '\x7d') rfl, String.ofList_toList]

theorem readMembers_more (k : String) (h : readContent fuel room s = some (c, ',' :: rest)) :
    readMembers (fuel + 1) room (writeString k ++ ':' :: s) =
      (readMembers fuel room rest).map fun r => ((k, c) :: r.1, r.2) := by
  rw [writeString, List.cons_append, List.append_assoc, readMembers, skipBlank_cons (by decide)]
  simp only [List.cons_append, List.nil_append, readString_flatMap, skipBlank_cons (c := ':') rfl, h,
    skipBlank_cons (c := ',') rfl, String.ofList_toList]

end

/-! ### Values -/

theorem endsNumber_cons {d : Char} (h : d.isDigit = false ∧ d ≠ '.' ∧ d ≠ 'e' ∧ d ≠ 'E')
    (s : List Char) : EndsNumber (d :: s) := by
  rintro _ ⟨⟩
  exact h

/-- An integer starts with its sign or a digit. -/
theorem integerText_head (n : Int64) : ∃ d ds, (Value.integerText n).toList = d :: ds ∧
    (d = '-' ∨ d.isDigit = true) := by
  rw [Value.integerText, toList_toString_int]
  by_cases h : n.toInt < 0
  · rw [if_pos h]
    exact ⟨_, _, rfl, .inl rfl⟩
  · rw [if_neg h]
    obtain ⟨d, ds, hds, hd⟩ := exists_toDigits n.toInt.natAbs
    exact ⟨d, ds, hds, .inr hd⟩

/-- What is written for a value does not start like the end of an array. -/
theorem opensItem_writeValue {v : Value} (hv : v.FloatFree) : OpensItem (writeValue v) := by
  cases v with
  | bool b => cases b <;> exact ⟨_, _, rfl, by decide, by decide⟩
  | integer n =>
    obtain ⟨d, ds, hds, hd⟩ := integerText_head n
    exact ⟨d, ds, hds, isBlank_of_startsNumber hd, ne_of_startsNumber hd (by decide)⟩
  | float x => exact hv.elim
  | _ => exact ⟨_, _, rfl, by decide, by decide⟩

theorem opensItem_writeItems {v : Value} {vs : List Value} (hvs : Value.AllFloatFree (v :: vs)) :
    OpensItem (writeItems (v :: vs)) := by
  have hv := opensItem_writeValue hvs.1
  cases vs with
  | nil => exact hv
  | cons w ws => exact hv.append _

theorem head?_writeMembers (e : String × Value) (m : List (String × Value)) (s : List Char) :
    (writeMembers (e :: m) ++ s).head? = some '"' := by
  cases m <;> rfl

mutual

/-- **A value written at the start of a text is read as its content.** Every step of the reader takes at
least one character, so the length of what is written bounds the fuel. -/
theorem readContent_writeValue {v : Value} (hv : v.FloatFree) {fuel room : Nat}
    (hfuel : (writeValue v).length ≤ fuel) (hroom : v.depth ≤ room) {s : List Char}
    (hs : EndsNumber s) : readContent fuel room (writeValue v ++ s) = some (v.content, s) := by
  have hpos : 0 < (writeValue v).length := by
    obtain ⟨d, ds, hds, -⟩ := opensItem_writeValue hv
    rw [hds, List.length_cons]
    omega
  obtain ⟨fuel, rfl⟩ : ∃ n, fuel = n + 1 := Nat.exists_eq_succ_of_ne_zero (by omega)
  cases v with
  | null => rfl
  | undefined => rfl
  | bool b => cases b <;> rfl
  | integer n =>
    obtain ⟨d, ds, hds, hd⟩ := integerText_head n
    rw [writeValue, ← readNumber_integerText n hs, hds, List.cons_append, readContent_number _ _ hd]
  | float x => exact hv.elim
  | string t => exact readContent_string fuel room t s
  | sequence items =>
    rw [Value.depth] at hroom
    obtain ⟨room, rfl⟩ : ∃ n, room = n + 1 := Nat.exists_eq_succ_of_ne_zero (by omega)
    cases items with
    | nil => rfl
    | cons w ws =>
      rw [writeValue, List.length_cons, List.length_append, List.length_singleton] at hfuel
      rw [writeValue, List.cons_append, List.append_assoc, List.cons_append, List.nil_append,
        readContent_list _ _ ((opensItem_writeItems hv).append _),
        readItems_writeItems (by simp) hv (by omega) (by omega)]
      rfl
  | mapping m =>
    rw [Value.depth] at hroom
    obtain ⟨room, rfl⟩ : ∃ n, room = n + 1 := Nat.exists_eq_succ_of_ne_zero (by omega)
    cases m with
    | nil => rfl
    | cons e m =>
      rw [writeValue, List.length_cons, List.length_append, List.length_singleton] at hfuel
      rw [writeValue, List.cons_append, List.append_assoc, List.cons_append, List.nil_append,
        readContent_record _ _ (head?_writeMembers e m _),
        readMembers_writeMembers (by simp) hv (by omega) (by omega)]
      rfl

theorem readItems_writeItems {vs : List Value} (hne : vs ≠ []) (hvs : Value.AllFloatFree vs)
    {fuel room : Nat} (hfuel : (writeItems vs).length < fuel) (hroom : Value.depthOfItems vs ≤ room)
    (s : List Char) :
    readItems fuel room (writeItems vs ++ ']' :: s) = some (Value.contents vs, s) := by
  cases vs with
  | nil => exact absurd rfl hne
  | cons v vs =>
    obtain ⟨fuel, rfl⟩ : ∃ n, fuel = n + 1 := Nat.exists_eq_succ_of_ne_zero (by omega)
    obtain ⟨hv, hvs⟩ := hvs
    rw [Value.depthOfItems] at hroom
    cases vs with
    | nil =>
      rw [writeItems] at hfuel ⊢
      exact readItems_last (readContent_writeValue hv (by omega) (by omega)
        (endsNumber_cons (by decide) s))
    | cons w ws =>
      rw [writeItems, List.length_append, List.length_cons] at hfuel
      rw [writeItems, List.append_assoc, List.cons_append,
        readItems_more (readContent_writeValue hv (by omega) (by omega)
          (endsNumber_cons (by decide) _)),
        readItems_writeItems (by simp) hvs (by omega) (by omega)]
      rfl

theorem readMembers_writeMembers {m : List (String × Value)} (hne : m ≠ [])
    (hm : Value.EntriesFloatFree m) {fuel room : Nat} (hfuel : (writeMembers m).length < fuel)
    (hroom : Value.depthOfEntries m ≤ room) (s : List Char) :
    readMembers fuel room (writeMembers m ++ '\x7d' :: s) = some (Value.memberContents m, s) := by
  cases m with
  | nil => exact absurd rfl hne
  | cons e m =>
    obtain ⟨fuel, rfl⟩ : ∃ n, fuel = n + 1 := Nat.exists_eq_succ_of_ne_zero (by omega)
    obtain ⟨k, v⟩ := e
    obtain ⟨hv, hm⟩ := hm
    rw [Value.depthOfEntries] at hroom
    cases m with
    | nil =>
      rw [writeMembers, List.length_append, List.length_cons] at hfuel
      rw [writeMembers, List.append_assoc, List.cons_append]
      exact readMembers_last k (readContent_writeValue hv (by omega) (by omega)
        (endsNumber_cons (by decide) s))
    | cons e m =>
      simp only [writeMembers, List.length_append, List.length_cons] at hfuel
      rw [writeMembers, List.append_assoc, List.cons_append, List.append_assoc, List.cons_append,
        readMembers_more k (readContent_writeValue hv (by omega) (by omega)
          (endsNumber_cons (by decide) _)),
        readMembers_writeMembers (by simp) hm (by omega) (by omega)]
      rfl

end

/-- **A text that writes a value holds the content of this value**, if no more containers nest in it
than the reader allows. -/
theorem readText_write {v : Value} (hv : v.FloatFree) (hdepth : v.depth ≤ maxDepth) :
    readText (write v) = some v.content := by
  have hfuel : (writeValue v).length ≤ 2 * (writeValue v).length + 2 := by omega
  have hends : EndsNumber [] := by simp [EndsNumber]
  have hread := readContent_writeValue hv hfuel hdepth hends
  rw [List.append_nil] at hread
  rw [readText, write, String.toList_ofList]
  simp only [hread]
  rfl

/-- What is read from the text of a value is the value with null in the place of every `undefined`. -/
theorem read_write {v : Value} (hv : v.FloatFree) (hwf : v.WellFormed) (hdepth : v.depth ≤ maxDepth) :
    read (write v) = some v.nulled := by
  rw [read, readText_write hv hdepth, Option.bind_some, Content.value?_content hwf]

/-- A value without `undefined` comes back as it was. -/
theorem read_write_of_undefinedFree {v : Value} (hv : v.FloatFree) (hwf : v.WellFormed)
    (hdepth : v.depth ≤ maxDepth) (hdef : v.UndefinedFree) : read (write v) = some v := by
  rw [read_write hv hwf hdepth, Value.nulled_of_undefinedFree hdef]

/-- **The text of a value reads back as this value with null in the place of every `undefined`**, if
there is no float in it and at most 127 containers nest; and no text at all reads as a value with
`undefined` in it. -/
theorem text_round_trip :
    (∀ v : Value, v.FloatFree → v.WellFormed → v.depth ≤ 127 → read (write v) = some v.nulled) ∧
      ∀ (text : String) (v : Value), read text = some v → v.UndefinedFree := by
  constructor
  · intro v hv hwf hdepth
    exact read_write hv hwf hdepth
  · intro text v h
    obtain ⟨c, -, hc⟩ := Option.bind_eq_some_iff.1 h
    exact Content.undefinedFree_of_value? hc

/-- Both bounds of the integers, a key with escapes, a string that reads like null and the empty
containers come back, and null comes for `undefined`. -/
theorem text_round_trip_mixed :
    let v : Value := .mapping [("n", .sequence [.integer Int64.minValue, .integer Int64.maxValue]),
      ("\"a\\\n\x01", .undefined), ("null", .sequence [.string "null", .sequence [], .mapping []])]
    let w : Value := .mapping [("n", .sequence [.integer Int64.minValue, .integer Int64.maxValue]),
      ("\"a\\\n\x01", .null), ("null", .sequence [.string "null", .sequence [], .mapping []])]
    read (write v) = some w ∧ w.UndefinedFree := by
  intro v w
  have hread : read (write v) = some w := text_round_trip.1 v
    (by simp [v, Value.FloatFree, Value.EntriesFloatFree, Value.AllFloatFree])
    (by simp [v, Value.WellFormed, Value.EntriesWellFormed, Value.AllWellFormed, Entries.Distinct,
      Entries.keys])
    (by decide)
  exact ⟨hread, text_round_trip.2 _ w hread⟩

end Json

end DocPath
