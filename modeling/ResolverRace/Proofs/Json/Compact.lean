import ResolverRace.Json.Printer
import ResolverRace.Json.Reader

/-!
# JSON is read as it is written

Texts, and lists and records of what is read as it is written, are read back from their compact
form.

* `readString_escape` — strings, with every character they may hold.
* `readValue_compact` — values, with anything after them.
* `parse?_compact` — whole texts.
-/

namespace ResolverRace
namespace Json
open Text

/-! ## Strings -/

theorem readUnit_append {unit rest : List Char} (hlen : unit.length = 4)
    (hdigits : unit.all (isDigitOf 16) = true) :
    readUnit (unit ++ rest) = some (valueOf 16 unit, rest) := by
  match unit, hlen with
  | [a, b, c, d], _ =>
    show (if [a, b, c, d].all (isDigitOf 16) then some (valueOf 16 [a, b, c, d], rest)
      else none) = _
    rw [if_pos hdigits]

/-- The four digits of the escape of a control character. -/
def unit (n : Nat) : List Char :=
  '0' :: '0' :: (if n < 0x10 then '0' :: hexadecimal n else hexadecimal n)

theorem unit_digits : ∀ n < 0x20, (unit n).length = 4 ∧ (unit n).all (isDigitOf 16) = true ∧
    valueOf 16 (unit n) = n := by
  decide

section

variable (fuel : Nat) (rest : List Char)

/-- A two-character escape and the rest of the string after it. -/
theorem readString_simple {letter c : Char} (hc : simpleEscape? letter = some c) :
    readString (fuel + 1) ('\\' :: letter :: rest) =
      (readString fuel rest).map fun (tail, after) => (tail.map (c :: ·), after) := by
  have hu : letter ≠ 'u' := by
    rintro rfl
    cases hc
  rw [readString.eq_def]
  simp [hc]
  cases readString fuel rest <;> rfl

/-- The escape of a control character and the rest of the string after it. -/
theorem readString_unit {n : Nat} (hn : n < 0x20) :
    readString (fuel + 1) ('\\' :: 'u' :: (unit n ++ rest)) =
      (readString fuel rest).map fun (tail, after) => (tail.map (Char.ofNat n :: ·), after) := by
  obtain ⟨hlen, hdigits, hvalue⟩ := unit_digits n hn
  have hunit : readUnit (unit n ++ rest) = some (n, rest) := by
    rw [readUnit_append hlen hdigits, hvalue]
  have hhigh : isHighSurrogate n = false := by
    simp only [isHighSurrogate, Bool.and_eq_false_iff, decide_eq_false_iff_not]
    omega
  have hlow : isLowSurrogate n = false := by
    simp only [isLowSurrogate, Bool.and_eq_false_iff, decide_eq_false_iff_not]
    omega
  rw [readString.eq_def]
  simp only [hunit, hhigh, hlow, Bool.false_and, Bool.or_false, Bool.false_eq_true, ↓reduceIte]
  -- A control character has no partner, whatever follows it.
  split
  · grind
  · cases readString fuel rest <;> rfl

theorem readString_plain {c : Char} (hquote : c ≠ '"') (hback : c ≠ '\\') (hn : ¬c.toNat < 0x20) :
    readString (fuel + 1) (c :: rest) =
      (readString fuel rest).map fun (tail, after) => (tail.map (c :: ·), after) := by
  rw [readString.eq_def]
  simp [hback, hn]
  cases readString fuel rest <;> rfl

/-- One character and the rest of the string after it. -/
theorem readString_escape_append (c : Char) :
    readString (fuel + 1) (escape c ++ rest) =
      (readString fuel rest).map fun (tail, after) => (tail.map (c :: ·), after) := by
  rw [escape]
  split
  · rename_i h
    exact readString_simple fuel rest (by rw [h]; rfl)
  · rename_i hquote
    split
    · rename_i h
      exact readString_simple fuel rest (by rw [h]; rfl)
    · rename_i hback
      split
      · rename_i h
        exact readString_simple fuel rest (by rw [h]; rfl)
      · split
        · rename_i h
          exact readString_simple fuel rest (by rw [h]; rfl)
        · split
          · rename_i h
            exact readString_simple fuel rest (by rw [h]; rfl)
          · split
            · rename_i h
              exact readString_simple fuel rest (by rw [h]; rfl)
            · split
              · rename_i h
                exact readString_simple fuel rest (by rw [h]; rfl)
              · split
                · rename_i hn
                  have hunit := readString_unit fuel rest hn
                  rwa [Char.ofNat_toNat] at hunit
                · rename_i hn
                  exact readString_plain fuel rest hquote hback hn

end

theorem readString_escape {fuel : Nat} {cs rest : List Char} (h : cs.length < fuel) :
    readString fuel (cs.flatMap escape ++ '"' :: rest) = some (some cs, rest) := by
  induction cs generalizing fuel with
  | nil =>
    cases fuel with
    | zero => cases h
    | succ fuel => rfl
  | cons c cs ih =>
    cases fuel with
    | zero => cases h
    | succ fuel =>
      rw [List.flatMap_cons, List.append_assoc, readString_escape_append,
        ih (Nat.lt_of_succ_lt_succ h)]
      rfl

theorem length_le_length_flatMap_escape (cs : List Char) :
    cs.length ≤ (cs.flatMap escape).length := by
  induction cs with
  | nil => exact Nat.le_refl 0
  | cons c cs ih =>
    have hpos : 1 ≤ (escape c).length := by
      rw [escape]
      repeat' split
      all_goals simp
    rw [List.flatMap_cons, List.length_append, List.length_cons]
    omega

/-- A quoted string after its opening quote. -/
theorem readString_quoted (cs rest : List Char) :
    readString ((cs.flatMap escape ++ '"' :: rest).length + 1)
      (cs.flatMap escape ++ '"' :: rest) = some (some cs, rest) := by
  refine readString_escape ?_
  have hle := length_le_length_flatMap_escape cs
  rw [List.length_append]
  omega

/-! ## Values -/

/-- Texts, and lists and records of plain data. -/
inductive Plain : Datum → Prop where
  | text (s : String) : Plain (.text s)
  | list {items : List Datum} : (∀ item ∈ items, Plain item) → Plain (.list items)
  | record {fields : List (String × Datum)} :
      (∀ field ∈ fields, Plain field.2) → Plain (.record fields)

def valueChars (d : Datum) : List Char := (compact d).toList

/-- Items with commas between. -/
def itemsChars (items : List Datum) : List Char := (joinWith "," (compactItems items)).toList

def fieldChars (field : String × Datum) : List Char :=
  quoteChars field.1.toList ++ ':' :: valueChars field.2

/-- Fields with commas between. -/
def fieldsChars (fields : List (String × Datum)) : List Char :=
  (joinWith "," (compactFields fields)).toList

theorem valueChars_text (s : String) : valueChars (.text s) = quoteChars s.toList := by
  simp [valueChars, compact, quote]

theorem valueChars_list (items : List Datum) :
    valueChars (.list items) = '[' :: (itemsChars items ++ [']']) := by
  simp [valueChars, compact, itemsChars]

theorem valueChars_record (fields : List (String × Datum)) :
    valueChars (.record fields) = '\x7b' :: (fieldsChars fields ++ ['\x7d']) := by
  simp [valueChars, compact, fieldsChars]

theorem itemsChars_singleton (item : Datum) : itemsChars [item] = valueChars item := by
  simp [itemsChars, compactItems, joinWith, valueChars]

theorem itemsChars_cons (item next : Datum) (items : List Datum) :
    itemsChars (item :: next :: items) = valueChars item ++ ',' :: itemsChars (next :: items) := by
  simp [itemsChars, compactItems, joinWith, valueChars, String.intercalate_cons_cons]

theorem fieldsChars_singleton (field : String × Datum) :
    fieldsChars [field] = fieldChars field := by
  simp [fieldsChars, compactFields, joinWith, fieldChars, valueChars, quote]

theorem fieldsChars_cons (field next : String × Datum) (fields : List (String × Datum)) :
    fieldsChars (field :: next :: fields) =
      fieldChars field ++ ',' :: fieldsChars (next :: fields) := by
  simp [fieldsChars, compactFields, joinWith, fieldChars, valueChars, quote,
    String.intercalate_cons_cons]

/-- A value is read back with twice its length as fuel. -/
def ReadsBack (d : Datum) : Prop :=
  ∀ fuel rest, 2 * (valueChars d).length ≤ fuel →
    readValue fuel (valueChars d ++ rest) = some (d, rest)

theorem readsBack_text (s : String) : ReadsBack (.text s) := by
  intro fuel rest hfuel
  rw [valueChars_text] at hfuel ⊢
  obtain ⟨fuel, rfl⟩ : ∃ n, fuel = n + 1 := ⟨fuel - 1, by simp [quoteChars] at hfuel; omega⟩
  have htext : quoteChars s.toList ++ rest = '"' :: (s.toList.flatMap escape ++ '"' :: rest) := by
    simp [quoteChars]
  have hspace : skipSpace ('"' :: (s.toList.flatMap escape ++ '"' :: rest)) =
      '"' :: (s.toList.flatMap escape ++ '"' :: rest) := rfl
  rw [htext, readValue, hspace]
  simp only [readString_quoted, Option.bind_eq_bind, Option.bind_some, Option.elim,
    String.ofList_toList]
  rfl

/-- A plain value begins with a quote or an opening bracket. -/
theorem exists_valueChars_eq_cons {d : Datum} (h : Plain d) :
    ∃ c cs, valueChars d = c :: cs ∧ (c = '"' ∨ c = '[' ∨ c = '\x7b') := by
  cases h with
  | text s => exact ⟨'"', _, by rw [valueChars_text]; rfl, .inl rfl⟩
  | list => exact ⟨'[', _, valueChars_list _, .inr (.inl rfl)⟩
  | record => exact ⟨'\x7b', _, valueChars_record _, .inr (.inr rfl)⟩

theorem exists_itemsChars_eq_cons {items : List Datum} (hne : items ≠ [])
    (h : ∀ item ∈ items, Plain item) :
    ∃ c cs, itemsChars items = c :: cs ∧ (c = '"' ∨ c = '[' ∨ c = '\x7b') := by
  cases items with
  | nil => exact absurd rfl hne
  | cons item items =>
    obtain ⟨c, cs, hcs, hc⟩ := exists_valueChars_eq_cons (h item (List.mem_cons_self ..))
    cases items with
    | nil => exact ⟨c, cs, by rw [itemsChars_singleton, hcs], hc⟩
    | cons next items => exact ⟨c, _, by rw [itemsChars_cons, hcs]; rfl, hc⟩

theorem exists_fieldsChars_eq_cons {fields : List (String × Datum)} (hne : fields ≠ []) :
    ∃ cs, fieldsChars fields = '"' :: cs := by
  cases fields with
  | nil => exact absurd rfl hne
  | cons field fields =>
    cases fields with
    | nil => exact ⟨_, fieldsChars_singleton field⟩
    | cons next fields => exact ⟨_, fieldsChars_cons field next fields⟩

theorem readItems_itemsChars {items : List Datum} (hne : items ≠ [])
    (h : ∀ item ∈ items, ReadsBack item) {fuel : Nat} {rest : List Char}
    (hfuel : 2 * (itemsChars items).length + 1 ≤ fuel) :
    readItems fuel (itemsChars items ++ ']' :: rest) = some (items, rest) := by
  induction items generalizing fuel with
  | nil => exact absurd rfl hne
  | cons item items ih =>
    obtain ⟨fuel, rfl⟩ : ∃ n, fuel = n + 1 := ⟨fuel - 1, by omega⟩
    have hitem := h item (List.mem_cons_self ..)
    cases items with
    | nil =>
      rw [itemsChars_singleton] at hfuel ⊢
      rw [readItems, hitem fuel _ (by omega)]
      rfl
    | cons next items =>
      rw [itemsChars_cons, List.length_append, List.length_cons] at hfuel
      have htail : readItems fuel (itemsChars (next :: items) ++ ']' :: rest) =
          some (next :: items, rest) :=
        ih (by simp) (fun d hd => h d (List.mem_cons_of_mem item hd)) (by omega)
      rw [itemsChars_cons, List.append_assoc, readItems, hitem fuel _ (by omega)]
      simp only [Option.bind_eq_bind, Option.bind_some, List.cons_append]
      have hcomma : skipSpace (',' :: (itemsChars (next :: items) ++ ']' :: rest)) =
          ',' :: (itemsChars (next :: items) ++ ']' :: rest) := rfl
      rw [hcomma]
      simp only [htail, Option.bind_some]
      rfl

/-- The field in front of whatever follows it. -/
theorem readFields_fieldChars {key : String} {value : Datum} (h : ReadsBack value) {fuel : Nat}
    {after : List Char} (hfuel : 2 * (valueChars value).length ≤ fuel) :
    readFields (fuel + 1) (fieldChars (key, value) ++ after) =
      match skipSpace after with
      | '\x7d' :: rest => some ([(some key, value)], rest)
      | ',' :: rest => (readFields fuel rest).map fun (fields, rest) =>
          ((some key, value) :: fields, rest)
      | _ => none := by
  have htext : fieldChars (key, value) ++ after =
      '"' :: (key.toList.flatMap escape ++ '"' :: ':' :: (valueChars value ++ after)) := by
    simp [fieldChars, quoteChars]
  have hspace (cs : List Char) : skipSpace ('"' :: cs) = '"' :: cs := rfl
  have hcolon : dropChar ':' (skipSpace (':' :: (valueChars value ++ after))) =
      some (valueChars value ++ after) := rfl
  rw [htext, readFields, hspace]
  simp only [readString_quoted, Option.bind_eq_bind, Option.bind_some, hcolon, h fuel after hfuel,
    Option.map_some, String.ofList_toList]
  generalize skipSpace after = cs
  split
  · rfl
  · rename_i rest
    show (readFields fuel rest).bind _ = (readFields fuel rest).map _
    cases readFields fuel rest <;> rfl
  · grind

theorem readFields_fieldsChars {fields : List (String × Datum)} (hne : fields ≠ [])
    (h : ∀ field ∈ fields, ReadsBack field.2) {fuel : Nat} {rest : List Char}
    (hfuel : 2 * (fieldsChars fields).length + 1 ≤ fuel) :
    readFields fuel (fieldsChars fields ++ '\x7d' :: rest) =
      some (fields.map fun field => (some field.1, field.2), rest) := by
  induction fields generalizing fuel with
  | nil => exact absurd rfl hne
  | cons field fields ih =>
    obtain ⟨fuel, rfl⟩ : ∃ n, fuel = n + 1 := ⟨fuel - 1, by omega⟩
    obtain ⟨key, value⟩ := field
    have hvalue : ReadsBack value := h (key, value) (List.mem_cons_self ..)
    cases fields with
    | nil =>
      rw [fieldsChars_singleton] at hfuel ⊢
      rw [readFields_fieldChars hvalue (by simp [fieldChars] at hfuel; omega)]
      rfl
    | cons next fields =>
      rw [fieldsChars_cons, List.length_append, List.length_cons] at hfuel
      have htail : readFields fuel (fieldsChars (next :: fields) ++ '\x7d' :: rest) =
          some ((next :: fields).map fun field => (some field.1, field.2), rest) :=
        ih (by simp) (fun d hd => h d (List.mem_cons_of_mem _ hd)) (by omega)
      have hcomma : skipSpace (',' :: (fieldsChars (next :: fields) ++ '\x7d' :: rest)) =
          ',' :: (fieldsChars (next :: fields) ++ '\x7d' :: rest) := rfl
      rw [fieldsChars_cons, List.append_assoc, List.cons_append,
        readFields_fieldChars hvalue (by simp [fieldChars] at hfuel; omega), hcomma]
      simp only [htail, Option.map_some, List.map_cons]

theorem makeRecord_map (fields : List (String × Datum)) :
    makeRecord (fields.map fun field => (some field.1, field.2)) = .record fields := by
  have hread : ∀ fields : List (String × Datum),
      (fields.map fun field => (some field.1, field.2)).mapM
        (fun field : Option String × Datum => field.1.map (·, field.2)) = some fields := by
    intro fields
    induction fields with
    | nil => rfl
    | cons field fields ih => simp [ih]
  rw [makeRecord]
  split
  · rename_i read hsome
    have hsame : some read = some fields := hsome.symm.trans (hread fields)
    rw [Option.some.inj hsame]
  · rename_i hnone
    have hsame : none = some fields := hnone.symm.trans (hread fields)
    cases hsame

theorem readsBack_list {items : List Datum} (hplain : ∀ item ∈ items, Plain item)
    (h : ∀ item ∈ items, ReadsBack item) : ReadsBack (.list items) := by
  intro fuel rest hfuel
  rw [valueChars_list] at hfuel ⊢
  rw [List.length_cons, List.length_append, List.length_singleton] at hfuel
  obtain ⟨fuel, rfl⟩ : ∃ n, fuel = n + 1 := ⟨fuel - 1, by omega⟩
  have htext : '[' :: (itemsChars items ++ [']']) ++ rest =
      '[' :: (itemsChars items ++ ']' :: rest) := by simp
  have hspace : skipSpace ('[' :: (itemsChars items ++ ']' :: rest)) =
      '[' :: (itemsChars items ++ ']' :: rest) := rfl
  rw [htext, readValue, hspace]
  by_cases hne : items = []
  · subst hne
    rfl
  · have hitems : readItems fuel (itemsChars items ++ ']' :: rest) = some (items, rest) :=
      readItems_itemsChars hne h (by omega)
    obtain ⟨c, cs, hcs, hc⟩ := exists_itemsChars_eq_cons hne hplain
    rw [hcs, List.cons_append] at hitems ⊢
    have hfirst : skipSpace (c :: (cs ++ ']' :: rest)) = c :: (cs ++ ']' :: rest) := by
      rcases hc with rfl | rfl | rfl <;> rfl
    simp only [hfirst]
    split
    · rename_i heq
      cases heq
      rcases hc with hc | hc | hc <;> cases hc
    · rename_i heq
      rw [hitems]
      rfl

theorem readsBack_record {fields : List (String × Datum)}
    (h : ∀ field ∈ fields, ReadsBack field.2) : ReadsBack (.record fields) := by
  intro fuel rest hfuel
  rw [valueChars_record] at hfuel ⊢
  rw [List.length_cons, List.length_append, List.length_singleton] at hfuel
  obtain ⟨fuel, rfl⟩ : ∃ n, fuel = n + 1 := ⟨fuel - 1, by omega⟩
  have htext : '\x7b' :: (fieldsChars fields ++ ['\x7d']) ++ rest =
      '\x7b' :: (fieldsChars fields ++ '\x7d' :: rest) := by simp
  have hspace : skipSpace ('\x7b' :: (fieldsChars fields ++ '\x7d' :: rest)) =
      '\x7b' :: (fieldsChars fields ++ '\x7d' :: rest) := rfl
  rw [htext, readValue, hspace]
  by_cases hne : fields = []
  · subst hne
    rfl
  · have hfields : readFields fuel (fieldsChars fields ++ '\x7d' :: rest) =
        some (fields.map fun field => (some field.1, field.2), rest) :=
      readFields_fieldsChars hne h (by omega)
    obtain ⟨cs, hcs⟩ := exists_fieldsChars_eq_cons hne
    rw [hcs, List.cons_append] at hfields ⊢
    have hfirst : skipSpace ('"' :: (cs ++ '\x7d' :: rest)) = '"' :: (cs ++ '\x7d' :: rest) := rfl
    simp only [hfirst]
    split
    · rename_i heq
      cases heq
    · simp only [hfields, Option.bind_eq_bind, Option.bind_some, makeRecord_map]
      rfl

/-- Plain data is read back. -/
theorem readValue_compact {d : Datum} (h : Plain d) : ReadsBack d := by
  induction h with
  | text s => exact readsBack_text s
  | list hplain ih => exact readsBack_list hplain ih
  | record _ ih => exact readsBack_record ih

/-- The compact form of plain data is read back. -/
theorem parse?_compact {d : Datum} (h : Plain d) : parse? (compact d) = some d := by
  have hread := readValue_compact h (2 * (compact d).toList.length + 2) [] (by
    show 2 * (compact d).toList.length ≤ _
    omega)
  rw [List.append_nil] at hread
  rw [parse?]
  have hread' : readValue (2 * (compact d).toList.length + 2) (compact d).toList =
      some (d, []) := hread
  simp only [hread']
  rfl

end Json
end ResolverRace
