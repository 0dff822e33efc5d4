import ResolverRace.Proofs.Json.Compact

/-!
# Indented records are read as they are written

A flat record of texts is read back from its indented form: a line differs from a field of the
compact form by blanks alone, and blanks are skipped.

* `readFields_lineChars` — a line reads like a field.
* `parse?_indented` — whole texts.
-/

namespace ResolverRace
namespace Json
open Text

/-- A line of an indented record. -/
def lineChars (entry : String × String) : List Char :=
  ' ' :: ' ' :: (quoteChars entry.1.toList ++ ':' :: ' ' :: quoteChars entry.2.toList)

/-- The lines of an indented record, with a comma after each but the last. -/
def linesChars : List (String × String) → List Char
  | [] => []
  | [entry] => lineChars entry
  | entry :: next :: entries => lineChars entry ++ ',' :: '\n' :: linesChars (next :: entries)

theorem toList_joinLines (entries : List (String × String)) :
    (joinWith ",\n" (entries.map fun entry =>
      "  " ++ quote entry.1 ++ ": " ++ quote entry.2)).toList = linesChars entries := by
  induction entries with
  | nil => rfl
  | cons entry entries ih =>
    cases entries with
    | nil => simp [joinWith, linesChars, lineChars, quote]
    | cons next entries =>
      rw [linesChars, ← ih]
      simp [joinWith, lineChars, quote, String.intercalate_cons_cons]

theorem toList_indented {entries : List (String × String)} (hne : entries ≠ []) :
    (indented entries).toList =
      '\x7b' :: '\n' :: (linesChars entries ++ ['\n', '\x7d']) := by
  rw [indented, if_neg (by simpa using hne), ← toList_joinLines]
  simp

section

variable {fuel : Nat} {c : Char} {cs rest : List Char}

theorem skipSpace_cons (hc : isSpace c = true) (cs : List Char) :
    skipSpace (c :: cs) = skipSpace cs :=
  List.dropWhile_cons_of_pos hc

theorem readValue_cons (hc : isSpace c = true) (fuel : Nat) (cs : List Char) :
    readValue fuel (c :: cs) = readValue fuel cs := by
  cases fuel with
  | zero => rfl
  | succ fuel => rw [readValue, readValue, skipSpace_cons hc]

theorem readFields_cons (hc : isSpace c = true) (fuel : Nat) (cs : List Char) :
    readFields fuel (c :: cs) = readFields fuel cs := by
  cases fuel with
  | zero => rfl
  | succ fuel => rw [readFields, readFields, skipSpace_cons hc]

/-- A line reads like the field with its key and its text. -/
theorem readFields_lineChars (entry : String × String) (fuel : Nat) (rest : List Char) :
    readFields (fuel + 1) (lineChars entry ++ rest) =
      readFields (fuel + 1) (fieldChars (entry.1, .text entry.2) ++ rest) := by
  have hkey (cs : List Char) : quoteChars entry.1.toList ++ ':' :: cs =
      '"' :: (entry.1.toList.flatMap escape ++ '"' :: ':' :: cs) := by
    simp [quoteChars]
  have hquote (cs : List Char) : skipSpace ('"' :: cs) = '"' :: cs := rfl
  have hcolon (cs : List Char) : dropChar ':' (skipSpace (':' :: cs)) = some cs := rfl
  have hline : lineChars entry ++ rest = ' ' :: ' ' ::
      (quoteChars entry.1.toList ++ ':' :: ' ' :: (quoteChars entry.2.toList ++ rest)) := by
    simp [lineChars]
  have hfield : fieldChars (entry.1, .text entry.2) ++ rest =
      quoteChars entry.1.toList ++ ':' :: (quoteChars entry.2.toList ++ rest) := by
    simp [fieldChars, valueChars_text]
  rw [hline, hfield, readFields_cons rfl, readFields_cons rfl, hkey, hkey, readFields, readFields,
    hquote, hquote]
  simp only [readString_quoted, Option.bind_eq_bind, Option.bind_some, hcolon,
    readValue_cons (c := ' ') rfl]

theorem readFields_linesChars (rest : List Char) {entries : List (String × String)}
    (hne : entries ≠ []) (hfuel : 2 * (linesChars entries).length + 1 ≤ fuel) :
    readFields fuel (linesChars entries ++ '\n' :: '\x7d' :: rest) =
      some (entries.map fun entry => (some entry.1, .text entry.2), rest) := by
  induction entries generalizing fuel with
  | nil => exact absurd rfl hne
  | cons entry entries ih =>
    obtain ⟨fuel, rfl⟩ : ∃ n, fuel = n + 1 := ⟨fuel - 1, by omega⟩
    have hvalue : ReadsBack (.text entry.2) := readsBack_text entry.2
    cases entries with
    | nil =>
      have hlength : 2 * (valueChars (.text entry.2)).length ≤ fuel := by
        simp [linesChars, lineChars] at hfuel
        rw [valueChars_text]
        omega
      rw [linesChars, readFields_lineChars, readFields_fieldChars hvalue hlength]
      rfl
    | cons next entries =>
      rw [linesChars, List.length_append, List.length_cons, List.length_cons] at hfuel
      have hlength : 2 * (valueChars (.text entry.2)).length ≤ fuel := by
        simp [lineChars] at hfuel
        rw [valueChars_text]
        omega
      have htail : readFields fuel (linesChars (next :: entries) ++ '\n' :: '\x7d' :: rest) =
          some ((next :: entries).map fun entry => (some entry.1, .text entry.2), rest) :=
        ih (by simp) (by omega)
      have hcomma (cs : List Char) : skipSpace (',' :: cs) = ',' :: cs := rfl
      rw [linesChars, List.append_assoc, readFields_lineChars,
        readFields_fieldChars hvalue hlength]
      simp only [List.cons_append, hcomma, readFields_cons (c := '\n') rfl, htail, Option.map_some,
        List.map_cons]

end

theorem exists_linesChars_eq_cons {entries : List (String × String)} (hne : entries ≠ []) :
    ∃ cs, linesChars entries = ' ' :: ' ' :: '"' :: cs := by
  match entries, hne with
  | [_], _ => exact ⟨_, rfl⟩
  | _ :: _ :: _, _ => exact ⟨_, rfl⟩

theorem readValue_indented {entries : List (String × String)} (hne : entries ≠ []) {fuel : Nat}
    (hfuel : 2 * (linesChars entries).length + 1 ≤ fuel) :
    readValue (fuel + 1) (indented entries).toList =
      some (.record (entries.map fun entry => (entry.1, .text entry.2)), []) := by
  obtain ⟨cs, hcs⟩ := exists_linesChars_eq_cons hne
  have hfields := readFields_linesChars [] hne hfuel
  rw [hcs] at hfields
  simp only [List.cons_append, readFields_cons (c := ' ') rfl] at hfields
  have hopen (tail : List Char) : skipSpace ('\x7b' :: tail) = '\x7b' :: tail := rfl
  have hfirst (tail : List Char) :
      skipSpace ('\n' :: ' ' :: ' ' :: '"' :: tail) = '"' :: tail := rfl
  rw [toList_indented hne, hcs, readValue, hopen]
  simp only [List.cons_append, hfirst]
  split
  · rename_i heq
    cases heq
  · rw [hfields]
    have hrecord := makeRecord_map (entries.map fun entry => (entry.1, Datum.text entry.2))
    rw [List.map_map] at hrecord
    exact congrArg (fun d => some (d, [])) hrecord

/-- The indented form of a record of texts is read back. -/
theorem parse?_indented (entries : List (String × String)) :
    parse? (indented entries) =
      some (.record (entries.map fun entry => (entry.1, .text entry.2))) := by
  by_cases hne : entries = []
  · subst hne
    rfl
  · have hlength : (indented entries).toList.length = (linesChars entries).length + 4 := by
      simp [toList_indented hne]
    rw [parse?, hlength, readValue_indented hne (by omega)]
    rfl

end Json
end ResolverRace
