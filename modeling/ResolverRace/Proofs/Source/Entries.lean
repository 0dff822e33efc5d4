import ResolverRace.Proofs.Text.Blank
import ResolverRace.Source.Catalogue

/-!
# Entries of list texts

How the lines of a list text end makes no difference, because trimming takes a carriage return with
it and an empty last line is no entry. So a list text is its pieces between line feeds, each read
for itself, and whatever was read is read again when it is written one entry a line.

* `entriesOfText_eq` — the pieces in the place of the lines.
* `entriesOfText_append`, `entriesOfText_line` — a text is read line by line.
* `IsEntry` — the texts that are entries; `IsEntry.entriesOfText`, `isEntry_of_mem`.
* `entriesOfText_intercalate` — entries that are written one a line are read back.
* `entriesOfText_laws` — all this together.
-/

namespace ResolverRace
open Text

section

variable {line piece : List Char} {e text : String} {es : List String}

/-- What is left of a line when it is trimmed is an entry. -/
def isKept (line : List Char) : Bool := !line.isEmpty && line.head? ≠ some '#'

theorem isKept_iff : isKept line = true ↔ line ≠ [] ∧ line.head? ≠ some '#' := by
  simp [isKept]

/-! ## Lines -/

theorem trimChars_dropReturn (line : List Char) : trimChars (dropReturn line) = trimChars line := by
  rw [dropReturn]
  split
  · rename_i rest hreverse
    have hline : line = rest.reverse ++ ['\r'] := by
      rw [← List.reverse_reverse line, hreverse, List.reverse_cons]
    have hreturn : ∀ c ∈ ['\r'], isBlank c = true := by simp [isBlank]
    rw [hline, trimChars_append_blank hreturn]
  · rfl

theorem kept_lines (cs : List Char) :
    ((lines cs).map trimChars).filter isKept =
      ((splitAtEach '\n' cs).map trimChars).filter isKept := by
  obtain hnil | ⟨ended, last, hpieces⟩ := List.eq_nil_or_concat (splitAtEach '\n' cs)
  · exact absurd hnil (splitAtEach_ne_nil _ cs)
  · have hended : (ended.map dropReturn).map trimChars = ended.map trimChars := by
      simp [trimChars_dropReturn]
    rw [lines, hpieces]
    -- Only the last piece may be left out, and then it is empty and not kept either way.
    cases last with
    | nil => simp [hended, show trimChars [] = [] from rfl, isKept]
    | cons c last => simp [hended]

theorem entriesOfText_eq (text : String) :
    entriesOfText text =
      (((splitAtEach '\n' text.toList).map trimChars).filter isKept).map String.ofList := by
  rw [← kept_lines]
  rfl

theorem entriesOfText_append (t u : String) :
    entriesOfText (t ++ "\n" ++ u) = entriesOfText t ++ entriesOfText u := by
  have hsplit : (t ++ "\n" ++ u).toList = t.toList ++ '\n' :: u.toList := by simp
  rw [entriesOfText_eq, hsplit, splitAtEach_append_cons, List.map_append, List.filter_append,
    List.map_append, ← entriesOfText_eq, ← entriesOfText_eq]

theorem entriesOfText_line (h : '\n' ∉ e.toList) :
    entriesOfText e = if isKept (trimChars e.toList) then [trim e] else [] := by
  rw [entriesOfText_eq, splitAtEach_eq_singleton h]
  cases hkept : isKept (trimChars e.toList) <;> simp [hkept, trim]

/-! ## Entries -/

/-- A text that is an entry of some list text: a line that is neither empty nor a comment, with no
blank at either end. -/
structure IsEntry (e : String) : Prop where
  ne_nil : e.toList ≠ []
  front : ∀ c ∈ e.toList.head?, isBlank c = false
  back : ∀ c ∈ e.toList.getLast?, isBlank c = false
  oneLine : '\n' ∉ e.toList
  noComment : e.toList.head? ≠ some '#'

theorem isEntry_of_mem (h : e ∈ entriesOfText text) : IsEntry e := by
  rw [entriesOfText_eq] at h
  obtain ⟨cs, hcs, rfl⟩ := List.mem_map.1 h
  obtain ⟨htrimmed, hkept⟩ := List.mem_filter.1 hcs
  obtain ⟨piece, hpiece, rfl⟩ := List.mem_map.1 htrimmed
  obtain ⟨hne, hcomment⟩ := isKept_iff.1 hkept
  have hline : '\n' ∉ trimChars piece :=
    fun hin => not_mem_of_mem_splitAtEach hpiece (mem_of_mem_trimChars hin)
  constructor <;> rw [String.toList_ofList]
  · exact hne
  · exact head_trimChars piece
  · exact getLast_trimChars piece
  · exact hline
  · exact hcomment

/-- An entry with blanks behind it is read as this entry. -/
theorem IsEntry.entriesOfText_append_blank (h : IsEntry e) (ending : String)
    (hending : ∀ c ∈ ending.toList, isBlank c = true ∧ c ≠ '\n') :
    entriesOfText (e ++ ending) = [e] := by
  have htrimmed : trimChars (e ++ ending).toList = e.toList := by
    rw [String.toList_append, trimChars_append_blank fun c hc => (hending c hc).1,
      trimChars_of_ends h.front h.back]
  have hline : '\n' ∉ (e ++ ending).toList := by
    rw [String.toList_append, List.mem_append, not_or]
    exact ⟨h.oneLine, fun hin => (hending _ hin).2 rfl⟩
  rw [entriesOfText_line hline, trim, htrimmed, if_pos (isKept_iff.2 ⟨h.ne_nil, h.noComment⟩),
    String.ofList_toList]

theorem IsEntry.entriesOfText (h : IsEntry e) : ResolverRace.entriesOfText e = [e] := by
  have hread := h.entriesOfText_append_blank "" (by simp)
  rwa [String.append_empty] at hread

/-- Entries are read back if each is written on a line of its own, whatever blanks end the lines. -/
theorem entriesOfText_intercalate (ending : String)
    (hending : ∀ c ∈ ending.toList, isBlank c = true ∧ c ≠ '\n') (h : ∀ e ∈ es, IsEntry e) :
    entriesOfText ((ending ++ "\n").intercalate es) = es := by
  induction es with
  | nil => rw [String.intercalate_nil]; rfl
  | cons e es ih =>
    obtain ⟨he, hes⟩ := List.forall_mem_cons.1 h
    cases es with
    | nil => rw [String.intercalate_singleton, he.entriesOfText]
    | cons next later =>
      rw [String.intercalate_cons_cons, ← String.append_assoc, entriesOfText_append,
        he.entriesOfText_append_blank ending hending, ih hes]
      rfl

end

/-- A list text is read line by line: a line gives what is left of it when it is trimmed, unless that
is empty or a comment, and a text with a line feed gives what the texts around it give. What comes of
this are entries, and any entries come of some text. Written one a line they are read back, whichever
way the lines end. -/
theorem entriesOfText_laws :
    (∀ line : String, '\n' ∉ line.toList → entriesOfText line =
      if trim line = "" ∨ (trim line).toList.head? = some '#' then [] else [trim line]) ∧
    (∀ t u, entriesOfText (t ++ "\n" ++ u) = entriesOfText t ++ entriesOfText u) ∧
    (∀ es : List String, (∃ t, entriesOfText t = es) ↔ ∀ e ∈ es, IsEntry e) ∧
    ∀ t, entriesOfText ("\n".intercalate (entriesOfText t)) = entriesOfText t ∧
      entriesOfText ("\r\n".intercalate (entriesOfText t)) = entriesOfText t := by
  have hfeed {es : List String} (h : ∀ e ∈ es, IsEntry e) :
      entriesOfText ("\n".intercalate es) = es :=
    entriesOfText_intercalate "" (by simp) h
  have hreturn {es : List String} (h : ∀ e ∈ es, IsEntry e) :
      entriesOfText ("\r\n".intercalate es) = es :=
    entriesOfText_intercalate "\r" (by simp [isBlank]) h
  refine ⟨?_, entriesOfText_append, ?_, fun t => ?_⟩
  · intro line hline
    have hkept : isKept (trimChars line.toList) = true ↔
        ¬(trim line = "" ∨ (trim line).toList.head? = some '#') := by
      rw [isKept_iff, not_or, trim, ← String.toList_inj, String.toList_ofList]
      rfl
    simp only [entriesOfText_line hline, hkept, ite_not]
  · intro es
    constructor
    · rintro ⟨t, rfl⟩ e he
      exact isEntry_of_mem he
    · intro h
      exact ⟨_, hfeed h⟩
  · exact ⟨hfeed fun _ => isEntry_of_mem, hreturn fun _ => isEntry_of_mem⟩

/-- A carriage return within a line is part of it, and white space is trimmed of whatever kind. -/
example : entriesOfText "# header\r\n\u00a01.1.1.1 \r\n\n#8.8.8.8\n9.9.9.9\r:53" =
    ["1.1.1.1", "9.9.9.9\r:53"] := by decide

end ResolverRace
