/-!
# Blank characters and lines

White space is the Unicode property `White_Space`; trimming, line splitting and splitting at a
character are defined on lists of characters, with forms on strings for the callers.

* `head_trimChars`, `getLast_trimChars` — no blank is left at either end of a trimmed text.
* `trimChars_of_ends`, `trimChars_idem` — such a text is not trimmed further.
* `intercalate_split` — the pieces of a split, joined again, give the text back.
-/

namespace ResolverRace
namespace Text

/-- The characters with the Unicode property `White_Space`. -/
def isBlank (c : Char) : Bool :=
  let n := c.toNat
  (0x09 ≤ n && n ≤ 0x0D) || n == 0x20 || n == 0x85 || n == 0xA0 || n == 0x1680 ||
    (0x2000 ≤ n && n ≤ 0x200A) || n == 0x2028 || n == 0x2029 || n == 0x202F || n == 0x205F ||
    n == 0x3000

/-- Drops the blanks at both ends. -/
def trimChars (cs : List Char) : List Char :=
  ((cs.dropWhile isBlank).reverse.dropWhile isBlank).reverse

/-- `trimChars` on strings. -/
def trim (s : String) : String := String.ofList (trimChars s.toList)

/-- The pieces between the occurrences of `sep`; there is one more piece than occurrences. -/
def splitAtEach (sep : Char) : List Char → List (List Char)
  | [] => [[]]
  | c :: cs =>
    if c = sep then [] :: splitAtEach sep cs
    else
      match splitAtEach sep cs with
      | [] => [[c]]
      | piece :: pieces => (c :: piece) :: pieces

/-- Cuts a text at the last occurrence of `sep`. -/
def cutAtLast (sep : Char) (cs : List Char) : Option (List Char × List Char) :=
  match cs.reverse.span (· ≠ sep) with
  | (_, []) => none
  | (tail, _ :: head) => some (head.reverse, tail.reverse)

/-- Drops a carriage return at the end of a line. -/
def dropReturn (line : List Char) : List Char :=
  match line.reverse with
  | '\r' :: rest => rest.reverse
  | _ => line

/-- The lines of a text: a line ends at `\n`, or at `\r\n`; what follows the last end is a line
only if it is not empty, and keeps a carriage return of its own. -/
def lines (cs : List Char) : List (List Char) :=
  let pieces := splitAtEach '\n' cs
  let ended := pieces.dropLast.map dropReturn
  match pieces.getLast? with
  | none | some [] => ended
  | some last => ended ++ [last]

/-- ASCII letters become lower case, all else stays. -/
def lowerChars (cs : List Char) : List Char := cs.map Char.toLower

/-- Whether `part` occurs in `cs`. -/
def occursIn (part : List Char) : List Char → Bool
  | [] => part.isEmpty
  | c :: cs => part.isPrefixOf (c :: cs) || occursIn part cs

/-- How many bytes a character list takes in UTF-8. -/
def byteLength : List Char → Nat
  | [] => 0
  | c :: cs => c.utf8Size + byteLength cs

theorem dropWhile_of_head {p : Char → Bool} {cs : List Char} (h : ∀ c ∈ cs.head?, p c = false) :
    cs.dropWhile p = cs := by
  cases cs with
  | nil => rfl
  | cons c cs => simp [h c (by simp)]

theorem head_dropWhile {p : Char → Bool} (cs : List Char) :
    ∀ c ∈ (cs.dropWhile p).head?, p c = false := by
  induction cs with
  | nil => simp
  | cons c cs ih =>
    by_cases hc : p c
    · simpa [List.dropWhile_cons, hc] using ih
    · simp [hc]

/-- Trimming the end keeps the first character unless nothing is left. -/
theorem head_trimEnd (cs : List Char) :
    ∀ c ∈ ((cs.reverse.dropWhile isBlank).reverse).head?, c ∈ cs.head? := by
  intro c hc
  obtain ⟨blanks, hb⟩ : ∃ blanks, cs.reverse = blanks ++ cs.reverse.dropWhile isBlank :=
    ⟨cs.reverse.takeWhile isBlank, (List.takeWhile_append_dropWhile).symm⟩
  have hcs : cs = (cs.reverse.dropWhile isBlank).reverse ++ blanks.reverse := by
    have := congrArg List.reverse hb
    simpa using this
  rw [hcs]
  cases hd : (cs.reverse.dropWhile isBlank).reverse with
  | nil => simp [hd] at hc
  | cons d ds => simp [hd] at hc; simp [hc]

/-- A text with no blank at either end is not trimmed. -/
theorem trimChars_of_ends {cs : List Char} (hfront : ∀ c ∈ cs.head?, isBlank c = false)
    (hback : ∀ c ∈ cs.getLast?, isBlank c = false) : trimChars cs = cs := by
  have hlast : cs.reverse.dropWhile isBlank = cs.reverse :=
    dropWhile_of_head fun c hc => hback c (by rwa [List.head?_reverse] at hc)
  rw [trimChars, dropWhile_of_head hfront, hlast, List.reverse_reverse]

theorem head_trimChars (cs : List Char) : ∀ c ∈ (trimChars cs).head?, isBlank c = false :=
  fun c hc => head_dropWhile cs c (head_trimEnd _ c hc)

theorem getLast_trimChars (cs : List Char) :
    ∀ c ∈ (trimChars cs).getLast?, isBlank c = false := by
  intro c hc
  rw [trimChars, List.getLast?_reverse] at hc
  exact head_dropWhile _ c hc

theorem trimChars_idem (cs : List Char) : trimChars (trimChars cs) = trimChars cs :=
  trimChars_of_ends (head_trimChars cs) (getLast_trimChars cs)

theorem splitAtEach_ne_nil (sep : Char) (cs : List Char) : splitAtEach sep cs ≠ [] := by
  cases cs with
  | nil => simp [splitAtEach]
  | cons c cs =>
    rw [splitAtEach]
    split
    · simp
    · split <;> simp

theorem intercalate_split (sep : Char) (cs : List Char) :
    [sep].intercalate (splitAtEach sep cs) = cs := by
  induction cs with
  | nil => simp [splitAtEach]
  | cons c cs ih =>
    rw [splitAtEach]
    split
    · next h =>
      cases hs : splitAtEach sep cs with
      | nil => exact absurd hs (splitAtEach_ne_nil sep cs)
      | cons p ps => rw [hs] at ih; simp [List.intercalate, h] at ih ⊢; exact ih
    · next h =>
      cases hs : splitAtEach sep cs with
      | nil => exact absurd hs (splitAtEach_ne_nil sep cs)
      | cons p ps =>
        rw [hs] at ih
        cases ps <;> simp [List.intercalate] at ih ⊢ <;> exact ih

end Text
end ResolverRace
