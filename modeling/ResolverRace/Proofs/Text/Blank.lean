import Mathlib.Data.List.TakeDrop
import Mathlib.Data.List.TakeWhile
import ResolverRace.Text.Blank

/-!
# Trimming and cutting texts

* `trimChars_eq` — trimming a text without blanks.
* `trimEnd`, `trimChars_append`, `trimChars_append_blank` — what trimming leaves of a word and what
  follows it.
* `span_append`, `cutAtLast_append`, `splitAtEach_append` — cuts at a separator that one part does
  not hold.
* `cutAtLast_eq_some`, `not_mem_of_cutAtLast` — what a cut says of the text.
* `splitAtEach_append_cons` — the pieces around a separator.
* `splitAtEach_intercalate` — the pieces of a text that was joined.
-/

namespace ResolverRace
namespace Text

theorem trimChars_eq {cs : List Char} (h : ∀ c ∈ cs, isBlank c = false) : trimChars cs = cs :=
  trimChars_of_ends (fun c hc => h c (List.mem_of_mem_head? hc))
    fun c hc => h c (List.mem_of_getLast? hc)

/-- Drops the blanks at the end. -/
def trimEnd (cs : List Char) : List Char := (cs.reverse.dropWhile isBlank).reverse

section

variable {c : Char} {cs : List Char}

theorem trimEnd_cons (c : Char) (cs : List Char) :
    trimEnd (c :: cs) = if trimEnd cs = [] ∧ isBlank c = true then [] else c :: trimEnd cs := by
  rw [trimEnd, trimEnd, List.reverse_cons, List.dropWhile_append]
  by_cases hnil : cs.reverse.dropWhile isBlank = []
  · cases hc : isBlank c <;> simp [hnil, hc]
  · simp [hnil]

/-- Nothing of a word is dropped, whatever follows. -/
theorem trimEnd_append {word : List Char} (h : ∀ c ∈ word, isBlank c = false) (cs : List Char) :
    trimEnd (word ++ cs) = word ++ trimEnd cs := by
  induction word with
  | nil => rfl
  | cons c word ih =>
    have hc : isBlank c = false := h c (List.mem_cons_self ..)
    rw [List.cons_append, trimEnd_cons, ih fun d hd => h d (List.mem_cons_of_mem _ hd)]
    simp [hc]

theorem trimEnd_trimEnd (cs : List Char) : trimEnd (trimEnd cs) = trimEnd cs := by
  rw [trimEnd, trimEnd, List.reverse_reverse, dropWhile_of_head (head_dropWhile _)]

/-- Blanks in front are dropped before those at the end. -/
theorem trimChars_cons_of_blank (hc : isBlank c = true) (cs : List Char) :
    trimChars (c :: cs) = trimChars cs := by
  rw [trimChars, List.dropWhile_cons_of_pos hc]
  rfl

theorem trimChars_cons_of_not_blank (hc : isBlank c = false) (cs : List Char) :
    trimChars (c :: cs) = c :: trimEnd cs := by
  have hfront : trimChars (c :: cs) = trimEnd (c :: cs) :=
    congrArg trimEnd (dropWhile_of_head fun d hd => Option.some.inj hd ▸ hc)
  rw [hfront, trimEnd_cons]
  simp [hc]

/-- Whoever trims need not trim the end before. -/
theorem trimChars_trimEnd (cs : List Char) : trimChars (trimEnd cs) = trimChars cs := by
  induction cs with
  | nil => rfl
  | cons c cs ih =>
    rw [trimEnd_cons]
    cases hc : isBlank c with
    | false =>
      rw [if_neg (by simp), trimChars_cons_of_not_blank hc, trimChars_cons_of_not_blank hc,
        trimEnd_trimEnd]
    | true =>
      rw [trimChars_cons_of_blank hc, ← ih]
      split
      · rename_i hnil
        rw [hnil.1]
      · exact trimChars_cons_of_blank hc _

theorem trimEnd_eq_nil (h : trimChars cs = []) : trimEnd cs = [] := by
  induction cs with
  | nil => rfl
  | cons c cs ih =>
    cases hc : isBlank c with
    | false =>
      rw [trimChars_cons_of_not_blank hc] at h
      cases h
    | true =>
      rw [trimChars_cons_of_blank hc] at h
      rw [trimEnd_cons, if_pos ⟨ih h, hc⟩]

/-- Blanks behind a text are trimmed with it. -/
theorem trimChars_append_blank {blanks : List Char} (h : ∀ c ∈ blanks, isBlank c = true)
    (cs : List Char) : trimChars (cs ++ blanks) = trimChars cs := by
  have hend : trimEnd (cs ++ blanks) = trimEnd cs := by
    rw [trimEnd, trimEnd, List.reverse_append,
      List.dropWhile_append_of_pos fun c hc => h c (List.mem_reverse.1 hc)]
  rw [← trimChars_trimEnd, hend, trimChars_trimEnd]

theorem mem_of_mem_trimChars (h : c ∈ trimChars cs) : c ∈ cs := by
  have hmem := (List.dropWhile_suffix _).subset (List.mem_reverse.1 h)
  exact (List.dropWhile_suffix _).subset (List.mem_reverse.1 hmem)

/-- A word is not trimmed, and what follows it is trimmed at the end. -/
theorem trimChars_append {word : List Char} (h : ∀ c ∈ word, isBlank c = false) (hne : word ≠ [])
    (cs : List Char) : trimChars (word ++ cs) = word ++ trimEnd cs := by
  cases word with
  | nil => exact absurd rfl hne
  | cons c word =>
    rw [List.cons_append, trimChars_cons_of_not_blank (h c (List.mem_cons_self ..)),
      trimEnd_append fun d hd => h d (List.mem_cons_of_mem _ hd)]
    rfl

end

theorem occursIn_eq_false {part cs : List Char} {c : Char} (hc : c ∈ part) (h : c ∉ cs) :
    occursIn part cs = false := by
  induction cs with
  | nil =>
    rw [occursIn]
    cases part with
    | nil => cases hc
    | cons => rfl
  | cons d ds ih =>
    have hprefix : part.isPrefixOf (d :: ds) = false := by
      rw [Bool.eq_false_iff]
      exact fun hp => h ((List.isPrefixOf_iff_prefix.1 hp).subset hc)
    rw [occursIn, hprefix, ih fun hmem => h (List.mem_cons_of_mem d hmem)]
    rfl

theorem ne_of_not_mem {sep : Char} {cs : List Char} (h : sep ∉ cs) :
    ∀ c ∈ cs, decide (c ≠ sep) = true := by
  intro c hc
  rw [decide_eq_true_iff]
  rintro rfl
  exact h hc

/-- What stands before the first separator is read up to it. -/
theorem span_append {sep : Char} {head tail : List Char} (h : sep ∉ head) :
    (head ++ sep :: tail).span (· ≠ sep) = (head, sep :: tail) := by
  rw [List.span_eq_takeWhile_dropWhile, List.takeWhile_append_of_pos (ne_of_not_mem h),
    List.dropWhile_append_of_pos (ne_of_not_mem h)]
  simp

theorem span_eq_self {sep : Char} {cs : List Char} (h : sep ∉ cs) :
    cs.span (· ≠ sep) = (cs, []) := by
  have htake : cs.takeWhile (· ≠ sep) = cs := List.takeWhile_eq_self_iff.2 (ne_of_not_mem h)
  have hdrop : cs.dropWhile (· ≠ sep) = [] := List.dropWhile_eq_nil_iff.2 (ne_of_not_mem h)
  rw [List.span_eq_takeWhile_dropWhile, htake, hdrop]

/-- Reading stops only at the first separator. -/
theorem eq_append_of_span {sep c : Char} {cs head tail : List Char}
    (h : cs.span (· ≠ sep) = (head, c :: tail)) : cs = head ++ sep :: tail ∧ sep ∉ head := by
  by_cases hmem : sep ∈ cs
  · obtain ⟨head', tail', hcs, hhead⟩ := List.eq_append_cons_of_mem hmem
    rw [hcs, span_append hhead] at h
    cases h
    exact ⟨hcs, hhead⟩
  · rw [span_eq_self hmem] at h
    cases h

theorem cutAtLast_append {sep : Char} {head tail : List Char} (h : sep ∉ tail) :
    cutAtLast sep (head ++ sep :: tail) = some (head, tail) := by
  have hreverse : (head ++ sep :: tail).reverse = tail.reverse ++ sep :: head.reverse := by simp
  rw [cutAtLast, hreverse, span_append fun hmem => h (List.mem_reverse.1 hmem)]
  simp

theorem cutAtLast_eq_none {sep : Char} {cs : List Char} (h : sep ∉ cs) :
    cutAtLast sep cs = none := by
  rw [cutAtLast, span_eq_self fun hmem => h (List.mem_reverse.1 hmem)]

theorem exists_last_of_mem {sep : Char} {cs : List Char} (h : sep ∈ cs) :
    ∃ head tail, cs = head ++ sep :: tail ∧ sep ∉ tail := by
  obtain ⟨tail, head, hcs, htail⟩ := List.eq_append_cons_of_mem (List.mem_reverse.2 h)
  refine ⟨head.reverse, tail.reverse, ?_, fun hmem => htail (List.mem_reverse.1 hmem)⟩
  rw [← List.reverse_reverse cs, hcs]
  simp

/-- What a cut gives are the parts before and after the last separator. -/
theorem cutAtLast_eq_some {sep : Char} {cs head tail : List Char}
    (h : cutAtLast sep cs = some (head, tail)) : cs = head ++ sep :: tail ∧ sep ∉ tail := by
  by_cases hmem : sep ∈ cs
  · obtain ⟨head', tail', hcs, htail⟩ := exists_last_of_mem hmem
    rw [hcs, cutAtLast_append htail] at h
    cases h
    exact ⟨hcs, htail⟩
  · rw [cutAtLast_eq_none hmem] at h
    cases h

theorem not_mem_of_cutAtLast {sep : Char} {cs : List Char} (h : cutAtLast sep cs = none) :
    sep ∉ cs := by
  intro hmem
  obtain ⟨head, tail, hcs, htail⟩ := exists_last_of_mem hmem
  rw [hcs, cutAtLast_append htail] at h
  cases h

theorem splitAtEach_cons_of_ne {sep c : Char} (hc : c ≠ sep) (cs : List Char) :
    splitAtEach sep (c :: cs) = (splitAtEach sep cs).modifyHead (c :: ·) := by
  obtain ⟨piece, pieces, hs⟩ := List.exists_cons_of_ne_nil (splitAtEach_ne_nil sep cs)
  rw [splitAtEach, if_neg hc, hs]
  rfl

theorem splitAtEach_eq_singleton {sep : Char} {cs : List Char} (h : sep ∉ cs) :
    splitAtEach sep cs = [cs] := by
  induction cs with
  | nil => rfl
  | cons c cs ih =>
    rw [List.mem_cons, not_or] at h
    rw [splitAtEach_cons_of_ne (Ne.symm h.1), ih h.2]
    rfl

/-- A separator divides the pieces of a text into those in front of it and those behind. -/
theorem splitAtEach_append_cons (sep : Char) (head tail : List Char) :
    splitAtEach sep (head ++ sep :: tail) = splitAtEach sep head ++ splitAtEach sep tail := by
  induction head with
  | nil => simp [splitAtEach]
  | cons c cs ih =>
    by_cases hc : c = sep
    · simp [splitAtEach, hc, ih]
    · rw [List.cons_append, splitAtEach_cons_of_ne hc, splitAtEach_cons_of_ne hc, ih]
      obtain ⟨piece, pieces, hs⟩ := List.exists_cons_of_ne_nil (splitAtEach_ne_nil sep cs)
      simp [hs]

theorem splitAtEach_append {sep : Char} {head tail : List Char} (h : sep ∉ head) :
    splitAtEach sep (head ++ sep :: tail) = head :: splitAtEach sep tail := by
  rw [splitAtEach_append_cons, splitAtEach_eq_singleton h]
  rfl

/-- Pieces without separators are found again once they are joined. -/
theorem splitAtEach_intercalate {sep : Char} {pieces : List (List Char)} (hne : pieces ≠ [])
    (h : ∀ piece ∈ pieces, sep ∉ piece) : splitAtEach sep ([sep].intercalate pieces) = pieces := by
  induction pieces with
  | nil => exact absurd rfl hne
  | cons piece pieces ih =>
    obtain ⟨hpiece, hrest⟩ := List.forall_mem_cons.1 h
    cases pieces with
    | nil => simpa using splitAtEach_eq_singleton hpiece
    | cons next later =>
      rw [List.intercalate_cons_cons, List.append_assoc, List.singleton_append,
        splitAtEach_append hpiece, ih (List.cons_ne_nil _ _) hrest]

/-- Every character is the separator or in some piece. -/
theorem mem_splitAtEach {sep c : Char} {cs : List Char} (h : c ∈ cs) :
    c = sep ∨ ∃ piece ∈ splitAtEach sep cs, c ∈ piece := by
  induction cs with
  | nil => cases h
  | cons d ds ih =>
    rw [splitAtEach]
    by_cases hd : d = sep
    · rw [if_pos hd]
      rcases List.mem_cons.1 h with rfl | hc
      · exact .inl hd
      · rcases ih hc with hsep | ⟨piece, hpiece, hin⟩
        · exact .inl hsep
        · exact .inr ⟨piece, List.mem_cons_of_mem _ hpiece, hin⟩
    · rw [if_neg hd]
      cases hs : splitAtEach sep ds with
      | nil => exact absurd hs (splitAtEach_ne_nil sep ds)
      | cons piece pieces =>
        rw [hs] at ih
        rcases List.mem_cons.1 h with rfl | hc
        · exact .inr ⟨c :: piece, List.mem_cons_self .., List.mem_cons_self ..⟩
        · rcases ih hc with hsep | ⟨p, hp, hin⟩
          · exact .inl hsep
          · rcases List.mem_cons.1 hp with rfl | hp
            · exact .inr ⟨d :: p, List.mem_cons_self .., List.mem_cons_of_mem d hin⟩
            · exact .inr ⟨p, List.mem_cons_of_mem _ hp, hin⟩

/-- No piece holds the separator. -/
theorem not_mem_of_mem_splitAtEach {sep : Char} {cs piece : List Char}
    (h : piece ∈ splitAtEach sep cs) : sep ∉ piece := by
  induction cs generalizing piece with
  | nil =>
    rw [List.mem_singleton.1 h]
    exact List.not_mem_nil
  | cons c cs ih =>
    by_cases hc : c = sep
    · rw [splitAtEach, if_pos hc, List.mem_cons] at h
      rcases h with rfl | h
      · exact List.not_mem_nil
      · exact ih h
    · obtain ⟨first, pieces, hs⟩ := List.exists_cons_of_ne_nil (splitAtEach_ne_nil sep cs)
      rw [splitAtEach_cons_of_ne hc, hs, List.modifyHead_cons, List.mem_cons] at h
      rw [hs] at ih
      rcases h with rfl | h
      · simpa [Ne.symm hc] using ih (List.mem_cons_self ..)
      · exact ih (List.mem_cons_of_mem _ h)

/-- A text that ends in the separator has an empty last piece. -/
theorem splitAtEach_concat (sep : Char) (cs : List Char) :
    splitAtEach sep (cs ++ [sep]) = splitAtEach sep cs ++ [[]] :=
  splitAtEach_append_cons sep cs []

end Text
end ResolverRace
