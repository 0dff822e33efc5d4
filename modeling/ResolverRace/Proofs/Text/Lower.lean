import ResolverRace.Address.Basic

/-!
# Lower case

What bringing a text into lower case leaves as it was: its separators, its digits, its length, and
whether it is a label of a hostname.

* `lowerChars_idem` — a text in lower case stays as it is.
* `isLabel_lowerChars`, `isNumeric_lowerChars`, `splitAtEach_lowerChars` — labels.
-/

namespace ResolverRace
namespace Text

def capitals : List Char := "ABCDEFGHIJKLMNOPQRSTUVWXYZ".toList

theorem ofNat_mem_capitals : ∀ i < 26, Char.ofNat (65 + i) ∈ capitals := by
  decide

/-- Only the capitals change. -/
theorem toLower_cases (c : Char) : c ∈ capitals ∨ c.toLower = c := by
  by_cases h : c.val ≥ 'A'.val ∧ c.val ≤ 'Z'.val
  · refine .inl ?_
    have hlow : 65 ≤ c.toNat := UInt32.le_iff_toNat_le.1 h.1
    have hhigh : c.toNat ≤ 90 := UInt32.le_iff_toNat_le.1 h.2
    have hmem := ofNat_mem_capitals (c.toNat - 65) (by omega)
    rwa [show 65 + (c.toNat - 65) = c.toNat by omega, Char.ofNat_toNat] at hmem
  · exact .inr (dif_neg h)

/-- What holds of the capitals and of all characters that do not change holds of all. -/
theorem forall_of_capitals {p : Char → Bool} (hcapitals : capitals.all p = true)
    (hsame : ∀ c, c.toLower = c → p c = true) (c : Char) : p c = true := by
  rcases toLower_cases c with hc | hc
  · exact List.all_eq_true.1 hcapitals c hc
  · exact hsame c hc

theorem isLabelChar_toLower (c : Char) : Host.isLabelChar c.toLower = Host.isLabelChar c := by
  have h := forall_of_capitals (p := fun c => Host.isLabelChar c.toLower = Host.isLabelChar c)
    (by decide) (fun c hc => by simp [hc]) c
  simpa using h

theorem isDigit_toLower (c : Char) : c.toLower.isDigit = c.isDigit := by
  have h := forall_of_capitals (p := fun c => c.toLower.isDigit = c.isDigit) (by decide)
    (fun c hc => by simp [hc]) c
  simpa using h

theorem utf8Size_toLower (c : Char) : c.toLower.utf8Size = c.utf8Size := by
  have h := forall_of_capitals (p := fun c => c.toLower.utf8Size = c.utf8Size) (by decide)
    (fun c hc => by simp [hc]) c
  simpa using h

theorem toLower_eq_iff (c : Char) : (c.toLower = '.' ↔ c = '.') ∧ (c.toLower = '-' ↔ c = '-') := by
  have h := forall_of_capitals
    (p := fun c => (c.toLower = '.' ↔ c = '.') ∧ (c.toLower = '-' ↔ c = '-')) (by decide)
    (fun c hc => by simp [hc]) c
  simpa using h

theorem lowerChars_idem (cs : List Char) : lowerChars (lowerChars cs) = lowerChars cs := by
  have hidem (c : Char) : c.toLower.toLower = c.toLower := by
    rcases toLower_cases c with hc | hc
    · have h := List.all_eq_true.1
        (by decide : capitals.all (fun c => c.toLower.toLower = c.toLower) = true) c hc
      exact of_decide_eq_true h
    · rw [hc, hc]
  rw [lowerChars, lowerChars, List.map_map]
  exact List.map_congr_left fun c _ => hidem c

theorem byteLength_lowerChars (cs : List Char) : byteLength (lowerChars cs) = byteLength cs := by
  induction cs with
  | nil => rfl
  | cons c cs ih =>
    have hcons : lowerChars (c :: cs) = c.toLower :: lowerChars cs := rfl
    rw [hcons, byteLength, byteLength, ih, utf8Size_toLower]

/-- The dots stay where they are. -/
theorem splitAtEach_lowerChars (cs : List Char) :
    splitAtEach '.' (lowerChars cs) = (splitAtEach '.' cs).map lowerChars := by
  induction cs with
  | nil => rfl
  | cons c cs ih =>
    have hcons : lowerChars (c :: cs) = c.toLower :: lowerChars cs := rfl
    rw [hcons, splitAtEach, splitAtEach, ih]
    by_cases hc : c = '.'
    · rw [if_pos hc, if_pos ((toLower_eq_iff c).1.2 hc)]
      rfl
    · rw [if_neg hc, if_neg fun h => hc ((toLower_eq_iff c).1.1 h)]
      cases splitAtEach '.' cs <;> rfl

theorem isNumeric_lowerChars (label : List Char) :
    Host.isNumeric (lowerChars label) = Host.isNumeric label := by
  simp only [Host.isNumeric, lowerChars, List.isEmpty_map, List.all_map]
  congr 2
  exact funext isDigit_toLower

theorem isLabel_lowerChars (label : List Char) :
    Host.isLabel (lowerChars label) = Host.isLabel label := by
  have hhyphen (o : Option Char) : (o.map Char.toLower ≠ some '-') ↔ o ≠ some '-' := by
    cases o with
    | none => simp
    | some c => simp [(toLower_eq_iff c).2]
  have hall : Host.isLabelChar ∘ Char.toLower = Host.isLabelChar := funext isLabelChar_toLower
  simp only [Host.isLabel, lowerChars, List.isEmpty_map, List.length_map, List.all_map, hall,
    List.head?_map, List.getLast?_map, hhyphen]

end Text
end ResolverRace
