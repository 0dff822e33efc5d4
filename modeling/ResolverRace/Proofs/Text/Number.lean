import Mathlib.Data.List.Induction
import Mathlib.Data.List.TakeDrop
import ResolverRace.Text.Blank
import ResolverRace.Text.Number

/-!
# Numbers are read as they are written

Digits written in a base up to sixteen are read back as the number they were written for, as long
as no further digit follows them.

* `valueOf_toDigits` — the value of the digits of a number.
* `decimal_valueOf` — digits without a leading zero are those of their value.
* `takeDigits_toDigits` — the run of digits in front of a text.
* `Numeral`, `numeral_of_parseDecimal` — what a decimal number may look like.
* `parseDecimal_decimal` — a decimal number within its limit.
-/

namespace ResolverRace
namespace Text

/-- No digit stands in front. -/
def NoDigitFirst (base : Nat) (cs : List Char) : Prop := ∀ c ∈ cs.head?, isDigitOf base c = false

theorem noDigitFirst_nil (base : Nat) : NoDigitFirst base [] := by
  intro c hc
  cases hc

theorem noDigitFirst_cons {base : Nat} {c : Char} {cs : List Char}
    (h : isDigitOf base c = false) : NoDigitFirst base (c :: cs) := by
  rintro d ⟨⟩
  exact h

theorem isDigitOf_sixteen {c : Char} (h : isDigitOf 10 c = true) : isDigitOf 16 c = true := by
  simp only [isDigitOf] at h ⊢
  split at h
  · simp only [decide_eq_true_eq] at h ⊢
    omega
  · cases h

theorem noDigitFirst_ten {cs : List Char} (h : NoDigitFirst 16 cs) : NoDigitFirst 10 cs := by
  intro c hc
  rw [Bool.eq_false_iff]
  intro h10
  have h16 := h c hc
  rw [isDigitOf_sixteen h10] at h16
  cases h16

theorem digitValue?_digitChar : ∀ d < 16, digitValue? d.digitChar = some d := by
  decide

section

variable {b n : Nat} {rest : List Char}

theorem isDigitOf_digitChar {d : Nat} (hd : d < b) (hb : b ≤ 16) :
    isDigitOf b d.digitChar = true := by
  simp [isDigitOf, digitValue?_digitChar d (Nat.lt_of_lt_of_le hd hb), hd]

theorem isDigitOf_of_mem_toDigits (hb : 1 < b) (hb' : b ≤ 16) :
    ∀ c ∈ Nat.toDigits b n, isDigitOf b c = true := by
  induction n using Nat.base_induction b hb with
  | single d hd =>
    intro c hc
    rw [Nat.toDigits_of_lt_base hd, List.mem_singleton] at hc
    rw [hc]
    exact isDigitOf_digitChar hd hb'
  | digit m d hd hm ih =>
    intro c hc
    rw [← Nat.toDigits_append_toDigits hb hm hd, Nat.toDigits_of_lt_base hd] at hc
    rcases List.mem_append.1 hc with hc | hc
    · exact ih c hc
    · rw [List.mem_singleton.1 hc]
      exact isDigitOf_digitChar hd hb'

theorem valueOf_append_digit (ds : List Char) {d : Nat} (hd : d < 16) :
    valueOf b (ds ++ [d.digitChar]) = valueOf b ds * b + d := by
  simp [valueOf, digitValue?_digitChar d hd]

theorem valueOf_toDigits (hb : 1 < b) (hb' : b ≤ 16) : valueOf b (Nat.toDigits b n) = n := by
  induction n using Nat.base_induction b hb with
  | single d hd =>
    rw [Nat.toDigits_of_lt_base hd]
    simp [valueOf, digitValue?_digitChar d (Nat.lt_of_lt_of_le hd hb')]
  | digit m d hd hm ih =>
    rw [← Nat.toDigits_append_toDigits hb hm hd, Nat.toDigits_of_lt_base hd,
      valueOf_append_digit _ (Nat.lt_of_lt_of_le hd hb'), ih, Nat.mul_comm]

/-- Only zero is written with a zero in front. -/
theorem head?_toDigits (hb : 1 < b) (hn : n ≠ 0) : (Nat.toDigits b n).head? ≠ some '0' := by
  induction n using Nat.base_induction b hb with
  | single d hd =>
    rw [Nat.toDigits_of_lt_base hd]
    simpa using hn
  | digit m d hd hm ih =>
    obtain ⟨c, cs, hcs⟩ := List.exists_cons_of_ne_nil (Nat.toDigits_ne_nil (n := m) (b := b))
    rw [← Nat.toDigits_append_toDigits hb hm hd, hcs]
    rw [hcs] at ih
    exact ih (Nat.ne_of_gt hm)

theorem span_digits {ds : List Char} (hds : ∀ c ∈ ds, isDigitOf b c = true)
    (hrest : NoDigitFirst b rest) : (ds ++ rest).span (isDigitOf b) = (ds, rest) := by
  rw [List.span_eq_takeWhile_dropWhile, List.takeWhile_append_of_pos hds,
    List.dropWhile_append_of_pos hds]
  cases rest with
  | nil => simp
  | cons c cs => simp [hrest c rfl]

/-- The digits of a number are read up to what follows them. -/
theorem takeDigits_toDigits (hb : 1 < b) (hb' : b ≤ 16) (hrest : NoDigitFirst b rest) :
    takeDigits b (Nat.toDigits b n ++ rest) = some (Nat.toDigits b n, rest) := by
  rw [takeDigits, span_digits (isDigitOf_of_mem_toDigits hb hb') hrest]
  cases h : Nat.toDigits b n with
  | nil => exact absurd h Nat.toDigits_ne_nil
  | cons => rfl

theorem takeDigits_eq_none (h : NoDigitFirst b rest) : takeDigits b rest = none := by
  have hspan := span_digits (fun c (hc : c ∈ []) => by cases hc) h
  rw [List.nil_append] at hspan
  rw [takeDigits, hspan]

theorem noDigitFirst_of_takeDigits {cs digits : List Char}
    (h : takeDigits b cs = some (digits, rest)) : NoDigitFirst b rest := by
  rw [takeDigits, List.span_eq_takeWhile_dropWhile] at h
  split at h
  · cases h
  · rename_i hspan
    cases h
    cases hspan
    exact head_dropWhile cs

end

/-! ## Decimal numbers -/

theorem exists_digitChar {c : Char} (h : isDigitOf 10 c = true) : ∃ d < 10, c = d.digitChar := by
  have hchars : ∀ d < 10, Char.ofNat (0x30 + d) = d.digitChar := by decide
  simp only [isDigitOf, digitValue?] at h
  split at h
  · rename_i v hv
    rw [decide_eq_true_iff] at h
    have hrange : 0x30 ≤ c.toNat ∧ c.toNat ≤ 0x39 := by grind
    refine ⟨c.toNat - 0x30, by omega, ?_⟩
    rw [← hchars _ (by omega), show 0x30 + (c.toNat - 0x30) = c.toNat by omega, Char.ofNat_toNat]
  · cases h

/-- Digits without a leading zero are those of their value. -/
theorem decimal_valueOf {ds : List Char} (hne : ds ≠ [])
    (hdigits : ∀ c ∈ ds, isDigitOf 10 c = true)
    (hlead : ds.head? = some '0' → ds.length ≤ 1) : decimal (valueOf 10 ds) = ds := by
  induction ds using List.reverseRecOn with
  | nil => exact absurd rfl hne
  | append_singleton front c ih =>
    obtain ⟨d, hd, rfl⟩ := exists_digitChar (hdigits c (by simp))
    rw [valueOf_append_digit front (Nat.lt_trans hd (by decide))]
    by_cases hfront : front = []
    · rw [hfront, decimal]
      simp [valueOf, Nat.toDigits_of_lt_base hd]
    · have hzero : front.head? ≠ some '0' := by
        intro hhead
        have hlen := hlead (by rw [List.head?_append, hhead]; rfl)
        rw [List.length_append, List.length_singleton] at hlen
        exact hfront (List.eq_nil_of_length_eq_zero (by omega))
      have hvalue : decimal (valueOf 10 front) = front :=
        ih hfront (fun c hc => hdigits c (List.mem_append_left _ hc)) fun h => absurd h hzero
      have hpos : 0 < valueOf 10 front := by
        refine Nat.pos_of_ne_zero fun h0 => hzero ?_
        rw [← hvalue, h0]
        rfl
      rw [decimal, Nat.mul_comm, ← Nat.toDigits_append_toDigits (by decide) hpos hd,
        Nat.toDigits_of_lt_base hd, ← decimal, hvalue]

/-! ## Decimal numbers with a limit -/

theorem le_value (n : Nat) (cs : List Char) :
    n ≤ cs.foldl (fun n c => n * 10 + (digitValue? c).getD 0) n := by
  induction cs generalizing n with
  | nil => exact Nat.le_refl n
  | cons c cs ih =>
    have hn : n ≤ n * 10 + (digitValue? c).getD 0 := by omega
    exact Nat.le_trans hn (ih _)

theorem accumulate_eq_ok {limit n : Nat} {cs : List Char} (hcs : ∀ c ∈ cs, isDigitOf 10 c = true)
    (hle : cs.foldl (fun n c => n * 10 + (digitValue? c).getD 0) n ≤ limit) :
    accumulate limit n cs = .ok (cs.foldl (fun n c => n * 10 + (digitValue? c).getD 0) n) := by
  induction cs generalizing n with
  | nil => rfl
  | cons c cs ih =>
    have hstep : ¬limit < n * 10 + (digitValue? c).getD 0 :=
      Nat.not_lt.2 (Nat.le_trans (le_value _ cs) hle)
    rw [accumulate, if_pos (hcs c (List.mem_cons_self ..)), if_neg hstep]
    exact ih (fun d hd => hcs d (List.mem_cons_of_mem c hd)) hle

/-- A decimal number as it may be written: with a plus sign or without, and with any leading
zeros. -/
inductive Numeral : List Char → Nat → Prop where
  | plain {digits : List Char} : digits ≠ [] → (∀ c ∈ digits, isDigitOf 10 c = true) →
      Numeral digits (valueOf 10 digits)
  | signed {digits : List Char} : digits ≠ [] → (∀ c ∈ digits, isDigitOf 10 c = true) →
      Numeral ('+' :: digits) (valueOf 10 digits)

/-- A text is a numeral of one number at most. -/
theorem Numeral.unique {cs : List Char} {m n : Nat} (hm : Numeral cs m) (hn : Numeral cs n) :
    m = n := by
  cases hm with
  | plain _ hdigits =>
    cases hn with
    | plain => rfl
    | signed =>
      have hfalse := hdigits '+' (List.mem_cons_self ..)
      cases hfalse
  | signed =>
    cases hn with
    | plain _ hdigits =>
      have hfalse := hdigits '+' (List.mem_cons_self ..)
      cases hfalse
    | signed => rfl

theorem Numeral.mem {cs : List Char} {n : Nat} (h : Numeral cs n) :
    ∀ c ∈ cs, isDigitOf 10 c = true ∨ c = '+' := by
  intro c hc
  cases h with
  | plain _ hdigits => exact .inl (hdigits c hc)
  | signed _ hdigits =>
    rcases List.mem_cons.1 hc with hplus | hc
    · exact .inr hplus
    · exact .inl (hdigits c hc)

theorem Numeral.not_mem {cs : List Char} {n : Nat} (h : Numeral cs n) {c : Char}
    (hdigit : isDigitOf 10 c = false) (hplus : c ≠ '+') : c ∉ cs := by
  intro hmem
  rcases h.mem c hmem with hc | hc
  · rw [hdigit] at hc
    cases hc
  · exact hplus hc

theorem of_accumulate_ok {limit n m : Nat} {cs : List Char} (h : accumulate limit n cs = .ok m)
    (hn : n ≤ limit) : (∀ c ∈ cs, isDigitOf 10 c = true) ∧ m ≤ limit ∧
      m = cs.foldl (fun n c => n * 10 + (digitValue? c).getD 0) n := by
  induction cs generalizing n with
  | nil =>
    cases h
    exact ⟨fun c hc => (nomatch hc), hn, rfl⟩
  | cons c cs ih =>
    rw [accumulate] at h
    split at h
    · rename_i hc
      dsimp only at h
      split at h
      · cases h
      · rename_i hle
        obtain ⟨hdigits, hm, hvalue⟩ := ih h (Nat.le_of_not_lt hle)
        exact ⟨List.forall_mem_cons.2 ⟨hc, hdigits⟩, hm, hvalue⟩
    · cases h

/-- What is read as a number is a numeral of it. -/
theorem numeral_of_parseDecimal {limit n : Nat} {cs : List Char}
    (h : parseDecimal limit cs = .ok n) : Numeral cs n ∧ n ≤ limit := by
  rw [parseDecimal.eq_def] at h
  split at h
  · cases h
  · cases h
  · rename_i digits hne
    obtain ⟨hdigits, hle, rfl⟩ := of_accumulate_ok h (Nat.zero_le _)
    exact ⟨.signed (fun hnil => hne (by rw [hnil])) hdigits, hle⟩
  · rename_i hne _ _
    obtain ⟨hdigits, hle, rfl⟩ := of_accumulate_ok h (Nat.zero_le _)
    exact ⟨.plain hne hdigits, hle⟩

/-- Every numeral within the limit is read as its number. -/
theorem parseDecimal_of_numeral {limit n : Nat} {cs : List Char} (h : Numeral cs n)
    (hle : n ≤ limit) : parseDecimal limit cs = .ok n := by
  rw [parseDecimal.eq_def]
  cases h with
  | plain hne hdigits =>
    have hplus : '+' ∉ cs := by
      intro hmem
      have hfalse := hdigits '+' hmem
      cases hfalse
    split
    · exact absurd rfl hne
    · exact absurd (List.mem_singleton_self _) hplus
    · exact absurd (List.mem_cons_self ..) hplus
    · exact accumulate_eq_ok hdigits hle
  | signed hne hdigits =>
    split
    · rename_i hnil
      cases hnil
    · rename_i hplus
      cases hplus
      exact absurd rfl hne
    · rename_i hplus
      cases hplus
      exact accumulate_eq_ok hdigits hle
    · rename_i hother
      exact absurd rfl (hother _)

theorem numeral_decimal (n : Nat) : Numeral (decimal n) n := by
  have hnumeral : Numeral (decimal n) (valueOf 10 (decimal n)) :=
    .plain Nat.toDigits_ne_nil (isDigitOf_of_mem_toDigits (by decide) (by decide))
  have hvalue : valueOf 10 (decimal n) = n := valueOf_toDigits (by decide) (by decide)
  rwa [hvalue] at hnumeral

/-- A decimal number within its limit is read back. -/
theorem parseDecimal_decimal {limit n : Nat} (h : n ≤ limit) :
    parseDecimal limit (decimal n) = .ok n := parseDecimal_of_numeral (numeral_decimal n) h

end Text
end ResolverRace
