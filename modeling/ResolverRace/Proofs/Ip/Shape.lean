import Mathlib.Data.List.TakeDrop
import ResolverRace.Ip.Reader

/-!
# Texts that read as IP addresses

What a text looks like of which an address can be read: an IPv4 address has four runs of digits
with dots between, an IPv6 address has two colons at least.

* `IPv4.exists_of_read`, `IPv4.not_mem_of_read` — the four runs of an IPv4 address, and that
  nothing else is in its text.
* `IPv6.two_le_count_of_read` — the colons of an IPv6 address.
-/

namespace ResolverRace
open Text

theorem exists_of_takeDigits {b : Nat} {cs digits rest : List Char}
    (h : takeDigits b cs = some (digits, rest)) :
    cs = digits ++ rest ∧ digits ≠ [] ∧ ∀ c ∈ digits, isDigitOf b c = true := by
  rw [takeDigits, List.span_eq_takeWhile_dropWhile] at h
  split at h
  · cases h
  · rename_i hne heq
    cases h
    cases heq
    refine ⟨(List.takeWhile_append_dropWhile).symm, hne, ?_⟩
    exact List.all_eq_true.1 List.all_takeWhile

theorem eq_of_dropChar {c : Char} {cs rest : List Char} (h : dropChar c cs = some rest) :
    cs = c :: rest := by
  cases cs with
  | nil => cases h
  | cons d ds =>
    rw [dropChar] at h
    split at h
    · rename_i hd
      cases h
      rw [hd]
    · cases h

namespace IPv4

theorem exists_of_readOctet {cs rest : List Char} {o : UInt8}
    (h : readOctet cs = some (o, rest)) :
    ∃ digits, cs = digits ++ rest ∧ digits ≠ [] ∧ ∀ c ∈ digits, isDigitOf 10 c = true := by
  rw [readOctet] at h
  split at h
  · cases h
  · rename_i digits rest' htake
    have hrest : rest' = rest := by grind
    rw [hrest] at htake
    exact ⟨digits, exists_of_takeDigits htake⟩

/-- An IPv4 address is read of four runs of digits. -/
theorem exists_of_read {cs rest : List Char} {x : IPv4} (h : read cs = some (x, rest)) :
    ∃ a b c d : List Char, cs = a ++ '.' :: (b ++ '.' :: (c ++ '.' :: (d ++ rest))) ∧
      ∀ run ∈ [a, b, c, d], run ≠ [] ∧ ∀ c ∈ run, isDigitOf 10 c = true := by
  simp only [read, Option.bind_eq_bind, Option.bind_eq_some_iff, Prod.exists] at h
  obtain ⟨o₁, r₁, h₁, s₁, hd₁, o₂, r₂, h₂, s₂, hd₂, o₃, r₃, h₃, s₃, hd₃, o₄, r₄, h₄, hx⟩ := h
  cases hx
  obtain ⟨a, rfl, ha⟩ := exists_of_readOctet h₁
  rw [eq_of_dropChar hd₁]
  obtain ⟨b, rfl, hb⟩ := exists_of_readOctet h₂
  rw [eq_of_dropChar hd₂]
  obtain ⟨c, rfl, hc⟩ := exists_of_readOctet h₃
  rw [eq_of_dropChar hd₃]
  obtain ⟨d, rfl, hd⟩ := exists_of_readOctet h₄
  refine ⟨a, b, c, d, rfl, ?_⟩
  intro run hrun
  simp only [List.mem_cons, List.not_mem_nil, or_false] at hrun
  rcases hrun with rfl | rfl | rfl | rfl
  · exact ha
  · exact hb
  · exact hc
  · exact hd

theorem not_mem_quad {a b c d : List Char} {x : Char}
    (hruns : ∀ run ∈ [a, b, c, d], run ≠ [] ∧ ∀ c ∈ run, isDigitOf 10 c = true)
    (hdigit : isDigitOf 10 x = false) (hdot : x ≠ '.') :
    x ∉ a ++ '.' :: (b ++ '.' :: (c ++ '.' :: d)) := by
  have hnone : ∀ run ∈ [a, b, c, d], x ∉ run := by
    intro run hrun hmem
    have htrue := (hruns run hrun).2 x hmem
    rw [hdigit] at htrue
    cases htrue
  simp [hnone a, hnone b, hnone c, hnone d, hdot]

/-- A text that is an IPv4 address has digits and dots only. -/
theorem not_mem_of_read {cs : List Char} {x : IPv4} (h : read cs = some (x, [])) {c : Char}
    (hdigit : isDigitOf 10 c = false) (hdot : c ≠ '.') : c ∉ cs := by
  obtain ⟨a, b, c', d, hcs, hruns⟩ := exists_of_read h
  rw [hcs, List.append_nil]
  exact not_mem_quad hruns hdigit hdot

theorem suffix_of_read {cs rest : List Char} {x : IPv4} (h : read cs = some (x, rest)) :
    rest <:+ cs := by
  obtain ⟨a, b, c, d, rfl, _⟩ := exists_of_read h
  exact ⟨a ++ '.' :: (b ++ '.' :: (c ++ '.' :: d)), by simp⟩

end IPv4

namespace IPv6

theorem suffix_of_readGroup {cs rest : List Char} {g : UInt16}
    (h : readGroup cs = some (g, rest)) : rest <:+ cs := by
  rw [readGroup] at h
  split at h
  · cases h
  · rename_i digits rest' htake
    have hrest : rest' = rest := by grind
    rw [hrest] at htake
    exact ⟨digits, (exists_of_takeDigits htake).1.symm⟩

/-- The colons of a run of groups: as many as groups but for the first one, and one less for a
dotted end. -/
theorem count_readGroups (limit : Nat) (first : Bool) (cs : List Char) :
    (readGroups limit first cs).rest <:+ cs ∧
      (readGroups limit first cs).groups.length + (readGroups limit first cs).rest.count ':' ≤
        cs.count ':' + (if first then 2 else 1) := by
  induction limit generalizing first cs with
  | zero => exact ⟨List.suffix_rfl, by simp [readGroups]⟩
  | succ limit ih =>
    rw [readGroups]
    split
    · exact ⟨List.suffix_rfl, by simp⟩
    · rename_i after hafter
      have hcs : after <:+ cs ∧ after.count ':' + 2 = cs.count ':' + (if first then 2 else 1) := by
        cases first with
        | true =>
          cases hafter
          exact ⟨List.suffix_rfl, rfl⟩
        | false =>
          rw [eq_of_dropChar hafter]
          exact ⟨List.suffix_cons _ _, by simp⟩
      obtain ⟨hsuffix, hcount⟩ := hcs
      split
      · rename_i v4 rest hquad
        have hrest : rest <:+ after := by
          split at hquad
          · exact IPv4.suffix_of_read hquad
          · cases hquad
        have hle := hrest.sublist.count_le ':'
        refine ⟨hrest.trans hsuffix, ?_⟩
        simp only [List.length_cons, List.length_nil]
        omega
      · split
        · exact ⟨List.suffix_rfl, by simp⟩
        · rename_i g rest hgroup
          have hrest := suffix_of_readGroup hgroup
          obtain ⟨hrun, hruncount⟩ := ih false rest
          have hle := hrest.sublist.count_le ':'
          refine ⟨hrun.trans (hrest.trans hsuffix), ?_⟩
          simp only [List.length_cons, Bool.false_eq_true, ↓reduceIte] at hruncount ⊢
          omega

/-- An IPv6 address is written with two colons at least. -/
theorem two_le_count_of_read {cs rest : List Char} {x : IPv6} (h : read cs = some (x, rest)) :
    2 ≤ cs.count ':' := by
  obtain ⟨hsuffix, hcount⟩ := count_readGroups 8 true cs
  simp only [read] at h
  split at h
  · rename_i hlen
    rw [hlen] at hcount
    simp only [↓reduceIte] at hcount
    omega
  · split at h
    · cases h
    · simp only [Option.bind_eq_bind, Option.bind_eq_some_iff] at h
      obtain ⟨r₁, hr₁, r₂, hr₂, _⟩ := h
      have htwo : (readGroups 8 true cs).rest.count ':' = r₂.count ':' + 2 := by
        rw [eq_of_dropChar hr₁, eq_of_dropChar hr₂]
        simp
      have hle := hsuffix.sublist.count_le ':'
      omega

end IPv6
end ResolverRace
