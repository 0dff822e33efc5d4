import ResolverRace.Proofs.Ip.Grammar

/-!
# IP addresses are read as they are written

The text of an IPv6 address is one of its spellings. Followed by nothing that could go on an
address, it is read back as that address, and the text of a socket address as that socket address.

* `IPv6.spells_chars` — the text of an address among its spellings.
* `IPv6.read_chars` — addresses in front of a text.
* `SocketAddress.parseChars?_chars` — whole socket addresses.
-/

namespace ResolverRace
open Text

namespace IPv6

/-! ## Groups in hexadecimal -/

theorem group_hexadecimal (g : UInt16) : Group (hexadecimal g.toNat) g := by
  have hlt : g.toNat < 65536 := g.toNat_lt
  have hlen : (hexadecimal g.toNat).length ≤ 4 :=
    (Nat.length_toDigits_le_iff (by decide) (by decide)).2 (by omega)
  have hvalue : valueOf 16 (hexadecimal g.toNat) = g.toNat :=
    valueOf_toDigits (by decide) (by decide)
  have hgroup : Group (hexadecimal g.toNat) (.ofNat (valueOf 16 (hexadecimal g.toNat))) :=
    .digits Nat.toDigits_ne_nil hlen (isDigitOf_of_mem_toDigits (by decide) (by decide))
  rwa [hvalue, UInt16.ofNat_toNat] at hgroup

theorem joinGroups_cons {gs : List UInt16} (g : UInt16) (h : gs ≠ []) :
    joinGroups (g :: gs) = hexadecimal g.toNat ++ ':' :: joinGroups gs := by
  cases gs with
  | nil => exact absurd rfl h
  | cons => rfl

theorem groups_joinGroups {gs : List UInt16} (h : gs ≠ []) : Groups false (joinGroups gs) gs := by
  induction gs with
  | nil => exact absurd rfl h
  | cons g gs ih =>
    by_cases hgs : gs = []
    · rw [hgs]
      exact .last (group_hexadecimal g)
    · rw [joinGroups_cons g hgs]
      exact .cons (group_hexadecimal g) (ih hgs)

theorem side_joinGroups (gs : List UInt16) : Side false (joinGroups gs) gs := by
  by_cases h : gs = []
  · rw [h]
    exact .nothing
  · exact .groups (groups_joinGroups h)

/-! ## The run that is left out -/

theorem take_zeroRun (gs : List UInt16) :
    gs.take (zeroRun gs) = List.replicate (zeroRun gs) 0 ∧ zeroRun gs ≤ gs.length := by
  induction gs with
  | nil => simp [zeroRun]
  | cons g gs ih =>
    by_cases hg : g = 0
    · have hrun : zeroRun (g :: gs) = zeroRun gs + 1 := by simp [zeroRun, hg]
      rw [hrun, List.take_succ_cons, ih.1, List.replicate_succ, hg]
      exact ⟨rfl, Nat.succ_le_succ ih.2⟩
    · simp [zeroRun, hg]

/-- The longest run lies inside the groups and holds zeros only. -/
theorem longestRun_zero (i : Nat) (gs : List UInt16) :
    i ≤ (longestRun i gs).1 ∧ (longestRun i gs).1 - i + (longestRun i gs).2 ≤ gs.length ∧
      (gs.drop ((longestRun i gs).1 - i)).take (longestRun i gs).2 =
        List.replicate (longestRun i gs).2 0 := by
  induction gs generalizing i with
  | nil => simp [longestRun]
  | cons g gs ih =>
    obtain ⟨htake, hle⟩ := take_zeroRun (g :: gs)
    obtain ⟨hstart, hlen, hzero⟩ := ih (i + 1)
    simp only [longestRun]
    split
    · exact ⟨Nat.le_refl i, by simpa using hle, by simpa using htake⟩
    · have hshift : (longestRun (i + 1) gs).1 - i = (longestRun (i + 1) gs).1 - (i + 1) + 1 := by
        omega
      refine ⟨by omega, ?_, ?_⟩
      · rw [hshift, List.length_cons]
        omega
      · rw [hshift, List.drop_succ_cons]
        exact hzero

/-- The groups with the longest run of zeros told apart. -/
theorem groups_eq_longestRun (gs : List UInt16) :
    gs.take (longestRun 0 gs).1 ++ List.replicate (longestRun 0 gs).2 0 ++
      gs.drop ((longestRun 0 gs).1 + (longestRun 0 gs).2) = gs := by
  obtain ⟨_, _, hzero⟩ := longestRun_zero 0 gs
  rw [Nat.sub_zero] at hzero
  rw [← hzero, ← List.drop_drop, List.append_assoc, List.take_append_drop, List.take_append_drop]

/-! ## Whole addresses -/

theorem toGroups_tailIPv4 (high low : UInt16) : (tailIPv4 high low).toGroups = (high, low) := by
  have hgroup (g : UInt16) : g / 256 % 256 * 256 + g % 256 = g := by
    have hlt : g.toNat < 65536 := g.toNat_lt
    apply UInt16.toNat_inj.1
    simp only [UInt16.toNat_add, UInt16.toNat_mul, UInt16.toNat_mod, UInt16.toNat_div,
      UInt16.reduceToNat]
    omega
  simp [tailIPv4, IPv4.toGroups, hgroup]

theorem groups_of_mapped? {gs : List UInt16} {v4 : IPv4} (h : mapped? gs = some v4) :
    gs = [0, 0, 0, 0, 0, 0xffff, v4.toGroups.1, v4.toGroups.2] := by
  rw [mapped?.eq_def] at h
  split at h
  · cases h
    rw [toGroups_tailIPv4]
  · cases h

/-- An address with an IPv4 address in its last two groups. -/
theorem spells_mapped {x : IPv6} {v4 : IPv4} (h : mapped? x.groups = some v4) :
    Spells ("::ffff:".toList ++ v4.chars) x := by
  have hright : Side true (hexadecimal (0xffff : UInt16).toNat ++ ':' :: v4.chars)
      [0xffff, v4.toGroups.1, v4.toGroups.2] :=
    .groups (.cons (group_hexadecimal 0xffff) (.quad v4))
  have hzeros : x.groups = [] ++ List.replicate 5 0 ++ [0xffff, v4.toGroups.1, v4.toGroups.2] :=
    groups_of_mapped? h
  exact .short .nothing hright (by decide) hzeros

/-- The text of an address is one of its spellings. -/
theorem spells_chars (x : IPv6) : Spells x.chars x := by
  rw [chars]
  cases hmapped : mapped? x.groups with
  | some v4 => exact spells_mapped hmapped
  | none =>
    simp only
    split
    · rename_i hrun
      exact .short (side_joinGroups _) (side_joinGroups _) (Nat.lt_of_succ_lt hrun)
        (groups_eq_longestRun x.groups).symm
    · have hne : x.groups ≠ [] := by
        intro h
        have hlen := x.length_eq
        rw [h] at hlen
        cases hlen
      exact .full (groups_joinGroups hne)

/-- The text of an address is read back as the address. -/
theorem read_chars (x : IPv6) {rest : List Char} (h : Ends rest) :
    read (x.chars ++ rest) = some (x, rest) := read_of_spells x.spells_chars h

end IPv6

namespace SocketAddress

theorem readPort_decimal (port : UInt16) : readPort (':' :: decimal port.toNat) = some port := by
  have hlt : port.toNat < UInt16.size := port.toNat_lt
  have htake := takeDigits_toDigits (b := 10) (n := port.toNat) (by decide) (by decide)
    (noDigitFirst_nil 10)
  have hvalue := valueOf_toDigits (b := 10) (n := port.toNat) (by decide) (by decide)
  rw [List.append_nil] at htake
  simp [readPort, dropChar, decimal, htake, hvalue, hlt]

/-- The text of a socket address is read back as the socket address. -/
theorem parseChars?_chars (s : SocketAddress) : parseChars? s.chars = some s := by
  obtain ⟨ip, port⟩ := s
  cases ip with
  | v4 x =>
    have hread : IPv4.read (x.chars ++ ':' :: decimal port.toNat) =
        some (x, ':' :: decimal port.toNat) :=
      IPv4.read_chars x (noDigitFirst_cons (by decide))
    simp [parseChars?, parseV4?, chars, hread, readPort_decimal]
  | v6 x =>
    have hends : IPv6.Ends (']' :: ':' :: decimal port.toNat) :=
      ⟨noDigitFirst_cons (by decide), by simp, by simp⟩
    have hread : IPv6.read (x.chars ++ ']' :: ':' :: decimal port.toNat) =
        some (x, ']' :: ':' :: decimal port.toNat) := IPv6.read_chars x hends
    have hquad : IPv4.read ('[' :: (x.chars ++ ']' :: ':' :: decimal port.toNat)) = none :=
      IPv4.read_eq_none (fun c (hc : c ∈ []) => by cases hc) (by simp)
        (noDigitFirst_cons (by decide))
    simp [parseChars?, parseV4?, parseV6?, chars, hquad, hread, dropChar, skipScope,
      readPort_decimal]

end SocketAddress
end ResolverRace
