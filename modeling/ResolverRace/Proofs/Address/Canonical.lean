import ResolverRace.Proofs.Address.Text

/-!
# Canonical texts of addresses

An address is known by the text of its host and by its port: the text of an IP literal is read back
as that literal, the text of a checked hostname as that hostname, and the one is never the other.
So comparing texts is comparing addresses, and every address that was made can be written and read
again.

* `IpAddress.parseChars?_chars` — literals.
* `Address.eq_iff_text_eq` — addresses are told apart by host text and port.
* `Address.RoundTrip` — all that writing and reading again keeps.
* `roundTrip_of_made` — every address that was read or made keeps it.
-/

namespace ResolverRace
open Text

/-! ## Literals -/

namespace IPv4

theorem not_mem_chars (x : IPv4) {c : Char} (hdigit : isDigitOf 10 c = false) (hdot : c ≠ '.') :
    c ∉ x.chars := by
  have hread : read (x.chars ++ []) = some (x, []) := read_chars x (noDigitFirst_nil 10)
  rw [List.append_nil] at hread
  exact not_mem_of_read hread hdigit hdot

end IPv4

namespace IPv6

theorem colon_mem_chars (x : IPv6) : ':' ∈ x.chars := by
  have hread : read (x.chars ++ []) = some (x, []) := read_chars x ends_nil
  rw [List.append_nil] at hread
  exact List.count_pos_iff.1 (Nat.lt_of_lt_of_le (by decide) (two_le_count_of_read hread))

end IPv6

namespace IpAddress

theorem parseChars?_chars (x : IpAddress) : parseChars? x.chars = some x := by
  cases x with
  | v4 x => exact parseChars?_v4_iff.2 rfl
  | v6 x => exact parseChars?_v6_iff.2 x.spells_chars

theorem toList_text (x : IpAddress) : x.text.toList = x.chars := String.toList_ofList

end IpAddress

/-! ## Hosts -/

namespace Host

/-- A hostname in the host, if there is one, has been checked. -/
def Checked (h : Host) : Prop := ∀ text, h = .name text → IsName text.toList

theorem parse_text {h : Host} (hchecked : h.Checked) : parse h.text.toList = .ok h := by
  cases h with
  | ip x => rw [text, x.toList_text, parse, x.parseChars?_chars]
  | name text =>
    have hparse := (hchecked text rfl).parse
    rwa [String.ofList_toList] at hparse

/-- Hosts with one text are one host. -/
theorem text_injective {g h : Host} (hg : g.Checked) (hh : h.Checked) (htext : g.text = h.text) :
    g = h := by
  have hparse := parse_text hg
  rw [htext, parse_text hh] at hparse
  exact (Except.ok.inj hparse).symm

/-- The literal that a host is. -/
def literal? : Host → Option IpAddress
  | .ip x => some x
  | .name _ => none

/-- The text of a host reads as the literal that the host is, if it is one. -/
theorem parseChars?_text {h : Host} (hchecked : h.Checked) :
    IpAddress.parseChars? h.text.toList = h.literal? := by
  cases h with
  | ip x => rw [text, x.toList_text, x.parseChars?_chars, literal?]
  | name text => exact (hchecked text rfl).parseChars?_eq_none

theorem colon_mem_text {h : Host} (hchecked : h.Checked) :
    ':' ∈ h.text.toList ↔ ∃ x, h = .ip (.v6 x) := by
  cases h with
  | ip x =>
    rw [text, x.toList_text]
    cases x with
    | v4 x =>
      have hnone : ':' ∉ x.chars := x.not_mem_chars (by decide) (by decide)
      simp [IpAddress.chars, hnone]
    | v6 x => simp [IpAddress.chars, x.colon_mem_chars]
  | name text =>
    have hnone : ':' ∉ (name text).text.toList := (hchecked text rfl).colon_not_mem
    simp [hnone]

end Host

namespace Address

/-! ## Texts that tell addresses apart -/

theorem Proper.checked {a : Address} (h : a.Proper) : a.host.Checked := h.name

theorem eq_iff_text_eq {a b : Address} (ha : a.Proper) (hb : b.Proper) :
    a = b ↔ a.host.text = b.host.text ∧ a.port = b.port := by
  constructor
  · rintro rfl
    exact ⟨rfl, rfl⟩
  · rintro ⟨hhost, hport⟩
    have heq : a.host = b.host := Host.text_injective ha.checked hb.checked hhost
    calc a = ⟨a.host, a.port⟩ := rfl
      _ = ⟨b.host, b.port⟩ := by rw [heq, hport]

theorem make_text {a : Address} (h : a.Proper) : make a.host.text.toList a.port = .ok a := by
  rw [make, if_neg h.port, Host.parse_text h.checked]

theorem toList_text_v6 (x : IPv6) (port : UInt16) :
    (⟨.ip (.v6 x), port⟩ : Address).text.toList =
      '[' :: x.chars ++ ']' :: ':' :: decimal port.toNat := by
  simp [text]

theorem toList_text_plain {a : Address} (h : ∀ x, a.host ≠ .ip (.v6 x)) :
    a.text.toList = a.host.text.toList ++ ':' :: decimal a.port.toNat := by
  obtain ⟨host, port⟩ := a
  cases host with
  | ip x =>
    cases x with
    | v4 x => simp [text]
    | v6 x => exact absurd rfl (h x)
  | name name => simp [text]

/-- Brackets stand around a host with colons, and around no other. -/
theorem toList_text {a : Address} (h : a.Proper) :
    a.text.toList =
      (if ':' ∈ a.host.text.toList then '[' :: a.host.text.toList ++ [']']
        else a.host.text.toList) ++ ':' :: decimal a.port.toNat := by
  have hcolon := Host.colon_mem_text h.checked
  by_cases hv6 : ∃ x, a.host = .ip (.v6 x)
  · rw [if_pos (hcolon.2 hv6)]
    obtain ⟨host, port⟩ := a
    obtain ⟨x, rfl⟩ := hv6
    rw [toList_text_v6, Host.text, IpAddress.toList_text, IpAddress.chars]
    simp
  · rw [if_neg (mt hcolon.1 hv6)]
    exact toList_text_plain fun x hx => hv6 ⟨x, hx⟩

theorem bracket_mem_text {a : Address} (h : a.Proper) :
    '[' ∈ a.text.toList ↔ ∃ x, a.host = .ip (.v6 x) := by
  constructor
  · intro hmem
    by_contra hnot
    rw [toList_text_plain fun x hx => hnot ⟨x, hx⟩, List.mem_append] at hmem
    rcases hmem with hmem | hmem
    · obtain ⟨host, port⟩ := a
      cases host with
      | ip x =>
        rw [Host.text, x.toList_text] at hmem
        cases x with
        | v4 x => exact x.not_mem_chars (by decide) (by decide) hmem
        | v6 x => exact hnot ⟨x, rfl⟩
      | name text => exact (h.name text rfl).not_mem (by decide) (by decide) hmem
    · rcases List.mem_cons.1 hmem with hfalse | hmem
      · cases hfalse
      · have hdigit : isDigitOf 10 '[' = true :=
          isDigitOf_of_mem_toDigits (by decide) (by decide) '[' hmem
        cases hdigit
  · rintro ⟨x, hx⟩
    obtain ⟨host, port⟩ := a
    cases hx
    rw [toList_text_v6]
    exact List.mem_append_left _ (List.mem_cons_self ..)

/-! ## Round trips -/

/-- What writing an address and reading it again keeps. -/
structure RoundTrip (a : Address) : Prop where
  text : parse a.text = .ok a
  host : make a.host.text.toList a.port = .ok a
  port : a.port ≠ 0
  written : a.text.toList =
    (if ':' ∈ a.host.text.toList then '[' :: a.host.text.toList ++ [']']
      else a.host.text.toList) ++ ':' :: decimal a.port.toNat
  /-- Brackets stand in the text if the host reads as an IPv6 literal, and only then. -/
  brackets : '[' ∈ a.text.toList ↔
    ∃ x, IpAddress.parseChars? a.host.text.toList = some (.v6 x)
  /-- An address counts as one of an IP literal if its host reads as one. -/
  literal : a.isIp = (IpAddress.parseChars? a.host.text.toList).isSome
  socket : a.socket? =
    (IpAddress.parseChars? a.host.text.toList).map fun ip => ⟨ip, a.port⟩
  isIp : a.isIp = true ↔ a.socket?.isSome = true
  ofSocket : ∀ s, a.socket? = some s → Address.ofSocket s = a

theorem Proper.roundTrip {a : Address} (h : a.Proper) : a.RoundTrip := by
  have hread := Host.parseChars?_text h.checked
  have hbrackets := bracket_mem_text h
  refine ⟨parse_text h, make_text h, h.port, toList_text h, ?_, ?_, ?_, ?_, ?_⟩
  · rw [hbrackets, hread]
    cases a.host <;> simp [Host.literal?]
  · rw [hread, isIp]
    cases a.host <;> rfl
  · rw [hread, socket?]
    cases a.host <;> rfl
  · rw [isIp, socket?]
    cases a.host <;> simp
  · intro s hs
    obtain ⟨host, port⟩ := a
    cases host with
    | ip x =>
      cases hs
      rfl
    | name text => cases hs

/-- Every address that was read of a text, or made of a host and a port, round trips; the address of
a socket reads back exactly if its port is not zero. -/
theorem roundTrip_of_made :
    (∀ a : Address, ((∃ s, parse s = .ok a) ∨ ∃ host port, make host port = .ok a) →
      a.RoundTrip) ∧
    ∀ s : SocketAddress, parse (ofSocket s).text = .ok (ofSocket s) ↔ s.port ≠ 0 := by
  refine ⟨?_, fun s => ⟨fun h => (parse_proper h).port, fun h => parse_text_ip h⟩⟩
  rintro a (⟨s, hs⟩ | ⟨host, port, hmake⟩)
  · exact (parse_proper hs).roundTrip
  · exact (make_proper hmake).roundTrip

theorem roundTrip_mapped_and_rooted :
    let mapped : Address := ⟨.ip (.v6 ⟨[0, 0, 0, 0, 0, 0xffff, 0x0102, 0x0304], rfl⟩), 53⟩
    let rooted : Address := ⟨.name "ns_1.example", 853⟩
    (parse " ::FFFF:1.2.3.4 " = .ok mapped ∧ mapped.text = "[::ffff:1.2.3.4]:53" ∧
      mapped.RoundTrip) ∧
    make "Ns_1.Example.".toList 853 = .ok rooted ∧ rooted.RoundTrip := by
  intro mapped rooted
  have hmapped : parse " ::FFFF:1.2.3.4 " = .ok mapped := by decide
  have hrooted : make "Ns_1.Example.".toList 853 = .ok rooted := by decide
  exact ⟨⟨hmapped, by decide, roundTrip_of_made.1 mapped (.inl ⟨_, hmapped⟩)⟩, hrooted,
    roundTrip_of_made.1 rooted (.inr ⟨_, _, hrooted⟩)⟩

end Address
end ResolverRace
