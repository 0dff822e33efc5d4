import Mathlib.Data.List.Basic
import ResolverRace.Proofs.Address.Denoted

/-!
# The grammar of addresses without brackets

A text that does not start with a bracket is an address if it is a host, alone or with a colon and a
port behind it; a host is a dotted quad or a hostname. An IPv6 literal is an address as a whole. If
the text is none, what stands before its last colon may be one too, and the rest is the port.

Hosts have no colons, so a text with one colon at most is read by the first rule, and a text with
more of them by the other two.

* `Host.Hostname`, `Host.Written` — hostnames, and the texts of hosts.
* `Unbracketed`, `Address.parse_eq_ok_iff_unbracketed` — the grammar, and that it is what is read.
* `Address.parse_eq_ok_iff_host` — texts with one colon at most.
* `Address.parse_eq_ok_iff_literal` — texts with two colons or more.
-/

namespace ResolverRace
open Text

/-! ## Hostnames -/

namespace Host

/-- One part of a hostname. -/
structure Label (cs : List Char) : Prop where
  nonempty : cs ≠ []
  short : cs.length ≤ 63
  chars : ∀ c ∈ cs, c.isAlphanum = true ∨ c = '-' ∨ c = '_'
  first : cs.head? ≠ some '-'
  last : cs.getLast? ≠ some '-'

/-- One to 253 bytes: labels with dots between, one of which at least is not a number. -/
structure Hostname (name : List Char) : Prop where
  bytes : 1 ≤ byteLength name ∧ byteLength name ≤ 253
  labels : ∃ labels : List (List Char), labels ≠ [] ∧ name = ['.'].intercalate labels ∧
    (∀ label ∈ labels, Label label) ∧ ∃ label ∈ labels, ∃ c ∈ label, c.isDigit = false

/-- The texts of a host other than an IPv6 literal: a dotted quad, or a hostname in any case of its
letters, with a closing dot or without. -/
inductive Written : List Char → Host → Prop where
  | quad (x : IPv4) : Written x.chars (.ip (.v4 x))
  | name {cs name : List Char} : Named.Unrooted cs name → Hostname name →
      Written cs (.name (String.ofList (name.map Char.toLower)))

section

variable {cs name : List Char} {h : Host}

theorem isLabel_iff : isLabel cs = true ↔ Label cs := by
  simp only [isLabel, isLabelChar, Bool.and_eq_true, Bool.or_eq_true,
    Bool.not_eq_true', List.isEmpty_eq_false_iff, decide_eq_true_eq, List.all_eq_true]
  constructor
  · rintro ⟨⟨⟨⟨hne, hlen⟩, hchars⟩, hfirst⟩, hlast⟩
    exact ⟨hne, hlen, fun c hc => or_assoc.1 (hchars c hc), hfirst, hlast⟩
  · rintro ⟨hne, hlen, hchars, hfirst, hlast⟩
    exact ⟨⟨⟨⟨hne, hlen⟩, fun c hc => or_assoc.2 (hchars c hc)⟩, hfirst⟩, hlast⟩

theorem Label.dot_not_mem (hlabel : Label cs) : '.' ∉ cs := by
  intro hmem
  rcases hlabel.chars '.' hmem with halphanum | hhyphen | hunderscore
  · cases halphanum
  · cases hhyphen
  · cases hunderscore

theorem isNumeric_eq_false (hne : cs ≠ []) :
    isNumeric cs = false ↔ ∃ c ∈ cs, c.isDigit = false := by
  simp [isNumeric, List.isEmpty_eq_false_iff.2 hne]

/-- What is checked of a hostname, label by label. -/
theorem hostname_iff : Hostname name ↔ name ≠ [] ∧ byteLength name ≤ maxLength ∧
    (splitAtEach '.' name).all isNumeric = false ∧ (splitAtEach '.' name).all isLabel = true := by
  constructor
  · rintro ⟨⟨hsome, hbytes⟩, labels, hne, hname, hlabels, label, hlabel, hletter⟩
    have hsplit : splitAtEach '.' name = labels := by
      rw [hname, splitAtEach_intercalate hne fun piece hpiece => (hlabels piece hpiece).dot_not_mem]
    refine ⟨?_, hbytes, ?_, ?_⟩
    · rintro rfl
      cases hsome
    · have hnumeric := (isNumeric_eq_false (hlabels label hlabel).nonempty).2 hletter
      rw [hsplit, List.all_eq_false]
      exact ⟨label, hlabel, by rw [hnumeric]; decide⟩
    · rw [hsplit, List.all_eq_true]
      exact fun piece hpiece => isLabel_iff.2 (hlabels piece hpiece)
  · rintro ⟨hne, hbytes, hnumeric, hall⟩
    have hlabels : ∀ label ∈ splitAtEach '.' name, Label label := fun label hlabel =>
      isLabel_iff.1 (List.all_eq_true.1 hall label hlabel)
    obtain ⟨label, hlabel, hnot⟩ := List.all_eq_false.1 hnumeric
    refine ⟨⟨?_, hbytes⟩, splitAtEach '.' name, splitAtEach_ne_nil _ _,
      (intercalate_split '.' name).symm, hlabels, label, hlabel,
      (isNumeric_eq_false (hlabels label hlabel).nonempty).1 (Bool.eq_false_iff.2 hnot)⟩
    cases name with
    | nil => exact absurd rfl hne
    | cons c cs => exact Nat.le_trans c.utf8Size_pos (Nat.le_add_right _ _)

theorem ofName_eq_ok_iff : ofName cs = .ok h ↔ ∃ name, Named.Unrooted cs name ∧ Hostname name ∧
    h = .name (String.ofList (name.map Char.toLower)) := by
  constructor
  · intro hof
    refine ⟨dropRootDot cs, Named.unrooted_iff.2 rfl, ?_, Address.host_of_ofName hof⟩
    simp only [ofName] at hof
    split at hof
    · cases hof
    · rename_i hne
      split at hof
      · cases hof
      · rename_i hbytes
        split at hof
        · cases hof
        · rename_i hnumeric
          split at hof
          · rename_i hlabels
            exact hostname_iff.2 ⟨by simpa using hne, Nat.le_of_not_lt hbytes,
              Bool.eq_false_iff.2 hnumeric, hlabels⟩
          · cases hof
  · rintro ⟨name, hroot, hname, rfl⟩
    obtain ⟨hne, hbytes, hnumeric, hlabels⟩ := hostname_iff.1 hname
    have hempty : name.isEmpty = false := List.isEmpty_eq_false_iff.2 hne
    simp only [ofName, Named.unrooted_iff.1 hroot, hempty, hnumeric, hlabels,
      Nat.not_lt.2 hbytes, Bool.false_eq_true, ↓reduceIte, lowerChars]

/-! ## The texts of hosts -/

theorem mem_of_unrooted (hroot : Named.Unrooted cs name) (hname : Hostname name) :
    ∀ c ∈ cs, isLabelChar c = true ∨ c = '.' := by
  obtain ⟨_, _, _, hlabels⟩ := hostname_iff.1 hname
  intro c hc
  cases hroot with
  | dot =>
    rcases List.mem_append.1 hc with hc | hc
    · exact mem_of_labels hlabels c hc
    · exact .inr (List.mem_singleton.1 hc)
  | bare => exact mem_of_labels hlabels c hc

theorem colon_not_mem_of_unrooted (hroot : Named.Unrooted cs name) (hname : Hostname name) :
    ':' ∉ cs := by
  intro hmem
  rcases mem_of_unrooted hroot hname ':' hmem with hlabel | hdot
  · cases hlabel
  · cases hdot

/-- With a closing dot too, a hostname is no IP literal. -/
theorem parseChars?_of_unrooted (hroot : Named.Unrooted cs name) (hname : Hostname name) :
    IpAddress.parseChars? cs = none := by
  refine parseChars?_eq_none ?_ (colon_not_mem_of_unrooted hroot hname)
  obtain ⟨_, _, hnumeric, _⟩ := hostname_iff.1 hname
  cases hroot with
  | dot =>
    rw [splitAtEach_concat, List.all_append]
    exact Bool.and_false _
  | bare => exact hnumeric

theorem Written.colon_not_mem (hw : Written cs h) : ':' ∉ cs := by
  cases hw with
  | quad x => exact x.not_mem_chars (by decide) (by decide)
  | name hroot hname => exact colon_not_mem_of_unrooted hroot hname

theorem Written.isPlain (hw : Written cs h) : ∀ c ∈ cs, isPlain c = true := by
  cases hw with
  | quad x => exact x.isPlain_chars
  | name hroot hname =>
    intro c hc
    rcases mem_of_unrooted hroot hname c hc with hlabel | rfl
    · exact isPlain_of_isLabelChar hlabel
    · decide

theorem Written.parse (hw : Written cs h) : Host.parse cs = .ok h := by
  cases hw with
  | quad x => rw [Host.parse, IpAddress.parseChars?_v4_iff.2 rfl]
  | name hroot hname =>
    rw [Host.parse, parseChars?_of_unrooted hroot hname]
    exact ofName_eq_ok_iff.2 ⟨_, hroot, hname, rfl⟩

theorem parse_of_spells {x : IPv6} (hspells : IPv6.Spells cs x) :
    Host.parse cs = .ok (.ip (.v6 x)) := by
  rw [Host.parse, IpAddress.parseChars?_v6_iff.2 hspells]

/-- A host is read of its texts and, if it is an IPv6 literal, of the spellings of it. -/
theorem of_parse (hparse : Host.parse cs = .ok h) :
    Written cs h ∨ ∃ x, IPv6.Spells cs x ∧ h = .ip (.v6 x) := by
  rw [Host.parse] at hparse
  split at hparse
  · rename_i ip hip
    cases hparse
    cases ip with
    | v4 x =>
      rw [IpAddress.parseChars?_v4_iff.1 hip]
      exact .inl (.quad x)
    | v6 x => exact .inr ⟨x, IpAddress.parseChars?_v6_iff.1 hip, rfl⟩
  · obtain ⟨name, hroot, hname, rfl⟩ := ofName_eq_ok_iff.1 hparse
    exact .inl (.name hroot hname)

end

end Host

/-! ## The grammar -/

/-- The number of a port, and a numeral of it. -/
structure Port (cs : List Char) (n : Nat) : Prop where
  numeral : Numeral cs n
  pos : 1 ≤ n
  le : n ≤ 65535

/-- What a text without a bracket in front is read as. -/
inductive Unbracketed : List Char → Address → Prop where
  | host {cs : List Char} {h : Host} : Host.Written cs h → Unbracketed cs ⟨h, 53⟩
  | hostPort {host port : List Char} {h : Host} {n : Nat} : Host.Written host h → Port port n →
      Unbracketed (host ++ ':' :: port) ⟨h, .ofNat n⟩
  | literal {cs : List Char} {x : IPv6} : IPv6.Spells cs x → Unbracketed cs ⟨.ip (.v6 x), 53⟩
  | literalPort {literal port : List Char} {x : IPv6} {n : Nat} : IPv6.Spells literal x →
      Port port n → (¬∃ y, IPv6.Spells (literal ++ ':' :: port) y) →
      Unbracketed (literal ++ ':' :: port) ⟨.ip (.v6 x), .ofNat n⟩

/-! ## Ports -/

section

variable {cs port text : List Char} {n : Nat}

theorem Port.colon_not_mem (h : Port cs n) : ':' ∉ cs :=
  h.numeral.not_mem (by decide) (by decide)

theorem Port.isPlain (h : Port cs n) : ∀ c ∈ cs, isPlain c = true := by
  intro c hc
  rcases h.numeral.mem c hc with hdigit | rfl
  · exact isPlain_of_isDigitOf (isDigitOf_sixteen hdigit)
  · decide

theorem Port.ofNat_ne_zero (h : Port cs n) : UInt16.ofNat n ≠ 0 := by
  intro hzero
  have hn : (UInt16.ofNat n).toNat = n := UInt16.toNat_ofNat_of_lt (Nat.lt_succ_of_le h.le)
  have hpos := h.pos
  rw [← hn, hzero] at hpos
  cases hpos

theorem Port.parsePort (h : Port port n) : Address.parsePort text port = .ok (.ofNat n) := by
  rw [Address.parsePort, parseDecimal_of_numeral h.numeral h.le]
  cases n with
  | zero => exact absurd h.pos (by decide)
  | succ n => rfl

theorem port_of_parsePort {p : UInt16} (h : Address.parsePort text port = .ok p) :
    ∃ n, Port port n ∧ p = .ofNat n := by
  rw [Address.parsePort] at h
  split at h
  · cases h
  · cases h
  · rename_i m hm hparse
    cases h
    obtain ⟨hnumeral, hle⟩ := numeral_of_parseDecimal hparse
    exact ⟨m, ⟨hnumeral, Nat.pos_of_ne_zero hm, hle⟩, rfl⟩

end

namespace Address

/-! ## Socket addresses without brackets -/

theorem exists_of_readPort {cs : List Char} {p : UInt16}
    (h : SocketAddress.readPort cs = some p) : ∃ digits n, cs = ':' :: digits ∧
      Numeral digits n ∧ n ≤ 65535 ∧ p = .ofNat n := by
  simp only [SocketAddress.readPort, Option.bind_eq_bind, Option.bind_eq_some_iff,
    Prod.exists] at h
  obtain ⟨after, hafter, digits, rest, htake, hport⟩ := h
  split at hport
  · rename_i hall
    cases hport
    simp only [Bool.and_eq_true, List.isEmpty_iff, decide_eq_true_iff] at hall
    obtain ⟨hafter', hne, hdigits⟩ := exists_of_takeDigits htake
    rw [hall.1, List.append_nil] at hafter'
    refine ⟨digits, _, ?_, .plain hne hdigits, Nat.le_of_lt_succ hall.2, rfl⟩
    rw [eq_of_dropChar hafter, hafter']
  · cases hport

/-- Without a bracket in front, a socket address is a dotted quad and a port. -/
theorem exists_of_socket {cs : List Char} {s : SocketAddress} (hbracket : cs.head? ≠ some '[')
    (h : SocketAddress.parseChars? cs = some s) : ∃ (x : IPv4) (digits : List Char) (n : Nat),
      cs = x.chars ++ ':' :: digits ∧ Numeral digits n ∧ n ≤ 65535 ∧ s = ⟨.v4 x, .ofNat n⟩ := by
  rw [SocketAddress.parseChars?, Option.or_eq_some_iff] at h
  rcases h with hv4 | ⟨_, hv6⟩
  · simp only [SocketAddress.parseV4?, Option.bind_eq_bind, Option.bind_eq_some_iff,
      Prod.exists] at hv4
    obtain ⟨x, rest, hread, p, hport, hs⟩ := hv4
    cases hs
    obtain ⟨hcs, _⟩ := IPv4.read_iff.1 hread
    obtain ⟨digits, n, rfl, hnumeral, hle, rfl⟩ := exists_of_readPort hport
    exact ⟨x, digits, n, hcs, hnumeral, hle, rfl⟩
  · simp only [SocketAddress.parseV6?, Option.bind_eq_bind, Option.bind_eq_some_iff] at hv6
    obtain ⟨rest, hdrop, _⟩ := hv6
    rw [eq_of_dropChar hdrop] at hbracket
    exact absurd rfl hbracket

/-! ## What is read is in the grammar -/

section

variable {cs : List Char} {a : Address}

theorem ofIp_of_ne_zero {port : UInt16} (ip : IpAddress) (h : port ≠ 0) :
    ofIp ip port = .ok ⟨.ip ip, port⟩ := if_neg h

theorem make_of_parse {port : UInt16} {h : Host} (hparse : Host.parse cs = .ok h)
    (hport : port ≠ 0) : make cs port = .ok ⟨h, port⟩ := by
  rw [make, if_neg hport, hparse]

theorem parse_of_make {port : UInt16} (h : make cs port = .ok a) :
    ∃ h, Host.parse cs = .ok h ∧ a = ⟨h, port⟩ := by
  rw [make] at h
  split at h
  · cases h
  · split at h
    · rename_i host hparse
      cases h
      exact ⟨host, hparse, rfl⟩
    · cases h

theorem port_of_ne_zero {digits : List Char} {n : Nat} (hnumeral : Numeral digits n)
    (hle : n ≤ 65535) (h : UInt16.ofNat n ≠ 0) : Port digits n := by
  refine ⟨hnumeral, Nat.pos_of_ne_zero ?_, hle⟩
  rintro rfl
  exact h rfl

theorem unbracketed_of_parseCompact (hbracket : cs.head? ≠ some '[')
    (h : parseCompact cs = .ok a) : Unbracketed cs a := by
  rw [parseCompact.eq_def] at h
  split at h
  · rename_i s hsocket
    obtain ⟨x, digits, n, rfl, hnumeral, hle, rfl⟩ := exists_of_socket hbracket hsocket
    obtain ⟨hport, rfl⟩ := ofIp_eq_ok h
    exact .hostPort (.quad x) (port_of_ne_zero hnumeral hle hport)
  · split at h
    · rename_i ip hip
      obtain ⟨_, rfl⟩ := ofIp_eq_ok h
      cases ip with
      | v4 x =>
        rw [IpAddress.parseChars?_v4_iff.1 hip]
        exact .host (.quad x)
      | v6 x => exact .literal (IpAddress.parseChars?_v6_iff.1 hip)
    · rename_i hip
      split at h
      · exact absurd rfl hbracket
      · split at h
        · obtain ⟨host, hparse, rfl⟩ := parse_of_make h
          rcases Host.of_parse hparse with hw | ⟨x, hspells, rfl⟩
          · exact .host hw
          · exact .literal hspells
        · rename_i host port hcut
          obtain ⟨rfl, -⟩ := cutAtLast_eq_some hcut
          split at h
          · rename_i p hp
            obtain ⟨n, hport, rfl⟩ := port_of_parsePort hp
            obtain ⟨host', hparse, rfl⟩ := parse_of_make h
            rcases Host.of_parse hparse with hw | ⟨x, hspells, rfl⟩
            · exact .hostPort hw hport
            · refine .literalPort hspells hport ?_
              rintro ⟨y, hy⟩
              rw [IpAddress.parseChars?_v6_iff.2 hy] at hip
              cases hip
          · cases h

/-! ## What is in the grammar is read -/

theorem two_le_count_of_spells {x : IPv6} (h : IPv6.Spells cs x) : 2 ≤ cs.count ':' := by
  have hread : IPv6.read (cs ++ []) = some (x, []) := IPv6.read_of_spells h IPv6.ends_nil
  rw [List.append_nil] at hread
  exact IPv6.two_le_count_of_read hread

theorem count_host_port (host : List Char) {port : List Char} {n : Nat} (hport : Port port n) :
    (host ++ ':' :: port).count ':' = host.count ':' + 1 := by
  rw [List.count_append, List.count_cons_self, List.count_eq_zero.2 hport.colon_not_mem]

/-- A dotted quad and a port have one colon. -/
theorem socket_eq_none (hbracket : cs.head? ≠ some '[') (h : cs.count ':' ≠ 1) :
    SocketAddress.parseChars? cs = none := by
  rw [Option.eq_none_iff_forall_ne_some]
  intro s hsocket
  obtain ⟨x, digits, n, rfl, hnumeral, hle, rfl⟩ := exists_of_socket hbracket hsocket
  have hquad : ':' ∉ x.chars := x.not_mem_chars (by decide) (by decide)
  have hdigits : ':' ∉ digits := hnumeral.not_mem (by decide) (by decide)
  apply h
  rw [List.count_append, List.count_cons_self, List.count_eq_zero.2 hquad,
    List.count_eq_zero.2 hdigits]

theorem literal_eq_none (hcolon : ':' ∈ cs) (h : ¬∃ x, IPv6.Spells cs x) :
    IpAddress.parseChars? cs = none := by
  cases hip : IpAddress.parseChars? cs with
  | none => rfl
  | some ip =>
    cases ip with
    | v4 x =>
      rw [IpAddress.parseChars?_v4_iff.1 hip] at hcolon
      exact absurd hcolon (x.not_mem_chars (by decide) (by decide))
    | v6 x => exact absurd ⟨x, IpAddress.parseChars?_v6_iff.1 hip⟩ h

/-- A text that is no literal is cut at its last colon. -/
theorem parseCompact_hostPort {host port : List Char} {h : Host} {n : Nat}
    (hbracket : (host ++ ':' :: port).head? ≠ some '[')
    (hsocket : SocketAddress.parseChars? (host ++ ':' :: port) = none)
    (hip : ¬∃ x, IPv6.Spells (host ++ ':' :: port) x)
    (hhost : Host.parse host = .ok h) (hport : Port port n) :
    parseCompact (host ++ ':' :: port) = .ok ⟨h, .ofNat n⟩ := by
  have hnone := literal_eq_none (List.mem_append_right _ (List.mem_cons_self ..)) hip
  rw [parseCompact.eq_def, hsocket, hnone]
  simp only [cutAtLast_append hport.colon_not_mem, hport.parsePort,
    make_of_parse hhost hport.ofNat_ne_zero]
  split
  · rename_i rest hhead
    rw [hhead] at hbracket
    exact absurd rfl hbracket
  · rfl

theorem parseCompact_of_host {h : Host} (hbracket : cs.head? ≠ some '[')
    (hw : Host.Written cs h) : parseCompact cs = .ok ⟨h, defaultPort⟩ := by
  have hdefault : defaultPort ≠ 0 := by decide
  have hcolon := hw.colon_not_mem
  have hcount := List.count_eq_zero.2 hcolon
  have hsocket := socket_eq_none hbracket (by rw [hcount]; decide)
  rw [parseCompact.eq_def, hsocket]
  cases hip : IpAddress.parseChars? cs with
  | some ip =>
    have hparse := hw.parse
    rw [Host.parse, hip] at hparse
    cases hparse
    exact ofIp_of_ne_zero ip hdefault
  | none =>
    simp only [cutAtLast_eq_none hcolon]
    split
    · exact absurd rfl hbracket
    · exact make_of_parse hw.parse hdefault

/-- A socket address that is read of a host and a port is a quad and the same digits. -/
theorem parseCompact_of_socket {host port : List Char} {h : Host} {n : Nat} {s : SocketAddress}
    (hbracket : (host ++ ':' :: port).head? ≠ some '[') (hw : Host.Written host h)
    (hport : Port port n) (hsocket : SocketAddress.parseChars? (host ++ ':' :: port) = some s) :
    parseCompact (host ++ ':' :: port) = .ok ⟨h, .ofNat n⟩ := by
  obtain ⟨x, digits, m, hcs, hnumeral, _, rfl⟩ := exists_of_socket hbracket hsocket
  have hdigits : ':' ∉ digits := hnumeral.not_mem (by decide) (by decide)
  have hcut := congrArg (cutAtLast ':') hcs
  rw [cutAtLast_append hport.colon_not_mem, cutAtLast_append hdigits] at hcut
  cases hcut
  obtain rfl := hport.numeral.unique hnumeral
  have hquad := hw.parse
  rw [(Host.Written.quad x).parse] at hquad
  cases hquad
  rw [parseCompact.eq_def, hsocket]
  exact ofIp_of_ne_zero _ hport.ofNat_ne_zero

theorem parseCompact_of_unbracketed (hbracket : cs.head? ≠ some '[') (h : Unbracketed cs a) :
    parseCompact cs = .ok a := by
  cases h with
  | host hw => exact parseCompact_of_host hbracket hw
  | @hostPort host port h n hw hport =>
    have hcount := count_host_port host hport
    rw [List.count_eq_zero.2 hw.colon_not_mem] at hcount
    have hip : ¬∃ x, IPv6.Spells (host ++ ':' :: port) x := by
      rintro ⟨x, hx⟩
      have htwo := two_le_count_of_spells hx
      rw [hcount] at htwo
      exact absurd htwo (by decide)
    cases hsocket : SocketAddress.parseChars? (host ++ ':' :: port) with
    | none => exact parseCompact_hostPort hbracket hsocket hip hw.parse hport
    | some s => exact parseCompact_of_socket hbracket hw hport hsocket
  | literal hspells =>
    have htwo := two_le_count_of_spells hspells
    have hsocket := socket_eq_none hbracket (Nat.ne_of_gt htwo)
    rw [parseCompact.eq_def, hsocket, IpAddress.parseChars?_v6_iff.2 hspells]
    exact ofIp_of_ne_zero _ (by decide)
  | @literalPort literal port x n hspells hport hip =>
    have htwo := two_le_count_of_spells hspells
    have hcount := count_host_port literal hport
    have hsocket := socket_eq_none hbracket (by omega)
    exact parseCompact_hostPort hbracket hsocket hip (Host.parse_of_spells hspells) hport

theorem isPlain_of_unbracketed (h : Unbracketed cs a) : ∀ c ∈ cs, isPlain c = true := by
  have hpair {host port : List Char} {n : Nat} (hhost : ∀ c ∈ host, isPlain c = true)
      (hport : Port port n) : ∀ c ∈ host ++ ':' :: port, isPlain c = true := by
    intro c hc
    rcases List.mem_append.1 hc with hc | hc
    · exact hhost c hc
    · rcases List.mem_cons.1 hc with rfl | hc
      · decide
      · exact hport.isPlain c hc
  cases h with
  | host hw => exact hw.isPlain
  | hostPort hw hport => exact hpair hw.isPlain hport
  | literal hspells => exact IPv6.isPlain_of_spells hspells
  | literalPort hspells hport => exact hpair (IPv6.isPlain_of_spells hspells) hport

theorem ne_nil_of_unbracketed (h : Unbracketed cs a) : cs ≠ [] := by
  rintro rfl
  have hread := parseCompact_of_unbracketed (by decide) h
  cases hread

end

/-- Without a bracket in front, what is read is the grammar. -/
theorem parse_eq_ok_iff_unbracketed {s : String} {a : Address}
    (hbracket : (trimChars s.toList).head? ≠ some '[') :
    parse s = .ok a ↔ Unbracketed (trimChars s.toList) a := by
  constructor
  · exact fun h => unbracketed_of_parseCompact hbracket (parseCompact_of_parse h)
  · intro h
    rw [parse, parseTrimmed_of_plain (ne_nil_of_unbracketed h) (isPlain_of_unbracketed h)]
    exact parseCompact_of_unbracketed hbracket h

/-! ## Few colons and many -/

section

variable {s : String} {a : Address}

/-- With one colon at most, a text is an address if it is a dotted quad or a hostname, with a port
behind a colon or without, and only then. -/
theorem parse_eq_ok_iff_host (hcolons : (trimChars s.toList).count ':' ≤ 1)
    (hbracket : (trimChars s.toList).head? ≠ some '[') :
    parse s = .ok a ↔ (∃ h, Host.Written (trimChars s.toList) h ∧ a = ⟨h, 53⟩) ∨
      ∃ host port h n, trimChars s.toList = host ++ ':' :: port ∧ Host.Written host h ∧
        Port port n ∧ a = ⟨h, .ofNat n⟩ := by
  rw [parse_eq_ok_iff_unbracketed hbracket]
  generalize trimChars s.toList = cs at hcolons
  constructor
  · rintro (hw | ⟨hw, hport⟩ | hspells | ⟨hspells, hport, _⟩)
    · exact .inl ⟨_, hw, rfl⟩
    · exact .inr ⟨_, _, _, _, rfl, hw, hport, rfl⟩
    · have htwo := two_le_count_of_spells hspells
      omega
    · have htwo := two_le_count_of_spells hspells
      rw [count_host_port _ hport] at hcolons
      omega
  · rintro (⟨h, hw, rfl⟩ | ⟨host, port, h, n, rfl, hw, hport, rfl⟩)
    · exact .host hw
    · exact .hostPort hw hport

theorem hostname_with_signed_port :
    let s := " Ns_1.Example.:+0853 "
    (trimChars s.toList).count ':' ≤ 1 ∧ (trimChars s.toList).head? ≠ some '[' ∧
      Host.Written "Ns_1.Example.".toList (.name "ns_1.example") ∧ Port "+0853".toList 853 ∧
      parse s = .ok ⟨.name "ns_1.example", 853⟩ := by
  intro s
  have hcolons : (trimChars s.toList).count ':' ≤ 1 := by decide
  have hbracket : (trimChars s.toList).head? ≠ some '[' := by decide
  have hname : Host.Hostname "Ns_1.Example".toList := Host.hostname_iff.2 (by decide)
  have hw : Host.Written "Ns_1.Example.".toList (.name "ns_1.example") :=
    .name (.dot "Ns_1.Example".toList) hname
  have hdigits : "0853".toList.all (isDigitOf 10) = true := by decide
  have hnumeral : Numeral "+0853".toList (valueOf 10 "0853".toList) :=
    .signed (by decide) (List.all_eq_true.1 hdigits)
  have hport : Port "+0853".toList 853 := ⟨hnumeral, by decide, by decide⟩
  exact ⟨hcolons, hbracket, hw, hport,
    (parse_eq_ok_iff_host hcolons hbracket).2 (.inr ⟨_, _, _, _, by decide, hw, hport, rfl⟩)⟩

/-- With two colons or more, a text is an address if it is an IPv6 literal, which means port 53, or
if it is none but was one up to its last colon, where a port stands. -/
theorem parse_eq_ok_iff_literal (hcolons : 2 ≤ (trimChars s.toList).count ':')
    (hbracket : (trimChars s.toList).head? ≠ some '[') :
    parse s = .ok a ↔ (∃ x, IPv6.Spells (trimChars s.toList) x ∧ a = ⟨.ip (.v6 x), 53⟩) ∨
      (¬∃ x, IPv6.Spells (trimChars s.toList) x) ∧
        ∃ literal port x n, trimChars s.toList = literal ++ ':' :: port ∧
          IPv6.Spells literal x ∧ Port port n ∧ a = ⟨.ip (.v6 x), .ofNat n⟩ := by
  rw [parse_eq_ok_iff_unbracketed hbracket]
  generalize trimChars s.toList = cs at hcolons
  constructor
  · rintro (hw | ⟨hw, hport⟩ | hspells | ⟨hspells, hport, hnone⟩)
    · rw [List.count_eq_zero.2 hw.colon_not_mem] at hcolons
      cases hcolons
    · rw [count_host_port _ hport, List.count_eq_zero.2 hw.colon_not_mem] at hcolons
      omega
    · exact .inl ⟨_, hspells, rfl⟩
    · exact .inr ⟨hnone, _, _, _, _, rfl, hspells, hport, rfl⟩
  · rintro (⟨x, hspells, rfl⟩ | ⟨hnone, literal, port, x, n, rfl, hspells, hport, rfl⟩)
    · exact .literal hspells
    · exact .literalPort hspells hport hnone

end

theorem not_spells {cs : List Char} (h : IpAddress.parseChars? cs = none) :
    ¬∃ x, IPv6.Spells cs x := by
  rintro ⟨x, hx⟩
  rw [IpAddress.parseChars?_v6_iff.2 hx] at h
  cases h

/-- One digit more in the last group, and it is no group but a port. -/
theorem last_group_read_as_port :
    let short := " 2001:DB8::1:1005 "
    let long := " 2001:DB8::1:10053 "
    (2 ≤ (trimChars short.toList).count ':' ∧ (trimChars short.toList).head? ≠ some '[' ∧
      parse short = .ok ⟨.ip (.v6 ⟨[0x2001, 0xdb8, 0, 0, 0, 0, 1, 0x1005], rfl⟩), 53⟩) ∧
    2 ≤ (trimChars long.toList).count ':' ∧ (trimChars long.toList).head? ≠ some '[' ∧
      (¬∃ x, IPv6.Spells (trimChars long.toList) x) ∧
      parse long = .ok ⟨.ip (.v6 ⟨[0x2001, 0xdb8, 0, 0, 0, 0, 0, 1], rfl⟩), 10053⟩ := by
  intro short long
  have hshort : 2 ≤ (trimChars short.toList).count ':' ∧
      (trimChars short.toList).head? ≠ some '[' := by decide
  have hlong : 2 ≤ (trimChars long.toList).count ':' ∧
      (trimChars long.toList).head? ≠ some '[' := by decide
  have hwhole : IPv6.Spells (trimChars short.toList)
      ⟨[0x2001, 0xdb8, 0, 0, 0, 0, 1, 0x1005], rfl⟩ :=
    IpAddress.parseChars?_v6_iff.1 (by decide)
  have hpart : IPv6.Spells "2001:DB8::1".toList ⟨[0x2001, 0xdb8, 0, 0, 0, 0, 0, 1], rfl⟩ :=
    IpAddress.parseChars?_v6_iff.1 (by decide)
  have hnone : ¬∃ x, IPv6.Spells (trimChars long.toList) x := not_spells (by decide)
  have hdigits : "10053".toList.all (isDigitOf 10) = true := by decide
  have hnumeral : Numeral "10053".toList (valueOf 10 "10053".toList) :=
    .plain (by decide) (List.all_eq_true.1 hdigits)
  have hport : Port "10053".toList 10053 := ⟨hnumeral, by decide, by decide⟩
  refine ⟨⟨hshort.1, hshort.2, ?_⟩, hlong.1, hlong.2, hnone, ?_⟩
  · exact (parse_eq_ok_iff_literal hshort.1 hshort.2).2 (.inl ⟨_, hwhole, rfl⟩)
  · exact (parse_eq_ok_iff_literal hlong.1 hlong.2).2
      (.inr ⟨hnone, _, _, _, _, by decide, hpart, hport, rfl⟩)

/-- Literals are not the only texts with two colons and no bracket that are read. -/
theorem more_than_literals :
    ¬∀ (s : String) (a : Address), 2 ≤ (trimChars s.toList).count ':' →
      (trimChars s.toList).head? ≠ some '[' →
      (parse s = .ok a ↔ ∃ x, IPv6.Spells (trimChars s.toList) x ∧ a = ⟨.ip (.v6 x), 53⟩) := by
  intro hall
  let port : Address := ⟨.ip (.v6 ⟨[0x2001, 0xdb8, 0, 0, 0, 0, 0, 1], rfl⟩), 10053⟩
  have hread : parse "2001:db8::1:10053" = .ok port := by decide
  obtain ⟨x, _, hx⟩ := (hall "2001:db8::1:10053" port (by decide) (by decide)).1 hread
  have hfalse : (10053 : UInt16) = 53 := congrArg Address.port hx
  revert hfalse
  decide

end Address
end ResolverRace
