import ResolverRace.Address.Parser
import ResolverRace.Proofs.Ip.Text
import ResolverRace.Proofs.Text.Blank
import ResolverRace.Proofs.Text.Lower

/-!
# Resolver addresses are read as they are written

Every address that was read of some text is `Proper`: its port is not zero, and a hostname is in
lower case and is none of an IP literal. The text of a proper address is read back as the address.

* `parse_proper` — what is read is proper.
* `parse_text` — the text of a proper address is read back.
-/

namespace ResolverRace
open Text

/-- What a hostname is like once it was checked. -/
structure Host.IsName (cs : List Char) : Prop where
  short : byteLength cs ≤ maxLength
  labels : (splitAtEach '.' cs).all isLabel = true
  notQuad : (splitAtEach '.' cs).all isNumeric = false
  lower : lowerChars cs = cs

/-- What an address is like once it was read. -/
structure Address.Proper (a : Address) : Prop where
  port : a.port ≠ 0
  name : ∀ text, a.host = .name text → Host.IsName text.toList

namespace Host

/-! ## What is read is proper -/

theorem ofName_isName {host : List Char} {h : Host} (hof : ofName host = .ok h) :
    ∃ text, h = .name text ∧ IsName text.toList := by
  simp only [ofName] at hof
  split at hof
  · cases hof
  · split at hof
    · cases hof
    · rename_i hshort
      split at hof
      · cases hof
      · rename_i hquad
        split at hof
        · rename_i hlabels
          cases hof
          refine ⟨_, rfl, ?_⟩
          rw [String.toList_ofList]
          refine ⟨?_, ?_, ?_, lowerChars_idem _⟩
          · rw [byteLength_lowerChars]
            exact Nat.le_of_not_lt hshort
          · rw [splitAtEach_lowerChars, List.all_map, ← hlabels]
            exact congrArg (List.all _) (funext isLabel_lowerChars)
          · rw [splitAtEach_lowerChars, List.all_map, ← Bool.eq_false_iff.2 hquad]
            exact congrArg (List.all _) (funext isNumeric_lowerChars)
        · cases hof

theorem parse_isName {host : List Char} {h : Host} (hparse : parse host = .ok h) :
    ∀ text, h = .name text → IsName text.toList := by
  intro text htext
  rw [parse] at hparse
  split at hparse
  · cases hparse
    cases htext
  · obtain ⟨text', htext', hname⟩ := ofName_isName hparse
    rw [htext] at htext'
    cases htext'
    exact hname

end Host

namespace Address

theorem ofIp_eq_ok {ip : IpAddress} {port : UInt16} {a : Address} (h : ofIp ip port = .ok a) :
    port ≠ 0 ∧ a = ⟨.ip ip, port⟩ := by
  rw [ofIp] at h
  split at h
  · cases h
  · rename_i hport
    cases h
    exact ⟨hport, rfl⟩

theorem ofIp_proper {ip : IpAddress} {port : UInt16} {a : Address} (h : ofIp ip port = .ok a) :
    a.Proper := by
  obtain ⟨hport, rfl⟩ := ofIp_eq_ok h
  exact ⟨hport, fun _ hname => by cases hname⟩

theorem make_proper {host : List Char} {port : UInt16} {a : Address}
    (h : make host port = .ok a) : a.Proper := by
  rw [make] at h
  split at h
  · cases h
  · rename_i hport
    split at h
    · rename_i hparse
      cases h
      exact ⟨hport, Host.parse_isName hparse⟩
    · cases h

theorem parseBracketed_proper {text rest : List Char} {a : Address}
    (h : parseBracketed text rest = .ok a) : a.Proper := by
  rw [parseBracketed] at h
  split at h
  · cases h
  · split at h
    · cases h
    · split at h
      · exact ofIp_proper h
      · split at h
        · exact ofIp_proper h
        · cases h
      · cases h

theorem parseCompact_proper {text : List Char} {a : Address} (h : parseCompact text = .ok a) :
    a.Proper := by
  rw [parseCompact.eq_def] at h
  split at h
  · exact ofIp_proper h
  · split at h
    · exact ofIp_proper h
    · split at h
      · exact parseBracketed_proper h
      · split at h
        · exact make_proper h
        · split at h
          · exact make_proper h
          · cases h

/-- What is read as an address is read so once it is trimmed. -/
theorem parseCompact_of_parse {s : String} {a : Address} (h : parse s = .ok a) :
    parseCompact (trimChars s.toList) = .ok a := by
  rw [parse, parseTrimmed] at h
  split at h
  · cases h
  · split at h
    · cases h
    · split at h
      · cases h
      · split at h
        · cases h
        · exact h

/-- Whatever was read is proper. -/
theorem parse_proper {s : String} {a : Address} (h : parse s = .ok a) : a.Proper :=
  parseCompact_proper (parseCompact_of_parse h)

end Address

/-! ## The characters of addresses -/

namespace Text

/-- A character that no text of an address is refused for. -/
def isPlain (c : Char) : Bool := !isBlank c && c != '/'

theorem isBlank_of_isPlain {c : Char} (h : isPlain c = true) : isBlank c = false := by
  simp only [isPlain, Bool.and_eq_true, Bool.not_eq_true'] at h
  exact h.1

theorem isBlank_eq_false {c : Char} (hlow : 0x21 ≤ c.toNat) (hhigh : c.toNat ≤ 0x7e) :
    isBlank c = false := by
  simp only [isBlank, Bool.or_eq_false_iff, Bool.and_eq_false_iff, decide_eq_false_iff_not,
    beq_eq_false_iff_ne]
  omega

theorem isPlain_of_isDigitOf {c : Char} (h : isDigitOf 16 c = true) : isPlain c = true := by
  have hslash : c ≠ '/' := by
    rintro rfl
    cases h
  have hrange : 0x30 ≤ c.toNat ∧ c.toNat ≤ 0x66 := by
    simp only [isDigitOf, digitValue?] at h
    split at h
    · grind
    · cases h
  simp [isPlain, hslash, isBlank_eq_false (Nat.le_trans (by decide) hrange.1)
    (Nat.le_trans hrange.2 (by decide))]

theorem isPlain_of_isLabelChar {c : Char} (h : Host.isLabelChar c = true) : isPlain c = true := by
  have hslash : c ≠ '/' := by
    rintro rfl
    cases h
  have hrange : 0x2d ≤ c.toNat ∧ c.toNat ≤ 0x7a := by
    by_cases hhyphen : c = '-'
    · rw [hhyphen]
      decide
    · by_cases hunderscore : c = '_'
      · rw [hunderscore]
        decide
      · rw [Host.isLabelChar] at h
        delta Char.isAlphanum Char.isAlpha Char.isUpper Char.isLower Char.isDigit at h
        simp only [UInt32.le_iff_toNat_le, ge_iff_le, Char.reduceVal, UInt32.reduceToNat,
          Char.toNat_val, hhyphen, hunderscore] at h
        grind
  simp [isPlain, hslash, isBlank_eq_false (Nat.le_trans (by decide) hrange.1)
    (Nat.le_trans hrange.2 (by decide))]

theorem isPlain_decimal (n : Nat) : ∀ c ∈ decimal n, isPlain c = true := by
  intro c hc
  have h10 : isDigitOf 10 c = true := isDigitOf_of_mem_toDigits (by decide) (by decide) c hc
  exact isPlain_of_isDigitOf (isDigitOf_sixteen h10)

end Text

namespace IPv4

theorem isPlain_chars (x : IPv4) : ∀ c ∈ x.chars, isPlain c = true := by
  have hdot : isPlain '.' = true := by decide
  intro c hc
  simp only [chars, List.mem_append, List.mem_cons, or_assoc] at hc
  rcases hc with hc | rfl | hc | rfl | hc | rfl | hc
  · exact isPlain_decimal _ c hc
  · exact hdot
  · exact isPlain_decimal _ c hc
  · exact hdot
  · exact isPlain_decimal _ c hc
  · exact hdot
  · exact isPlain_decimal _ c hc

end IPv4

namespace IPv6

section

variable {dotted : Bool} {cs : List Char} {gs : List UInt16} {x : IPv6}

theorem isPlain_of_groups (h : Groups dotted cs gs) : ∀ c ∈ cs, isPlain c = true := by
  induction h with
  | last hgroup => exact fun c hc => isPlain_of_isDigitOf (hgroup.isDigit c hc)
  | quad x => exact x.isPlain_chars
  | cons hgroup _ ih =>
    intro c hc
    rcases List.mem_append.1 hc with hc | hc
    · exact isPlain_of_isDigitOf (hgroup.isDigit c hc)
    · rcases List.mem_cons.1 hc with rfl | hc
      · decide
      · exact ih c hc

theorem isPlain_of_side (h : Side dotted cs gs) : ∀ c ∈ cs, isPlain c = true := by
  cases h with
  | nothing => exact fun c hc => nomatch hc
  | groups h => exact isPlain_of_groups h

theorem isPlain_of_spells (h : Spells cs x) : ∀ c ∈ cs, isPlain c = true := by
  cases h with
  | full hgroups => exact isPlain_of_groups hgroups
  | short hleft hright =>
    intro c hc
    simp only [List.mem_append, List.mem_cons] at hc
    rcases hc with hc | rfl | rfl | hc
    · exact isPlain_of_side hleft c hc
    · decide
    · decide
    · exact isPlain_of_side hright c hc

theorem isPlain_chars (x : IPv6) : ∀ c ∈ x.chars, isPlain c = true :=
  isPlain_of_spells x.spells_chars

end

end IPv6

theorem SocketAddress.isPlain_chars (s : SocketAddress) : ∀ c ∈ s.chars, isPlain c = true := by
  obtain ⟨ip, port⟩ := s
  intro c hc
  cases ip with
  | v4 x =>
    simp only [chars, List.mem_append, List.mem_cons] at hc
    rcases hc with hc | rfl | hc
    · exact x.isPlain_chars c hc
    · decide
    · exact isPlain_decimal _ c hc
  | v6 x =>
    simp only [chars, List.cons_append, List.mem_cons, List.mem_append] at hc
    rcases hc with rfl | hc | rfl | rfl | hc
    · decide
    · exact x.isPlain_chars c hc
    · decide
    · decide
    · exact isPlain_decimal _ c hc

namespace Address

/-- None of the refusals is met. -/
theorem parseTrimmed_of_plain {cs : List Char} (hne : cs ≠ []) (h : ∀ c ∈ cs, isPlain c = true) :
    parseTrimmed cs = parseCompact cs := by
  have hslash : '/' ∉ cs := by
    intro hmem
    have hfalse := h '/' hmem
    cases hfalse
  have hany : cs.any isBlank = false := by
    rw [List.any_eq_false]
    intro c hc
    simp [isBlank_of_isPlain (h c hc)]
  have hempty : cs.isEmpty = false := List.isEmpty_eq_false_iff.2 hne
  have hurl : occursIn "://".toList cs = false :=
    occursIn_eq_false (c := '/') (by decide) hslash
  have hpath : cs.contains '/' = false := by simpa using hslash
  simp only [parseTrimmed, hempty, hany, hurl, hpath, Bool.false_eq_true, ↓reduceIte]

theorem parse_ofList {cs : List Char} (hne : cs ≠ []) (h : ∀ c ∈ cs, isPlain c = true) :
    parse (String.ofList cs) = parseCompact cs := by
  rw [parse, String.toList_ofList, trimChars_eq fun c hc => isBlank_of_isPlain (h c hc),
    parseTrimmed_of_plain hne h]

theorem toList_text_ip (ip : IpAddress) (port : UInt16) :
    (⟨.ip ip, port⟩ : Address).text = String.ofList (SocketAddress.chars ⟨ip, port⟩) := by
  apply String.toList_inj.1
  cases ip with
  | v4 x => simp [text, SocketAddress.chars, Host.text, IpAddress.text, IpAddress.chars]
  | v6 x => simp [text, SocketAddress.chars]

theorem parse_text_ip {ip : IpAddress} {port : UInt16} (hport : port ≠ 0) :
    parse (⟨.ip ip, port⟩ : Address).text = .ok ⟨.ip ip, port⟩ := by
  have hne : SocketAddress.chars ⟨ip, port⟩ ≠ [] := by
    cases ip <;> simp [SocketAddress.chars]
  rw [toList_text_ip, parse_ofList hne (SocketAddress.isPlain_chars _), parseCompact.eq_def,
    SocketAddress.parseChars?_chars]
  simp [ofIp, hport]

end Address

namespace Host

section

variable {cs : List Char}

/-- Labels with dots between have the characters of labels, and dots. -/
theorem mem_of_labels (h : (splitAtEach '.' cs).all isLabel = true) :
    ∀ c ∈ cs, isLabelChar c = true ∨ c = '.' := by
  intro c hc
  have hpieces : c = '.' ∨ ∃ label ∈ splitAtEach '.' cs, c ∈ label := mem_splitAtEach hc
  rcases hpieces with hdot | ⟨label, hlabel, hin⟩
  · exact .inr hdot
  · refine .inl ?_
    have hgood := List.all_eq_true.1 h label hlabel
    simp only [isLabel, Bool.and_eq_true] at hgood
    exact List.all_eq_true.1 hgood.1.1.2 c hin

theorem IsName.mem (h : IsName cs) : ∀ c ∈ cs, isLabelChar c = true ∨ c = '.' :=
  mem_of_labels h.labels

theorem IsName.isPlain (h : IsName cs) : ∀ c ∈ cs, isPlain c = true := by
  intro c hc
  rcases h.mem c hc with hlabel | rfl
  · exact isPlain_of_isLabelChar hlabel
  · decide

theorem IsName.not_mem (h : IsName cs) {c : Char} (hc : isLabelChar c = false) (hdot : c ≠ '.') :
    c ∉ cs := by
  intro hmem
  rcases h.mem c hmem with hlabel | hc'
  · rw [hc] at hlabel
    cases hlabel
  · exact hdot hc'

theorem not_isLabel_nil : isLabel [] = false := rfl

theorem IsName.ne_nil (h : IsName cs) : cs ≠ [] := by
  rintro rfl
  have hlabels := h.labels
  cases hlabels

theorem IsName.dropRootDot (h : IsName cs) : dropRootDot cs = cs := by
  rw [Host.dropRootDot]
  split
  · rename_i rest hreverse
    have hcs : cs = rest.reverse ++ ['.'] := List.reverse_eq_cons_iff.1 hreverse
    have hmem : [] ∈ splitAtEach '.' cs := by
      rw [hcs, splitAtEach_concat]
      exact List.mem_append_right _ (List.mem_singleton_self _)
    have hfalse := List.all_eq_true.1 h.labels [] hmem
    rw [not_isLabel_nil] at hfalse
    cases hfalse
  · rfl

theorem isDigit_of_isDigitOf {c : Char} (h : isDigitOf 10 c = true) : c.isDigit = true := by
  simp only [isDigitOf, digitValue?] at h
  simp only [Char.isDigit, UInt32.le_iff_toNat_le, ge_iff_le, Char.reduceVal, UInt32.reduceToNat,
    Char.toNat_val]
  split at h
  · grind
  · cases h

/-- In four runs of digits with dots between, all labels are numeric. -/
theorem ne_quad (h : (splitAtEach '.' cs).all isNumeric = false) {a b c d : List Char}
    (hruns : ∀ run ∈ [a, b, c, d], run ≠ [] ∧ ∀ c ∈ run, isDigitOf 10 c = true) :
    cs ≠ a ++ '.' :: (b ++ '.' :: (c ++ '.' :: d)) := by
  intro hcs
  have hnumeric : ∀ run ∈ [a, b, c, d], isNumeric run = true ∧ '.' ∉ run := by
    intro run hrun
    obtain ⟨hne, hdigits⟩ := hruns run hrun
    refine ⟨?_, ?_⟩
    · simp only [isNumeric, Bool.and_eq_true, List.all_eq_true, Bool.not_eq_true',
        List.isEmpty_eq_false_iff]
      exact ⟨hne, fun c hc => isDigit_of_isDigitOf (hdigits c hc)⟩
    · intro hdot
      have hfalse := hdigits '.' hdot
      cases hfalse
  have hsplit : splitAtEach '.' cs = [a, b, c, d] := by
    rw [hcs, splitAtEach_append (hnumeric a (by simp)).2,
      splitAtEach_append (hnumeric b (by simp)).2, splitAtEach_append (hnumeric c (by simp)).2,
      splitAtEach_eq_singleton (hnumeric d (by simp)).2]
  rw [hsplit, List.all_eq_false] at h
  obtain ⟨run, hrun, hnot⟩ := h
  exact hnot (hnumeric run hrun).1

theorem IsName.colon_not_mem (h : IsName cs) : ':' ∉ cs := h.not_mem (by decide) (by decide)

/-- A text without colons with a label that is not numeric is no IP literal. -/
theorem parseChars?_eq_none (h : (splitAtEach '.' cs).all isNumeric = false) (hcolon : ':' ∉ cs) :
    IpAddress.parseChars? cs = none := by
  rw [IpAddress.parseChars?.eq_def]
  split
  · rename_i x hread
    obtain ⟨a, b, c, d, hcs, hruns⟩ := IPv4.exists_of_read hread
    rw [List.append_nil] at hcs
    exact absurd hcs (ne_quad h hruns)
  · split
    · rename_i x hread
      have hcount := IPv6.two_le_count_of_read hread
      rw [List.count_eq_zero.2 hcolon] at hcount
      cases hcount
    · rfl

/-- A hostname is no IP literal. -/
theorem IsName.parseChars?_eq_none (h : IsName cs) : IpAddress.parseChars? cs = none :=
  Host.parseChars?_eq_none h.notQuad h.colon_not_mem

/-- A hostname is read as the host it is. -/
theorem IsName.parse (h : IsName cs) : Host.parse cs = .ok (.name (String.ofList cs)) := by
  have hempty : cs.isEmpty = false := List.isEmpty_eq_false_iff.2 h.ne_nil
  rw [Host.parse, h.parseChars?_eq_none]
  simp only [ofName, h.dropRootDot, hempty, h.notQuad, h.labels, h.lower, Nat.not_lt.2 h.short,
    Bool.false_eq_true, ↓reduceIte]

end

end Host

namespace Address

theorem colon_not_mem_decimal (n : Nat) : ':' ∉ decimal n := by
  intro hmem
  have hfalse : isDigitOf 10 ':' = true :=
    isDigitOf_of_mem_toDigits (by decide) (by decide) ':' hmem
  cases hfalse

theorem parsePort_decimal (text : List Char) {port : UInt16} (h : port ≠ 0) :
    parsePort text (decimal port.toNat) = .ok port := by
  have hle : port.toNat ≤ 65535 := Nat.le_of_lt_succ port.toNat_lt
  have hpos : port.toNat ≠ 0 := fun h0 => h (UInt16.toNat_inj.1 h0)
  rw [parsePort, parseDecimal_decimal hle]
  cases hn : port.toNat with
  | zero => exact absurd hn hpos
  | succ n =>
    simp only
    rw [← hn, UInt16.ofNat_toNat]

section

variable {cs : List Char} (port : UInt16)

theorem count_colon (h : Host.IsName cs) : (cs ++ ':' :: decimal port.toNat).count ':' = 1 := by
  rw [List.count_append, List.count_eq_zero.2 h.colon_not_mem, List.count_cons_self,
    List.count_eq_zero.2 (colon_not_mem_decimal _)]

/-- A hostname with a port is no IP literal. -/
theorem ip_parseChars?_eq_none (h : Host.IsName cs) :
    IpAddress.parseChars? (cs ++ ':' :: decimal port.toNat) = none := by
  rw [IpAddress.parseChars?.eq_def]
  split
  · rename_i x hread
    have hcolon : ':' ∈ cs ++ ':' :: decimal port.toNat :=
      List.mem_append_right _ (List.mem_cons_self ..)
    exact absurd hcolon (IPv4.not_mem_of_read hread (by decide) (by decide))
  · split
    · rename_i x hread
      have hcount := IPv6.two_le_count_of_read hread
      rw [count_colon port h] at hcount
      exact absurd hcount (by decide)
    · rfl

/-- A hostname with a port is no socket address. -/
theorem socket_parseChars?_eq_none (h : Host.IsName cs) :
    SocketAddress.parseChars? (cs ++ ':' :: decimal port.toNat) = none := by
  have hv4 : SocketAddress.parseV4? (cs ++ ':' :: decimal port.toNat) = none := by
    rw [Option.eq_none_iff_forall_ne_some]
    intro socket hsocket
    simp only [SocketAddress.parseV4?, SocketAddress.readPort, Option.bind_eq_bind,
      Option.bind_eq_some_iff, Prod.exists] at hsocket
    obtain ⟨x, rest, hread, _, ⟨after, hafter, _⟩, _⟩ := hsocket
    obtain ⟨a, b, c, d, htext, hruns⟩ := IPv4.exists_of_read hread
    rw [eq_of_dropChar hafter] at htext
    -- The first colon ends both the hostname and the quad.
    have hquad : ':' ∉ a ++ '.' :: (b ++ '.' :: (c ++ '.' :: d)) :=
      IPv4.not_mem_quad hruns (by decide) (by decide)
    have hshape : cs ++ ':' :: decimal port.toNat =
        (a ++ '.' :: (b ++ '.' :: (c ++ '.' :: d))) ++ ':' :: after := by
      rw [htext]
      simp
    have hsplit := congrArg (splitAtEach ':') hshape
    rw [splitAtEach_append h.colon_not_mem, splitAtEach_append hquad] at hsplit
    exact Host.ne_quad h.notQuad hruns (List.cons.inj hsplit).1
  have hv6 : SocketAddress.parseV6? (cs ++ ':' :: decimal port.toNat) = none := by
    cases hcs : cs with
    | nil => exact absurd hcs h.ne_nil
    | cons c rest =>
      have hc : c ≠ '[' := by
        rintro rfl
        have hmem : '[' ∈ cs := by
          rw [hcs]
          exact List.mem_cons_self ..
        exact h.not_mem (by decide) (by decide) hmem
      simp [SocketAddress.parseV6?, dropChar, hc]
  rw [SocketAddress.parseChars?, hv4, hv6]
  rfl

theorem parse_text_name (h : Host.IsName cs) (hport : port ≠ 0) :
    parse (⟨.name (String.ofList cs), port⟩ : Address).text =
      .ok ⟨.name (String.ofList cs), port⟩ := by
  have htext : (⟨.name (String.ofList cs), port⟩ : Address).text =
      String.ofList (cs ++ ':' :: decimal port.toNat) := by
    apply String.toList_inj.1
    simp [text, Host.text]
  have hplain : ∀ c ∈ cs ++ ':' :: decimal port.toNat, isPlain c = true := by
    intro c hc
    rcases List.mem_append.1 hc with hc | hc
    · exact h.isPlain c hc
    · rcases List.mem_cons.1 hc with rfl | hc
      · decide
      · exact isPlain_decimal _ c hc
  rw [htext, parse_ofList (by simp) hplain, parseCompact.eq_def, socket_parseChars?_eq_none port h,
    ip_parseChars?_eq_none port h]
  simp only [cutAtLast_append (colon_not_mem_decimal port.toNat)]
  split
  · rename_i rest hbracket
    have hmem : '[' ∈ cs := by
      cases hcs : cs with
      | nil => exact absurd hcs h.ne_nil
      | cons c tail =>
        rw [hcs, List.cons_append] at hbracket
        rw [(List.cons.inj hbracket).1]
        exact List.mem_cons_self ..
    exact absurd hmem (h.not_mem (by decide) (by decide))
  · simp only [parsePort_decimal _ hport, make, if_neg hport, h.parse]

end

/-- The text of a proper address is read back as the address. -/
theorem parse_text {a : Address} (h : a.Proper) : parse a.text = .ok a := by
  obtain ⟨host, port⟩ := a
  cases host with
  | ip ip => exact parse_text_ip h.port
  | name text =>
    have hname := parse_text_name port (h.name text rfl) h.port
    rwa [String.ofList_toList] at hname

theorem parse?_text {a : Address} (h : a.Proper) : parse? a.text = some a := by
  rw [parse?, parse_text h]
  rfl

theorem filterMap_parse?_text {as : List Address} (h : ∀ a ∈ as, a.Proper) :
    (as.map text).filterMap parse? = as := by
  induction as with
  | nil => rfl
  | cons a as ih =>
    have ha : parse? a.text = some a := parse?_text (h a (List.mem_cons_self ..))
    have has := ih fun b hb => h b (List.mem_cons_of_mem _ hb)
    rw [List.map_cons, List.filterMap_cons, ha, has]

theorem proper_of_parse? {s : String} {a : Address} (h : parse? s = some a) : a.Proper := by
  rw [parse?] at h
  cases hs : parse s with
  | error e => rw [hs] at h; cases h
  | ok b => rw [hs] at h; cases h; exact parse_proper hs

end Address
end ResolverRace
