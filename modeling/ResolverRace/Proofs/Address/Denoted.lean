import Mathlib.Data.List.Basic
import ResolverRace.Proofs.Address.Canonical

/-!
# What the text of an address denotes

A text denotes an IP address or a hostname, and a port: read whole as a socket address, else whole
as an IP address, else as an IP address in brackets with or without a port, else as a host or as
host and port at the last colon. Two texts that are read as addresses give one address if they
denote one resolver, and only then.

* `Denotes` — what a text denotes, with `Denotes.unique`.
* `denotes_of_parse` — a text that is read denotes what it is read as.
* `eq_iff_sameResolver` — equality of addresses is identity of resolvers.
-/

namespace ResolverRace
open Text

/-- What a text names. -/
inductive Named where
  | literal (ip : IpAddress)
  | hostname (name : List Char)

namespace Named

/-- What the part of a text that stands for the host names. -/
def ofHost (host : List Char) : Named :=
  match IpAddress.parseChars? host with
  | some ip => .literal ip
  | none => .hostname host

/-- What a hostname is without one closing dot. -/
inductive Unrooted : List Char → List Char → Prop where
  | dot (name : List Char) : Unrooted (name ++ ['.']) name
  | bare {name : List Char} : name.getLast? ≠ some '.' → Unrooted name name

/-- One IP address, whatever it was written like, or hostnames that differ in the case of their
letters and in one closing dot at most. -/
inductive Same : Named → Named → Prop where
  | literal (ip : IpAddress) : Same (.literal ip) (.literal ip)
  | hostname {m n m' n' : List Char} : Unrooted m m' → Unrooted n n' →
      m'.map Char.toLower = n'.map Char.toLower → Same (.hostname m) (.hostname n)

theorem unrooted_iff {m n : List Char} : Unrooted m n ↔ Host.dropRootDot m = n := by
  constructor
  · rintro (_ | hlast)
    · simp [Host.dropRootDot]
    · rw [Host.dropRootDot]
      split
      · rename_i rest hreverse
        rw [List.getLast?_eq_head?_reverse, hreverse] at hlast
        exact absurd rfl hlast
      · rfl
  · rintro rfl
    rw [Host.dropRootDot]
    split
    · rename_i rest hreverse
      rw [List.reverse_eq_cons_iff.1 hreverse]
      exact .dot _
    · rename_i hreverse
      refine .bare fun hlast => ?_
      rw [List.getLast?_eq_head?_reverse] at hlast
      obtain ⟨rest, hrest⟩ := List.head?_eq_some_iff.1 hlast
      exact hreverse rest hrest

/-- The host of an address that is made of the name. -/
def host : Named → Host
  | .literal ip => .ip ip
  | .hostname name => .name (String.ofList (lowerChars (Host.dropRootDot name)))

theorem same_iff_host_eq {m n : Named} : m.Same n ↔ m.host = n.host := by
  constructor
  · rintro (_ | ⟨hm, hn, hlower⟩)
    · rfl
    · rw [host, host, unrooted_iff.1 hm, unrooted_iff.1 hn, lowerChars, lowerChars, hlower]
  · intro h
    cases m with
    | literal x =>
      cases n with
      | literal y =>
        cases h
        exact .literal x
      | hostname n => cases h
    | hostname m =>
      cases n with
      | literal y => cases h
      | hostname n =>
        have hlower := String.ofList_injective (Host.name.inj h)
        exact .hostname (unrooted_iff.2 rfl) (unrooted_iff.2 rfl) hlower

end Named

/-- What may follow an address in brackets: nothing, which means port 53, or a colon and a port. -/
inductive PortTail : List Char → Nat → Prop where
  | absent : PortTail [] 53
  | port {cs : List Char} {n : Nat} : Numeral cs n → PortTail (':' :: cs) n

/-- What a text denotes that is no literal as a whole: an address in brackets, a host, or a host and
a port. -/
inductive DenotesParts : List Char → Named → Nat → Prop where
  | bracketed {inner tail : List Char} {ip : IpAddress} {n : Nat} : ']' ∉ inner →
      IpAddress.parseChars? inner = some ip → PortTail tail n →
      DenotesParts ('[' :: (inner ++ ']' :: tail)) (.literal ip) n
  | host {cs : List Char} : cs.head? ≠ some '[' → ':' ∉ cs → DenotesParts cs (.ofHost cs) 53
  | hostPort {host port : List Char} {n : Nat} : (host ++ ':' :: port).head? ≠ some '[' →
      ':' ∉ port → Numeral port n → DenotesParts (host ++ ':' :: port) (.ofHost host) n

/-- What a trimmed text denotes, and the port. -/
inductive Denotes : List Char → Named → Nat → Prop where
  | socket {cs : List Char} {s : SocketAddress} : SocketAddress.parseChars? cs = some s →
      Denotes cs (.literal s.ip) s.port.toNat
  | literal {cs : List Char} {ip : IpAddress} : SocketAddress.parseChars? cs = none →
      IpAddress.parseChars? cs = some ip → Denotes cs (.literal ip) 53
  | parts {cs : List Char} {m : Named} {n : Nat} : SocketAddress.parseChars? cs = none →
      IpAddress.parseChars? cs = none → DenotesParts cs m n → Denotes cs m n

/-- The two texts, once trimmed, denote one resolver: the same port, and the same IP address or the
same hostname. -/
def SameResolver (s t : String) : Prop :=
  ∃ m n port, Denotes (trimChars s.toList) m port ∧ Denotes (trimChars t.toList) n port ∧ m.Same n

namespace Address

/-! ## What is read denotes what it is read as -/

theorem host_of_ofName {host : List Char} {h : Host} (hof : Host.ofName host = .ok h) :
    h = (Named.hostname host).host := by
  simp only [Host.ofName] at hof
  split at hof
  · cases hof
  · split at hof
    · cases hof
    · split at hof
      · cases hof
      · split at hof
        · cases hof
          rfl
        · cases hof

theorem host_of_parse {host : List Char} {h : Host} (hparse : Host.parse host = .ok h) :
    h = (Named.ofHost host).host := by
  rw [Host.parse] at hparse
  rw [Named.ofHost]
  cases hip : IpAddress.parseChars? host with
  | some ip =>
    rw [hip] at hparse
    cases hparse
    rfl
  | none =>
    rw [hip] at hparse
    exact host_of_ofName hparse

theorem make_eq_ok {host : List Char} {port : UInt16} {a : Address}
    (h : make host port = .ok a) : a = ⟨(Named.ofHost host).host, port⟩ := by
  rw [make] at h
  split at h
  · cases h
  · split at h
    · rename_i hparse
      cases h
      rw [host_of_parse hparse]
    · cases h

theorem numeral_of_parsePort {text port : List Char} {n : UInt16}
    (h : parsePort text port = .ok n) : Numeral port n.toNat := by
  rw [parsePort] at h
  split at h
  · cases h
  · cases h
  · rename_i m _ hparse
    cases h
    obtain ⟨hnumeral, hle⟩ := numeral_of_parseDecimal hparse
    have hm : (UInt16.ofNat m).toNat = m := UInt16.toNat_ofNat_of_lt (Nat.lt_succ_of_le hle)
    rwa [hm]

structure Fits (a : Address) (m : Named) (port : Nat) : Prop where
  host : a.host = m.host
  port : a.port.toNat = port

theorem fits_ofIp {ip : IpAddress} {port : UInt16} {a : Address} (h : ofIp ip port = .ok a) :
    a.Fits (.literal ip) port.toNat := by
  obtain ⟨_, rfl⟩ := ofIp_eq_ok h
  exact ⟨rfl, rfl⟩

theorem fits_make {host : List Char} {port : UInt16} {a : Address} (h : make host port = .ok a) :
    a.Fits (.ofHost host) port.toNat := by
  obtain rfl := make_eq_ok h
  exact ⟨rfl, rfl⟩

theorem denotesParts_of_parseBracketed {rest : List Char} {a : Address}
    (h : parseBracketed ('[' :: rest) rest = .ok a) :
    ∃ m port, DenotesParts ('[' :: rest) m port ∧ a.Fits m port := by
  rw [parseBracketed] at h
  split at h
  · cases h
  · rename_i inner c tail hspan
    obtain ⟨rfl, hnot⟩ := eq_append_of_span hspan
    split at h
    · cases h
    · rename_i ip hip
      split at h
      · exact ⟨_, _, .bracketed hnot hip .absent, fits_ofIp h⟩
      · split at h
        · rename_i port hport
          exact ⟨_, _, .bracketed hnot hip (.port (numeral_of_parsePort hport)), fits_ofIp h⟩
        · cases h
      · cases h

theorem denotes_of_parseCompact {cs : List Char} {a : Address} (h : parseCompact cs = .ok a) :
    ∃ m port, Denotes cs m port ∧ a.Fits m port := by
  rw [parseCompact.eq_def] at h
  split at h
  · rename_i s hsocket
    exact ⟨_, _, .socket hsocket, fits_ofIp h⟩
  · rename_i hsocket
    split at h
    · rename_i ip hip
      exact ⟨_, _, .literal hsocket hip, fits_ofIp h⟩
    · rename_i hip
      split at h
      · obtain ⟨m, port, hparts, hfits⟩ := denotesParts_of_parseBracketed h
        exact ⟨m, port, .parts hsocket hip hparts, hfits⟩
      · rename_i hbracket
        have hhead : cs.head? ≠ some '[' := by
          intro hsome
          obtain ⟨rest, hrest⟩ := List.head?_eq_some_iff.1 hsome
          exact hbracket rest hrest
        split at h
        · rename_i hcut
          have hcolon := not_mem_of_cutAtLast hcut
          exact ⟨_, _, .parts hsocket hip (.host hhead hcolon), fits_make h⟩
        · rename_i host port hcut
          obtain ⟨rfl, hport⟩ := cutAtLast_eq_some hcut
          split at h
          · rename_i n hn
            have hnumeral := numeral_of_parsePort hn
            exact ⟨_, _, .parts hsocket hip (.hostPort hhead hport hnumeral), fits_make h⟩
          · cases h

theorem denotes_of_parse {s : String} {a : Address} (h : parse s = .ok a) :
    ∃ m port, Denotes (trimChars s.toList) m port ∧ a.Fits m port :=
  denotes_of_parseCompact (parseCompact_of_parse h)

end Address

/-! ## A text denotes one resolver -/

theorem PortTail.unique {cs : List Char} {m n : Nat} (hm : PortTail cs m) (hn : PortTail cs n) :
    m = n := by
  cases hm with
  | absent =>
    cases hn
    rfl
  | port hm =>
    cases hn with
    | port hn => exact hm.unique hn

theorem DenotesParts.unique {cs cs' : List Char} {m m' : Named} {n n' : Nat}
    (h : DenotesParts cs m n) (h' : DenotesParts cs' m' n') (hcs : cs = cs') :
    m = m' ∧ n = n' := by
  cases h with
  | @bracketed inner tail ip n hnot hip htail =>
    cases h' with
    | @bracketed inner' tail' ip' n' hnot' hip' htail' =>
      -- The first closing bracket ends the address in both.
      have hspan := congrArg (List.span (· ≠ ']')) (List.cons.inj hcs).2
      rw [span_append hnot, span_append hnot'] at hspan
      cases hspan
      rw [hip] at hip'
      cases hip'
      exact ⟨rfl, htail.unique htail'⟩
    | host hhead => exact absurd (by rw [← hcs]; rfl) hhead
    | hostPort hhead => exact absurd (by rw [← hcs]; rfl) hhead
  | host hhead hcolon =>
    cases h' with
    | bracketed => exact absurd (by rw [hcs]; rfl) hhead
    | host =>
      rw [hcs]
      exact ⟨rfl, rfl⟩
    | hostPort =>
      rw [hcs] at hcolon
      exact absurd (List.mem_append_right _ (List.mem_cons_self ..)) hcolon
  | hostPort hhead hport hn =>
    cases h' with
    | bracketed => exact absurd (by rw [hcs]; rfl) hhead
    | host _ hcolon =>
      rw [← hcs] at hcolon
      exact absurd (List.mem_append_right _ (List.mem_cons_self ..)) hcolon
    | hostPort _ hport' hn' =>
      -- Neither port has a colon, so both cuts are at the last one.
      have hcut := congrArg (cutAtLast ':') hcs
      rw [cutAtLast_append hport, cutAtLast_append hport'] at hcut
      cases hcut
      exact ⟨rfl, hn.unique hn'⟩

theorem Denotes.unique {cs : List Char} {m m' : Named} {n n' : Nat} (h : Denotes cs m n)
    (h' : Denotes cs m' n') : m = m' ∧ n = n' := by
  cases h with
  | socket hs =>
    cases h' with
    | socket hs' =>
      rw [hs] at hs'
      cases hs'
      exact ⟨rfl, rfl⟩
    | literal hs' | parts hs' =>
      rw [hs] at hs'
      cases hs'
  | literal hs hip =>
    cases h' with
    | socket hs' =>
      rw [hs] at hs'
      cases hs'
    | literal _ hip' =>
      rw [hip] at hip'
      cases hip'
      exact ⟨rfl, rfl⟩
    | parts _ hip' =>
      rw [hip] at hip'
      cases hip'
  | parts hs hip hparts =>
    cases h' with
    | socket hs' =>
      rw [hs] at hs'
      cases hs'
    | literal _ hip' =>
      rw [hip] at hip'
      cases hip'
    | parts _ _ hparts' => exact hparts.unique hparts' rfl

namespace Address

/-- Addresses are equal if what they were read of denotes one resolver, and only then; they are
told apart by the texts of their hosts and by their ports, and a hostname is never an IP address. -/
theorem eq_iff_sameResolver {s t : String} {a b : Address} (hs : parse s = .ok a)
    (ht : parse t = .ok b) :
    (a = b ↔ SameResolver s t) ∧ (a = b ↔ a.host.text = b.host.text ∧ a.port = b.port) ∧
      ∀ name p ip q, Denotes (trimChars s.toList) (.hostname name) p →
        Denotes (trimChars t.toList) (.literal ip) q → a.host.text ≠ b.host.text := by
  obtain ⟨m, p, hm, ha⟩ := denotes_of_parse hs
  obtain ⟨n, q, hn, hb⟩ := denotes_of_parse ht
  refine ⟨⟨?_, ?_⟩, eq_iff_text_eq (parse_proper hs) (parse_proper ht), ?_⟩
  · rintro rfl
    have hport : p = q := ha.port.symm.trans hb.port
    refine ⟨m, n, q, hport ▸ hm, hn, Named.same_iff_host_eq.2 ?_⟩
    rw [← ha.host, ← hb.host]
  -- What the texts denote is what they were read as, since they denote nothing else.
  · rintro ⟨m', n', port, hm', hn', hsame⟩
    obtain ⟨rfl, rfl⟩ := hm.unique hm'
    obtain ⟨rfl, hport⟩ := hn.unique hn'
    have hhost : a.host = b.host := by
      rw [ha.host, hb.host, Named.same_iff_host_eq.1 hsame]
    have hports : a.port = b.port := UInt16.toNat_inj.1 (by rw [ha.port, hb.port, hport])
    calc a = ⟨a.host, a.port⟩ := rfl
      _ = ⟨b.host, b.port⟩ := by rw [hhost, hports]
  · intro name p' ip q' hname hip htext
    obtain ⟨rfl, _⟩ := hm.unique hname
    obtain ⟨rfl, _⟩ := hn.unique hip
    have hhost := Host.text_injective (parse_proper hs).checked (parse_proper ht).checked htext
    rw [ha.host, hb.host] at hhost
    cases hhost

theorem sameResolver_scoped_and_rooted :
    SameResolver "[2001:DB8:0::1%7]:0053" " 2001:db8::1 " ∧
      SameResolver "NS.example.:+053" "ns.example" ∧ ¬ SameResolver "1.2.3.4:54" "[1.2.3.4]" := by
  let literal : Address := ⟨.ip (.v6 ⟨[0x2001, 0xdb8, 0, 0, 0, 0, 0, 1], rfl⟩), 53⟩
  let name : Address := ⟨.name "ns.example", 53⟩
  have hscoped : parse "[2001:DB8:0::1%7]:0053" = .ok literal := by decide
  have hblanks : parse " 2001:db8::1 " = .ok literal := by decide
  have hrooted : parse "NS.example.:+053" = .ok name := by decide
  have hname : parse "ns.example" = .ok name := by decide
  have hport : parse "1.2.3.4:54" = .ok ⟨.ip (.v4 ⟨1, 2, 3, 4⟩), 54⟩ := by decide
  have hbare : parse "[1.2.3.4]" = .ok ⟨.ip (.v4 ⟨1, 2, 3, 4⟩), 53⟩ := by decide
  refine ⟨(eq_iff_sameResolver hscoped hblanks).1.1 rfl,
    (eq_iff_sameResolver hrooted hname).1.1 rfl, fun hsame => ?_⟩
  have heq := (eq_iff_sameResolver hport hbare).1.2 hsame
  have hne : (54 : UInt16) ≠ 53 := by decide
  exact hne (congrArg Address.port heq)

end Address
end ResolverRace
