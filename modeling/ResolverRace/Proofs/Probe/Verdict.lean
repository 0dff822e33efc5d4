import Mathlib.Logic.Relation
import ResolverRace.Probe.Udp

/-!
# Which datagram decides

Waiting for the response to a query, a probe passes over every datagram that is not one, and the
first one that is decides. So datagrams of the former kind may come and go without any effect, and
so may whatever follows the one that decides.

* `Waiting.Reply`, `Waiting.Stray` — the two kinds of datagrams; `first_reply_or_strays`.
* `verdict?_skip`, `await_reply`, `await_strays` — what a sequence of datagrams comes to.
* `Waiting.Altered` — one change to what comes of a query; `await_altered`, `await_alterations`.
* `Surroundings.probe_decided` — all this for a probe that sends its query.
-/

namespace ResolverRace
namespace Udp
namespace Waiting

section

variable {w : Waiting} {d : Datagram} {m : Dns.Message} {x y : Exchange}

/-- The datagram comes in time and reads as a response to the query. -/
structure Reply (w : Waiting) (d : Datagram) (m : Dns.Message) : Prop where
  inTime : w.spent + d.after ≤ w.budget
  decoded : w.decode (d.bytes.take maxDatagram) = some m
  isResponse : m.isResponse = true
  id_eq : m.id = w.id

/-- The datagram is none that the query is waiting for. -/
inductive Stray (w : Waiting) (d : Datagram) : Prop where
  | late (h : w.budget < w.spent + d.after)
  | malformed (h : w.decode (d.bytes.take maxDatagram) = none)
  | query (m : Dns.Message) (h : w.decode (d.bytes.take maxDatagram) = some m)
    (hquery : m.isResponse = false)
  | foreign (m : Dns.Message) (h : w.decode (d.bytes.take maxDatagram) = some m)
    (hid : m.id ≠ w.id)

theorem reply_or_stray (w : Waiting) (d : Datagram) : (∃ m, w.Reply d m) ∨ w.Stray d := by
  by_cases htime : w.spent + d.after ≤ w.budget
  · cases hdecoded : w.decode (d.bytes.take maxDatagram) with
    | none => exact .inr (.malformed hdecoded)
    | some m =>
      cases hresponse : m.isResponse with
      | false => exact .inr (.query m hdecoded hresponse)
      | true =>
        by_cases hid : m.id = w.id
        · exact .inl ⟨m, htime, hdecoded, hresponse, hid⟩
        · exact .inr (.foreign m hdecoded hid)
  · exact .inr (.late (Nat.lt_of_not_le htime))

/-- Among datagrams there is a first reply, or all of them are strays. -/
theorem first_reply_or_strays (w : Waiting) (datagrams : List Datagram) :
    (∃ front d m back, datagrams = front ++ d :: back ∧ (∀ e ∈ front, w.Stray e) ∧ w.Reply d m) ∨
      ∀ d ∈ datagrams, w.Stray d := by
  induction datagrams with
  | nil => exact .inr (by simp)
  | cons d ds ih =>
    rcases w.reply_or_stray d with ⟨m, hreply⟩ | hstray
    · exact .inl ⟨[], d, m, ds, rfl, by simp, hreply⟩
    · rcases ih with ⟨front, e, m, back, rfl, hfront, hreply⟩ | hstrays
      · exact .inl ⟨d :: front, e, m, back, rfl, List.forall_mem_cons.2 ⟨hstray, hfront⟩, hreply⟩
      · exact .inr (List.forall_mem_cons.2 ⟨hstray, hstrays⟩)

/-! ## Sequences of datagrams -/

/-- The datagrams that come in time. -/
def received (w : Waiting) (datagrams : List Datagram) : List Datagram :=
  datagrams.filter (w.inTime ·.after)

theorem judge?_reply (h : w.Reply d m) : w.judge? d = some (judge m.code d.after) := by
  simp [judge?, h.decoded, h.id_eq, h.isResponse]

theorem received_append (w : Waiting) (front back : List Datagram) :
    w.received (front ++ back) = w.received front ++ w.received back := List.filter_append ..

-- A late stray may read as a response, so this is said of what is received.
theorem judge?_stray (h : w.Stray d) : ∀ e ∈ w.received [d], w.judge? e = none := by
  intro e he
  obtain ⟨hmem, htime⟩ := List.mem_filter.1 he
  cases List.mem_singleton.1 hmem
  cases h with
  | late hlate =>
    simp only [inTime, decide_eq_true_eq] at htime
    exact absurd htime (Nat.not_le_of_lt hlate)
  | malformed hdecoded => simp [judge?, hdecoded]
  | query m hdecoded hquery => simp [judge?, hdecoded, hquery]
  | foreign m hdecoded hid => simp [judge?, hdecoded, hid]

theorem received_reply (h : w.Reply d m) (ds : List Datagram) :
    w.received (d :: ds) = d :: w.received ds := by
  have htime : w.inTime d.after = true := by simpa [inTime] using h.inTime
  simp [received, htime]

theorem verdict?_skip {front : List Datagram} (h : ∀ e ∈ front, w.judge? e = none)
    (back : List Datagram) : w.verdict? (front ++ back) = w.verdict? back := by
  induction front with
  | nil => rfl
  | cons e es ih =>
    obtain ⟨he, hes⟩ := List.forall_mem_cons.1 h
    simp [verdict?, he, ih hes]

/-- What is behind makes a difference only if nothing in front decides. -/
theorem verdict?_congr {back back' : List Datagram} (h : w.verdict? back = w.verdict? back')
    (front : List Datagram) : w.verdict? (front ++ back) = w.verdict? (front ++ back') := by
  induction front with
  | nil => exact h
  | cons e es ih =>
    simp only [List.cons_append, verdict?]
    cases w.judge? e with
    | none => exact ih
    | some response => rfl

theorem verdict?_received_stray (h : w.Stray d) (front back : List Datagram) :
    w.verdict? (w.received (front ++ d :: back)) = w.verdict? (w.received (front ++ back)) := by
  have hskip : w.verdict? (w.received (d :: back)) = w.verdict? (w.received back) := by
    rw [← List.singleton_append, received_append]
    exact verdict?_skip (judge?_stray h) _
  rw [received_append, received_append]
  exact verdict?_congr hskip _

theorem verdict?_received_strays {front : List Datagram} (h : ∀ e ∈ front, w.Stray e)
    (back : List Datagram) :
    w.verdict? (w.received (front ++ back)) = w.verdict? (w.received back) := by
  induction front with
  | nil => rfl
  | cons e es ih =>
    obtain ⟨he, hes⟩ := List.forall_mem_cons.1 h
    exact (verdict?_received_stray he [] (es ++ back)).trans (ih hes)

theorem verdict?_received_reply (h : w.Reply d m) (back : List Datagram) :
    w.verdict? (w.received (d :: back)) = some (d.after, judge m.code d.after) := by
  rw [received_reply h, verdict?, judge?_reply h]

/-! ## What comes of a query -/

theorem await_replies (w : Waiting) (datagrams : List Datagram) (breakdown : Option Breakdown) :
    w.await (.replies datagrams breakdown) =
      match w.verdict? (w.received datagrams) with
      | some (after, response) => ⟨some (w.spent + after), response⟩
      | none => w.giveUp breakdown := rfl

theorem await_reply {front : List Datagram} (hfront : ∀ e ∈ front, w.Stray e) (h : w.Reply d m)
    (back : List Datagram) (breakdown : Option Breakdown) :
    w.await (.replies (front ++ d :: back) breakdown) =
      ⟨some (w.spent + d.after), judge m.code d.after⟩ := by
  rw [await_replies, verdict?_received_strays hfront, verdict?_received_reply h]

theorem await_strays {datagrams : List Datagram} (h : ∀ d ∈ datagrams, w.Stray d)
    (breakdown : Option Breakdown) :
    w.await (.replies datagrams breakdown) = w.giveUp breakdown := by
  have hnone := verdict?_received_strays h []
  rw [List.append_nil] at hnone
  rw [await_replies, hnone]
  rfl

/-- One change to what comes of a query: a stray more, a stray less, or anything else in the place
of what follows a reply. -/
inductive Altered (w : Waiting) : Exchange → Exchange → Prop where
  | inserted {d : Datagram} (front back : List Datagram) (breakdown : Option Breakdown)
    (h : w.Stray d) :
    Altered w (.replies (front ++ back) breakdown) (.replies (front ++ d :: back) breakdown)
  | removed {d : Datagram} (front back : List Datagram) (breakdown : Option Breakdown)
    (h : w.Stray d) :
    Altered w (.replies (front ++ d :: back) breakdown) (.replies (front ++ back) breakdown)
  | continued {d : Datagram} {m : Dns.Message} (front back back' : List Datagram)
    (breakdown breakdown' : Option Breakdown) (h : w.Reply d m) :
    Altered w (.replies (front ++ d :: back) breakdown) (.replies (front ++ d :: back') breakdown')

theorem await_continued (h : w.Reply d m) (front back back' : List Datagram)
    (breakdown breakdown' : Option Breakdown) :
    w.await (.replies (front ++ d :: back) breakdown) =
      w.await (.replies (front ++ d :: back') breakdown') := by
  -- Either something in front of the reply decides already, or the reply does.
  rcases w.first_reply_or_strays front with ⟨first, e, n, rest, rfl, hfirst, hreply⟩ | hstrays
  · simp only [List.append_assoc, List.cons_append]
    rw [await_reply hfirst hreply, await_reply hfirst hreply]
  · rw [await_reply hstrays h, await_reply hstrays h]

theorem await_altered (h : w.Altered x y) : w.await x = w.await y := by
  cases h with
  | inserted front back breakdown hstray =>
    rw [await_replies, await_replies, verdict?_received_stray hstray]
  | removed front back breakdown hstray =>
    rw [await_replies, await_replies, verdict?_received_stray hstray]
  | continued front back back' breakdown breakdown' hreply => exact await_continued hreply ..

theorem await_alterations (h : Relation.ReflTransGen w.Altered x y) : w.await x = w.await y := by
  induction h with
  | refl => rfl
  | tail _ halter ih => exact ih.trans (await_altered halter)

end

end Waiting

theorem refusal?_eq_none_iff {code : Nat} : refusal? code = none ↔ code ≠ 2 ∧ code ≠ 5 := by
  unfold refusal?
  split <;> simp_all

theorem isSuccess_judge (code : Nat) (after : Duration) :
    (judge code after).isSuccess = true ↔ code ≠ 2 ∧ code ≠ 5 := by
  rw [← refusal?_eq_none_iff, judge]
  cases refusal? code <;> simp [Response.isSuccess]

theorem Surroundings.probe_eq {s : Surroundings} {label : UInt32} {id : UInt16} {a : Address}
    {tunnel : Tunnel} {budget spent : Duration} {target : SocketAddress} {query : List UInt8}
    (htarget : resolve s.names a = (spent, .ok target)) (hspent : spent ≤ budget)
    (hquery : Dns.query tunnel.domain label id = .ok query) :
    s.probe label id a tunnel budget =
      (⟨s.decode, id, budget, spent⟩ : Waiting).await (s.network target query) := by
  rw [probe, htarget, hquery]
  simp [Nat.not_lt.2 hspent]

/-- A probe that sends its query answers by the first datagram in time that is a response to it, with
success unless the response is SERVFAIL (2) or REFUSED (5). If all datagrams are strays and nothing
fails, there is no response. Strays that are added or left out, and whatever follows the datagram
that decides, do not change the answer. -/
theorem Surroundings.probe_decided {s : Surroundings} {label : UInt32} {id : UInt16} {a : Address}
    {tunnel : Tunnel} {budget spent : Duration} {target : SocketAddress} {query : List UInt8}
    (htarget : resolve s.names a = (spent, .ok target)) (hspent : spent ≤ budget)
    (hquery : Dns.query tunnel.domain label id = .ok query) :
    let w : Waiting := ⟨s.decode, id, budget, spent⟩
    let answer := s.probe label id a tunnel budget
    (∀ datagrams : List Datagram,
      (∃ front d m back,
        datagrams = front ++ d :: back ∧ (∀ e ∈ front, w.Stray e) ∧ w.Reply d m) ∨
        ∀ d ∈ datagrams, w.Stray d) ∧
      (∀ front d m back breakdown,
        s.network target query = .replies (front ++ d :: back) breakdown →
        (∀ e ∈ front, w.Stray e) → w.Reply d m →
        answer = ⟨some (spent + d.after), judge m.code d.after⟩ ∧
          (answer.response.isSuccess = true ↔ m.code ≠ 2 ∧ m.code ≠ 5)) ∧
      (∀ datagrams, s.network target query = .replies datagrams none →
        (∀ d ∈ datagrams, w.Stray d) →
        answer = ⟨some budget, .failure s!"no response within {wholeMillis budget}ms"⟩) ∧
      ∀ network : Network,
        Relation.ReflTransGen w.Altered (s.network target query) (network target query) →
        { s with network := network }.probe label id a tunnel budget = answer := by
  intro w answer
  have hanswer : answer = w.await (s.network target query) := probe_eq htarget hspent hquery
  refine ⟨w.first_reply_or_strays, ?_, ?_, ?_⟩
  · intro front d m back breakdown hnetwork hfront hreply
    have hdecided : answer = ⟨some (spent + d.after), judge m.code d.after⟩ := by
      rw [hanswer, hnetwork]
      exact Waiting.await_reply hfront hreply back breakdown
    refine ⟨hdecided, ?_⟩
    rw [hdecided]
    exact isSuccess_judge m.code d.after
  · intro datagrams hnetwork hstrays
    rw [hanswer, hnetwork]
    exact Waiting.await_strays hstrays none
  · intro network haltered
    have halso : { s with network := network }.probe label id a tunnel budget =
        w.await (network target query) := probe_eq htarget hspent hquery
    rw [halso, hanswer]
    exact (Waiting.await_alterations haltered).symm

/-- The host is looked up first. Bytes that are no message, the query itself and a refusal of
another query come before the response that there is no such name, a refusal and an error behind
it. All this counts for nothing. -/
theorem Surroundings.probe_decided_among_strays :
    let address : Address := ⟨.name "dns.example", 53⟩
    let tunnel : Tunnel := ⟨"t.io", ""⟩
    let query : List UInt8 :=
      [0x12, 0x34, 1, 0, 0, 1, 0, 0, 0, 0, 0, 0, 8, 48, 48, 48, 48, 48, 48, 48, 55, 1, 116, 2, 105,
        111, 0, 0, 16, 0, 1]
    let target : SocketAddress := ⟨.v4 ⟨9, 9, 9, 9⟩, 53⟩
    let message (low flags code : UInt8) : List UInt8 :=
      [0x12, low, flags, code, 0, 0, 0, 0, 0, 0, 0, 0]
    let junk : Datagram := ⟨5000, [0x12, 0x34]⟩
    let echo : Datagram := ⟨6000, message 0x34 0x01 0x00⟩
    let foreign : Datagram := ⟨7000, message 0x35 0x81 0x85⟩
    let reply : Datagram := ⟨20000, message 0x34 0x81 0x83⟩
    let refusal : Datagram := ⟨21000, message 0x34 0x81 0x85⟩
    let quiet : Network := fun _ _ => .replies [reply]
    let failure : Option Breakdown := some ⟨30000, "Connection refused"⟩
    let noisy : Network := fun _ _ => .replies [junk, echo, foreign, reply, refusal] failure
    let s : Surroundings := ⟨Dns.Message.decode?, fun _ _ => ⟨2000, .ok [target]⟩, noisy⟩
    let probe (s : Surroundings) := s.probe 7 0x1234 address tunnel (millis 100)
    resolve s.names address = (2000, .ok target) ∧ 2000 ≤ millis 100 ∧
      Dns.query tunnel.domain 7 0x1234 = .ok query ∧
      probe s = ⟨some 22000, .success 20000⟩ ∧ probe { s with network := quiet } = probe s := by
  intro address tunnel query target message junk echo foreign reply refusal quiet failure noisy s probe
  have htarget : resolve s.names address = (2000, .ok target) := rfl
  have hspent : 2000 ≤ millis 100 := by decide
  have hquery : Dns.query tunnel.domain 7 0x1234 = .ok query := by
    simp only [tunnel, query]
    rfl
  obtain ⟨-, hdecided, -, haltered⟩ := Surroundings.probe_decided (s := s) htarget hspent hquery
  let w : Waiting := ⟨Dns.Message.decode?, 0x1234, millis 100, 2000⟩
  have hjunk : w.Stray junk := .malformed (by decide)
  have hecho : w.Stray echo := .query ⟨0x1234, false, 0⟩ (by decide) rfl
  have hforeign : w.Stray foreign := .foreign ⟨0x1235, true, 5⟩ (by decide) (by decide)
  have hreply : w.Reply reply ⟨0x1234, true, 3⟩ := ⟨by decide, by decide, rfl, rfl⟩
  have hstrays : ∀ e ∈ [junk, echo, foreign], w.Stray e := by simp [hjunk, hecho, hforeign]
  refine ⟨htarget, hspent, hquery, ?_, ?_⟩
  · obtain ⟨hanswer, -⟩ := hdecided [junk, echo, foreign] reply _ [refusal] failure rfl hstrays hreply
    exact hanswer.trans (by decide)
  · refine haltered quiet (.head (.removed [] [echo, foreign, reply, refusal] failure hjunk) ?_)
    refine .head (.removed [] [foreign, reply, refusal] failure hecho) ?_
    refine .head (.removed [] [reply, refusal] failure hforeign) ?_
    exact .single (.continued [] [refusal] [] failure none hreply)

end Udp
end ResolverRace
