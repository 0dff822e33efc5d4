import ResolverRace.Proofs.Pool.Places
import ResolverRace.Proofs.Service.Arranged
import ResolverRace.Proofs.Service.Restart
import ResolverRace.Proofs.Session.History
import ResolverRace.Proofs.Session.Invariant

/-!
# Reports are honoured

As long as no access to the store fails, the newest outcome decides who comes first or last in every
race that is started before the next outcome, whatever is done with lists and sources and however
often the service is made anew. After a success the resolver is promoted when a race starts; after a
failure it is last in the live pool, and last of the demoted ones, who go to the back of every pool
that is made.

* `Service.Steady` — the services over a store that never fails.
* `Service.Since` — what comes of a service after a report, up to the next outcome.
* `Standing.Heeds`, `Service.Heeds` — the invariant, on what is remembered and on the live pool.
* `report_honoured` — who comes first or last in a race that is started.
-/

namespace ResolverRace

namespace Address

/-- The ways to come by an address: of a text, of a host and a port, or of a socket. -/
inductive Made (a : Address) : Prop where
  | read {text : String} : parse text = .ok a → Made a
  | checked {host : List Char} {port : UInt16} : make host port = .ok a → Made a
  | socket (s : SocketAddress) : a = ofSocket s → Made a

/-- The text of an address is not that of another one. That of a socket with port zero is read as no
address at all. -/
theorem Made.eq_of_parse? {a b : Address} (h : a.Made) (hb : parse? a.text = some b) : b = a := by
  have hproper (ha : a.Proper) : b = a := by
    rw [parse?_text ha] at hb
    exact (Option.some.inj hb).symm
  cases h with
  | read h => exact hproper (parse_proper h)
  | checked h => exact hproper (make_proper h)
  | socket s h =>
    subst h
    by_cases hport : s.port = 0
    · have hne : SocketAddress.chars s ≠ [] := by
        obtain ⟨ip, port⟩ := s
        cases ip <;> simp [SocketAddress.chars]
      rw [parse?, ofSocket, toList_text_ip, parse_ofList hne (SocketAddress.isPlain_chars _),
        parseCompact.eq_def, SocketAddress.parseChars?_chars] at hb
      simp [ofIp, hport, Except.toOption] at hb
    · exact hproper ⟨hport, fun _ hname => by cases hname⟩

end Address

/-! ## What an outcome asks of a pool and of the memory -/

/-- The resolver comes first after a success and last after a failure. -/
def Verdict.Orders (v : Verdict) (candidates : List Candidate) : Prop :=
  match v with
  | .worked a => (candidates.map (·.address)).head? = some a
  | .failed a => (candidates.map (·.address)).getLast? = some a

/-- If the resolver is in the pool, the outcome orders it. -/
def Pool.Heeds (v : Verdict) (p : Pool) : Prop :=
  v.address ∈ p.addresses → v.Orders p.candidates

/-- What has to be remembered of an outcome: after a success who won, after a failure that nobody
failed later, and that this is not who won. -/
def Standing.Heeds (v : Verdict) (t : Standing) : Prop :=
  match v with
  | .worked a => t.last = some a
  | .failed a => t.last ≠ some a ∧ t.demoted.getLast? = some a

theorem Standing.Heeds.apply {t : Standing} {v : Verdict} (h : t.Heeds v) (p : Pool) :
    (t.apply p).Heeds v := by
  cases v with
  | worked a => exact t.starts_apply h p
  | failed a => exact t.ends_apply h.1 h.2 p

namespace Service

/-- The outcome that an operation records: one that is reported, or the winner of a race that ends. -/
def recorded? (probe : Probe) (s : Service) : Operation → Option Verdict
  | .notify a true => some (.worked a)
  | .notify a false => some (.failed a)
  | .advance span =>
    (s.session.advance probe span).2.report.bind fun report =>
      report.outcome.winner?.map fun winner => .worked winner.address
  | .wait =>
    (s.session.wait probe).2.1.report.bind fun report =>
      report.outcome.winner?.map fun winner => .worked winner.address
  | _ => none

/-- The report of an outcome. -/
def report (s : Service) : Verdict → Service
  | .worked a => (s.notify a true).1
  | .failed a => (s.notify a false).1

/-- A service over a store that never fails, whatever stood in the store and whatever was done. -/
inductive Steady : Service → Prop where
  | create {settings : Settings} {store : Store} {chance : Random.Stream} {s : Service} :
      store.Reliable → create settings store chance = .ok s → Steady s
  | serve {s : Service} (probe : Probe) (o : Operation) : Steady s →
      (∀ a worked, o = .notify a worked → a.Made) → Steady (s.serve probe o)

/-- What comes of a service after the report of an outcome, as long as no other outcome is recorded.
It may be made anew, under other settings too, of a store in which the same is read. -/
inductive Since (v : Verdict) : Service → Prop where
  | report {s : Service} : Steady s → (∃ text, Address.parse text = .ok v.address) →
      Since v (s.report v)
  | serve {s : Service} (probe : Probe) (o : Operation) : Since v s →
      s.recorded? probe o = none → Since v (s.serve probe o)
  | restart {s s' : Service} (settings : Settings) {store : Store} (chance : Random.Stream) :
      Since v s → store.Reliable → (∀ key, store.get key = s.store.get key) →
      create settings store chance = .ok s' → Since v s'

section

variable {s s' : Service} {v : Verdict} {probe : Probe} {o : Operation}

/-! ## Before the report -/

/-- No address but that of the last winner is read where the store keeps it, and whoever can win is
read of a text. -/
structure Grounded (s : Service) : Prop where
  live : s.Live
  reliable : s.store.Reliable
  last : ∀ b, (s.store.values.get? Store.lastKey).bind Address.parse? = some b →
    s.standing.last = some b
  session : s.session.Only (·.address.Proper)

theorem grounded_of_create {settings : Settings} {store : Store} {chance : Random.Stream}
    (hs : store.Reliable) (h : create settings store chance = .ok s) : s.Grounded := by
  obtain ⟨_, hsession, hstore, hload, _, _⟩ := create_cases h
  have hlast := ((Standing.load_iff hs.readable).1 hload).1
  refine ⟨live_of_create h, hstore ▸ hs, fun b hb => ?_, hsession ▸ Session.idle_only⟩
  rw [hstore] at hb
  exact hlast.symm.trans hb

theorem last_recordSuccess {a : Address} (ha : a.Made) (t : Tracked) (hs : t.store.Reliable) :
    ∀ b, ((t.recordSuccess a).1.store.values.get? Store.lastKey).bind Address.parse? = some b →
      (t.recordSuccess a).1.standing.last = some b := by
  intro b hb
  have hvalue : (t.recordSuccess a).1.store.values.get? Store.lastKey = some a.text :=
    t.standing.last_recordSuccess hs.takes a
  rw [hvalue] at hb
  have hstanding : (t.recordSuccess a).1.standing = t.standing.succeeded a :=
    t.standing.recordSuccess_fst t.store a
  rw [hstanding, ha.eq_of_parse? hb]
  rfl

theorem reliable_recordSuccess (t : Tracked) (a : Address) (hs : t.store.Reliable) :
    (t.recordSuccess a).1.store.Reliable := by
  obtain ⟨changes, hstore, _⟩ := t.standing.recordSuccess_changes a
  exact (show (t.recordSuccess a).1.store = _ from hstore t.store) ▸ hs.changeAll changes

theorem reliable_recordFailure (t : Tracked) (a : Address) (hs : t.store.Reliable) :
    (t.recordFailure a).1.store.Reliable := by
  obtain ⟨changes, hstore, _⟩ := t.standing.recordFailure_changes a
  exact (show (t.recordFailure a).1.store = _ from hstore t.store) ▸ hs.changeAll changes

theorem Grounded.notify (h : s.Grounded) {a : Address} (ha : a.Made) (worked : Bool) :
    (s.notify a worked).1.Grounded := by
  have hlive := h.live.notify a worked
  cases worked with
  | true =>
    exact ⟨hlive, reliable_recordSuccess s.toTracked a h.reliable,
      last_recordSuccess ha s.toTracked h.reliable, h.session⟩
  | false =>
    refine ⟨hlive, reliable_recordFailure s.toTracked a h.reliable, fun b hb => ?_, h.session⟩
    have hvalue : (s.notify a false).1.store.values.get? Store.lastKey = _ :=
      s.standing.last_recordFailure h.reliable.takes a
    rw [hvalue] at hb
    show (s.standing.failed a).last = some b
    rw [Standing.failed]
    split at hb
    · cases hb
    · rename_i hlast
      rw [if_neg hlast]
      exact h.last b hb

theorem Grounded.settle (h : s.Grounded) {session : Session} {news : News}
    (hsession : session.Only (·.address.Proper)) (hnews : news.Only (·.address.Proper)) :
    ({ s with toTracked := s.toTracked.settle session news } : Service).Grounded := by
  have hlive : ({ s with toTracked := s.toTracked.settle session news } : Service).Live :=
    h.live.frame rfl rfl (.refl _)
  rw [Tracked.settle, Tracked.recordWinner] at hlive ⊢
  split at hlive
  · rename_i winner hwinner
    have hmade : winner.address.Made := .read (Address.parse_text (hnews winner hwinner))
    exact ⟨hlive, reliable_recordSuccess s.toTracked _ h.reliable,
      last_recordSuccess hmade s.toTracked h.reliable, hsession⟩
  · exact ⟨hlive, h.reliable, h.last, hsession⟩

theorem Grounded.serve (h : s.Grounded) (ho : ∀ a worked, o = .notify a worked → a.Made) :
    (s.serve probe o).Grounded := by
  have hlive := h.live.serve probe o
  cases harranges : o.arranges with
  | true =>
    have ha := arranges_serve probe s harranges
    refine ⟨hlive, ha.reliable h.reliable, fun b hb => ?_, ha.session ▸ h.session⟩
    rw [ha.value_eq (by decide)] at hb
    rw [ha.standing]
    exact h.last b hb
  | false =>
    cases o with
    | reload | selectSource | upsertList | removeList | addEntry | removeEntry | preview =>
      cases harranges
    | notify a worked => exact h.notify (ho a worked rfl) worked
    | start params =>
      have hproper : ∀ c ∈ s.favoured.candidates, c.address.Proper :=
        fun c hc => h.live.proper c (s.favoured_perm.subset hc)
      simp only [Service.serve, Service.start] at hlive ⊢
      split at hlive
      · rename_i session hstart
        exact ⟨hlive, h.reliable, h.last, h.session.start hproper hstart⟩
      · exact ⟨hlive, h.reliable, h.last, h.session⟩
    | cancel => exact ⟨hlive, h.reliable, h.last, h.session.cancel⟩
    | acknowledge => exact ⟨hlive, h.reliable, h.last, h.session.acknowledge⟩
    | advance span => exact h.settle (h.session.advance span).1 (h.session.advance span).2
    | wait => exact h.settle h.session.wait.1 h.session.wait.2

theorem Steady.grounded (h : Steady s) : s.Grounded := by
  induction h with
  | create hs hcreate => exact grounded_of_create hs hcreate
  | serve probe o _ ho ih => exact ih.serve ho

/-! ## After the report -/

/-- The outcome is remembered, and stored so that it will be; after a failure the resolver is last in
the live pool. -/
structure Heeds (v : Verdict) (s : Service) : Prop where
  reliable : s.store.Reliable
  standing : s.standing.Heeds v
  stored : ∀ t, Standing.load s.store = .ok t → t.Heeds v
  pool : ∀ a, v = .failed a → s.pool.Ends a

theorem Grounded.report (h : s.Grounded) (hv : ∃ text, Address.parse text = .ok v.address) :
    (s.report v).Heeds v := by
  obtain ⟨text, hv⟩ := hv
  have hproper : v.address.Proper := Address.parse_proper hv
  have hreliable : (s.report v).store.Reliable := by
    cases v with
    | worked a => exact reliable_recordSuccess s.toTracked a h.reliable
    | failed a => exact reliable_recordFailure s.toTracked a h.reliable
  refine ⟨hreliable, ?_, fun t ht => ?_, ?_⟩
  · cases v with
    | worked a =>
      have hstanding : (s.report (.worked a)).standing = s.standing.succeeded a :=
        s.standing.recordSuccess_fst s.store a
      rw [hstanding]
      rfl
    | failed a =>
      refine ⟨?_, List.getLast?_concat ..⟩
      show (if s.standing.last = some a then none else s.standing.last) ≠ some a
      split
      · simp
      · assumption
  · obtain ⟨hlast, hdemoted⟩ := (Standing.load_iff hreliable.readable).1 ht
    cases v with
    | worked a =>
      have hvalue : (s.report (.worked a)).store.values.get? Store.lastKey = some a.text :=
        s.standing.last_recordSuccess h.reliable.takes a
      rw [Standing.LastStored, hvalue] at hlast
      exact hlast.symm.trans (Address.parse?_text hproper)
    | failed a =>
      have hvalue : (s.report (.failed a)).store.values.get? Store.lastKey = _ :=
        s.standing.last_recordFailure h.reliable.takes a
      have hvalue' : (s.report (.failed a)).store.values.get? Store.demotedKey = _ :=
        s.standing.demoted_recordFailure h.reliable.takes a
      rw [Standing.LastStored, hvalue] at hlast
      rw [Standing.DemotedStored, hvalue', Standing.demotedOf?, Standing.decode?_encode] at hdemoted
      refine ⟨fun hne => ?_, ?_⟩
      · rw [hne] at hlast
        split at hlast
        · cases hlast
        · rename_i hnot
          exact hnot (h.last a hlast)
      · -- The newest failure is read back as the last one, whatever is left out before it.
        have hread : Address.parse? a.text = some a := Address.parse?_text hproper
        rw [← Option.some.inj hdemoted]
        simp [Standing.failed, hread]
  · rintro a rfl
    exact Pool.ends_demote s.pool a

theorem Pooled.ends {t : Standing} {p q : Pool} {a : Address} (h : Pooled t p q)
    (ht : t.Heeds (.failed a)) (hp : p.Ends a) : q.Ends a := by
  cases h with
  | kept => exact hp
  | emptied => exact Pool.ends_empty a
  | made hmade =>
    obtain ⟨r, _, rfl, _⟩ := makePool_cases hmade
    exact ht.apply r

theorem Arranges.heeds (ha : s.Arranges s') (h : s.Heeds v) : s'.Heeds v := by
  have hreliable := ha.reliable h.reliable
  refine ⟨hreliable, ha.standing ▸ h.standing, fun t ht => h.stored t ?_, ?_⟩
  · rw [Standing.load_iff hreliable.readable] at ht
    refine (Standing.load_iff h.reliable.readable).2 ⟨?_, ?_⟩
    · exact ht.1.congr rfl (ha.value_eq (by decide)).symm
    · exact ht.2.congr rfl (ha.value_eq (by decide)).symm
  · rintro a rfl
    exact ha.pool.ends h.standing (h.pool a rfl)

theorem heeds_of_create {settings : Settings} {store : Store} {chance : Random.Stream}
    (h : s.Heeds v) (hs : store.Reliable) (hsame : ∀ key, store.get key = s.store.get key)
    (hcreate : create settings store chance = .ok s') : s'.Heeds v := by
  obtain ⟨_, _, hstore, hload, _, hpool⟩ := create_cases hcreate
  have hloads : ∀ t, Standing.load store = .ok t → t.Heeds v := by
    intro t ht
    rw [Standing.load_congr hsame] at ht
    exact h.stored t ht
  have hstanding : s'.standing.Heeds v := hloads _ hload
  refine ⟨hstore ▸ hs, hstanding, hstore ▸ hloads, ?_⟩
  rintro a rfl
  obtain ⟨p, _, hp, _⟩ := makePool_cases hpool
  rw [hp]
  exact hstanding.apply p

/-- A race that starts is given the pool in the order of the outcome. -/
theorem heeds_favoured (h : s.Heeds v) : s.favoured.Heeds v := by
  have hstanding := h.standing
  cases v with
  | worked a =>
    rw [favoured, show s.standing.last = some a from hstanding]
    exact s.pool.starts_promote a
  | failed a =>
    have hends : s.pool.Ends a := h.pool a rfl
    rw [favoured]
    split
    · rename_i b hb
      exact hends.promote fun he => hstanding.1 (hb.trans (congrArg some he))
    · exact hends

theorem Heeds.start (h : s.Heeds v) (probe : Probe) (params : Params) :
    (s.start probe params).1.Heeds v := by
  have hpool : ∀ a, v = .failed a → s.favoured.Ends a := by
    rintro a rfl
    exact heeds_favoured h
  rw [Service.start]
  dsimp only
  split <;> exact ⟨h.reliable, h.standing, h.stored, hpool⟩

theorem Heeds.settle (h : s.Heeds v) {session : Session} {news : News}
    (hnews : news.report.bind (·.outcome.winner?) = none) :
    ({ s with toTracked := s.toTracked.settle session news } : Service).Heeds v := by
  rw [Tracked.settle, Tracked.recordWinner, hnews]
  exact ⟨h.reliable, h.standing, h.stored, h.pool⟩

theorem winner?_of_recorded {report : Option Report}
    (h : (report.bind fun report =>
      report.outcome.winner?.map fun winner => Verdict.worked winner.address) = none) :
    report.bind (·.outcome.winner?) = none := by
  cases report with
  | none => rfl
  | some report => exact Option.map_eq_none_iff.1 h

theorem Heeds.serve (h : s.Heeds v) (hnone : s.recorded? probe o = none) :
    (s.serve probe o).Heeds v := by
  cases harranges : o.arranges with
  | true => exact (arranges_serve probe s harranges).heeds h
  | false =>
    cases o with
    | reload | selectSource | upsertList | removeList | addEntry | removeEntry | preview =>
      cases harranges
    | notify a worked => cases worked <;> cases hnone
    | start params => exact h.start probe params
    | cancel => exact ⟨h.reliable, h.standing, h.stored, h.pool⟩
    | acknowledge => exact ⟨h.reliable, h.standing, h.stored, h.pool⟩
    | advance span => exact h.settle (winner?_of_recorded hnone)
    | wait => exact h.settle (winner?_of_recorded hnone)

theorem Since.heeds (h : Since v s) : s.Heeds v := by
  induction h with
  | report hs hv => exact hs.grounded.report hv
  | serve probe o _ hnone ih => exact ih.serve hnone
  | restart settings chance _ hs hsame hcreate ih => exact heeds_of_create ih hs hsame hcreate

/-- If no race is under way, a race starts among the candidates of the live pool. -/
theorem start_begins (hphase : s.phase ≠ .racing) (probe : Probe) (params : Params) :
    (s.start probe params).2 = .ok () ∧
      (s.start probe params).1.session.tasks = s.session.tasks ++
        [.begin probe params s.favoured.candidates s.session.now s.phase] := by
  have hinactive : ¬s.session.phase.isActive = true := fun hactive =>
    hphase ((Session.isActive_iff _).1 hactive)
  refine ⟨?_, ?_⟩
  · simp only [start, Session.start, if_neg hinactive]
  · simp only [start, Session.start, if_neg hinactive]
    rfl

end

/-- A race that is started after the report of an outcome, and before the next outcome is recorded,
tests the candidates of the live pool, and if the resolver is one of them, it comes first after a
success and last after a failure. -/
theorem report_honoured {v : Verdict} {s : Service} (h : Since v s)
    (hin : v.address ∈ s.pool.addresses) (hphase : s.phase ≠ .racing) (probe : Probe)
    (params : Params) :
    ∃ candidates, (s.start probe params).2 = .ok () ∧
      (s.start probe params).1.session.tasks =
        s.session.tasks ++ [.begin probe params candidates s.session.now s.phase] ∧
      candidates.Perm s.pool.candidates ∧ v.Orders candidates := by
  have hin' : v.address ∈ s.favoured.addresses :=
    (Pool.mem_addresses_of_perm s.favoured_perm).2 hin
  obtain ⟨hok, htasks⟩ := start_begins hphase probe params
  exact ⟨s.favoured.candidates, hok, htasks, s.favoured_perm, heeds_favoured h.heeds hin'⟩

/-- A resolver fails, the selected list is edited, and the service is made anew. -/
theorem report_honoured_after_restart :
    let settings : Settings := { Settings.default with
      selection := { Selection.default with source := .custom "home" }
      lists := [⟨"home", "Home", ["one", "two", "three"]⟩] }
    let store : Store := .inMemory .empty .empty
    let chance : Random.Stream := ⟨fun _ => 0, 0⟩
    let two : Address := ⟨.name "two", 53⟩
    let probe : Probe := fun _ _ _ => ⟨none, .failure ""⟩
    let edit : Operation := .addEntry "home" "four" chance
    ∃ s s', create settings store chance = .ok s ∧
      create settings ((s.report (.failed two)).serve probe edit).store chance = .ok s' ∧
      two ∈ s'.pool.addresses ∧ s'.phase ≠ .racing ∧
      ∃ candidates, (s'.start probe .default).2 = .ok () ∧
        (s'.start probe .default).1.session.tasks =
          s'.session.tasks ++ [.begin probe .default candidates s'.session.now s'.phase] ∧
        candidates.Perm s'.pool.candidates ∧ (Verdict.failed two).Orders candidates := by
  intro settings store chance two probe edit
  have hreliable : store.Reliable := Store.inMemory_reliable .empty .empty
  obtain ⟨s, hs⟩ : ∃ s, create settings store chance = .ok s := ⟨_, rfl⟩
  have hreported : Since (.failed two) (s.report (.failed two)) :=
    .report (.create hreliable hs) ⟨"two", rfl⟩
  have hedited : Since (.failed two) ((s.report (.failed two)).serve probe edit) :=
    .serve probe edit hreported rfl
  have hrun : (create settings store chance).toOption.bind (fun s =>
      (create settings ((s.report (.failed two)).serve probe edit).store chance).toOption.map
        fun s' => (s'.pool.addresses, s'.phase)) =
      some ([⟨.name "one", 53⟩, ⟨.name "three", 53⟩, ⟨.name "four", 53⟩, two], .idle) := by
    simp only [settings, store, chance, two, probe, edit]
    decide +kernel
  rw [hs] at hrun
  cases hs' : create settings ((s.report (.failed two)).serve probe edit).store chance with
  | error e =>
    simp only [Except.toOption, Option.bind_some, hs'] at hrun
    cases hrun
  | ok s' =>
    simp only [Except.toOption, Option.bind_some, hs'] at hrun
    obtain ⟨haddresses, hidle⟩ := Prod.mk.inj (Option.some.inj hrun)
    have hin : two ∈ s'.pool.addresses := by
      rw [haddresses]
      simp
    have hphase : s'.phase ≠ .racing := by
      rw [hidle]
      decide
    have hrestarted : Since (.failed two) s' :=
      .restart settings chance hedited hedited.heeds.reliable (fun _ => rfl) hs'
    exact ⟨s, s', hs, hs', hin, hphase, report_honoured hrestarted hin hphase probe .default⟩

end Service
end ResolverRace
