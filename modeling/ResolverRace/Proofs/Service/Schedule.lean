import ResolverRace.Proofs.Service.Arranged
import ResolverRace.Proofs.Service.Calls
import ResolverRace.Proofs.Session.Moves
import ResolverRace.Service.Schedule

/-!
# What schedules do

Moves go on with the races of a session. What is done aside starts a race, takes note of the end of
one, or leaves the session as it is; during a race it does nothing but the last, for a start is
refused and there is no end to take note of.

* `session_move`, `session_aside`, `racing_aside` — the session after an act.
* `Scheduled.sound` — what holds of every session on the way.
* `purged_append`, `exists_prefix_of_purged` — schedules without what is done aside, part by part.
-/

namespace ResolverRace
namespace Service

section

variable {probe : Probe} {s t : Service} {n : Nat} {a : Act} {acts : List Act}

/-! ## Moves and what is done aside -/

theorem Act.move_or_aside (a : Act) : (∃ m, a = .move m) ∨ a.isMove = false := by
  cases a with
  | move m => exact .inl ⟨m, rfl⟩
  | ask | begin | meddle => exact .inr rfl

theorem session_move (s : Service) (m : Session.Move) :
    (s.move probe m).session = s.session.move probe m := by
  cases m with
  | work n =>
    simp only [move, Session.move, Tracked.work]
    cases s.session.work probe n <;> rfl
  | deliver | pass | cancel | collect => rfl

theorem session_aside (s : Service) (h : a.isMove = false) :
    (s.act probe a).session = s.session ∨
      (s.act probe a).session = s.session.acknowledge.1 ∨
      ∃ params candidates,
        s.session.start probe params candidates = .ok (s.act probe a).session := by
  cases a with
  | move => cases h
  | meddle => exact .inl rfl
  | begin params candidates =>
    simp only [act]
    cases hstart : s.session.start probe params candidates with
    | ok session => exact .inr (.inr ⟨params, candidates, hstart⟩)
    | error e => exact .inl rfl
  | ask o haside =>
    cases harranges : o.arranges with
    | true => exact .inl (arranges_serve probe s harranges).session
    | false =>
      cases o with
      | reload | selectSource | upsertList | removeList | addEntry | removeEntry | preview =>
        cases harranges
      | cancel | advance | wait => cases haside
      | notify address worked => exact .inl (by cases worked <;> rfl)
      | acknowledge => exact .inr (.inl rfl)
      | start params =>
        simp only [act, serve, start]
        split
        · rename_i session hstart
          exact .inr (.inr ⟨params, _, hstart⟩)
        · exact .inl rfl

/-- During a race nothing that is done aside touches the session. -/
theorem racing_aside (hr : s.Racing n) (h : a.isMove = false) :
    (s.act probe a).session = s.session := by
  rcases session_aside s h with hsame | hsame | ⟨_, _, hstart⟩
  · exact hsame
  · rcases s.session.acknowledge_cases with ⟨hterminal, _⟩ | ⟨_, ha⟩
    · rw [hr.1] at hterminal
      cases hterminal
    · rw [hsame, ha]
  · exact absurd hr.1 (Session.start_eq_ok hstart).1

theorem session_act (probe : Probe) (s : Service) (a : Act) :
    (s.act probe a).session = s.session ∨
      Session.Step probe s.session (s.act probe a).session := by
  rcases a.move_or_aside with ⟨m, rfl⟩ | haside
  · simp only [act, session_move]
    exact s.session.step_move probe m
  · rcases session_aside s haside with hsame | hsame | ⟨_, _, hstart⟩
    · exact .inl hsame
    · rw [hsame]
      exact .inr .acknowledge
    · exact .inr (.start hstart)

theorem sound_act (h : s.session.Sound probe) (a : Act) :
    (s.act probe a).session.Sound probe := by
  rcases session_act probe s a with hsame | hstep
  · rw [hsame]
    exact h
  · exact Session.step_sound h hstep

theorem sound_actAll (h : s.session.Sound probe) (acts : List Act) :
    (s.actAll probe acts).session.Sound probe := by
  induction acts generalizing s with
  | nil => exact h
  | cons a acts ih => exact ih (sound_act h a)

theorem Scheduled.sound (h : Scheduled probe s) : s.session.Sound probe := by
  induction h with
  | create h =>
    obtain ⟨_, hidle, _⟩ := create_cases h
    rw [hidle]
    exact Session.idle_sound probe
  | act a _ ih => exact sound_act ih a

theorem racing_iff (h : s.session.Sound probe) : s.Racing n ↔ s.session.token = some n :=
  ⟨fun hr => hr.2, fun hn => ⟨h.token_iff.1 (by rw [hn]; rfl), hn⟩⟩

theorem length_le_act (hs : s.session.Sound probe) (a : Act) :
    s.session.tasks.length ≤ (s.act probe a).session.tasks.length := by
  rcases session_act probe s a with hsame | hstep
  · rw [hsame]
  · rcases Session.step_tasks hs hstep with he | ⟨_, _, _, _, _, he⟩ | ⟨_, he⟩
    all_goals simp [he]

/-- A race that is no longer under way has a task that does not hold the session. -/
theorem ended_of_not_racing (h : s.session.Sound probe) (hlt : n < s.session.tasks.length)
    (hr : ¬s.Racing n) :
    s.session.token ≠ some n ∧
      ∃ task, s.session.tasks[n]? = some task ∧ task.duty.holdsSession = false := by
  have hn : s.session.token ≠ some n := fun hn => hr ((racing_iff h).2 hn)
  have htask : s.session.tasks[n]? = some s.session.tasks[n] := List.getElem?_eq_getElem hlt
  refine ⟨hn, _, htask, Bool.eq_false_iff.2 fun hd => hn (h.held n _ htask hd)⟩

/-! ## Schedules without what is done aside -/

theorem actAll_append (s : Service) (acts more : List Act) :
    s.actAll probe (acts ++ more) = (s.actAll probe acts).actAll probe more :=
  List.foldl_append

/-- What a schedule begins with is found in every other one that differs in what is done aside. -/
theorem exists_prefix_of_purged {first : List Act} (h : first <+: purged probe n s acts) :
    ∃ before, before <+: acts ∧ purged probe n s before = first := by
  induction acts generalizing s first with
  | nil =>
    obtain rfl := List.prefix_nil.1 h
    exact ⟨[], List.prefix_rfl, rfl⟩
  | cons a acts ih =>
    rw [purged] at h
    split at h
    · rename_i hpurged
      obtain ⟨before, hbefore, rfl⟩ := ih h
      exact ⟨a :: before, (List.prefix_cons_inj a).2 hbefore, by rw [purged, if_pos hpurged]⟩
    · rename_i hkept
      cases first with
      | nil => exact ⟨[], List.nil_prefix, rfl⟩
      | cons a' first =>
        obtain ⟨rfl, hrest⟩ := List.cons_prefix_cons.1 h
        obtain ⟨before, hbefore, rfl⟩ := ih hrest
        exact ⟨a' :: before, (List.prefix_cons_inj a').2 hbefore, by rw [purged, if_neg hkept]⟩

theorem purged_append (s : Service) (acts more : List Act) :
    purged probe n s (acts ++ more) =
      purged probe n s acts ++ purged probe n (s.actAll probe acts) more := by
  induction acts generalizing s with
  | nil => rfl
  | cons a acts ih =>
    simp only [List.cons_append, purged]
    split
    · exact ih _
    · rw [ih]
      rfl

theorem purged_moves (s : Service) (h : ∀ a ∈ acts, a.isMove = true) :
    purged probe n s acts = acts := by
  induction acts generalizing s with
  | nil => rfl
  | cons a acts ih =>
    have hkept : ¬(s.Racing n ∧ a.isMove = false) := by simp [h a]
    rw [purged, if_neg hkept, ih _ fun b hb => h b (List.mem_cons_of_mem _ hb)]

theorem purged_asides (hr : s.Racing n) (h : ∀ a ∈ acts, a.isMove = false) :
    purged probe n s acts = [] := by
  induction acts generalizing s with
  | nil => rfl
  | cons a acts ih =>
    have ha : a.isMove = false := h a (List.mem_cons_self ..)
    rw [purged, if_pos ⟨hr, ha⟩]
    refine ih ?_ fun b hb => h b (List.mem_cons_of_mem _ hb)
    rw [Racing, racing_aside hr ha]
    exact hr

end

end Service
end ResolverRace
