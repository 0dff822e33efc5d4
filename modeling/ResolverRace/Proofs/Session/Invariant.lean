import Mathlib.Data.List.Basic
import ResolverRace.Proofs.Session.Task

/-!
# What holds of every session

`Session.Sound` holds of every state a session can reach, however calls, tasks, handlers and time
take turns: a token is kept exactly in the racing phase, it is that of the one task that holds the
session, and every task is sound.

* `step_sound`, `Later.sound` — the invariant after one step and after any number of them.
* `step_follows`, `Later.follows` — what later states keep of each task.
-/

namespace ResolverRace
namespace Session

structure Sound (probe : Probe) (s : Session) : Prop where
  token_iff : s.token.isSome = true ↔ s.phase = .racing
  /-- The token is that of a task that holds the session. -/
  holder : ∀ n, s.token = some n → ∃ t, s.tasks[n]? = some t ∧ t.duty.holdsSession = true
  /-- No other task holds the session. -/
  held : ∀ n t, s.tasks[n]? = some t → t.duty.holdsSession = true → s.token = some n
  tasks : ∀ t ∈ s.tasks, t.Sound probe

theorem idle_sound (probe : Probe) : idle.Sound probe := by
  refine ⟨?_, ?_, ?_, ?_⟩ <;> simp [idle]

theorem isActive_iff (p : Phase) : p.isActive = true ↔ p = .racing := by
  cases p <;> simp [Phase.isActive]

theorem ofOutcome_ne_racing (outcome : Outcome) : Phase.ofOutcome outcome ≠ .racing := by
  cases outcome <;> simp [Phase.ofOutcome]

/-! ## What the calls do -/

theorem start_eq_ok {probe : Probe} {params : Params} {candidates : List Candidate}
    {s s' : Session} (h : s.start probe params candidates = .ok s') :
    s.phase ≠ .racing ∧ s' = { s with
      phase := .racing
      token := some s.tasks.length
      tasks := s.tasks ++ [.begin probe params candidates s.now s.phase]
      handle := some s.tasks.length } := by
  rw [start] at h
  split at h
  · cases h
  · rename_i hactive
    cases h
    exact ⟨fun hr => hactive ((isActive_iff _).2 hr), rfl⟩

theorem start_eq_error_iff (probe : Probe) (params : Params) (candidates : List Candidate)
    (s : Session) :
    s.start probe params candidates = .error .alreadyRacing ↔ s.phase = .racing := by
  rw [start, ← isActive_iff]
  split
  · rename_i h
    simp [h]
  · rename_i h
    simp [h]

theorem cancel_cases (s : Session) :
    (∃ n, s.phase = .racing ∧ s.token = some n ∧ s.cancel =
      ({ s with tasks := s.tasks.modify n fun t => { t with cancelled := true } }, true)) ∨
    ((s.phase ≠ .racing ∨ s.token = none) ∧ s.cancel = (s, false)) := by
  cases hp : s.phase with
  | racing =>
    cases ht : s.token with
    | none => exact .inr ⟨.inr rfl, by simp [cancel, hp, ht]⟩
    | some n => exact .inl ⟨n, rfl, rfl, by simp [cancel, hp, ht]⟩
  | _ => exact .inr ⟨.inl (by simp), by simp [cancel, hp]⟩

theorem acknowledge_cases (s : Session) :
    (s.phase.isTerminal = true ∧ s.acknowledge = ({ s with phase := .idle }, true)) ∨
    (s.phase.isTerminal = false ∧ s.acknowledge = (s, false)) := by
  rw [acknowledge]
  split
  · rename_i h
    exact .inl ⟨h, rfl⟩
  · rename_i h
    exact .inr ⟨Bool.eq_false_iff.2 h, rfl⟩

theorem work_eq_some {probe : Probe} {n : Nat} {s s' : Session} (h : s.work probe n = some s') :
    ∃ t t', s.tasks[n]? = some t ∧ t.work probe (s.now - t.startedAt) = some t' ∧
      s' = (s.letGo t.duty).put n t' := by
  rw [work] at h
  split at h
  · cases h
  · rename_i t ht
    obtain ⟨t', hw, rfl⟩ := Option.map_eq_some_iff.1 h
    exact ⟨t, t', ht, hw, rfl⟩

theorem deliver_eq_some {n : Nat} {s s' : Session} (h : s.deliver n = some s') :
    ∃ t t', s.tasks[n]? = some t ∧ t.handleOne = some t' ∧ s' = s.put n t' := by
  rw [deliver] at h
  split at h
  · cases h
  · rename_i t ht
    obtain ⟨t', hq, rfl⟩ := Option.map_eq_some_iff.1 h
    exact ⟨t, t', ht, hq, rfl⟩

theorem handleOne_duty {t t' : Task} (h : t.handleOne = some t') : t'.duty = t.duty := by
  simp only [Task.handleOne] at h
  split at h
  · cases h
  · cases h
    rfl

/-- A task does its duty as long as it holds the session, but for letting it go. -/
theorem work_holdsSession {probe : Probe} {age : Duration} {t t' : Task}
    (h : t.work probe age = some t') (hr : ∀ report, t.duty ≠ .release report) :
    t'.duty.holdsSession = t.duty.holdsSession := by
  simp only [Task.work] at h
  split at h
  · rename_i hd
    cases Task.goes_of_next h with
    | counted => rfl
    | noCandidates | cancelled | breaks | deserted | ended => rw [hd]; rfl
  · rename_i report hd
    cases h
    rw [hd]; rfl
  · rename_i report hd
    exact absurd hd (hr report)
  · rename_i report hd
    cases h
    rw [hd]; rfl
  · rename_i report hd
    cases h
    rw [hd]; rfl
  · cases h
  · cases h

section

variable {probe : Probe} {s s' : Session}

/-! ## The invariant -/

/-- A task goes on and keeps its hold of the session. -/
theorem Sound.put (h : s.Sound probe) {n : Nat} {t t' : Task} (ht : s.tasks[n]? = some t)
    (hold : t'.duty.holdsSession = t.duty.holdsSession) (ht' : t'.Sound probe) :
    (s.put n t').Sound probe := by
  have hn : n < s.tasks.length := (List.getElem?_eq_some_iff.1 ht).1
  refine ⟨h.token_iff, ?_, ?_, ?_⟩
  · intro m hm
    obtain ⟨u, hu, hholds⟩ := h.holder m hm
    by_cases hmn : n = m
    · subst hmn
      rw [ht] at hu
      cases hu
      exact ⟨t', List.getElem?_set_self hn, hold.trans hholds⟩
    · refine ⟨u, ?_, hholds⟩
      show (s.tasks.set n t')[m]? = some u
      rw [List.getElem?_set_ne hmn]
      exact hu
  · intro m u hu hholds
    have hu' : (s.tasks.set n t')[m]? = some u := hu
    by_cases hmn : n = m
    · subst hmn
      rw [List.getElem?_set_self hn] at hu'
      cases hu'
      exact h.held n t ht (hold.symm.trans hholds)
    · rw [List.getElem?_set_ne hmn] at hu'
      exact h.held m u hu' hholds
  · intro u hu
    rcases List.mem_or_eq_of_mem_set hu with hu | rfl
    · exact h.tasks u hu
    · exact ht'

/-- The task that holds the session lets go of it. -/
theorem Sound.letGo (h : s.Sound probe) {n : Nat} {t t' : Task} {report : Report}
    (ht : s.tasks[n]? = some t) (hd : t.duty = .release report)
    (hd' : t'.duty.holdsSession = false) (ht' : t'.Sound probe) :
    ((s.release report).put n t').Sound probe := by
  have hn : n < s.tasks.length := (List.getElem?_eq_some_iff.1 ht).1
  have htoken : s.token = some n := h.held n t ht (by rw [hd]; rfl)
  refine ⟨?_, ?_, ?_, ?_⟩
  · show (none : Option Nat).isSome = true ↔ Phase.ofOutcome report.outcome = .racing
    simp [ofOutcome_ne_racing]
  · intro m hm
    cases hm
  · intro m u hu hholds
    have hu' : (s.tasks.set n t')[m]? = some u := hu
    by_cases hmn : n = m
    · subst hmn
      rw [List.getElem?_set_self hn] at hu'
      cases hu'
      rw [hd'] at hholds
      cases hholds
    · rw [List.getElem?_set_ne hmn] at hu'
      have hm := h.held m u hu' hholds
      rw [htoken] at hm
      cases hm
      exact absurd rfl hmn
  · intro u hu
    rcases List.mem_or_eq_of_mem_set hu with hu | rfl
    · exact h.tasks u hu
    · exact ht'

theorem begin_sound (probe : Probe) (params : Params) (candidates : List Candidate)
    (now : Duration) (old : Phase) :
    (Task.begin probe params candidates now old).Sound probe := by
  refine ⟨?_, fun _ => ⟨params, candidates, Race.start_sound⟩, ?_, fun _ => rfl, (nomatch ·)⟩
  · simp [Task.begin, Task.told, Race.start, Race.progress, progressOf, Duty.sent]
  · intro report hreport
    cases hreport

theorem Sound.start (h : s.Sound probe) {params : Params} {candidates : List Candidate}
    (hs : s.start probe params candidates = .ok s') : s'.Sound probe := by
  obtain ⟨hp, rfl⟩ := start_eq_ok hs
  have htoken : s.token = none := by
    rw [← Option.not_isSome_iff_eq_none, h.token_iff]
    exact hp
  refine ⟨by simp, ?_, ?_, ?_⟩
  · intro n hn
    cases hn
    exact ⟨_, List.getElem?_concat_length, rfl⟩
  · intro n t ht hholds
    have hlt := (List.getElem?_eq_some_iff.1 ht).1
    simp only [List.length_append, List.length_singleton] at hlt
    by_cases hn : n < s.tasks.length
    · have ht' : (s.tasks ++ _)[n]? = some t := ht
      rw [List.getElem?_append_left hn] at ht'
      have hm := h.held n t ht' hholds
      rw [htoken] at hm
      cases hm
    · have hn' : n = s.tasks.length := by omega
      rw [hn']
  · intro t ht
    rcases List.mem_append.1 ht with ht | ht
    · exact h.tasks t ht
    · rw [List.mem_singleton.1 ht]
      exact begin_sound ..

theorem Sound.cancel (h : s.Sound probe) : s.cancel.1.Sound probe := by
  rcases cancel_cases s with ⟨n, _, htoken, hc⟩ | ⟨_, hc⟩
  · obtain ⟨t, ht, _⟩ := h.holder n htoken
    let u : Task := { t with cancelled := true }
    have hduty : u.duty.holdsSession = t.duty.holdsSession := rfl
    have hput := h.put ht hduty (h.tasks t (List.mem_of_getElem? ht)).cancel
    rw [hc]
    simpa [Session.put, List.modify_eq_set_getElem?, ht] using hput
  · rw [hc]
    exact h

theorem Sound.acknowledge (h : s.Sound probe) : s.acknowledge.1.Sound probe := by
  rcases acknowledge_cases s with ⟨hterminal, ha⟩ | ⟨_, ha⟩
  · rw [ha]
    refine ⟨?_, h.holder, h.held, h.tasks⟩
    have hp : s.phase ≠ .racing := by
      intro hp
      rw [hp] at hterminal
      cases hterminal
    show s.token.isSome = true ↔ Phase.idle = .racing
    rw [h.token_iff]
    exact iff_of_false hp (by simp)
  · rw [ha]
    exact h

theorem Sound.work (h : s.Sound probe) {n : Nat} (hw : s.work probe n = some s') :
    s'.Sound probe := by
  obtain ⟨t, t', ht, htw, rfl⟩ := work_eq_some hw
  have ht' : t'.Sound probe := (h.tasks t (List.mem_of_getElem? ht)).work htw
  cases hd : t.duty with
  | release report =>
    refine h.letGo ht hd ?_ ht'
    simp only [Task.work, hd] at htw
    cases htw
    rfl
  | _ =>
    refine h.put ht (work_holdsSession htw ?_) ht'
    simp [hd]

/-- Whatever happens to a session, the invariant holds again after it. -/
theorem step_sound (h : s.Sound probe) (hs : Step probe s s') : s'.Sound probe := by
  cases hs with
  | start hs => exact h.start hs
  | cancel => exact h.cancel
  | acknowledge => exact h.acknowledge
  | work hw => exact h.work hw
  | deliver hq =>
    obtain ⟨t, t', ht, htq, rfl⟩ := deliver_eq_some hq
    exact h.put ht (by rw [handleOne_duty htq])
      ((h.tasks t (List.mem_of_getElem? ht)).handleOne htq)
  | pass => exact ⟨h.token_iff, h.holder, h.held, h.tasks⟩
  | collect => exact ⟨h.token_iff, h.holder, h.held, h.tasks⟩

theorem Later.sound (hl : Later probe s s') (h : s.Sound probe) : s'.Sound probe := by
  induction hl with
  | refl => exact h
  | next _ hs ih => exact step_sound ih hs

theorem Later.trans {t : Session} (h₁ : Later probe s t) (h₂ : Later probe t s') :
    Later probe s s' := by
  induction h₂ with
  | refl => exact h₁
  | next _ hs ih => exact .next ih hs

/-! ## What stays -/

/-- A step leaves every task but one, which goes on, and may add one at the end. -/
theorem step_tasks (h : s.Sound probe) (hs : Step probe s s') :
    s'.tasks = s.tasks ∨
    (∃ n t t', s.tasks[n]? = some t ∧ t.Follows t' ∧ s'.tasks = s.tasks.set n t') ∨
    ∃ t, s'.tasks = s.tasks ++ [t] := by
  cases hs with
  | start hs =>
    obtain ⟨_, rfl⟩ := start_eq_ok hs
    exact .inr (.inr ⟨_, rfl⟩)
  | cancel =>
    rcases cancel_cases s with ⟨n, _, htoken, hc⟩ | ⟨_, hc⟩
    · obtain ⟨t, ht, _⟩ := h.holder n htoken
      refine .inr (.inl ⟨n, t, _, ht, t.follows_cancel, ?_⟩)
      rw [hc]
      simp [List.modify_eq_set_getElem?, ht]
    · rw [hc]
      exact .inl rfl
  | acknowledge =>
    rcases acknowledge_cases s with ⟨_, ha⟩ | ⟨_, ha⟩
    · rw [ha]
      exact .inl rfl
    · rw [ha]
      exact .inl rfl
  | work hw =>
    obtain ⟨t, t', ht, htw, rfl⟩ := work_eq_some hw
    refine .inr (.inl ⟨_, t, t', ht, Task.follows_work htw, ?_⟩)
    cases t.duty <;> rfl
  | deliver hq =>
    obtain ⟨t, t', ht, htq, rfl⟩ := deliver_eq_some hq
    exact .inr (.inl ⟨_, t, t', ht, Task.follows_handleOne htq, rfl⟩)
  | pass => exact .inl rfl
  | collect => exact .inl rfl

theorem step_follows (h : s.Sound probe) (hs : Step probe s s') {n : Nat} {t : Task}
    (ht : s.tasks[n]? = some t) : ∃ t', s'.tasks[n]? = some t' ∧ t.Follows t' := by
  have hn : n < s.tasks.length := (List.getElem?_eq_some_iff.1 ht).1
  rcases step_tasks h hs with he | ⟨m, u, u', hu, hf, he⟩ | ⟨u, he⟩
  · exact ⟨t, by rw [he]; exact ht, .refl t⟩
  · rw [he]
    by_cases hmn : m = n
    · subst hmn
      rw [ht] at hu
      cases hu
      exact ⟨u', List.getElem?_set_self hn, hf⟩
    · exact ⟨t, by rw [List.getElem?_set_ne hmn]; exact ht, .refl t⟩
  · exact ⟨t, by rw [he, List.getElem?_append_left hn]; exact ht, .refl t⟩

theorem Later.follows (hl : Later probe s s') (h : s.Sound probe) {n : Nat} {t : Task}
    (ht : s.tasks[n]? = some t) : ∃ t', s'.tasks[n]? = some t' ∧ t.Follows t' := by
  induction hl with
  | refl => exact ⟨t, ht, .refl t⟩
  | next hl hs ih =>
    obtain ⟨u, hu, hf⟩ := ih
    obtain ⟨u', hu', hf'⟩ := step_follows (hl.sound h) hs hu
    exact ⟨u', hu', hf.trans hf'⟩

end

end Session
end ResolverRace
