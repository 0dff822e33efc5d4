import ResolverRace.Proofs.Session.Invariant

/-!
# Moves

Every move is a step of the session, or none. A task that has let go of the session tells what
happened and does nothing else: what becomes of it depends on the moves that are made, not on the
time nor on anything else in the session.

* `step_move` — a move is a step, or nothing.
* `task_move`, `token_move` — one move, as it looks from a task that has let go of the session.
-/

namespace ResolverRace

theorem Task.work_congr {probe : Probe} {t : Task} (h : t.duty.holdsSession = false)
    (age age' : Duration) : t.work probe age = t.work probe age' := by
  simp only [work]
  cases hd : t.duty with
  | race =>
    rw [hd] at h
    cases h
  | broken | record | release | tellPhase | tellEnd | «over» => rfl

namespace Session

section

variable {probe : Probe} {s s' : Session} {n m : Nat}

theorem step_move (probe : Probe) (s : Session) (m : Move) :
    s.move probe m = s ∨ Step probe s (s.move probe m) := by
  cases m with
  | work n =>
    rw [move]
    cases h : s.work probe n with
    | none => exact .inl rfl
    | some s' => exact .inr (.work h)
  | deliver n =>
    rw [move]
    cases h : s.deliver n with
    | none => exact .inl rfl
    | some s' => exact .inr (.deliver h)
  | pass now =>
    rw [move]
    split
    · rename_i h
      exact .inr (.pass h.1 h.2)
    · exact .inl rfl
  | cancel => exact .inr .cancel
  | collect => exact .inr .collect

theorem letGo_tasks (s : Session) (d : Duty) : (s.letGo d).tasks = s.tasks := by
  cases d <;> rfl

theorem letGo_token (hn : s.token ≠ some n) (d : Duty) : (s.letGo d).token ≠ some n := by
  cases d with
  | release => exact fun h => Option.some_ne_none n h.symm
  | race | broken | record | tellPhase | tellEnd | «over» => exact hn

/-! ## Other tasks -/

theorem work_other (h : s.work probe m = some s') (hmn : m ≠ n) : s'.tasks[n]? = s.tasks[n]? := by
  obtain ⟨u, u', _, _, rfl⟩ := work_eq_some h
  show ((s.letGo u.duty).tasks.set m u')[n]? = s.tasks[n]?
  rw [letGo_tasks, List.getElem?_set_ne hmn]

theorem deliver_other (h : s.deliver m = some s') (hmn : m ≠ n) :
    s'.tasks[n]? = s.tasks[n]? := by
  obtain ⟨u, u', _, _, rfl⟩ := deliver_eq_some h
  exact List.getElem?_set_ne hmn

theorem cancel_other (hn : s.token ≠ some n) : s.cancel.1.tasks[n]? = s.tasks[n]? := by
  rcases cancel_cases s with ⟨m, _, htoken, hc⟩ | ⟨_, hc⟩
  · have hmn : m ≠ n := fun h => hn (h ▸ htoken)
    rw [hc]
    simp [hmn]
  · rw [hc]

/-! ## A task that has let go of the session -/

/-- What a move does to the task with the number `n`, which has let go of the session. -/
def Move.onTask (probe : Probe) (n : Nat) (t : Task) : Move → Task
  | .work m => if m = n then (t.work probe 0).getD t else t
  | .deliver m => if m = n then t.handleOne.getD t else t
  | .pass _ | .cancel | .collect => t

theorem Move.onTask_holdsSession (probe : Probe) (n : Nat) {t : Task}
    (hd : t.duty.holdsSession = false) (m : Move) :
    (m.onTask probe n t).duty.holdsSession = false := by
  have hrelease (report : Report) : t.duty ≠ .release report := by
    intro h
    rw [h] at hd
    cases hd
  cases m with
  | work m =>
    rw [onTask]
    split
    · cases hw : t.work probe 0 with
      | none => exact hd
      | some t' => exact (work_holdsSession hw hrelease).trans hd
    · exact hd
  | deliver m =>
    rw [onTask]
    split
    · cases hq : t.handleOne with
      | none => exact hd
      | some t' => exact (congrArg Duty.holdsSession (handleOne_duty hq)).trans hd
    · exact hd
  | pass | cancel | collect => exact hd

theorem task_move (probe : Probe) {t : Task} (ht : s.tasks[n]? = some t)
    (hd : t.duty.holdsSession = false) (hn : s.token ≠ some n) (m : Move) :
    (s.move probe m).tasks[n]? = some (m.onTask probe n t) := by
  have hlt : n < s.tasks.length := (List.getElem?_eq_some_iff.1 ht).1
  cases m with
  | work m =>
    by_cases hmn : m = n
    · subst hmn
      simp only [move, work, ht, Move.onTask, if_pos]
      rw [Task.work_congr hd _ 0]
      cases t.work probe 0 with
      | none => exact ht
      | some t' =>
        show ((s.letGo t.duty).tasks.set m t')[m]? = some t'
        rw [letGo_tasks]
        exact List.getElem?_set_self hlt
    · rw [Move.onTask, if_neg hmn, move]
      cases hw : s.work probe m with
      | none => exact ht
      | some s' => exact (work_other hw hmn).trans ht
  | deliver m =>
    by_cases hmn : m = n
    · subst hmn
      simp only [move, deliver, ht, Move.onTask, if_pos]
      cases t.handleOne with
      | none => exact ht
      | some t' => exact List.getElem?_set_self hlt
    · rw [Move.onTask, if_neg hmn, move]
      cases hq : s.deliver m with
      | none => exact ht
      | some s' => exact (deliver_other hq hmn).trans ht
  | pass now =>
    rw [move]
    split <;> exact ht
  | cancel => exact (cancel_other hn).trans ht
  | collect => exact ht

/-- No move gives out a token. -/
theorem token_move (hn : s.token ≠ some n) (m : Move) : (s.move probe m).token ≠ some n := by
  cases m with
  | work m =>
    rw [move]
    cases hw : s.work probe m with
    | none => exact hn
    | some s' =>
      obtain ⟨u, u', _, _, rfl⟩ := work_eq_some hw
      exact letGo_token hn u.duty
  | deliver m =>
    rw [move]
    cases hq : s.deliver m with
    | none => exact hn
    | some s' =>
      obtain ⟨_, _, _, _, rfl⟩ := deliver_eq_some hq
      exact hn
  | pass now =>
    rw [move]
    split <;> exact hn
  | cancel =>
    rcases cancel_cases s with ⟨m, _, _, hc⟩ | ⟨_, hc⟩
    · rw [move, hc]
      exact hn
    · rw [move, hc]
      exact hn
  | collect => exact hn

end

end Session
end ResolverRace
