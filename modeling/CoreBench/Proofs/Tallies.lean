import CoreBench.Proofs.Reuse
import CoreBench.Proofs.Stepping

/-!
How many comparisons a run counts as passed. The count never falls. A comparison that passes
had an entry in the queue, and a step enrolls at most one entry for each command, so the steps
times the commands bound the count.
-/

namespace CoreBench

namespace Session

variable {P : Type}

theorem enroll_length (session : Session P) (snapshot : Snapshot) :
    (session.enroll snapshot).length ≤ session.queue.length + session.bench.commands.length := by
  rw [enroll]
  split
  next => exact Nat.le_add_right _ _
  next address _ =>
    have fewer : (Pending.matching session.bench.commands address).length ≤
        session.bench.commands.length := by
      rw [Pending.matching, List.length_map]
      exact Nat.le_trans (List.length_filter_le _ _) (Nat.le_of_eq List.length_zipIdx)
    rw [List.length_append]
    omega

/-- Every entry is due or stays. -/
theorem due_or_stays (queue : List Pending) :
    (Pending.due queue).length + (Pending.countDown queue).length = queue.length := by
  have parted := List.length_eq_countP_add_countP (l := queue)
    fun entry : Pending => decide (entry.remaining = 0)
  rw [Pending.due, Pending.countDown, List.length_map, List.length_map,
    ← List.countP_eq_length_filter, ← List.countP_eq_length_filter, parted]
  simp

variable [Probe P]

/-- A command is at most one comparison that passes. -/
theorem fire_passed (session : Session P) (snapshot : Snapshot) (command : Command) :
    session.tally.passed ≤ (session.fire snapshot command).2.tally.passed ∧
      (session.fire snapshot command).2.tally.passed ≤ session.tally.passed + 1 := by
  rw [fire]
  cases command.execute snapshot session.processor.config.arch with
  | passed => exact ⟨Nat.le_succ _, Nat.le_refl _⟩
  | failed message => exact ⟨Nat.le_refl _, Nat.le_succ _⟩
  | finished => exact ⟨Nat.le_refl _, Nat.le_succ _⟩
  | interrupt update => exact ⟨Nat.le_refl _, Nat.le_succ _⟩

theorem fire_all_passed (snapshot : Snapshot) (indices : List Nat) (session : Session P) :
    session.tally.passed ≤ (fireAll snapshot session indices).2.tally.passed ∧
      (fireAll snapshot session indices).2.tally.passed ≤
        session.tally.passed + indices.length ∧
      (fireAll snapshot session indices).2.queue = session.queue := by
  induction indices generalizing session with
  | nil => exact ⟨Nat.le_refl _, Nat.le_refl _, rfl⟩
  | cons index rest ih =>
      rw [fireAll, List.length_cons]
      cases session.bench.commands[index]? with
      | none =>
          obtain ⟨grows, passed, queue⟩ := ih session
          exact ⟨grows, by dsimp only; omega, queue⟩
      | some command =>
          obtain ⟨more, passed⟩ := session.fire_passed snapshot command
          have queue := session.fire_queue snapshot command
          dsimp only
          generalize session.fire snapshot command = fired at more passed queue
          obtain ⟨result, next⟩ := fired
          cases result with
          | error error => exact ⟨more, by dsimp only at passed ⊢; omega, queue⟩
          | ok =>
              obtain ⟨grows, later, kept⟩ := ih next
              exact ⟨Nat.le_trans more grows, by dsimp only at passed later ⊢; omega,
                kept.trans queue⟩

/-- A step moves entries from the queue to the tally and adds at most one entry for each
command. -/
theorem step_passed (session : Session P) :
    session.tally.passed ≤ session.step.2.tally.passed ∧
      session.step.2.tally.passed + session.step.2.queue.length ≤
        session.tally.passed + session.queue.length + session.bench.commands.length := by
  rw [step]
  cases session.processor.state with
  | mk result processor =>
      cases result with
      | error error => exact ⟨Nat.le_refl _, Nat.le_add_right _ _⟩
      | ok snapshot =>
          have bound := session.enroll_length snapshot
          have whole := due_or_stays (session.enroll snapshot)
          obtain ⟨grows, passed, queue⟩ :=
            fire_all_passed snapshot (Pending.due (session.enroll snapshot))
              { session with processor, queue := Pending.countDown (session.enroll snapshot) }
          dsimp only at passed queue ⊢
          rw [queue]
          exact ⟨grows, by omega⟩

theorem Stepwise.passed {start : Nat} {session : Session P}
    {steps : List (Session P)} {ended : Except RunError Nat × Session P}
    (runs : Stepwise start session steps ended) :
    session.tally.passed ≤ ended.2.tally.passed ∧
      ended.2.tally.passed + ended.2.queue.length ≤
        session.tally.passed + session.queue.length +
          steps.length * session.bench.commands.length := by
  induction runs with
  | stops => exact ⟨Nat.le_refl _, Nat.le_add_right _ _⟩
  | fails session after processor error failed =>
      have passed := step_passed { session with processor }
      rw [failed] at passed
      simpa using passed
  | completes session after processor stepped complete =>
      have passed := step_passed { session with processor }
      rw [stepped] at passed
      simpa using passed
  | goesOn session after processor later ended stepped going rest ih =>
      obtain ⟨grows, passed⟩ := step_passed { session with processor }
      have bench := step_bench { session with processor }
      rw [stepped] at grows passed bench
      dsimp only at grows passed bench
      rw [bench] at ih
      refine ⟨Nat.le_trans grows ih.1, ?_⟩
      rw [List.length_cons, Nat.succ_mul]
      omega

/-- The comparisons that a run counts as passed are at most those of its steps. -/
theorem run_passed (session : Session P) (limit : Option Nat) :
    (session.run limit).2.tally.passed ≤
      (session.steps limit).length * session.bench.commands.length := by
  obtain ⟨-, counted⟩ := (run_stepwise limit session).passed
  simp only [reset, clear, List.length_nil, Nat.zero_add] at counted
  omega

end Session

end CoreBench
