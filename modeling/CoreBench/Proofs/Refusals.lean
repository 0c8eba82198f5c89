import CoreBench.Proofs.Lockstep
import CoreBench.Proofs.Simultaneous

/-!
What a step leaves behind when it fails. Without a snapshot everything stays as it was. If the
probe refuses an interrupt, the commands that were due in front of it have fired and what is
not yet due waits on, but the commands that were due behind it have left the queue and never
fire. So a step that fails loses nothing exactly if the refused interrupt was due last.
-/

namespace CoreBench

/-- The entries of a queue are those that wait and those that are due. -/
theorem Pending.waiting_or_due (queue : List Pending) :
    queue.Perm ((queue.filter fun entry => entry.remaining ≠ 0) ++
      queue.filter fun entry => entry.remaining = 0) := by
  have parts := List.filter_append_perm (fun entry : Pending => decide (entry.remaining ≠ 0)) queue
  have rest : (queue.filter fun entry => !decide (entry.remaining ≠ 0)) =
      queue.filter fun entry => entry.remaining = 0 := by
    simp only [ne_eq, decide_not, Bool.not_not]
  rw [rest] at parts
  exact parts.symm

namespace Session

variable {P : Type} [Probe P] {snapshot : Snapshot} {before after : Session P}
  {error : ProbeError}

/-- The command that an entry of the queue stands for. -/
def commandOf? (session : Session P) (entry : Pending) : Option Command :=
  session.bench.commands[entry.command]?

/-- Only an interrupt fails, and then only the probe has changed. -/
theorem fire_error {command : Command}
    (failed : before.fire snapshot command = (.error error, after)) :
    ∃ update processor, command.action = .interrupt update ∧
      before.processor.setIrqs update = (.error error, processor) ∧
      after = { before with processor } := by
  unfold fire at failed
  cases outcome : command.execute snapshot before.processor.config.arch with
  | passed => simp [outcome] at failed
  | failed message => simp [outcome] at failed
  | finished => simp [outcome] at failed
  | interrupt update =>
      have action := command.interrupt_of_execute _ _ _ outcome
      cases set : before.processor.setIrqs update with
      | mk result processor =>
          simp only [outcome, set] at failed
          cases failed
          exact ⟨update, processor, action, set, rfl⟩

/-- Firing entries one after another breaks off at the first that fails. -/
theorem fire_all_error (entries : List Pending)
    (failed : fireAll snapshot before (entries.map Pending.command) = (.error error, after)) :
    ∃ (fired lost : List Pending) (refused : Pending) (between : Session P) (command : Command),
      entries = fired ++ refused :: lost ∧
      Fires snapshot before (fired.filterMap before.commandOf?) between ∧
      before.commandOf? refused = some command ∧
      between.fire snapshot command = (.error error, after) := by
  -- On the entries; firing keeps the bench, so the later ones still stand for their commands.
  induction entries generalizing before with
  | nil => cases failed
  | cons entry rest ih =>
      rw [List.map_cons, fireAll] at failed
      cases named : before.commandOf? entry with
      | none =>
          have found : before.bench.commands[entry.command]? = none := named
          simp only [found] at failed
          obtain ⟨fired, lost, refused, between, command, rfl, fires, last⟩ := ih failed
          refine ⟨entry :: fired, lost, refused, between, command, rfl, ?_, last⟩
          rwa [List.filterMap_cons_none named]
      | some command =>
          have found : before.bench.commands[entry.command]? = some command := named
          simp only [found] at failed
          have kept := fire_bench before snapshot command
          cases first : before.fire snapshot command with
          | mk result next =>
              rw [first] at failed kept
              cases result with
              | error cause =>
                  cases failed
                  exact ⟨[], rest, entry, before, command, rfl, .done before, named, first⟩
              | ok =>
                  have same : next.commandOf? = before.commandOf? := by
                    funext other
                    rw [commandOf?, kept, commandOf?]
                  obtain ⟨fired, lost, refused, between, last, rfl, fires, others⟩ := ih failed
                  rw [same] at fires others
                  refine ⟨entry :: fired, lost, refused, between, last, rfl, ?_, others⟩
                  rw [List.filterMap_cons_some named]
                  exact .next first fires

/-- How a step breaks off at an interrupt that the probe refuses. Each entry of the queue, with
those for the present instruction, is one that waits on, one that has fired, the refused one, or
one that is lost. -/
structure BreaksOff (before after : Session P) (snapshot : Snapshot) (error : ProbeError)
    (waiting fired : List Pending) (refused : Pending) (lost : List Pending) : Prop where
  entries : (before.enroll snapshot).Perm (waiting ++ (fired ++ refused :: lost))
  due : ((before.enroll snapshot).filter fun entry => entry.remaining = 0) =
    fired ++ refused :: lost
  queue : after.queue = waiting.map fun entry =>
    { entry with remaining := entry.remaining - 1 }
  fires : ∃ sampled core,
    before.processor.state = (.ok snapshot, sampled) ∧
    FiresAtOnce snapshot (fired.filterMap before.commandOf?)
      { before with processor := sampled, queue := after.queue } { after with processor := core } ∧
    ∃ command update, before.commandOf? refused = some command ∧
      command.action = .interrupt update ∧
      core.setIrqs update = (.error error, after.processor)

theorem breaks_off_of_state {sampled : Processor P}
    (state : before.processor.state = (.ok snapshot, sampled))
    (failed : before.step = (.error error, after)) :
    ∃ waiting fired refused lost,
      before.BreaksOff after snapshot error waiting fired refused lost := by
  rw [step_of_state state] at failed
  obtain ⟨fired, lost, refused, between, command, due, fires, named, last⟩ :=
    fire_all_error ((before.enroll snapshot).filter fun entry => entry.remaining = 0) failed
  obtain ⟨update, processor, action, set, rfl⟩ := fire_error last
  have queue : between.queue = Pending.countDown (before.enroll snapshot) := fires.queue
  rw [← queue] at fires
  refine ⟨(before.enroll snapshot).filter fun entry => entry.remaining ≠ 0, fired, refused, lost,
    ?_, due, queue, sampled, between.processor, state, fires.at_once, command, update, named,
    action, set⟩
  rw [← due]
  exact Pending.waiting_or_due _

/-- A step that fails to take a snapshot changes nothing but the probe. Any other step that
fails breaks off at an interrupt that the probe has refused. The due commands in front of it have
all fired on the snapshot and their outcomes are recorded; the entries that were not due wait for
one cycle less; and an entry is lost only if it was due behind the interrupt. So nothing is lost
if the interrupt was the last of the due commands. -/
theorem failed_step_accounts (session after : Session P) (error : ProbeError)
    (failed : session.step = (.error error, after)) :
    (∃ processor, session.processor.state = (.error error, processor) ∧
      after = { session with processor }) ∨
    ∃ snapshot waiting fired refused lost,
      session.BreaksOff after snapshot error waiting fired refused lost ∧
      (∀ entry ∈ session.enroll snapshot,
        entry ∈ fired ∨ entry = refused ∨ entry ∈ lost ∨
          { entry with remaining := entry.remaining - 1 } ∈ after.queue) ∧
      (session.enroll snapshot).length =
        after.queue.length + fired.length + 1 + lost.length := by
  cases state : session.processor.state with
  | mk result processor =>
      cases result with
      | error cause =>
          rw [step, state] at failed
          cases failed
          exact .inl ⟨processor, rfl, rfl⟩
      | ok snapshot =>
          obtain ⟨waiting, fired, refused, lost, breaks⟩ := breaks_off_of_state state failed
          refine .inr ⟨snapshot, waiting, fired, refused, lost, breaks, ?_, ?_⟩
          · intro entry member
            simp only [breaks.entries.mem_iff, List.mem_append, List.mem_cons] at member
            rcases member with waits | before | same | behind
            · rw [breaks.queue]
              exact .inr (.inr (.inr (List.mem_map.mpr ⟨entry, waits, rfl⟩)))
            · exact .inl before
            · exact .inr (.inl same)
            · exact .inr (.inr (.inl behind))
          · rw [breaks.entries.length_eq, breaks.queue, List.length_map]
            simp only [List.length_append, List.length_cons]
            omega

/-- A core without interrupt lines. A comparison and the end wait from earlier cycles, and at the
present instruction stand a comparison, an interrupt, the end and a late comparison. -/
def unwired : Session Stimulus where
  bench :=
    { commands :=
        [⟨.compare ⟨.register .general ⟨0, 3, 0⟩, .equal, .constant 8⟩, 0, 0, "r0 == 8", 2⟩,
          ⟨.interrupt ⟨1, 1⟩, 0, 0, "1->1", 3⟩, ⟨.finish, 0, 0, "", 4⟩,
          ⟨.compare ⟨.register .general ⟨0, 3, 0⟩, .different, .constant 8⟩, 0, 3, "r0 != 8", 5⟩] }
  processor :=
    { probe := { signals := [("pc", Bus.ofNat 0 8), ("r0", Bus.ofNat 8 4)] }
      config :=
        { arch := { generalCount := 1, specialCount := 0 }
          wiring :=
            { pc := "pc", general := "r0", irq := "irq", strobe := none, reversed := false } } }
  queue := [⟨3, 0⟩, ⟨2, 2⟩]

/-- Both comparisons that are due have fired, one of which fails. The late one and the older end
wait on, and the end that was due behind the interrupt is lost. -/
theorem unwired_step_accounts :
    let after := unwired.step.2
    unwired.step = (.error (.unknownSignal "irq"), after) ∧
      (∃ snapshot waiting fired refused lost,
        unwired.BreaksOff after snapshot (.unknownSignal "irq") waiting fired refused lost ∧
        fired ++ refused :: lost = [⟨3, 0⟩, ⟨0, 0⟩, ⟨1, 0⟩, ⟨2, 0⟩]) ∧
      after.tally.passed = 1 ∧ after.tally.failures.length = 1 ∧
      after.tally.complete = false ∧ after.queue = [⟨2, 1⟩, ⟨3, 2⟩] := by
  intro after
  have failed : unwired.step = (.error (.unknownSignal "irq"), after) := rfl
  refine ⟨failed, ?_, rfl, rfl, rfl, rfl⟩
  rcases failed_step_accounts unwired after _ failed with
    ⟨processor, state, _⟩ | ⟨snapshot, waiting, fired, refused, lost, breaks, _, _⟩
  · cases state
  · refine ⟨snapshot, waiting, fired, refused, lost, breaks, ?_⟩
    obtain ⟨sampled, core, state, _⟩ := breaks.fires
    cases state
    exact breaks.due.symm

/-- In a new session the same step loses the end, which the step has matched behind the refused
interrupt. What is left is the comparison that holds and the late one that waits. -/
theorem unwired_loses_end :
    let fresh := { unwired with queue := [] }
    let after := fresh.step.2
    fresh.processor.state.1 = .ok ⟨some 0, [some 8], []⟩ ∧
      fresh.enroll ⟨some 0, [some 8], []⟩ = [⟨0, 0⟩, ⟨1, 0⟩, ⟨2, 0⟩, ⟨3, 3⟩] ∧
      (fresh.commandOf? ⟨2, 0⟩).map Command.action = some .finish ∧
      fresh.step = (.error (.unknownSignal "irq"), after) ∧
      after.tally = { passed := 1, failures := [], complete := false } ∧
      after.queue = [⟨3, 2⟩] :=
  ⟨rfl, rfl, rfl, rfl, rfl, rfl⟩

end Session

end CoreBench
