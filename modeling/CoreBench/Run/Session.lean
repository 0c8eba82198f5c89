import CoreBench.Bench.Source
import CoreBench.Bench.Tally
import CoreBench.Run.Processor

/-!
Running a bench on a core. In every valid cycle the commands of the present
instruction join a queue; those at the end of their delay fire, all of them on the
state that the cycle began with, and the others count down. The run ends when an
end directive has fired, when the probe fails, or when the cycles are used up.
-/

namespace CoreBench

/-- A command of the bench by its index, and the cycles until it fires. -/
structure Pending where
  command : Nat
  remaining : Nat
  deriving DecidableEq, Repr

namespace Pending

/-- The entries for the commands at an address, in the order of the bench. -/
def matching (commands : List Command) (address : Nat) : List Pending :=
  (commands.zipIdx.filter fun entry => entry.1.address = address).map fun entry =>
    ⟨entry.2, entry.1.delay⟩

def due (queue : List Pending) : List Nat :=
  (queue.filter fun entry => entry.remaining = 0).map Pending.command

/-- The entries that stay, one cycle later. -/
def countDown (queue : List Pending) : List Pending :=
  (queue.filter fun entry => entry.remaining ≠ 0).map fun entry =>
    { entry with remaining := entry.remaining - 1 }

end Pending

/-- A bench on a core: what has come of it, and what waits to fire. -/
structure Session (P : Type) where
  bench : Bench
  processor : Processor P
  tally : Tally := {}
  queue : List Pending := []

namespace Session

variable {P : Type} [Probe P]

def fire (session : Session P) (snapshot : Snapshot) (command : Command) :
    Except ProbeError Unit × Session P :=
  match command.execute snapshot session.processor.config.arch with
  | .interrupt update =>
      match session.processor.setIrqs update with
      | (result, processor) => (result, { session with processor })
  | outcome => (.ok (), { session with tally := session.tally.record outcome })

/-- Fires commands one after another, up to the first whose interrupt fails. -/
def fireAll (snapshot : Snapshot) : Session P → List Nat → Except ProbeError Unit × Session P
  | session, [] => (.ok (), session)
  | session, index :: rest =>
      match session.bench.commands[index]? with
      | none => fireAll snapshot session rest
      | some command =>
          match session.fire snapshot command with
          | (.error error, session) => (.error error, session)
          | (.ok (), session) => fireAll snapshot session rest

/-- The queue with the commands of the present instruction. -/
def enroll (session : Session P) (snapshot : Snapshot) : List Pending :=
  match snapshot.address? session.processor.config.arch.stride with
  | none => session.queue
  | some address => session.queue ++ Pending.matching session.bench.commands address

/-- One valid cycle. Without a snapshot nothing happens. -/
def step (session : Session P) : Except ProbeError Unit × Session P :=
  match session.processor.state with
  | (.error error, processor) => (.error error, { session with processor })
  | (.ok snapshot, processor) =>
      let queue := session.enroll snapshot
      fireAll snapshot { session with processor, queue := Pending.countDown queue } (Pending.due queue)

def clear (session : Session P) : Session P :=
  { session with queue := [] }

def reset (session : Session P) : Session P :=
  { session with tally := {} }

/-- A run either goes on or has stopped with a number of cycles or an error. -/
inductive Progress (P : Type) where
  | going (session : Session P)
  | stopped (result : Except RunError Nat) (session : Session P)

def moveOn (session : Session P) : Progress P :=
  match session.processor.runCycle with
  | (.error error, processor) => .stopped (.error (.probe error)) { session with processor }
  | (.ok (), processor) => .going { session with processor }

/-- One cycle of a run that began at the cycle `start` and may use `limit` cycles.
While the core issues no valid instruction, the cycles are counted from zero and
not beyond 64 bits. -/
def tick (strobePath? : Option String) (limit : Option Nat) (start : Nat) (session : Session P) :
    Progress P :=
  match session.processor.strobe strobePath? with
  | (.error error, processor) => .stopped (.error (.probe error)) { session with processor }
  | (.ok false, processor) =>
      match limit.filter fun limit => min (start + limit) (wordLimit - 1) ≤ processor.cycles with
      | some limit => .stopped (.error (.cycleLimit limit)) { session with processor }
      | none => moveOn { session with processor }
  | (.ok true, processor) =>
      match step { session with processor } with
      | (.error error, session) => .stopped (.error (.probe error)) session
      | (.ok (), session) =>
          let used := session.processor.cycles - start
          if session.tally.complete then .stopped (.ok used) session
          else
            match limit.filter fun limit => limit ≤ used with
            | some limit => .stopped (.error (.cycleLimit limit)) session
            | none => moveOn session

/-- Cycles until the run stops, at most `fuel` of them. -/
def loop (strobePath? : Option String) (limit : Option Nat) (start : Nat) :
    Nat → Session P → Except RunError Nat × Session P
  | 0, session => (.error .counterFull, session)
  | fuel + 1, session =>
      match tick strobePath? limit start session with
      | .stopped result session => (result, session)
      | .going session => loop strobePath? limit start fuel session

/-- Runs the bench from its beginning. The result is the number of cycles. -/
def run (limit : Option Nat) (session : Session P) : Except RunError Nat × Session P :=
  let session := session.reset.clear
  match session.processor.settle with
  | (.error error, processor) => (.error (.probe error), { session with processor })
  | (.ok (), processor) =>
      loop processor.config.wiring.strobePath? limit session.processor.cycles
        (wordLimit - processor.cycles) { session with processor }

end Session

end CoreBench
