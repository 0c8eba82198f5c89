import CoreBench.Proofs.Budget
import CoreBench.Proofs.Lockstep

/-!
A runner, a bench and a core that have been used before. A run clears the queue, the tally
and the snapshot, and it counts its cycles from where the core stands; so it comes to the
same as the first run on a core whose counter stands at zero.
-/

namespace CoreBench

namespace Processor

variable {P : Type}

/-- The core as it would stand after `count` more cycles. -/
def shift (count : Nat) (processor : Processor P) : Processor P :=
  { processor with cycles := count + processor.cycles }

end Processor

namespace Session

variable {P : Type} [Probe P]

theorem fire_all_bench (snapshot : Snapshot) (indices : List Nat) (session : Session P) :
    (fireAll snapshot session indices).2.bench = session.bench :=
  fire_all_keeps (fun after => after.bench = session.bench) snapshot
    (fun between command kept => (between.fire_bench snapshot command).trans kept) indices session rfl

theorem step_bench (session : Session P) : session.step.2.bench = session.bench := by
  rw [step]
  split
  next error processor failed => rfl
  next snapshot processor read => exact fire_all_bench snapshot _ _

theorem Stepwise.bench {start : Nat} {session : Session P} {steps : List (Session P)}
    {ended : Except RunError Nat × Session P} (runs : Stepwise start session steps ended) :
    ended.2.bench = session.bench := by
  induction runs with
  | stops => rfl
  | fails session after processor error failed =>
      have kept := step_bench { session with processor }
      rwa [failed] at kept
  | completes session after processor stepped complete =>
      have kept := step_bench { session with processor }
      rwa [stepped] at kept
  | goesOn session after processor later ended stepped going rest ih =>
      have kept := step_bench { session with processor }
      rw [stepped] at kept
      exact ih.trans kept

theorem run_bench (limit : Option Nat) (session : Session P) :
    (session.run limit).2.bench = session.bench :=
  (run_stepwise limit session).bench

/-- A result does not depend on the fuel that is left when it is found. -/
theorem loop_more (strobePath? : Option String) (limit : Option Nat) (start fuel more : Nat)
    (session : Session P)
    (found : (loop strobePath? limit start fuel session).1 ≠ .error .counterFull) :
    loop strobePath? limit start (fuel + more) session =
      loop strobePath? limit start fuel session := by
  induction fuel generalizing session with
  | zero => exact absurd rfl found
  | succ fuel ih =>
      rw [Nat.succ_add]
      rw [loop] at found ⊢
      rw [loop]
      cases ticked : tick strobePath? limit start session with
      | stopped result after => rfl
      | going after =>
          rw [ticked] at found
          exact ih after found

variable {config : Config} {limit : Option Nat} {start : Nat}

/-- Two cores that differ in their counters only. -/
structure Shifted (config : Config) (start : Nat) (one other : Processor P) : Prop where
  core : one = other.shift start
  configured : other.config = config

/-- Every request is made in the same way in any cycle, and the budget of a run moves with
the cycle in which it begins. -/
theorem shift_lockstep (commands : List Command)
    (fits : ∀ bound ∈ limit, start + bound < wordLimit) :
    Lockstep config commands limit start 0 (fun _ => False) (fun _ => False)
      (Shifted config start (P := P)) where
  configured := by
    rintro one other ⟨rfl, configured⟩
    exact ⟨configured, configured⟩
  used := by
    rintro one other ⟨rfl, _⟩
    rw [Processor.shift]
    dsimp only
    omega
  spent := by
    rintro one other ⟨rfl, _⟩ bound member
    have room := fits bound member
    rw [Processor.shift]
    dsimp only
    omega
  strobe := by
    rintro one other ⟨rfl, configured⟩
    cases config.wiring.strobePath? with
    | none => exact .ok rfl ⟨rfl, configured⟩
    | some path =>
        simp only [Processor.strobe, Processor.shift]
        cases Probe.read other.probe path with
        | mk result probe =>
            cases result with
            | error error => exact .error error ⟨rfl, configured⟩
            | ok value => exact .ok rfl ⟨rfl, configured⟩
  state := by
    rintro one ⟨probe, _, sampled, cycles⟩ ⟨rfl, configured⟩
    cases sampled with
    | some snapshot => exact .ok (.refl _ _) ⟨rfl, configured⟩
    | none =>
        simp only [Processor.state, Processor.shift, Processor.orient]
        generalize Processor.readFrom _ 0 _ [] probe = read
        obtain ⟨result, probe⟩ := read
        cases result with
        | error error => exact .error error ⟨rfl, configured⟩
        | ok values => exact .ok (.refl _ _) ⟨rfl, configured⟩
  setIrqs := by
    rintro one other ⟨rfl, configured⟩ command _ update _
    simp only [Processor.setIrqs, Processor.shift, Processor.orient]
    cases Probe.read other.probe other.config.wiring.irq with
    | mk result probe =>
        cases result with
        | error error => exact .error error ⟨rfl, configured⟩
        | ok current => exact .same _ ⟨rfl, configured⟩
  runCycle := by
    rintro one other ⟨rfl, configured⟩
    simp only [Processor.runCycle, Processor.pass, Processor.shift]
    cases Probe.advance other.probe other.config.timing.cycle with
    | mk result probe =>
        cases result with
        | error error => exact .error error ⟨rfl, configured⟩
        | ok => exact .ok rfl ⟨by rw [Processor.shift, Nat.add_assoc], configured⟩

/-- What uses of a runner and of a bench, together or apart, can leave in them: the bench as
it was read, its tally, and the queue. Every run may be on another kind of probe. -/
inductive Used (arch : Arch) (text : String) : Bench → Tally → List Pending → Prop where
  | read (bench : Bench) (parsed : Bench.parse arch text = .ok bench) : Used arch text bench {} []
  | together {Q : Type} [Probe Q] (limit : Option Nat) (session : Session Q)
      (used : Used arch text session.bench session.tally session.queue) :
      Used arch text (session.run limit).2.bench (session.run limit).2.tally
        (session.run limit).2.queue
  | otherBench {Q : Type} [Probe Q] (limit : Option Nat) (session : Session Q) (bench : Bench)
      (tally : Tally) (used : Used arch text bench tally session.queue) :
      Used arch text bench tally (session.run limit).2.queue
  | otherRunner {Q : Type} [Probe Q] (limit : Option Nat) (session : Session Q)
      (queue : List Pending) (used : Used arch text session.bench session.tally queue) :
      Used arch text (session.run limit).2.bench (session.run limit).2.tally queue

/-- Whatever runs leave behind, the bench stays as it was read. -/
theorem Used.bench {arch : Arch} {text : String} {bench : Bench} {tally : Tally}
    {queue : List Pending} (used : Used arch text bench tally queue) :
    Bench.parse arch text = .ok bench := by
  induction used with
  | read bench parsed => exact parsed
  | together limit session _ ih => rw [ih, run_bench]
  | otherBench limit session bench tally _ ih => exact ih
  | otherRunner limit session queue _ ih => rw [ih, run_bench]

/-- A run with a budget that the counter can hold is not stopped by the counter. -/
theorem run_counted (session : Session P) (bound : Nat)
    (fits : session.processor.cycles + bound < wordLimit) :
    (session.run (some bound)).1 ≠ .error .counterFull := by
  obtain ⟨ended, _⟩ := session.run_ended bound fits
  generalize (session.run (some bound)).1 = result at ended
  cases ended <;> nofun

/-- The counter of a core and what a runner and a tally hold do not matter to a run. The
induction on the fuel is that of `loop_meets`; the fresh core has more of it. -/
theorem run_shifted (session : Session P)
    (fits : ∀ bound ∈ limit, session.processor.cycles + bound < wordLimit)
    (counted : (session.run limit).1 ≠ .error .counterFull) :
    let fresh : Session P :=
      { bench := session.bench
        processor := { probe := session.processor.probe, config := session.processor.config } }
    (session.run limit).1 = (fresh.run limit).1 ∧
      (session.run limit).2.tally = (fresh.run limit).2.tally ∧
      (session.run limit).2.processor.probe = (fresh.run limit).2.processor.probe := by
  obtain ⟨bench, ⟨probe, config, sampled, start⟩, tally, queue⟩ := session
  revert counted
  simp only [run, reset, clear, Processor.settle, Processor.pass]
  cases Probe.advance probe config.timing.settle with
  | mk result calm =>
      cases result with
      | error error => exact fun _ => ⟨rfl, rfl, rfl⟩
      | ok =>
          intro counted
          dsimp only at counted ⊢
          have states : Alike bench.commands (Shifted config start)
              (⟨bench, ⟨calm, config, none, start⟩, {}, []⟩ : Session P)
              ⟨bench, ⟨calm, config, none, 0⟩, {}, []⟩ :=
            ⟨rfl, rfl, rfl, rfl, ⟨rfl, rfl⟩⟩
          have met := loop_meets (shift_lockstep bench.commands fits) (wordLimit - start) states
          -- What the fresh core has of fuel beyond the used one is not needed.
          have fuel : wordLimit - 0 = wordLimit - start + min start wordLimit := by omega
          rw [fuel]
          generalize loop config.wiring.strobePath? limit start (wordLimit - start)
            ⟨bench, ⟨calm, config, none, start⟩, {}, []⟩ = ran at met counted ⊢
          generalize alone : loop config.wiring.strobePath? limit 0 (wordLimit - start)
            ⟨bench, ⟨calm, config, none, 0⟩, {}, []⟩ = ran' at met
          cases met with
          | @ok used used' one other values states =>
              obtain rfl := values
              rw [loop_more _ _ _ _ _ _ (by rw [alone]; rintro ⟨⟩), alone]
              exact ⟨rfl, states.tally, by rw [states.cores.core, Processor.shift]⟩
          | @error error one other states =>
              rw [loop_more _ _ _ _ _ _ (by rw [alone]; exact counted), alone]
              exact ⟨rfl, states.tally, by rw [states.cores.core, Processor.shift]⟩
          | left excuse => exact absurd excuse (by rintro ⟨_, _, ⟨⟩⟩)
          | right excuse => exact absurd excuse (by rintro ⟨_, _, ⟨⟩⟩)

/-- However a runner and a bench have been used and wherever the counter of the core stands,
a run gives the same result, leaves the same tally and does the same to the probe as a first
run of the same source on a core that has seen no cycle. -/
theorem used_runs_as_new (arch : Arch) (text : String) (bench new : Bench) (tally : Tally)
    (queue : List Pending) (processor : Processor P) (limit : Option Nat)
    (used : Used arch text bench tally queue) (parsed : Bench.parse arch text = .ok new)
    (fits : ∀ bound ∈ limit, processor.cycles + bound < wordLimit)
    (counted : limit = none → (run none ⟨bench, processor, tally, queue⟩).1 ≠ .error .counterFull) :
    let ran := run limit ⟨bench, processor, tally, queue⟩
    let ran' : Except RunError Nat × Session P :=
      run limit { bench := new, processor := { probe := processor.probe, config := processor.config } }
    ran.1 = ran'.1 ∧ ran.2.tally = ran'.2.tally ∧ ran.2.processor.probe = ran'.2.processor.probe := by
  obtain rfl : bench = new := Except.ok.inj (used.bench.symm.trans parsed)
  apply run_shifted ⟨bench, processor, tally, queue⟩ fits
  cases limit with
  | none => exact counted rfl
  | some bound => exact run_counted _ bound (fits bound rfl)

/-- A core that stays at its only instruction, two steps before the end. -/
def halting : Session Stimulus where
  bench := { instructions := ["nop"], commands := [⟨.finish, 0, 2, "", 2⟩] }
  processor :=
    { probe := { signals := [("pc", Bus.ofNat 0 8)] }
      config :=
        { arch := { generalCount := 0, specialCount := 0 }
          wiring := { pc := "pc", strobe := none, reversed := false } } }

/-- A run with a budget of one cycle leaves two entries of the end in the queue. The next
run on the same core does not see them and takes as long as a first one. -/
theorem halted_runs_as_new :
    let left := (halting.run (some 1)).2
    Used {} "nop\n#end@2()" left.bench left.tally left.queue ∧
      left.queue = [⟨0, 0⟩, ⟨0, 1⟩] ∧ left.processor.cycles = 1 ∧
      left.processor.cycles + 5 < wordLimit ∧ (left.run (some 5)).1 = .ok 2 := by
  intro left
  have parsed : Bench.parse {} "nop\n#end@2()" = .ok halting.bench := by decide +kernel
  have used : Used {} "nop\n#end@2()" left.bench left.tally left.queue :=
    .together (some 1) halting (.read halting.bench parsed)
  have fits : left.processor.cycles + 5 < wordLimit := by decide
  have same := used_runs_as_new {} "nop\n#end@2()" left.bench halting.bench left.tally left.queue
    left.processor (some 5) used parsed (by rintro bound ⟨⟩; exact fits) nofun
  exact ⟨used, by rfl, by rfl, fits, same.1.trans (by decide +kernel)⟩

end Session

end CoreBench
