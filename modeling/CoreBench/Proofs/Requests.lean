import CoreBench.Proofs.Histories
import CoreBench.Proofs.Recall
import Mathlib.Data.List.Induction

/-!
What a replay answers after any requests, in any order. Its time never leaves the recording,
a driven value counts from the last time that it was driven, under any spelling of the path,
and all else is looked up in the recording. That something was read before makes no
difference, although a replay remembers what it has found.
-/

namespace CoreBench

/-- A request that can be made to a probe. -/
inductive Request where
  | read (path : String)
  | write (path : String) (value : Bus)
  | advance (units : Nat)
  deriving DecidableEq, Repr

def Request.isRead : Request → Bool
  | read _ => true
  | _ => false

namespace Probe

variable {P : Type} [Probe P]

/-- The probe after a request, whether that succeeds or not. -/
def serve (probe : P) : Request → P
  | .read path => (Probe.read probe path).2
  | .write path value => (Probe.write probe path value).2
  | .advance units => (Probe.advance probe units).2

def serveAll (probe : P) (requests : List Request) : P :=
  requests.foldl serve probe

theorem serve_all_concat (probe : P) (requests : List Request) (request : Request) :
    serveAll probe (requests ++ [request]) = serve (serveAll probe requests) request := by
  rw [serveAll, List.foldl_append, List.foldl_cons, List.foldl_nil, ← serveAll]

end Probe

/-- Two places of a list pass a test exactly if the test counts two of them. -/
theorem two_le_countP_iff {α : Type} (test : α → Bool) (xs : List α) :
    2 ≤ xs.countP test ↔ ∃ (one other : Nat) (x y : α), one < other ∧
      xs[one]? = some x ∧ xs[other]? = some y ∧ test x ∧ test y := by
  induction xs with
  | nil => simp
  | cons first rest ih =>
      by_cases passes : test first
      · rw [List.countP_cons_of_pos passes]
        constructor
        · intro many
          obtain ⟨y, member, passes'⟩ := List.countP_pos_iff.mp (Nat.lt_of_succ_lt_succ many)
          obtain ⟨place, here⟩ := List.mem_iff_getElem?.mp member
          exact ⟨0, place + 1, first, y, Nat.succ_pos place, rfl, here, passes, passes'⟩
        · rintro ⟨one, other, x, y, order, _, there, _, passes'⟩
          obtain ⟨other, rfl⟩ :=
            Nat.exists_eq_succ_of_ne_zero (Nat.ne_of_gt (Nat.zero_lt_of_lt order))
          have some : 0 < rest.countP test :=
            List.countP_pos_iff.mpr ⟨y, List.mem_of_getElem? there, passes'⟩
          exact Nat.succ_le_succ some
      · rw [List.countP_cons_of_neg passes, ih]
        constructor
        · rintro ⟨one, other, x, y, order, here, there, both⟩
          exact ⟨one + 1, other + 1, x, y, Nat.succ_lt_succ order, here, there, both⟩
        · rintro ⟨one, other, x, y, order, here, there, passes', passes''⟩
          cases one with
          | zero =>
              obtain rfl : first = x := Option.some.inj here
              exact absurd passes' passes
          | succ one =>
              obtain ⟨other, rfl⟩ :=
                Nat.exists_eq_succ_of_ne_zero (Nat.ne_of_gt (Nat.zero_lt_of_lt order))
              exact ⟨one, other, x, y, Nat.lt_of_succ_lt_succ order, here, there, passes', passes''⟩

/-- The name of the signal ends in a dotted name, behind a dot. -/
def Signal.EndsIn (signal : Signal) (name : String) : Prop :=
  '.' :: name.toList <:+ signal.name.toList

namespace Waveform

/-- No signal has the name in full. -/
def Unnamed (waveform : Waveform) (name : String) : Prop :=
  ∀ signal ∈ waveform.signals, signal.name ≠ name

/-- Two signals, or more, have names that end in a dotted name. -/
def Ambiguous (waveform : Waveform) (name : String) : Prop :=
  ∃ (one other : Nat) (signal signal' : Signal), one < other ∧
    waveform.signals[one]? = some signal ∧ waveform.signals[other]? = some signal' ∧
    signal.EndsIn name ∧ signal'.EndsIn name

/-- The signal that a dotted name stands for: the first that has the name in full, and if
there is none the only one whose name ends in it. -/
inductive StandsFor (waveform : Waveform) (name : String) (index : Nat) (signal : Signal) :
    Prop where
  | exact (here : waveform.signals[index]? = some signal) (named : signal.name = name)
      (first : ∀ earlier < index, ∀ other, waveform.signals[earlier]? = some other →
        other.name ≠ name)
  | ending (here : waveform.signals[index]? = some signal) (unnamed : waveform.Unnamed name)
      (ends : signal.EndsIn name)
      (only : ∀ place other, waveform.signals[place]? = some other → other.EndsIn name →
        place = index)

theorem ambiguous_iff (waveform : Waveform) (name : String) :
    waveform.Ambiguous name ↔
      2 ≤ waveform.signals.countP fun signal => signal.name.endsWith ("." ++ name) := by
  rw [two_le_countP_iff]
  simp only [Ambiguous, Signal.EndsIn, endsWith_dot_iff]

variable {waveform : Waveform} {name : String}

theorem unnamed_of_index (absent : waveform.indexOf? name = none) : waveform.Unnamed name :=
  fun signal member named =>
    absurd (decide_eq_true named)
      (Bool.eq_false_iff.mp (List.findIdx?_eq_none_iff.mp absent signal member))

/-- A name leads to the signal that it stands for. -/
theorem signal_stands (signal : Signal) (found : waveform.signal? name = some signal) :
    ∃ index, waveform.StandsFor name index signal := by
  rw [signal?, Option.bind_eq_some_iff] at found
  obtain ⟨index, resolved, here⟩ := found
  refine ⟨index, ?_⟩
  obtain ⟨inside, same⟩ := List.getElem?_eq_some_iff.mp here
  rw [resolve?] at resolved
  split at resolved
  next place first =>
      cases resolved
      obtain ⟨_, named, before⟩ := List.findIdx?_eq_some_iff_getElem.mp first
      refine .exact here (same ▸ of_decide_eq_true named) ?_
      intro earlier sooner other there named'
      obtain ⟨_, rfl⟩ := List.getElem?_eq_some_iff.mp there
      exact before earlier sooner (decide_eq_true named')
  next absent =>
      dsimp only at resolved
      split at resolved
      next single =>
          obtain ⟨_, ends, _⟩ := List.findIdx?_eq_some_iff_getElem.mp resolved
          rw [same] at ends
          refine .ending here (unnamed_of_index absent) ((endsWith_dot_iff _ _).mp ends) ?_
          -- A second place would make the name ambiguous.
          intro place other there ends'
          have clear : ¬ waveform.Ambiguous name := by
            rw [ambiguous_iff, single]
            decide
          have ends := (endsWith_dot_iff _ _).mp ends
          rcases Nat.lt_trichotomy place index with before | same | behind
          · exact absurd ⟨place, index, other, signal, before, there, here, ends', ends⟩ clear
          · exact same
          · exact absurd ⟨index, place, signal, other, behind, here, there, ends, ends'⟩ clear
      next => cases resolved

/-- A name leads nowhere if no signal has it in full and none, or several, end in it. -/
theorem signal_unclear (lost : waveform.signal? name = none) :
    waveform.Unnamed name ∧
      ((∀ signal ∈ waveform.signals, ¬ signal.EndsIn name) ∨ waveform.Ambiguous name) := by
  cases resolved : waveform.resolve? name with
  | some index =>
      have inside := resolve_inside resolved
      rw [signal?, resolved, Option.bind_some, List.getElem?_eq_getElem inside] at lost
      cases lost
  | none =>
      rw [resolve?] at resolved
      split at resolved
      next => cases resolved
      next absent =>
          refine ⟨unnamed_of_index absent, ?_⟩
          dsimp only at resolved
          split at resolved
          next single =>
              have nowhere := List.findIdx?_eq_none_iff.mp resolved
              have some := Nat.lt_of_lt_of_eq Nat.one_pos single.symm
              obtain ⟨signal, member, ends⟩ := List.countP_pos_iff.mp some
              exact absurd ends (Bool.eq_false_iff.mp (nowhere signal member))
          next several =>
              rcases Nat.lt_or_ge 1 (waveform.signals.countP
                fun signal => signal.name.endsWith ("." ++ name)) with many | few
              · exact .inr (waveform.ambiguous_iff name |>.mpr many)
              · have less := Nat.lt_one_iff.mp (Nat.lt_of_le_of_ne few several)
                have nobody := List.countP_eq_zero.mp less
                exact .inl fun signal member ends =>
                  nobody signal member ((endsWith_dot_iff _ _).mpr ends)

end Waveform

namespace Replay

/-- The value that was last written to a path with this normal form. -/
def lastDriven (name : String) (requests : List Request) : Option Bus :=
  (requests.filterMap fun request => match request with
    | .write path value => if normalize path = name then some value else none
    | _ => none).getLast?

theorem last_driven_concat (name : String) (requests : List Request) (request : Request) :
    lastDriven name (requests ++ [request]) = match request with
      | .write path value => if normalize path = name then some value else lastDriven name requests
      | _ => lastDriven name requests := by
  rw [lastDriven, List.filterMap_append, lastDriven]
  cases request with
  | read path => simp
  | advance units => simp
  | write path value => by_cases same : normalize path = name <;> simp [same]

/-- What a replay answers for a dotted name at a time in femtoseconds, by the value that was
driven if there is one, and else by the recording. -/
inductive Shows (waveform : Waveform) (driven : Option Bus) (time : Nat) (name : String) :
    Except ProbeError Bus → Prop where
  | driven (value : Bus) (last : driven = some value) : Shows waveform driven time name (.ok value)
  | recorded (undriven : driven = none) (index : Nat) (signal : Signal)
      (stands : waveform.StandsFor name index signal) :
      Shows waveform driven time name (.ok (signal.valueAt time))
  | unknown (undriven : driven = none) (unnamed : waveform.Unnamed name)
      (unclear : (∀ signal ∈ waveform.signals, ¬ signal.EndsIn name) ∨ waveform.Ambiguous name) :
      Shows waveform driven time name (.error (.unknownSignal name))

theorem answer_shows (replay : Replay) (name : String) :
    Shows replay.waveform (replay.forced.get? name) replay.nowFs name (replay.answer name) := by
  rw [answer]
  cases forced : replay.forced.get? name with
  | some value => exact .driven value rfl
  | none =>
      cases found : replay.waveform.signal? name with
      | some signal =>
          obtain ⟨index, stands⟩ := Waveform.signal_stands signal found
          exact .recorded rfl index signal stands
      | none =>
          obtain ⟨unnamed, unclear⟩ := Waveform.signal_unclear found
          exact .unknown rfl unnamed unclear

/-- Where a replay can come to by some requests. -/
structure Reached (waveform : Waveform) (unit : Nat) (requests : List Request) (replay : Replay) :
    Prop where
  recording : replay.waveform = waveform
  scale : replay.unit = unit
  covered : replay.now ≤ replay.endTime
  forced : ∀ name, replay.forced.get? name = lastDriven name requests

variable {waveform : Waveform} {unit : Nat} {requests : List Request} {replay : Replay}

theorem Reached.of_twin {after : Replay} (reached : Reached waveform unit requests replay)
    (twin : Twin after replay) : Reached waveform unit requests after where
  recording := twin.waveform.trans reached.recording
  scale := twin.unit.trans reached.scale
  covered := twin.now ▸ twin.end_time ▸ reached.covered
  forced name := twin.forced ▸ reached.forced name

/-- Only an advance moves the time, and it is refused beyond the recording. Only a write
changes what is driven. -/
theorem Reached.serve (reached : Reached waveform unit requests replay) (request : Request) :
    Reached waveform unit (requests ++ [request]) (Probe.serve replay request) := by
  have others := fun name => last_driven_concat name requests request
  cases request with
  | read path =>
      have kept := reached.of_twin (replay.read_twin path).2
      exact { kept with forced := fun name => (kept.forced name).trans (others name).symm }
  | write path value =>
      refine { reached with forced := ?_ }
      intro name
      show (replay.forced.put (normalize path) value).get? name = _
      rw [Table.get?_put, others, reached.forced]
  | advance units =>
      have forced := fun name => (reached.forced name).trans (others name).symm
      show Reached waveform unit _ (Replay.advance replay units).2
      rw [Replay.advance]
      split
      next => exact { reached with forced }
      next covered => exact { reached with covered := Nat.le_of_not_lt covered, forced }

theorem serve_all_reached (waveform : Waveform) (femtoseconds : Nat) (requests : List Request) :
    Reached waveform (max 1 femtoseconds) requests
      (Probe.serveAll (start waveform femtoseconds) requests) := by
  induction requests using List.reverseRecOn with
  | nil => exact ⟨rfl, rfl, Nat.zero_le _, fun _ => rfl⟩
  | append_singleton requests request ih =>
      rw [Probe.serve_all_concat]
      exact ih.serve request

/-- The present time is within the recording, so it fits into 64 bits of femtoseconds. -/
theorem Reached.time (reached : Reached waveform unit requests replay)
    (fits : waveform.endTime < wordLimit) :
    replay.now * unit ≤ waveform.endTime ∧ replay.nowFs = replay.now * unit := by
  have inside : replay.now * unit ≤ waveform.endTime := by
    have covered := Nat.mul_le_mul_right unit reached.covered
    rw [endTime, reached.recording, reached.scale] at covered
    exact Nat.le_trans covered (Nat.div_mul_le_self _ _)
  refine ⟨inside, ?_⟩
  rw [nowFs, reached.scale]
  omega

/-- Reads leave no trace but what is remembered. -/
theorem serve_all_twin (replay : Replay) (requests : List Request) :
    Twin (Probe.serveAll replay requests)
      (Probe.serveAll replay (requests.filter fun request => !request.isRead)) := by
  induction requests using List.reverseRecOn with
  | nil => exact .refl replay
  | append_singleton requests request ih =>
      rw [Probe.serve_all_concat, List.filter_append]
      cases request with
      | read path =>
          rw [List.filter_cons_of_neg Bool.false_ne_true, List.filter_nil, List.append_nil]
          exact (read_twin _ path).2.trans ih
      | write path value =>
          rw [List.filter_cons_of_pos rfl, List.filter_nil, Probe.serve_all_concat]
          exact ih.write path value
      | advance units =>
          rw [List.filter_cons_of_pos rfl, List.filter_nil, Probe.serve_all_concat]
          exact (ih.advance units).2

/-- After any requests the time of a replay is within its recording. A read answers the value
that was last driven under the normal form of its path, or else what is recorded there for
the present time, or that the signal is unknown. All requests are answered as if nothing had
been read before. -/
theorem answers_by_requests (text : String) (waveform : Waveform) (femtoseconds : Nat)
    (requests : List Request) (loaded : Waveform.ofText text = .ok waveform) :
    let unit := max 1 femtoseconds
    let replay := Probe.serveAll (start waveform femtoseconds) requests
    let unread := Probe.serveAll (start waveform femtoseconds)
      (requests.filter fun request => !request.isRead)
    replay.now ≤ replay.endTime ∧ replay.now * unit ≤ waveform.endTime ∧
      replay.nowFs = replay.now * unit ∧
      (∀ path, Shows waveform (lastDriven (normalize path) requests) (replay.now * unit)
        (normalize path) (Probe.read replay path).1) ∧
      (∀ path, (Probe.read replay path).1 = (Probe.read unread path).1) ∧
      ∀ units, (Probe.advance replay units).1 = (Probe.advance unread units).1 := by
  intro unit replay unread
  have reached : Reached waveform unit requests replay :=
    serve_all_reached waveform femtoseconds requests
  have twin : Twin replay unread := serve_all_twin (start waveform femtoseconds) requests
  obtain ⟨inside, now⟩ := reached.time (Waveform.loaded_ordered text waveform loaded).2
  refine ⟨reached.covered, inside, now, ?_, twin.read, fun units => (twin.advance units).1⟩
  intro path
  have shows := replay.answer_shows (normalize path)
  rw [reached.recording, reached.forced, now, ← (replay.read_twin path).1] at shows
  exact shows

/-- Two parts of a board with a signal of the same name, and one signal with a name of its
own. -/
def boardDump : String :=
  "$scope module cpu $end $var reg 4 ! pc $end $var reg 4 % acc $end $upscope $end " ++
    "$scope module dma $end $var reg 4 ? pc $end $upscope $end " ++
    "$enddefinitions $end #0 b10 ? #15 b11 % #40"

def board : Waveform where
  fsPerUnit := 1
  signals :=
    [⟨"cpu.pc", 4, []⟩, ⟨"cpu.acc", 4, [⟨15, Bus.ofNat 3 4⟩]⟩, ⟨"dma.pc", 4, [⟨0, Bus.ofNat 2 4⟩]⟩]
  endTime := 40

/-- Some paths are read at the start, before two units of time of ten femtoseconds each, and
one of them is driven under another spelling. The last advance is refused. -/
def boardRequests : List Request :=
  [.read "acc", .read "pc", .read "dma.pc", .write "/dma/pc" (Bus.ofNat 9 4), .advance 2,
    .advance 3]

/-- What was found at the start, or not found, is answered for the time that has come. -/
theorem board_answers :
    let replay := Probe.serveAll (Replay.start board 10) boardRequests
    Waveform.ofText boardDump = .ok board ∧ replay.now = 2 ∧ replay.nowFs = 20 ∧
      Shows board none 20 "acc" (Probe.read replay "/acc").1 ∧
      (Probe.read replay "/acc").1 = .ok (Bus.ofNat 3 4) ∧
      Shows board none 20 "pc" (Probe.read replay "pc").1 ∧
      (Probe.read replay "pc").1 = .error (.unknownSignal "pc") ∧
      Shows board (some (Bus.ofNat 9 4)) 20 "dma.pc" (Probe.read replay "dma/pc/").1 ∧
      (Probe.read replay "dma/pc/").1 = .ok (Bus.ofNat 9 4) := by
  intro replay
  have loaded : Waveform.ofText boardDump = .ok board := by decide +kernel
  obtain ⟨_, _, present, shows, _⟩ := answers_by_requests boardDump board 10 boardRequests loaded
  have time : replay.now = 2 := by decide +kernel
  have units : 2 * max 1 10 = 20 := by decide
  rw [time, units] at present
  have shown (path name : String) (driven : Option Bus) (normal : normalize path = name)
      (last : lastDriven name boardRequests = driven) :
      Shows board driven 20 name (Probe.read replay path).1 := by
    have shown := shows path
    rwa [normal, last, time, units] at shown
  have acc : Shows board none 20 "acc" (Probe.read replay "/acc").1 :=
    shown _ _ _ (by decide +kernel) (by decide +kernel)
  have pc : Shows board none 20 "pc" (Probe.read replay "pc").1 :=
    shown _ _ _ (by decide +kernel) (by decide +kernel)
  have dma : Shows board (some (Bus.ofNat 9 4)) 20 "dma.pc" (Probe.read replay "dma/pc/").1 :=
    shown _ _ _ (by decide +kernel) (by decide +kernel)
  exact ⟨loaded, time, present, acc, by decide +kernel, pc, by decide +kernel, dma,
    by decide +kernel⟩

end Replay

end CoreBench
