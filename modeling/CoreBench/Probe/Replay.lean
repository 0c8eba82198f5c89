import CoreBench.Probe.Basic
import CoreBench.Table
import CoreBench.Waveform.Basic

/-!
Replaying a recorded simulation as if it were running. Paths may be written with
slashes or dots. A driven signal keeps the driven value for the rest of the
replay, because a recording cannot react to it. Where a name leads to is looked up
once and then remembered.
-/

namespace CoreBench

/-- The indices that are remembered are those that a search would find again. -/
def Waveform.Remembered (waveform : Waveform) (found : Table Nat) : Prop :=
  ∀ name index, found.get? name = some index → waveform.resolve? name = some index

theorem Waveform.remembered_nil (waveform : Waveform) : waveform.Remembered [] :=
  nofun

theorem Waveform.Remembered.put {waveform : Waveform} {found : Table Nat}
    (remembered : waveform.Remembered found) {name : String} {index : Nat}
    (resolved : waveform.resolve? name = some index) :
    waveform.Remembered (found.put name index) := by
  intro other place known
  rw [Table.get?_put] at known
  split at known
  next same =>
      cases known
      exact same ▸ resolved
  next => exact remembered other place known

structure Replay where
  waveform : Waveform
  unit : Nat
  now : Nat := 0
  forced : Table Bus := []
  found : Table Nat := []
  remembered : waveform.Remembered found := by exact Waveform.remembered_nil _
  deriving Repr

namespace Replay

/-- A replay whose time unit takes the given femtoseconds, of at least one. -/
def start (waveform : Waveform) (femtoseconds : Nat) : Replay :=
  { waveform, unit := max 1 femtoseconds }

/-- The last time that the recording covers, in time units. -/
def endTime (replay : Replay) : Nat :=
  replay.waveform.endTime / replay.unit

def trimSlashes (cs : List Char) : List Char :=
  let isSlash := fun (c : Char) => c == '/'
  ((cs.dropWhile isSlash).reverse.dropWhile isSlash).reverse

/-- The path without slashes at its ends and with dots for those inside. -/
def normalize (path : String) : String :=
  String.ofList ((trimSlashes path.toList).map fun c => if c = '/' then '.' else c)

/-- The present time in femtoseconds, of at most 64 bits. -/
def nowFs (replay : Replay) : Nat :=
  min (replay.now * replay.unit) (wordLimit - 1)

/-- The index of the signal with a dotted name, which is remembered if there is one. -/
def lookup (replay : Replay) (name : String) : Option Nat × Replay :=
  match replay.found.get? name with
  | some index => (some index, replay)
  | none =>
      match resolved : replay.waveform.resolve? name with
      | none => (none, replay)
      | some index =>
          (some index, { replay with
            found := replay.found.put name index
            remembered := replay.remembered.put resolved })

/-- The value that the path was last driven to. -/
def forced? (replay : Replay) (path : String) : Option Bus :=
  replay.forced.get? (normalize path)

/-- The value that a signal was last driven to, or else what was recorded. -/
def read (replay : Replay) (path : String) : Except ProbeError Bus × Replay :=
  let name := normalize path
  match replay.forced.get? name with
  | some value => (.ok value, replay)
  | none =>
      match replay.lookup name with
      | (index?, replay) =>
          match index?.bind fun index => replay.waveform.signals[index]? with
          | some signal => (.ok (signal.valueAt replay.nowFs), replay)
          | none => (.error (.unknownSignal name), replay)

def write (replay : Replay) (path : String) (value : Bus) : Except ProbeError Unit × Replay :=
  (.ok (), { replay with forced := replay.forced.put (normalize path) value })

def advance (replay : Replay) (units : Nat) : Except ProbeError Unit × Replay :=
  let requested := min (replay.now + units) (wordLimit - 1)
  if replay.endTime < requested then (.error (.endOfTrace replay.endTime requested), replay)
  else (.ok (), { replay with now := requested })

instance : Probe Replay where
  read := read
  write := write
  advance := advance
  now := now

end Replay

end CoreBench
