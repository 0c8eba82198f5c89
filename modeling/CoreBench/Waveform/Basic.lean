import CoreBench.Bisection
import CoreBench.Bus

/-!
A recorded simulation: signals with dotted names, each with the history of its
values in the order of the recording, and the time of the last record. Times are
in femtoseconds.
-/

namespace CoreBench

structure Sample where
  time : Nat
  value : Bus
  deriving DecidableEq, Repr

structure Signal where
  name : String
  width : Nat
  history : List Sample
  deriving DecidableEq, Repr

structure Waveform where
  fsPerUnit : Nat
  signals : List Signal
  endTime : Nat
  deriving DecidableEq, Repr

/-- How many samples there are up to `time`, in a history in order of time. -/
def Signal.samplesUpTo (signal : Signal) (time : Nat) : Nat :=
  passing (fun sample => sample.time ≤ time) signal.history

/-- Bisection of a history in order of time finds all samples up to `time`. -/
theorem Signal.take_samples_up_to (signal : Signal) (time : Nat)
    (sorted : signal.history.Pairwise fun earlier later => earlier.time ≤ later.time) :
    signal.history.take (signal.samplesUpTo time) =
      signal.history.filter fun sample => sample.time ≤ time := by
  apply take_passing
  apply sorted.imp
  intro earlier later order passes
  exact decide_eq_true (Nat.le_trans order (of_decide_eq_true passes))

/-- The value of the last sample up to `time`; unknown before the first one. -/
def Signal.valueAt (signal : Signal) (time : Nat) : Bus :=
  match (signal.history.take (signal.samplesUpTo time)).getLast? with
  | some sample => sample.value
  | none => Bus.filled signal.width .unknown

namespace Waveform

def indexOf? (waveform : Waveform) (name : String) : Option Nat :=
  waveform.signals.findIdx? fun signal => signal.name = name

/-- The first signal with this full name, or else the only one whose name ends in
it after a dot. -/
def resolve? (waveform : Waveform) (name : String) : Option Nat :=
  match waveform.indexOf? name with
  | some index => some index
  | none =>
      let ending := "." ++ name
      if waveform.signals.countP (fun signal => signal.name.endsWith ending) = 1 then
        waveform.signals.findIdx? fun signal => signal.name.endsWith ending
      else none

theorem endsWith_dot_iff (name full : String) :
    full.endsWith ("." ++ name) ↔ '.' :: name.toList <:+ full.toList := by
  rw [← String.endsWith_toSlice, String.Slice.endsWith_string_iff]
  simp

end Waveform

end CoreBench
