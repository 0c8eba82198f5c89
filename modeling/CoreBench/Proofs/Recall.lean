import CoreBench.Probe.Replay

/-!
What a replay remembers. The index of a signal is looked up once for each name; because the
search would find the same index again, what is remembered shows neither in the answers nor
in anything else that a replay does.
-/

namespace CoreBench

namespace Waveform

/-- The signal that a dotted name leads to. -/
def signal? (waveform : Waveform) (name : String) : Option Signal :=
  (waveform.resolve? name).bind fun index => waveform.signals[index]?

/-- A name is resolved to the place of a signal. -/
theorem resolve_inside {waveform : Waveform} {name : String} {index : Nat}
    (resolved : waveform.resolve? name = some index) : index < waveform.signals.length := by
  rw [resolve?] at resolved
  split at resolved
  next place found =>
    cases resolved
    exact (List.findIdx?_eq_some_iff_getElem.mp found).1
  next =>
    dsimp only at resolved
    split at resolved
    · exact (List.findIdx?_eq_some_iff_getElem.mp resolved).1
    · cases resolved

end Waveform

namespace Replay

/-- Two replays that differ at most in what they remember. -/
structure Twin (one other : Replay) : Prop where
  waveform : one.waveform = other.waveform
  unit : one.unit = other.unit
  now : one.now = other.now
  forced : one.forced = other.forced

theorem Twin.refl (replay : Replay) : Twin replay replay :=
  ⟨rfl, rfl, rfl, rfl⟩

theorem Twin.symm {one other : Replay} (twin : Twin one other) : Twin other one :=
  ⟨twin.waveform.symm, twin.unit.symm, twin.now.symm, twin.forced.symm⟩

theorem Twin.trans {one other third : Replay} (first : Twin one other) (second : Twin other third) :
    Twin one third :=
  ⟨first.waveform.trans second.waveform, first.unit.trans second.unit, first.now.trans second.now,
    first.forced.trans second.forced⟩

theorem Twin.end_time {one other : Replay} (twin : Twin one other) :
    one.endTime = other.endTime := by
  rw [endTime, endTime, twin.waveform, twin.unit]

theorem Twin.now_fs {one other : Replay} (twin : Twin one other) : one.nowFs = other.nowFs := by
  rw [nowFs, nowFs, twin.now, twin.unit]

/-- An index that is remembered is the one that a search finds. -/
theorem lookup_answer (replay : Replay) (name : String) :
    (replay.lookup name).1 = replay.waveform.resolve? name := by
  rw [lookup]
  split
  next index known => exact (replay.remembered name index known).symm
  next =>
      split
      next none => exact none.symm
      next index resolved => exact resolved.symm

theorem lookup_twin (replay : Replay) (name : String) : Twin (replay.lookup name).2 replay := by
  rw [lookup]
  split
  next => exact .refl replay
  next => split <;> exact ⟨rfl, rfl, rfl, rfl⟩

/-- The answer to a read, without what is remembered. -/
def answer (replay : Replay) (name : String) : Except ProbeError Bus :=
  match replay.forced.get? name with
  | some value => .ok value
  | none =>
      match replay.waveform.signal? name with
      | some signal => .ok (signal.valueAt replay.nowFs)
      | none => .error (.unknownSignal name)

theorem read_twin (replay : Replay) (path : String) :
    (replay.read path).1 = replay.answer (normalize path) ∧ Twin (replay.read path).2 replay := by
  have found := replay.lookup_answer (normalize path)
  have kept := replay.lookup_twin (normalize path)
  rw [read, answer]
  cases replay.forced.get? (normalize path) with
  | some value => exact ⟨rfl, .refl replay⟩
  | none =>
      dsimp only
      rw [Waveform.signal?, found, kept.waveform, kept.now_fs]
      cases (replay.waveform.resolve? (normalize path)).bind
          fun index => replay.waveform.signals[index]? with
      | some signal => exact ⟨rfl, kept⟩
      | none => exact ⟨rfl, kept⟩

variable {one other : Replay}

theorem Twin.read (twin : Twin one other) (path : String) :
    (one.read path).1 = (other.read path).1 := by
  rw [(one.read_twin path).1, (other.read_twin path).1, answer, answer, twin.forced,
    twin.waveform, twin.now_fs]

theorem Twin.write (twin : Twin one other) (path : String) (value : Bus) :
    Twin (one.write path value).2 (other.write path value).2 where
  waveform := twin.waveform
  unit := twin.unit
  now := twin.now
  forced := congrArg (·.put (normalize path) value) twin.forced

theorem Twin.advance (twin : Twin one other) (units : Nat) :
    (one.advance units).1 = (other.advance units).1 ∧
      Twin (one.advance units).2 (other.advance units).2 := by
  rw [Replay.advance, Replay.advance, twin.end_time, twin.now]
  split
  · exact ⟨rfl, twin⟩
  · exact ⟨rfl, twin.waveform, twin.unit, rfl, twin.forced⟩

end Replay

end CoreBench
