import CoreBench.Proofs.Requests

/-!
How far a replay can be advanced. An advance that stays within the recording moves the time
by what was asked for and changes nothing else; one beyond the end changes nothing at all. So
it makes no difference into how many advances a stretch of time is cut. A recording that
lasts until the last time of 64 bits has nothing beyond its end: there the time stops without
an error.
-/

namespace CoreBench.Replay

/-- The time that an advance asks for is cut off at the last one of 64 bits, and compared
with the end only then. -/
theorem advance_ok_iff (replay after : Replay) (units : Nat) :
    Probe.advance replay units = (.ok (), after) ↔
      min (replay.now + units) (wordLimit - 1) ≤ replay.endTime ∧
        after = { replay with now := min (replay.now + units) (wordLimit - 1) } := by
  change Replay.advance replay units = _ ↔ _
  unfold Replay.advance
  by_cases beyond : replay.endTime < min (replay.now + units) (wordLimit - 1)
  · simp only [beyond, ↓reduceIte, Prod.mk.injEq, reduceCtorEq, false_and, false_iff]
    rintro ⟨inside, _⟩
    exact Nat.not_lt.mpr inside beyond
  · simp [beyond, Nat.le_of_not_lt beyond, eq_comm]

/-- An advance that does not succeed has no effect. -/
theorem advance_refused (replay : Replay) (units : Nat)
    (refused : (Probe.advance replay units).1 ≠ .ok ()) :
    Probe.advance replay units =
      (.error (.endOfTrace replay.endTime (min (replay.now + units) (wordLimit - 1))), replay) := by
  change Replay.advance replay units = _
  unfold Replay.advance
  by_cases beyond : replay.endTime < min (replay.now + units) (wordLimit - 1)
  · simp [beyond]
  · exact absurd (congrArg Prod.fst ((advance_ok_iff replay _ units).mpr
      ⟨Nat.le_of_not_lt beyond, rfl⟩)) refused

theorem advance_covered (replay : Replay) (units : Nat) (fits : replay.endTime < wordLimit)
    (covered : replay.now + units ≤ replay.endTime) :
    Probe.advance replay units = (.ok (), { replay with now := replay.now + units }) := by
  have whole : min (replay.now + units) (wordLimit - 1) = replay.now + units := by omega
  apply (advance_ok_iff replay _ units).mpr
  simp [whole, covered]

/-- Unless the recording lasts until the last time of 64 bits, an advance succeeds only
within it. -/
theorem covered_of_advance (replay : Replay) (units : Nat)
    (short : replay.endTime < wordLimit - 1 ∨ replay.now + units < wordLimit)
    (succeeded : (Probe.advance replay units).1 = .ok ()) :
    replay.now + units ≤ replay.endTime := by
  have inside := ((advance_ok_iff replay _ units).mp (Prod.ext succeeded rfl)).1
  omega

theorem advance_stops (replay : Replay) (units : Nat) (lasts : replay.endTime = wordLimit - 1)
    (full : wordLimit ≤ replay.now + units) :
    Probe.advance replay units = (.ok (), { replay with now := wordLimit - 1 }) := by
  have cut : min (replay.now + units) (wordLimit - 1) = wordLimit - 1 := by omega
  apply (advance_ok_iff replay _ units).mpr
  simp [cut, lasts]

/-- Two advances succeed, and lead to the same replay, exactly if one advance does that takes
as long as both. -/
theorem advance_add (replay after : Replay) (first second : Nat) :
    (∃ between, Probe.advance replay first = (.ok (), between) ∧
        Probe.advance between second = (.ok (), after)) ↔
      Probe.advance replay (first + second) = (.ok (), after) := by
  -- Cutting off in between makes no difference to the time that is asked for in the end.
  have total : min (min (replay.now + first) (wordLimit - 1) + second) (wordLimit - 1) =
      min (replay.now + (first + second)) (wordLimit - 1) := by omega
  rw [advance_ok_iff, ← total]
  constructor
  · rintro ⟨between, succeeded, rest⟩
    obtain ⟨_, rfl⟩ := (advance_ok_iff replay between first).mp succeeded
    exact (advance_ok_iff _ after second).mp rest
  · intro rest
    refine ⟨{ replay with now := min (replay.now + first) (wordLimit - 1) }, ?_,
      (advance_ok_iff _ after second).mpr rest⟩
    exact (advance_ok_iff replay _ first).mpr ⟨by omega, rfl⟩

/-- After any requests an advance succeeds exactly if the recording covers the time that is
asked for; then that is the new time, and nothing else changes. Any other advance is refused
and has no effect. Only at the last time of 64 bits, if the recording lasts until then, do
advances succeed that go beyond it, and stop there. However a stretch of time is cut in two,
the two advances come to what one advance comes to. -/
theorem advance_stays_covered (waveform : Waveform) (femtoseconds : Nat) (requests : List Request)
    (fits : waveform.endTime < wordLimit) :
    let replay := Probe.serveAll (start waveform femtoseconds) requests
    (∀ units, replay.endTime < wordLimit - 1 ∨ replay.now + units < wordLimit →
      ((Probe.advance replay units).1 = .ok () ↔ replay.now + units ≤ replay.endTime)) ∧
      (∀ units, replay.now + units ≤ replay.endTime →
        (Probe.advance replay units).2 = { replay with now := replay.now + units }) ∧
      (∀ units, (Probe.advance replay units).1 ≠ .ok () → ∃ requested,
        Probe.advance replay units = (.error (.endOfTrace replay.endTime requested), replay)) ∧
      (∀ units, replay.endTime = wordLimit - 1 → wordLimit ≤ replay.now + units →
        Probe.advance replay units = (.ok (), { replay with now := wordLimit - 1 })) ∧
      ∀ first second after,
        (∃ between, Probe.advance replay first = (.ok (), between) ∧
            Probe.advance between second = (.ok (), after)) ↔
          Probe.advance replay (first + second) = (.ok (), after) := by
  intro replay
  have reached := serve_all_reached waveform femtoseconds requests
  have bound : replay.endTime < wordLimit := by
    have scaled : replay.endTime = waveform.endTime / max 1 femtoseconds := by
      rw [endTime, reached.recording, reached.scale]
    rw [scaled]
    exact Nat.lt_of_le_of_lt (Nat.div_le_self _ _) fits
  refine ⟨?_, ?_, ?_, replay.advance_stops, fun first second after =>
    replay.advance_add after first second⟩
  · intro units short
    constructor
    · exact replay.covered_of_advance units short
    · intro covered
      rw [replay.advance_covered units bound covered]
  · intro units covered
    rw [replay.advance_covered units bound covered]
  · intro units refused
    exact ⟨_, replay.advance_refused units refused⟩

/-- A recording that lasts until the last time of 64 bits. -/
def endlessDump : String :=
  "$timescale 1fs $end $enddefinitions $end #18446744073709551615"

def endless : Waveform where
  fsPerUnit := 1
  signals := []
  endTime := wordLimit - 1

/-- In long units the recording covers three of them. After the first one an advance by three
more is refused, and one by two is not, nor are two by one. -/
theorem endless_covers_three :
    let replay := Probe.serveAll (start endless 0x4000000000000000) [.advance 1, .advance 3]
    endless.endTime < wordLimit ∧ replay.now = 1 ∧ replay.endTime = 3 ∧
      (Probe.advance replay 2).1 = .ok () ∧
      (∃ requested,
        Probe.advance replay 3 = (.error (.endOfTrace replay.endTime requested), replay)) ∧
      ∃ between after, Probe.advance replay 1 = (.ok (), between) ∧
        Probe.advance between 1 = (.ok (), after) ∧ after.now = 3 := by
  intro replay
  have fits : endless.endTime < wordLimit := by decide
  obtain ⟨covered, moved, refused, _, divided⟩ :=
    advance_stays_covered endless 0x4000000000000000 [.advance 1, .advance 3] fits
  have now : replay.now = 1 := by decide
  have last : replay.endTime = 3 := by decide
  have room : replay.endTime < wordLimit - 1 := by decide
  have inside : replay.now + 2 ≤ replay.endTime := by omega
  have succeeds : (Probe.advance replay 2).1 = .ok () := (covered 2 (.inl room)).mpr inside
  have after : (Probe.advance replay 2).2 = { replay with now := replay.now + 2 } := moved 2 inside
  refine ⟨fits, now, last, succeeds, ?_, ?_⟩
  · apply refused 3
    intro succeeded
    have inside : replay.now + 3 ≤ replay.endTime := (covered 3 (.inl room)).mp succeeded
    omega
  · obtain ⟨between, first, second⟩ := (divided 1 1 _).mpr (Prod.ext succeeds after)
    refine ⟨between, _, first, second, ?_⟩
    change replay.now + 2 = 3
    rw [now]

/-- In units of one femtosecond the time stands still at the end, and no advance is refused. -/
theorem endless_never_refuses :
    let replay := Probe.serveAll (start endless 1) [.advance (wordLimit - 1)]
    Waveform.ofText endlessDump = .ok endless ∧ replay.endTime < replay.now + 1 ∧
      Probe.advance replay 1 = (.ok (), replay) := by
  intro replay
  have now : replay.now = wordLimit - 1 := by decide
  have stops := replay.advance_stops 1 (by decide) (by omega)
  rw [← now] at stops
  exact ⟨by decide +kernel, by decide, stops⟩

end CoreBench.Replay
