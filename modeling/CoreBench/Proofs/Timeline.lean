import CoreBench.Proofs.DumpReading
import Mathlib.Data.List.Forall2

/-!
What a loaded waveform records is what the words of its dump say. The changes that they write are
in the order of time. Every signal holds those of its identifier, and its value at a time is the
last of them up to that time.
-/

namespace CoreBench.Waveform

theorem Item.end_cons (unit now : Nat) (item : Item) (items : List Item) :
    endFrom unit now (item :: items) = endFrom unit ((item.time? unit).getD now) items := by
  rw [endFrom, endFrom, List.filterMap_cons]
  cases item.time? unit with
  | none => rfl
  | some time => rw [List.getLast?_cons]; rfl

/-- What the changes that items write have to do with the time in front of the items and the
time behind them. -/
structure Item.Between (unit first last : Nat) (changes : List Change) : Prop where
  order : first ≤ last
  ordered : changes.Pairwise fun earlier later => earlier.time ≤ later.time
  inside : ∀ change ∈ changes, first ≤ change.time ∧ change.time ≤ last ∧ unit ∣ change.time

theorem Item.Between.note {unit now last : Nat} {changes : List Change}
    (between : Between unit now last changes) (scaled : unit ∣ now) (identifier levels : List Char) :
    Between unit now last (⟨now, identifier, levels⟩ :: changes) where
  order := between.order
  ordered := List.pairwise_cons.mpr ⟨fun later member => (between.inside later member).1,
    between.ordered⟩
  inside := List.forall_mem_cons.mpr ⟨⟨Nat.le_refl _, between.order, scaled⟩, between.inside⟩

theorem Item.changes_between (unit now : Nat) (items : List Item)
    (ordered : (now :: items.filterMap (time? unit)).Pairwise (· ≤ ·)) (scaled : unit ∣ now) :
    Between unit now (endFrom unit now items) (changesFrom unit now items) := by
  induction items generalizing now with
  | nil => exact ⟨Nat.le_refl _, .nil, List.forall_mem_nil _⟩
  | cons item items ih =>
      rw [end_cons]
      rw [List.filterMap_cons] at ordered
      cases item with
      | around _ | aside _ | real _ _ _ => exact ih now ordered scaled
      | vector _ levels identifier => exact (ih now ordered scaled).note scaled identifier levels
      | scalar level identifier => exact (ih now ordered scaled).note scaled identifier [level]
      | stamp digits =>
          rw [changesFrom]
          cases read : (stamp digits).time? unit with
          | none =>
              rw [read] at ordered
              exact ih now ordered scaled
          | some time =>
              rw [read] at ordered
              obtain ⟨least, ordered⟩ := List.pairwise_cons.mp ordered
              have multiple : unit ∣ time := by
                obtain ⟨count, _, rfl⟩ := Option.map_eq_some_iff.mp read
                exact Nat.dvd_mul_left unit count
              have later := ih time ordered multiple
              have order := least time List.mem_cons_self
              exact ⟨Nat.le_trans order later.order, later.ordered, fun change member =>
                ⟨Nat.le_trans order (later.inside change member).1, (later.inside change member).2⟩⟩

/-- A signal holds what a dump says of the variable. -/
structure Dump.Tells (dump : Dump) (declaration : Declaration) (signal : Signal) : Prop where
  name : signal.name = String.ofList (['.'].intercalate (declaration.scopes ++ [declaration.name]))
  width : signal.width = declaration.width
  history : signal.history = historyOf dump.changes declaration.identifier declaration.width
  ordered : signal.history.Pairwise fun earlier later => earlier.time ≤ later.time
  samples : ∀ sample ∈ signal.history, dump.unit ∣ sample.time ∧ sample.time ≤ dump.endTime ∧
    sample.value.width = declaration.width
  values : ∀ time, signal.valueAt time =
    latest dump.changes declaration.identifier declaration.width time

theorem Dump.tells_after (dump : Dump) (declaration : Declaration)
    (between : Item.Between dump.unit 0 dump.endTime dump.changes) :
    dump.Tells declaration ⟨declaration.entry.name, declaration.width,
      (declaration.entry.after dump.changes).newest.reverse⟩ := by
  have history : (declaration.entry.after dump.changes).newest.reverse =
      historyOf dump.changes declaration.identifier declaration.width := by
    simp [Variable.after, Declaration.entry]
  refine ⟨rfl, rfl, history, ?_, ?_, ?_⟩
  · dsimp only
    rw [history]
    exact history_sorted _ _ _ between.ordered
  · dsimp only
    rw [history]
    intro sample recorded
    obtain ⟨change, heard, rfl⟩ := List.mem_map.mp recorded
    obtain ⟨_, bound, divides⟩ := between.inside change (List.mem_filter.mp heard).1
    exact ⟨divides, bound, change.width_value declaration.width⟩
  · exact value_at_latest _ dump.changes declaration.identifier history between.ordered

/-- A dump that loads divides into its parts, and its waveform tells what they say. -/
theorem loaded_divides (text : String) (waveform : Waveform) (loaded : ofText text = .ok waveform) :
    ∃ dump : Dump, dump.Sound ∧ dump.words = Text.words text.toList ∧
      Item.Between dump.unit 0 dump.endTime dump.changes ∧
      waveform = {
        fsPerUnit := dump.unit
        signals := dump.declarations.map fun declaration => ⟨declaration.entry.name,
          declaration.width, (declaration.entry.after dump.changes).newest.reverse⟩
        endTime := dump.endTime } := by
  obtain ⟨final, ran, finished⟩ := (of_tokens_ok_iff _ _).mp loaded
  have leads := Progress.leads_of_run _ _ _ ran
  rw [Token.text_of_text] at leads
  obtain ⟨parts, closing, rest, left, words, defines, whole, later⟩ :=
    Progress.leads_defining 1 [] [] _ final leads (Progress.over_of_finish final waveform finished)
  have nonempty : ∀ word ∈ rest, word ≠ [] := by
    intro word member
    refine (solid_words text.toList word ?_).1
    rw [words]
    exact List.mem_append_right _ (List.mem_append_right _ member)
  obtain ⟨items, broken, records⟩ :=
    Progress.leads_changing _ left _ 0 rest final waveform later finished nonempty
  have between := Item.changes_between (Section.unit 1 parts) 0 items records.ordered
    (Nat.dvd_zero _)
  refine ⟨⟨parts, closing, items, broken⟩, ?_, ?_, between, ?_⟩
  · refine ⟨⟨defines, whole, records.shaped, records.real⟩, records.counted,
      (List.pairwise_cons.mp records.ordered).2, ?_⟩
    rintro change member ⟨declaration, declared, same⟩
    refine records.readable change member ⟨declaration.entry, ?_, same⟩
    exact List.mem_append_right _ (List.mem_map_of_mem declared)
  · rw [words, records.words]
    rfl
  · rw [records.waveform, List.nil_append, List.map_map, List.map_map]
    rfl

/-- The words of a text that loads are those of one dump only. There is a signal for each variable
that it declares, in their order. The signal holds the changes of the variable's identifier, at
its width and in the order of the words and of time, and at any time its value is the last of
them up to that time. -/
theorem signals_hold_changes (text : String) (waveform : Waveform)
    (loaded : ofText text = .ok waveform) :
    ∃ dump : Dump, dump.Sound ∧ dump.words = Text.words text.toList ∧
      (∀ other : Dump, other.Shaped → other.words = Text.words text.toList → other = dump) ∧
      waveform.fsPerUnit = dump.unit ∧ waveform.endTime = dump.endTime ∧
      List.Forall₂ dump.Tells dump.declarations waveform.signals ∧
      ∀ signal ∈ waveform.signals, ∀ time, (signal.valueAt time).width = signal.width := by
  obtain ⟨dump, sound, words, between, rfl⟩ := loaded_divides text waveform loaded
  refine ⟨dump, sound, words, ?_, rfl, rfl, ?_, ?_⟩
  · intro other shaped words'
    exact Dump.words_inj shaped sound.toShaped (words'.trans words.symm)
  · rw [List.forall₂_map_right_iff, List.forall₂_same]
    exact fun declaration _ => dump.tells_after declaration between
  · intro signal member time
    obtain ⟨declaration, _, rfl⟩ := List.mem_map.mp member
    rw [(dump.tells_after declaration between).values time]
    exact width_latest _ _ _ _

/-- Two variables that share an identifier, the outer one wider than any change of it. There are
changes in front of the first timestamp, in blocks and outside of them, and two timestamps of one
time; a section and two real values are passed over, the last one without an identifier. -/
def crowdedLines : List String :=
  ["$date today $end $timescale 10 ps $end", "$scope module top $end $var reg 4 ! bus $end",
    "$upscope $end $var wire 1 ! line [0] $end", "$enddefinitions $end",
    "$dumpvars bz1 ! 0? $end r1.5 ! #5", "$comment b1 ! $end b011 ! #5 x! $dumpoff 1! $end #7 R2"]

def crowdedText : List Char :=
  crowdedLines.flatMap fun line => line.toList ++ ['\n']

def crowdedParts : Dump where
  definitions := [
    ⟨"$date".toList, ["today".toList]⟩, ⟨"$timescale".toList, ["10".toList, "ps".toList]⟩,
    ⟨"$scope".toList, ["module".toList, "top".toList]⟩,
    ⟨"$var".toList, ["reg".toList, "4".toList, "!".toList, "bus".toList]⟩, ⟨"$upscope".toList, []⟩,
    ⟨"$var".toList, ["wire".toList, "1".toList, "!".toList, "line".toList, "[0]".toList]⟩]
  closing := []
  items := [
    .around "$dumpvars".toList, .vector 'b' "z1".toList "!".toList, .scalar '0' "?".toList,
    .around "$end".toList, .real 'r' "1.5".toList "!".toList, .stamp "5".toList,
    .aside ⟨"$comment".toList, ["b1".toList, "!".toList]⟩, .vector 'b' "011".toList "!".toList,
    .stamp "5".toList, .scalar 'x' "!".toList, .around "$dumpoff".toList, .scalar '1' "!".toList,
    .around "$end".toList, .stamp "7".toList]
  broken := some "R2".toList

def crowdedBus : Signal where
  name := "top.bus"
  width := 4
  history := [⟨0, ⟨[.high, .floating, .floating, .floating]⟩⟩,
    ⟨50000, ⟨[.high, .high, .low, .low]⟩⟩,
    ⟨50000, ⟨[.unknown, .unknown, .unknown, .unknown]⟩⟩, ⟨50000, ⟨[.high, .low, .low, .low]⟩⟩]

def crowdedLine : Signal where
  name := "line"
  width := 1
  history := [⟨0, ⟨[.high]⟩⟩, ⟨50000, ⟨[.high]⟩⟩, ⟨50000, ⟨[.unknown]⟩⟩, ⟨50000, ⟨[.high]⟩⟩]

theorem crowded_shaped : crowdedParts.Shaped where
  definitions := by
    intro part member
    simp only [crowdedParts, List.mem_cons, List.not_mem_nil, or_false] at member
    rcases member with rfl | rfl | rfl | rfl | rfl | rfl
    all_goals exact ⟨⟨by decide, by decide⟩, by decide, by decide +kernel, by decide +kernel⟩
  closing := List.not_mem_nil
  items := by
    intro item member
    simp only [crowdedParts, List.mem_cons, List.not_mem_nil, or_false] at member
    rcases member with rfl | rfl | rfl | rfl | rfl | rfl | rfl | rfl | rfl | rfl | rfl | rfl | rfl | rfl
    case inr.inr.inr.inr.inr.inr.inl => exact ⟨⟨by decide, by decide⟩, by decide⟩
    all_goals simp [Item.Shaped, Item.aroundBlocks]
  broken := by simp [crowdedParts]

/-- Changes of blocks count, those of sections do not, and at one time the last one holds. -/
theorem crowded_dump_loaded :
    ofText (String.ofList crowdedText) = .ok ⟨10000, [crowdedBus, crowdedLine], 70000⟩ ∧
      crowdedParts.words = Text.words crowdedText ∧ crowdedParts.Sound ∧
      crowdedParts.changes = [⟨0, ['!'], ['z', '1']⟩, ⟨0, ['?'], ['0']⟩,
        ⟨50000, ['!'], ['0', '1', '1']⟩, ⟨50000, ['!'], ['x']⟩, ⟨50000, ['!'], ['1']⟩] ∧
      List.Forall₂ crowdedParts.Tells crowdedParts.declarations [crowdedBus, crowdedLine] ∧
      crowdedBus.valueAt 49999 = ⟨[.high, .floating, .floating, .floating]⟩ ∧
      crowdedBus.valueAt 60000 = ⟨[.high, .low, .low, .low]⟩ ∧
      crowdedLine.valueAt 60000 = ⟨[.high]⟩ := by
  have loaded : ofText (String.ofList crowdedText) =
      .ok ⟨10000, [crowdedBus, crowdedLine], 70000⟩ := by
    rw [ofText, String.toList_ofList]
    decide +kernel
  have words : crowdedParts.words = Text.words crowdedText := by decide +kernel
  obtain ⟨dump, sound, _, unique, _, _, tells, _⟩ := signals_hold_changes _ _ loaded
  obtain rfl := unique crowdedParts crowded_shaped (by rw [String.toList_ofList, words])
  refine ⟨loaded, words, sound, by decide +kernel, tells, ?_⟩
  have declared : crowdedParts.declarations = [
      ⟨["top".toList], "reg".toList, 4, "!".toList, "bus".toList⟩,
      ⟨[], "wire".toList, 1, "!".toList, "line".toList⟩] := by decide +kernel
  rw [declared] at tells
  obtain ⟨bus, rest⟩ := List.forall₂_cons.mp tells
  obtain ⟨line, _⟩ := List.forall₂_cons.mp rest
  rw [bus.values, bus.values, line.values]
  decide +kernel

end CoreBench.Waveform
