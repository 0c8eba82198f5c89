import CoreBench.Bus

/-!
Buses and their texts. A text has the most significant line first and the list of levels has it
last, so a text read backwards is the reversed bus. What is written is read back, and what is read
is written with every level as one of four characters. Resizing works at the end where a text
starts.
-/

namespace CoreBench

namespace Level

/-- The character that stands for a level of `std_logic`, in either case: strong levels stand for
weak ones, and every kind of unknown level is written alike. -/
def fold (c : Char) : Char :=
  if c.toUpper = 'L' then '0'
  else if c.toUpper = 'H' then '1'
  else if c.toUpper ∈ ['U', 'W', '-'] then 'X'
  else c.toUpper

theorem fold_of_mem {spellings : List Char} {c plain : Char}
    (all : spellings.all (fun c => fold c == plain) = true) (member : c ∈ spellings) :
    fold c = plain :=
  beq_iff_eq.mp (List.all_eq_true.mp all c member)

theorem fold_of_char {c : Char} {level : Level} (read : ofChar? c = some level) :
    fold c = level.toChar := by
  rw [ofChar?] at read
  split at read
  next low =>
    cases read
    exact fold_of_mem (by decide) low
  split at read
  next high =>
    cases read
    exact fold_of_mem (by decide) high
  split at read
  next unknown =>
    cases read
    exact fold_of_mem (by decide) unknown
  split at read
  next floating =>
    cases read
    exact fold_of_mem (by decide) floating
  next => cases read

end Level

namespace Bus

theorem mapM_levels (cs : List Char) (levels : List Level) :
    cs.mapM Level.ofChar? = some levels ↔
      (∀ c ∈ cs, (Level.ofChar? c).isSome) ∧
        levels = cs.map fun c => (Level.ofChar? c).getD .unknown := by
  induction cs generalizing levels with
  | nil =>
      simp only [List.mapM_nil, Option.pure_def, Option.some.injEq, List.not_mem_nil, false_implies,
        implies_true, true_and, List.map_nil]
      exact eq_comm
  | cons c cs ih =>
      cases found : Level.ofChar? c with
      | none => simp [found]
      | some level =>
          simp only [List.mapM_cons, found, Option.pure_def, Option.bind_eq_bind, Option.bind_some,
            Option.bind_eq_some_iff, Option.some.injEq, List.mem_cons, forall_eq_or_imp,
            Option.isSome_some, true_and, List.map_cons, Option.getD_some]
          constructor
          · rintro ⟨rest, read, rfl⟩
            obtain ⟨valid, rfl⟩ := (ih rest).mp read
            exact ⟨valid, rfl⟩
          · rintro ⟨valid, rfl⟩
            exact ⟨_, (ih _).mpr ⟨valid, rfl⟩, rfl⟩

theorem of_chars_iff (cs : List Char) (bus : Bus) :
    ofChars? cs = some bus ↔ (∀ c ∈ cs, (Level.ofChar? c).isSome) ∧
      bus = ⟨cs.reverse.map fun c => (Level.ofChar? c).getD .unknown⟩ := by
  simp only [ofChars?, Option.map_eq_some_iff, mapM_levels, List.mem_reverse]
  constructor
  · rintro ⟨levels, ⟨valid, rfl⟩, rfl⟩
    exact ⟨valid, rfl⟩
  · rintro ⟨valid, rfl⟩
    exact ⟨_, ⟨valid, rfl⟩, rfl⟩

theorem of_chars_none_iff (cs : List Char) :
    ofChars? cs = none ↔ ∃ c ∈ cs, Level.ofChar? c = none := by
  constructor
  · intro none
    by_cases valid : ∀ c ∈ cs, (Level.ofChar? c).isSome
    · rw [(of_chars_iff cs _).mpr ⟨valid, rfl⟩] at none
      cases none
    · simpa using valid
  · rintro ⟨c, member, wrong⟩
    cases read : ofChars? cs with
    | none => rfl
    | some bus =>
        have valid := ((of_chars_iff cs bus).mp read).1 c member
        rw [wrong] at valid
        cases valid

/-- A text from behind is the reversed bus. -/
theorem of_chars_reverse (cs : List Char) : ofChars? cs.reverse = (ofChars? cs).map reverse := by
  cases read : ofChars? cs with
  | none =>
      obtain ⟨c, member, wrong⟩ := (of_chars_none_iff cs).mp read
      exact (of_chars_none_iff cs.reverse).mpr ⟨c, List.mem_reverse.mpr member, wrong⟩
  | some bus =>
      obtain ⟨valid, rfl⟩ := (of_chars_iff cs bus).mp read
      apply (of_chars_iff cs.reverse _).mpr
      refine ⟨fun c member => valid c (List.mem_reverse.mp member), ?_⟩
      rw [reverse, List.map_reverse, List.map_reverse, List.map_reverse]

theorem of_chars_levels (bus : Bus) :
    ofChars? (bus.levels.reverse.map Level.toChar) = some bus := by
  apply (of_chars_iff _ bus).mpr
  constructor
  · intro c member
    obtain ⟨level, _, rfl⟩ := List.mem_map.mp member
    rw [Level.ofChar?_toChar]
    rfl
  · simp [Function.comp_def]

theorem levels_of_chars {cs : List Char} {bus : Bus} (read : ofChars? cs = some bus) :
    bus.levels.reverse.map Level.toChar = cs.map Level.fold := by
  obtain ⟨valid, rfl⟩ := (of_chars_iff cs bus).mp read
  rw [← List.map_reverse, List.reverse_reverse, List.map_map]
  apply List.map_congr_left
  intro c member
  obtain ⟨level, found⟩ := Option.isSome_iff_exists.mp (valid c member)
  rw [Level.fold_of_char found, Function.comp_apply, found, Option.getD_some]

theorem to_char_written (c : Char) (levels : List Level)
    (member : c ∈ levels.map Level.toChar) : c ∈ ['0', '1', 'X', 'Z'] := by
  obtain ⟨level, _, rfl⟩ := List.mem_map.mp member
  cases level <;> decide

theorem get_ok_iff (bus : Bus) (index : Nat) (level : Level) :
    bus.get index = .ok level ↔ bus.levels[index]? = some level := by
  rw [get]
  cases bus.levels[index]? with
  | none => simp
  | some found => simp

variable {bus : Bus} {index : Nat}

theorem get_below (below : index < bus.width) : ∃ level, bus.get index = .ok level :=
  ⟨bus.levels[index], (bus.get_ok_iff index _).mpr (List.getElem?_eq_getElem below)⟩

theorem get_reverse (below : index < bus.width) :
    bus.reverse.levels[bus.width - 1 - index]? = bus.levels[index]? := by
  rw [reverse, List.getElem?_reverse (by rw [width] at below ⊢; omega), width]
  congr 1
  rw [width] at below
  omega

theorem resize_kept {width : Nat} (fill : Level) (below : index < bus.width) (kept : index < width) :
    (bus.resize width fill).levels[index]? = bus.levels[index]? := by
  rw [resize, List.getElem?_append_left (by rw [List.length_take]; exact Nat.lt_min.mpr ⟨kept, below⟩),
    List.getElem?_take_of_lt kept]

theorem resize_filled {width : Nat} (fill : Level) (above : bus.width ≤ index)
    (inside : index < width) : (bus.resize width fill).levels[index]? = some fill := by
  have taken : (bus.levels.take width).length = bus.width := by
    rw [List.length_take]
    exact Nat.min_eq_right (Nat.le_of_lt (Nat.lt_of_le_of_lt above inside))
  rw [resize, List.getElem?_append_right (taken ▸ above), taken, List.getElem?_replicate,
    if_pos (by omega)]

theorem resize_resize {width : Nat} (fill other : Level) (wider : bus.width ≤ width) :
    (bus.resize width fill).resize bus.width other = bus := by
  have whole : bus.levels.take width = bus.levels := List.take_of_length_le wider
  rw [resize, width_resize, resize, whole, Nat.sub_eq_zero_of_le wider, List.replicate_zero,
    List.append_nil, Bus.width, List.take_left]

/-- A written bus is read as it was. A text is refused only for a character that is no level, and
one that is read is written again with each of its characters as one of four. From behind it is
the reversed bus, in which every line has its place from the other end. A resized bus keeps the
lines that it still has and fills up those that are new, so lines that were added can be cut off
again. -/
theorem text_mirrors_lines :
    (∀ bus : Bus, ofText? bus.toText = some bus) ∧
    (∀ text : String,
      (ofText? text = none ↔ ∃ c ∈ text.toList, Level.ofChar? c = none) ∧
      (∀ bus, ofText? text = some bus →
        bus.toText = String.ofList (text.toList.map Level.fold) ∧
        ∀ c ∈ bus.toText.toList, c ∈ ['0', '1', 'X', 'Z']) ∧
      ofText? (String.ofList text.toList.reverse) = (ofText? text).map reverse) ∧
    ∀ bus : Bus,
      bus.reverse.reverse = bus ∧
      (∀ index < bus.width, ∃ level, bus.get index = .ok level ∧
        bus.reverse.get (bus.width - 1 - index) = .ok level) ∧
      ∀ (width : Nat) (fill : Level),
        (bus.resize width fill).width = width ∧
        (∀ index < min bus.width width, ∃ level, bus.get index = .ok level ∧
          (bus.resize width fill).get index = .ok level) ∧
        (∀ index, bus.width ≤ index → index < width →
          (bus.resize width fill).get index = .ok fill) ∧
        (bus.width ≤ width → ∀ other, (bus.resize width fill).resize bus.width other = bus) := by
  refine ⟨?written, ?read, ?lines⟩
  case written =>
    intro bus
    rw [ofText?, toText, String.toList_ofList, of_chars_levels]
  case read =>
    intro text
    refine ⟨of_chars_none_iff text.toList, ?_, ?_⟩
    · intro bus read
      refine ⟨by rw [toText, levels_of_chars read], fun c member => ?_⟩
      rw [toText, String.toList_ofList] at member
      exact to_char_written c bus.levels.reverse member
    · rw [ofText?, String.toList_ofList, of_chars_reverse, ofText?]
  case lines =>
    intro bus
    refine ⟨bus.reverse_reverse, ?_, fun width fill => ⟨bus.width_resize width fill, ?_, ?_, ?_⟩⟩
    · intro index below
      obtain ⟨level, found⟩ := get_below below
      refine ⟨level, found, ?_⟩
      rw [get_ok_iff, get_reverse below]
      exact (bus.get_ok_iff index level).mp found
    · intro index inside
      obtain ⟨below, kept⟩ := Nat.lt_min.mp inside
      obtain ⟨level, found⟩ := get_below below
      refine ⟨level, found, ?_⟩
      rw [get_ok_iff, resize_kept fill below kept]
      exact (bus.get_ok_iff index level).mp found
    · intro index above inside
      rw [get_ok_iff, resize_filled fill above inside]
    · intro wider other
      exact resize_resize fill other wider

/-- Four lines in their weak spellings. Two floating lines are added and cut off again. -/
theorem weak_mirrors_lines :
    let bus : Bus := ⟨[.floating, .unknown, .low, .high]⟩
    ofText? "Hl-z" = some bus ∧ bus.toText = String.ofList ("Hl-z".toList.map Level.fold) ∧
      (∃ level, bus.get 0 = .ok level ∧ bus.reverse.get 3 = .ok level) ∧
      (∃ level, bus.get 3 = .ok level ∧ (bus.resize 6 .floating).get 3 = .ok level) ∧
      (bus.resize 6 .floating).get 5 = .ok .floating ∧
      (bus.resize 6 .floating).resize 4 .low = bus := by
  intro bus
  obtain ⟨_, texts, buses⟩ := text_mirrors_lines
  have read : ofText? "Hl-z" = some bus := by decide
  obtain ⟨_, mirrored, resized⟩ := buses bus
  obtain ⟨_, kept, filled, back⟩ := resized 6 .floating
  exact ⟨read, ((texts "Hl-z").2.1 bus read).1, mirrored 0 (by decide), kept 3 (by decide),
    filled 5 (by decide) (by decide), back (by decide) .low⟩

end Bus

end CoreBench
