import CoreBench.Text.CharClass

/-!
Which characters belong to no two classes. Letters and digits are known by their ranges,
and the characters of words lie apart from white space in every script.
-/

namespace CoreBench.Text

theorem digit_range (c : Char) (digit : c.isDigit = true) : 48 ≤ c.toNat ∧ c.toNat ≤ 57 := by
  obtain ⟨low, high⟩ := Bool.and_eq_true_iff.mp digit
  exact ⟨UInt32.le_iff_toNat_le.mp (of_decide_eq_true low),
    UInt32.le_iff_toNat_le.mp (of_decide_eq_true high)⟩

theorem upper_range (c : Char) (upper : c.isUpper = true) : 65 ≤ c.toNat ∧ c.toNat ≤ 90 := by
  obtain ⟨low, high⟩ := of_decide_eq_true upper
  exact ⟨UInt32.le_iff_toNat_le.mp low, UInt32.le_iff_toNat_le.mp high⟩

theorem lower_range (c : Char) (lower : c.isLower = true) : 97 ≤ c.toNat ∧ c.toNat ≤ 122 := by
  obtain ⟨low, high⟩ := Bool.and_eq_true_iff.mp lower
  exact ⟨UInt32.le_iff_toNat_le.mp (of_decide_eq_true low),
    UInt32.le_iff_toNat_le.mp (of_decide_eq_true high)⟩

/-- Only capitals change when they are written small. -/
theorem to_lower_of_not_upper (c : Char) (other : c.isUpper = false) : c.toLower = c := by
  apply dif_neg
  intro range
  rw [← Bool.not_eq_true] at other
  exact other (decide_eq_true range)

theorem to_lower_of_upper (c : Char) (upper : c.isUpper = true) :
    c.toLower.toNat = c.toNat + 32 := by
  obtain ⟨low, high⟩ := upper_range c upper
  have small : c.toLower.toNat = (c.val + 32).toNat :=
    congrArg Char.toNat (dif_pos (of_decide_eq_true upper))
  have sum : (c.val + 32).toNat = (c.toNat + 32) % 2 ^ 32 := UInt32.toNat_add c.val 32
  rw [small, sum]
  exact Nat.mod_eq_of_lt (by omega)

/-- Only capitals are written as small letters. -/
theorem eq_of_to_lower (c plain : Char) (same : c.toLower = plain)
    (other : plain.isLower = false) : c = plain := by
  cases upper : c.isUpper with
  | false => rw [← same, to_lower_of_not_upper c upper]
  | true =>
      obtain ⟨low, high⟩ := upper_range c upper
      have shifted := to_lower_of_upper c upper
      rw [same] at shifted
      have lower : plain.isLower = true := Bool.and_eq_true_iff.mpr
        ⟨decide_eq_true (UInt32.le_iff_toNat_le.mpr (show 97 ≤ plain.toNat by omega)),
          decide_eq_true (UInt32.le_iff_toNat_le.mpr (show plain.toNat ≤ 122 by omega))⟩
      rw [lower] at other
      cases other

theorem alpha_iff (c : Char) : c.isAlpha = true ↔ c.isUpper = true ∨ c.isLower = true :=
  Bool.or_eq_true_iff

theorem alphanum_iff (c : Char) : c.isAlphanum = true ↔ c.isAlpha = true ∨ c.isDigit = true :=
  Bool.or_eq_true_iff

/-- A character that is a small letter when it is written small is a letter. -/
theorem alpha_of_to_lower (c : Char) (lower : c.toLower.isLower = true) : c.isAlpha = true := by
  rw [alpha_iff]
  cases upper : c.isUpper with
  | true => exact .inl rfl
  | false =>
      rw [to_lower_of_not_upper c upper] at lower
      exact .inr lower

theorem alphanum_of_to_lower (c : Char) (letter : c.toLower.isAlphanum = true) :
    c.isAlphanum = true := by
  cases upper : c.isUpper with
  | false => rwa [to_lower_of_not_upper c upper] at letter
  | true =>
      rw [alphanum_iff, alpha_iff]
      exact .inl (.inl upper)

theorem ne_of_alphanum (c other : Char) (letter : c.isAlphanum = true)
    (apart : other.isAlphanum = false) : c ≠ other := by
  rintro rfl
  rw [letter] at apart
  cases apart

theorem ascii_solid (c : Char) (low : 32 < c.toNat) (high : c.toNat < 128) : isBlank c = false := by
  have space : c ≠ ' ' := by
    rintro rfl
    exact absurd low (by decide)
  simp only [isBlank, inRanges, blankRanges, List.any_cons, List.any_nil,
    beq_eq_false_iff_ne.mpr space, Bool.or_eq_false_iff, Bool.and_eq_false_iff,
    decide_eq_false_iff_not, and_true, true_and]
  omega

theorem digit_solid (c : Char) (digit : c.isDigit = true) : isBlank c = false := by
  obtain ⟨low, high⟩ := digit_range c digit
  exact ascii_solid c (by omega) (by omega)

/-- No range of the first list meets one of the second. -/
def apart (left right : List (Nat × Nat)) : Bool :=
  left.all fun a => right.all fun b => Nat.blt a.2 b.1 || Nat.blt b.2 a.1

theorem in_ranges_apart (left right : List (Nat × Nat)) (c : Char)
    (disjoint : apart left right = true) (inside : inRanges left c = true) :
    inRanges right c = false := by
  rw [inRanges, List.any_eq_true] at inside
  obtain ⟨a, member, between⟩ := inside
  rw [inRanges, List.any_eq_false]
  intro b other
  have order := List.all_eq_true.mp (List.all_eq_true.mp disjoint a member) b other
  simp only [Bool.or_eq_true, Nat.blt_eq, Bool.and_eq_true, decide_eq_true_eq] at *
  omega

def blanks : List (Nat × Nat) :=
  (9, 13) :: (32, 32) :: blankRanges

/-- ASCII letters, digits and the underscore. -/
def asciiWords : List (Nat × Nat) :=
  [(48, 57), (65, 90), (95, 95), (97, 122)]

theorem blank_ranges (c : Char) (blank : isBlank c = true) : inRanges blanks c = true := by
  simp only [isBlank, Bool.or_eq_true, beq_iff_eq, Bool.and_eq_true, decide_eq_true_eq] at blank
  rcases blank with (rfl | blank) | blank
  · decide
  · simp [inRanges, blanks, blank]
  · rw [inRanges] at blank
    simp [inRanges, blanks, blank]

theorem ascii_word_ranges (c : Char) (word : c.isAlphanum = true ∨ c = '_') :
    inRanges asciiWords c = true := by
  simp only [inRanges, asciiWords, List.any_cons, List.any_nil, Bool.or_false, Bool.or_eq_true,
    Bool.and_eq_true, decide_eq_true_eq]
  rcases word with letter | rfl
  · rw [alphanum_iff, alpha_iff] at letter
    rcases letter with (upper | lower) | digit
    · have := upper_range c upper
      omega
    · have := lower_range c lower
      omega
    · have := digit_range c digit
      omega
  · decide

def wordRanges : List (List (Nat × Nat)) :=
  [asciiWords, alphabeticRanges, markRanges, decimalDigitRanges, connectorRanges,
    joinControlRanges]

theorem word_ranges (c : Char) (word : isWord c = true) :
    ∃ ranges ∈ wordRanges, inRanges ranges c = true := by
  simp only [isWord, Bool.or_eq_true, Bool.and_eq_true, beq_iff_eq] at word
  rcases word with ascii | ⟨(((letter | mark) | digit) | connector) | join, _⟩
  · exact ⟨asciiWords, by simp [wordRanges], ascii_word_ranges c ascii⟩
  · exact ⟨alphabeticRanges, by simp [wordRanges], letter⟩
  · exact ⟨markRanges, by simp [wordRanges], mark⟩
  · exact ⟨decimalDigitRanges, by simp [wordRanges], digit⟩
  · exact ⟨connectorRanges, by simp [wordRanges], connector⟩
  · exact ⟨joinControlRanges, by simp [wordRanges], join⟩

theorem blanks_apart : wordRanges.all (apart blanks) = true := by
  decide +kernel

/-- White space ends a word in every script. -/
theorem word_solid (c : Char) (word : isWord c = true) : isBlank c = false := by
  obtain ⟨ranges, member, inside⟩ := word_ranges c word
  apply Bool.eq_false_iff.mpr
  intro blank
  have disjoint := List.all_eq_true.mp blanks_apart ranges member
  have outside := in_ranges_apart blanks ranges c disjoint (blank_ranges c blank)
  rw [inside] at outside
  cases outside

theorem alphanum_solid (c : Char) (letter : c.isAlphanum = true) : isBlank c = false :=
  word_solid c (isWord_of_isAlphanum c letter)

end CoreBench.Text
