import CoreBench.Text.Age
import CoreBench.Text.Alphabetic
import CoreBench.Text.Mark
import CoreBench.Text.Numeric

/-!
Character classes of the bench, trace and configuration texts. They follow the
Unicode properties, so a name may be written in any script and any white space
separates. Inside ASCII they are the usual classes.
-/

namespace CoreBench.Text

/-- White space above ASCII. -/
def blankRanges : List (Nat × Nat) :=
  [(0x85, 0x85), (0xA0, 0xA0), (0x1680, 0x1680), (0x2000, 0x200A), (0x2028, 0x2029),
   (0x202F, 0x202F), (0x205F, 0x205F), (0x3000, 0x3000)]

def inRanges (ranges : List (Nat × Nat)) (c : Char) : Bool :=
  ranges.any fun range => range.1 ≤ c.toNat && c.toNat ≤ range.2

/-- White space: the property `White_Space`. Tabs, line ends and the no-break
spaces count, the zero-width space does not. -/
def isBlank (c : Char) : Bool :=
  c == ' ' || (9 ≤ c.toNat && c.toNat ≤ 13) || inRanges blankRanges c

/-- Whether words and digits leave a character out because it is newer than they are. -/
def isRecent (c : Char) : Bool :=
  inRanges age17Ranges c

/-- A decimal digit of any script. Its value is only defined for ASCII. -/
def isDecimalDigit (c : Char) : Bool :=
  c.isDigit || (inRanges decimalDigitRanges c && !isRecent c)

/-- A letter or a number of any script, also one that was encoded lately. -/
def isAlphanumeric (c : Char) : Bool :=
  c.isAlphanum || inRanges alphabeticRanges c || inRanges numericRanges c

/-- A character of a word: letters, marks, decimal digits, connector
punctuation such as the underscore, and the join controls. -/
def isWord (c : Char) : Bool :=
  c.isAlphanum || c == '_' ||
    ((inRanges alphabeticRanges c || inRanges markRanges c || inRanges decimalDigitRanges c ||
      inRanges connectorRanges c || inRanges joinControlRanges c) && !isRecent c)

/-- ASCII lower case; other letters stay as they are. -/
def lower (cs : List Char) : List Char :=
  cs.map Char.toLower

theorem isWord_of_isAlphanum (c : Char) (letter : c.isAlphanum) : isWord c := by
  simp [isWord, letter]

theorem isDecimalDigit_of_isDigit (c : Char) (digit : c.isDigit) : isDecimalDigit c := by
  simp [isDecimalDigit, digit]

end CoreBench.Text
