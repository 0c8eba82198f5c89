import CoreBench.Text.Split
import CoreBench.Text.Numeral
import CoreBench.Word

/-!
Lengths of time as they are written in traces and settings, such as `10 ns`. They
are counted in femtoseconds, and neither zero nor 2^64 of them can be written.
-/

namespace CoreBench

inductive TimeUnitError where
  | empty
  | magnitude (digits : String)
  | unknown (name : String)
  | outOfRange (text : String)
  deriving DecidableEq, Repr

def TimeUnitError.message : TimeUnitError → String
  | empty => "empty time unit"
  | magnitude digits => s!"invalid time magnitude: {digits}"
  | unknown name => s!"unknown time unit: {name}"
  | outOfRange text => s!"time unit out of range: {text}"

namespace TimeUnit

/-- Femtoseconds of each unit. Without a name the unit is the femtosecond. -/
def units : List (String × Nat) :=
  [("", 1), ("fs", 1), ("ps", 1000), ("ns", 1000000), ("us", 1000000000), ("ms", 1000000000000),
   ("s", 1000000000000000)]

/-- The number in front of the unit; a missing one is 1. -/
def magnitude? (digits : List Char) : Option Nat :=
  if digits.isEmpty then some 1 else Text.within 64 (Text.decimal? digits)

/-- The femtoseconds that a text such as `10 ns` stands for. -/
def ofChars (cs : List Char) : Except TimeUnitError Nat :=
  let text := Text.trim cs
  if text.isEmpty then .error .empty
  else
    let digits := text.takeWhile Char.isDigit
    let name := String.ofList (Text.lower (Text.trim (text.dropWhile Char.isDigit)))
    match magnitude? digits with
    | none => .error (.magnitude (String.ofList digits))
    | some count =>
        match units.lookup name with
        | none => .error (.unknown name)
        | some size =>
            if 0 < count * size ∧ count * size < wordLimit then .ok (count * size)
            else .error (.outOfRange (String.ofList text))

def ofText (text : String) : Except TimeUnitError Nat :=
  ofChars text.toList

end TimeUnit

end CoreBench
