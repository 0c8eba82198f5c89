import CoreBench.Text.Split
import CoreBench.Text.Numeral
import CoreBench.Toml.Item

/-!
Unquoted TOML values: booleans, integers, floats, dates and times. Each is one
run of characters; only a date may be followed by a blank and a time. Floats are
checked and kept as written, since no setting is a float.
-/

namespace CoreBench.Toml

/-- The digits when single underscores stand only between digits. -/
def grouped? (isDigit : Char → Bool) (cs : List Char) : Option (List Char) :=
  let groups := cs.splitOn '_'
  if groups.all fun group => !group.isEmpty && group.all isDigit then some groups.flatten else none

/-- Decimal digits without a leading zero. -/
def plainDigits? (cs : List Char) : Option (List Char) :=
  (grouped? Char.isDigit cs).filter fun digits => digits.length = 1 || digits.head? != some '0'

/-- Splits off a sign; the flag tells a minus. -/
def signed : List Char → Bool × List Char
  | '-' :: rest => (true, rest)
  | '+' :: rest => (false, rest)
  | cs => (false, cs)

/-- The value of digits in another base than ten. -/
def based? (base : Nat) (cs : List Char) : Option Nat := do
  let digits ← grouped? (fun c => (Text.hexDigit? c).any (· < base)) cs
  let values ← digits.mapM Text.hexDigit?
  some (values.foldl (fun n digit => base * n + digit) 0)

def integer? (cs : List Char) : Option Int :=
  let value : Option Int := match cs with
    | '0' :: 'x' :: digits => (based? 16 digits).map Int.ofNat
    | '0' :: 'o' :: digits => (based? 8 digits).map Int.ofNat
    | '0' :: 'b' :: digits => (based? 2 digits).map Int.ofNat
    | cs => do
        let (negative, body) := signed cs
        let digits ← plainDigits? body
        let value := Nat.ofDigitChars 10 digits 0
        some (if negative then -(value : Int) else value)
  value.filter fun value => -0x8000000000000000 ≤ value && value < 0x8000000000000000

/-- The parts of a float after the sign: the digits before and after the point
and the exponent. The point or the exponent may be missing, not both. -/
def floatParts? (body : List Char) : Option (List Char × List Char × Int) := do
  let isMark := fun (c : Char) => c == 'e' || c == 'E'
  let (mantissa, exponent) := match body.span fun c => !isMark c with
    | (mantissa, _ :: exponent) => (mantissa, some exponent)
    | (mantissa, []) => (mantissa, none)
  let (whole, fraction) := match Text.cut ['.'] mantissa with
    | some (whole, fraction) => (whole, some fraction)
    | none => (mantissa, none)
  if fraction.isNone && exponent.isNone then none
  let whole ← plainDigits? whole
  let fraction ← match fraction with
    | some fraction => grouped? Char.isDigit fraction
    | none => some []
  let power ← match exponent with
    | some exponent => do
        let (negative, digits) := signed exponent
        let digits ← grouped? Char.isDigit digits
        let value := Nat.ofDigitChars 10 digits 0
        some (if negative then -(value : Int) else value)
    | none => some 0
  some (whole, fraction, power)

/-- Whether a decimal number rounds to infinity in binary64: it reaches the
middle between the largest finite number and the next power of two. -/
def exceedsBinary64 (digits : List Char) (power : Int) : Bool :=
  let digits := digits.dropWhile (· == '0')
  let scale := (digits.length : Int) + power
  if digits.isEmpty || scale ≤ 308 then false
  else if 309 < scale then true
  else
    let value := Nat.ofDigitChars 10 digits 0
    let middle := 1 <<< 1024 - 1 <<< 970
    if power < 0 then middle * Nat.pow 10 power.natAbs ≤ value
    else middle ≤ value * Nat.pow 10 power.toNat

/-- A float. Positive numbers beyond binary64 are refused. -/
def isFloat (cs : List Char) : Bool :=
  let (negative, body) := signed cs
  if body = "inf".toList || body = "nan".toList then true
  else match floatParts? body with
    | some (whole, fraction, power) =>
        negative || !exceedsBinary64 (whole ++ fraction) (power - fraction.length)
    | none => false

def twoDigits? (top : Nat) (cs : List Char) : Option Nat :=
  if cs.length = 2 then (Text.decimal? cs).filter (· ≤ top) else none

def daysIn (year month : Nat) : Nat :=
  if month = 2 then
    if year % 4 = 0 && (year % 100 != 0 || year % 400 = 0) then 29 else 28
  else if month ∈ [4, 6, 9, 11] then 30
  else 31

def isDate (cs : List Char) : Bool :=
  match cs.splitOn '-' with
  | [year, month, day] =>
      match Text.decimal? year, twoDigits? 12 month, twoDigits? 31 day with
      | some year', some month, some day =>
          year.length = 4 && 1 ≤ month && 1 ≤ day && day ≤ daysIn year' month
      | _, _, _ => false
  | _ => false

/-- A time of day, `HH:MM:SS` with any number of decimals. A leap second may be
written. -/
def isTime (cs : List Char) : Bool :=
  match cs.splitOn ':' with
  | [hour, minute, second] =>
      let (second, decimals) := second.splitAt 2
      (twoDigits? 23 hour).isSome && (twoDigits? 59 minute).isSome && (twoDigits? 60 second).isSome &&
        match decimals with
        | [] => true
        | '.' :: digits => (Text.decimal? digits).isSome
        | _ => false
  | _ => false

/-- A time of day with an optional distance from universal time. -/
def isOffsetTime (cs : List Char) : Bool :=
  match cs.getLast? with
  | some 'Z' | some 'z' => isTime cs.dropLast
  | _ =>
      let time := cs.takeWhile fun c => c != '+' && c != '-'
      match cs.drop time.length with
      | [] => isTime time
      | _ :: offset =>
          isTime time && match offset.splitOn ':' with
            | [hour, minute] => (twoDigits? 23 hour).isSome && (twoDigits? 59 minute).isSome
            | _ => false

/-- A date, a time, or a date and a time with a `T` or a blank between them. -/
def isMoment (cs : List Char) : Bool :=
  isDate cs || isTime cs ||
    (isDate (cs.take 10) && match cs.drop 10 with
      | separator :: time => separator ∈ ['T', 't', ' '] && isOffsetTime time
      | [] => false)

def isScalarChar (c : Char) : Bool :=
  c.isAlphanum || c ∈ ['+', '-', '_', '.', ':']

/-- The run of characters that an unquoted value takes. -/
def scalarRun (cs : List Char) : List Char :=
  let first := cs.takeWhile isScalarChar
  match cs.drop first.length with
  | ' ' :: c :: rest =>
      if isDate first && c.isDigit then first ++ ' ' :: (c :: rest).takeWhile isScalarChar else first
  | _ => first

def scalarItem? (run : List Char) : Option Item :=
  if run = "true".toList then some (.boolean true)
  else if run = "false".toList then some (.boolean false)
  else if isMoment run then some (.moment (String.ofList run))
  else if isFloat run then some (.float (String.ofList run))
  else (integer? run).map .integer

end CoreBench.Toml
