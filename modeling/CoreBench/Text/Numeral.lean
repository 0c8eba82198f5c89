import CoreBench.Text.CharClass

/-!
Unsigned numerals. Reading is strict: ASCII digits only, at least one of them,
and no sign except where a leading plus is allowed. Values are unbounded until a
reader names the number of bits that have to hold them.
-/

namespace CoreBench.Text

/-- One or more ASCII digits. -/
def decimal? (cs : List Char) : Option Nat :=
  if !cs.isEmpty && cs.all Char.isDigit then some (Nat.ofDigitChars 10 cs 0) else none

def hexDigit? (c : Char) : Option Nat :=
  if c.isDigit then some (c.toNat - '0'.toNat)
  else if 'a' ≤ c ∧ c ≤ 'f' then some (c.toNat - 'a'.toNat + 10)
  else if 'A' ≤ c ∧ c ≤ 'F' then some (c.toNat - 'A'.toNat + 10)
  else none

/-- One or more hexadecimal digits in either case. -/
def hexadecimal? (cs : List Char) : Option Nat :=
  if cs.isEmpty then none
  else (cs.mapM hexDigit?).map fun digits => digits.foldl (fun n digit => 16 * n + digit) 0

/-- The number when it fits into `bits` bits. -/
def within (bits : Nat) (number : Option Nat) : Option Nat :=
  number.filter (· < 1 <<< bits)

/-- A decimal numeral of `bits` bits that may start with a plus sign. -/
def unsigned? (bits : Nat) : List Char → Option Nat
  | '+' :: digits => within bits (decimal? digits)
  | digits => within bits (decimal? digits)

/-- What follows a `0x` or `0X`. -/
def hexPart? : List Char → Option (List Char)
  | '0' :: 'x' :: digits => some digits
  | '0' :: 'X' :: digits => some digits
  | _ => none

/-- A 64-bit numeral, hexadecimal after `0x` and decimal otherwise. -/
def numeral? (cs : List Char) : Option Nat :=
  match hexPart? cs with
  | some digits => within 64 (hexadecimal? digits)
  | none => within 64 (decimal? cs)

/-- Lower-case hexadecimal without leading zeros. -/
def hexLower (n : Nat) : String :=
  String.ofList (Nat.toDigits 16 n)

/-- Upper-case hexadecimal, filled with zeros up to `width` digits. -/
def hexUpper (width n : Nat) : String :=
  String.ofList (((Nat.toDigits 16 n).map Char.toUpper).leftpad width '0')

theorem decimal?_toDigits (n : Nat) : decimal? (Nat.toDigits 10 n) = some n := by
  have digits : (Nat.toDigits 10 n).all Char.isDigit := by
    rw [List.all_eq_true]
    intro c member
    exact Nat.isDigit_of_mem_toDigits (by decide) (by decide) member
  simp [decimal?, Nat.toDigits_ne_nil, digits]

theorem within_eq_some_iff (bits n : Nat) (number : Option Nat) :
    within bits number = some n ↔ number = some n ∧ n < 1 <<< bits := by
  simp [within, Option.filter_eq_some_iff]

end CoreBench.Text
