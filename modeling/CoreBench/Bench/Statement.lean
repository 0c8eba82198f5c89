import CoreBench.Bench.Command

/-!
The statements of a bench text. A line holds any number of them with dollar signs
between. A statement that starts with a hash sign and has parentheses is a
directive; without them it is an instruction for the assembler, unless it starts
with the name of a directive.
-/

namespace CoreBench

inductive Statement where
  | todo
  | remark
  | instruction
  | directive (kind : List Char) (delay : Nat) (content : List Char)
  deriving DecidableEq, Repr

namespace Statement

/-- The statements of a line: its pieces between dollar signs that are not blank. -/
def ofLine (line : List Char) : List (List Char) :=
  (((Text.trim line).splitOn '$').map Text.trim).filter fun piece => !piece.isEmpty

def ofLines : Nat → List (List Char) → List (Nat × List Char)
  | _, [] => []
  | number, line :: rest => (ofLine line).map (Prod.mk number) ++ ofLines (number + 1) rest

def ofText (cs : List Char) : List (Nat × List Char) :=
  ofLines 1 (Text.lines cs)

def kinds : List (List Char) :=
  ["end", "assert", "test", "skip", "alias", "irq"].map String.toList

/-- The name at the start of a text: letters, numbers and underscores. -/
def leadingName (cs : List Char) : List Char :=
  cs.takeWhile fun c => Text.isAlphanumeric c || c == '_'

/-- The text from after the first opening to before the last closing parenthesis,
and what stands before it. -/
def body? (cs : List Char) : Option (List Char × List Char) :=
  match Text.cut ['('] cs with
  | none => none
  | some (head, rest) =>
      match Text.cutLast ')' rest with
      | none => none
      | some (content, _) => some (head, content)

/-- The name and the delay of a directive: one word, then perhaps an at sign and
the text of the delay. -/
def head? (head : List Char) : Option (List Char × List Char) :=
  let kind := head.takeWhile Text.isWord
  if kind.isEmpty then none
  else
    match Text.trimStart (head.drop kind.length) with
    | [] => some (kind, [])
    | '@' :: delay => if '\n' ∈ delay then none else some (kind, Text.trim delay)
    | _ => none

/-- A missing delay is one cycle. -/
def delay? (cs : List Char) : Option Nat :=
  if cs.isEmpty then some 1 else Text.unsigned? 32 cs

/-- Takes apart what follows a single hash sign. -/
def ofHash (rest : List Char) : Except DirectiveError Statement :=
  match body? rest with
  | none =>
      if kinds.contains (Text.lower (leadingName rest)) then .error (.malformed (String.ofList ('#' :: rest)))
      else .ok .instruction
  | some (head, content) =>
      let head := Text.trim head
      match head? head with
      | none => .error (.unknownType (String.ofList head))
      | some (kind, delay) =>
          match delay? delay with
          | none => .error (.delay (String.ofList delay))
          | some count => .ok (.directive (Text.lower kind) count (Text.trim content))

/-- What a statement is. -/
def classify (cs : List Char) : Except DirectiveError Statement :=
  if Text.lower (cs.take 6) = "##todo".toList then .ok .todo
  else
    match cs with
    | '#' :: '#' :: _ => .ok .remark
    | '#' :: rest => ofHash rest
    | _ => .ok .instruction

end Statement

end CoreBench
