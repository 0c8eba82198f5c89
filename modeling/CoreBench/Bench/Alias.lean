import CoreBench.Table
import CoreBench.Text.Split

/-!
Names for operands. An alias stands for an expression and may give names to bit
positions. A written operand is taken apart into a base and up to two endpoints of
a bit range; the base and the endpoints are replaced once, so the expression of an
alias is never looked up again.
-/

namespace CoreBench

inductive AliasError where
  | malformed (text : String)
  | label (text : String)
  | duplicate (name : String)
  deriving DecidableEq, Repr

def AliasError.message : AliasError → String
  | malformed text => s!"malformed alias '{text}'"
  | label text => s!"malformed range label '{text}'"
  | duplicate name => s!"alias '{name}' is already defined"

/-- Names of bit positions in the order of the names; a later value replaces an
earlier one. -/
abbrev Labels := Table String

namespace Labels

def insert : Labels → String → String → Labels
  | [], label, value => [(label, value)]
  | (other, held) :: rest, label, value =>
      if label < other then (label, value) :: (other, held) :: rest
      else if label = other then (label, value) :: rest
      else (other, held) :: insert rest label value

def pair? (cs : List Char) : Option (String × String) :=
  match Text.cut ['='] cs with
  | none => none
  | some (label, value) =>
      let label := Text.trim label
      let value := Text.trim value
      if label.isEmpty || value.isEmpty then none else some (String.ofList label, String.ofList value)

def addAll : Labels → List (List Char) → Except AliasError Labels
  | labels, [] => .ok labels
  | labels, cs :: rest =>
      match pair? cs with
      | none => .error (.label (String.ofList cs))
      | some (label, value) => addAll (labels.insert label value) rest

/-- Reads a list of pairs with commas between them. Blank pieces are passed over. -/
def ofChars (cs : List Char) : Except AliasError Labels :=
  addAll [] (((cs.splitOn ',').map Text.trim).filter fun piece => !piece.isEmpty)

end Labels

structure Alias where
  name : String
  expression : String
  ranges : Labels
  deriving DecidableEq, Repr

namespace Alias

/-- The parts of a definition: the name, the expression, and the label lists that
were written after the name and after the expression. -/
structure Parts where
  name : List Char
  expression : List Char
  before : Option (List Char)
  after : Option (List Char)
  deriving DecidableEq, Repr

def bracketed? (close : Char) (cs : List Char) : Option (List Char × List Char) :=
  Text.cut [close] cs

/-- The label list after the name, if one is opened there. -/
def leading? (cs : List Char) : Option (Option (List Char) × List Char) :=
  match cs with
  | '[' :: rest => (bracketed? ']' rest).map fun parts => (some parts.1, parts.2)
  | _ => some (none, cs)

/-- The label list that ends the definition, if one is opened there. -/
def trailing? : List Char → Option (Option (List Char))
  | [] => some none
  | '[' :: rest => ((bracketed? ']' rest).filter fun parts => parts.2.isEmpty).map fun parts => some parts.1
  | '(' :: rest => ((bracketed? ')' rest).filter fun parts => parts.2.isEmpty).map fun parts => some parts.1
  | _ => none

def isExpressionChar (c : Char) : Bool :=
  !(c ∈ ['[', ']', '(', ')', '='])

/-- Takes a definition apart: `name=expression` with labels in square brackets
after either of them, or in parentheses after the expression. -/
def parts? (cs : List Char) : Option Parts := do
  let name := cs.takeWhile Text.isWord
  if name.isEmpty then none
  let (before, rest) ← leading? (Text.trimStart (cs.drop name.length))
  match Text.trimStart rest with
  | '=' :: body =>
      let after ← trailing? (body.dropWhile isExpressionChar)
      some ⟨name, Text.trim (body.takeWhile isExpressionChar), before, after⟩
  | _ => none

/-- Reads a definition. Labels may stand in one place only. -/
def ofChars (cs : List Char) : Except AliasError Alias :=
  let text := Text.trim cs
  match parts? text with
  | none => .error (.malformed (String.ofList text))
  | some parts =>
      if parts.expression.isEmpty || (parts.before.isSome && parts.after.isSome) then
        .error (.malformed (String.ofList text))
      else
        match Labels.ofChars ((parts.before.or parts.after).getD []) with
        | .error error => .error error
        | .ok ranges => .ok ⟨String.ofList parts.name, String.ofList parts.expression, ranges⟩

end Alias

/-- An operand as it is written: a base with up to two endpoints of a bit range. -/
structure Reference where
  base : String
  first : Option String := none
  last : Option String := none
  deriving DecidableEq, Repr

namespace Reference

def toText (reference : Reference) : String :=
  match reference.first, reference.last with
  | some first, some last => s!"{reference.base}[{first}:{last}]"
  | some first, none => s!"{reference.base}[{first}]"
  | none, some last => s!"{reference.base}[:{last}]"
  | none, none => reference.base

def endpoint? (cs : List Char) : Option String :=
  let text := Text.trim cs
  if text.isEmpty then none else some (String.ofList text)

/-- Takes an operand without white space at its ends apart. The bracket has to
close at the end of the text. -/
def ofChars? (cs : List Char) : Option Reference :=
  match Text.cut ['['] cs with
  | none => some { base := String.ofList cs }
  | some (base, range) =>
      match Text.cut [']'] range with
      | some (range, []) =>
          let base := String.ofList (Text.trim base)
          match Text.cut [':'] range with
          | some (first, last) => some ⟨base, endpoint? first, endpoint? last⟩
          | none => some ⟨base, endpoint? range, none⟩
      | _ => none

end Reference

structure AliasTable where
  aliases : List Alias := []
  deriving DecidableEq, Repr

namespace AliasTable

def get? (table : AliasTable) (name : String) : Option Alias :=
  table.aliases.find? fun held => held.name = name

def size (table : AliasTable) : Nat :=
  table.aliases.length

/-- Reads a definition and adds it. A name can be defined once. -/
def define (table : AliasTable) (cs : List Char) : Except AliasError (Alias × AliasTable) :=
  match Alias.ofChars cs with
  | .error error => .error error
  | .ok fresh =>
      if (table.get? fresh.name).isSome then .error (.duplicate fresh.name)
      else .ok (fresh, ⟨table.aliases ++ [fresh]⟩)

/-- Replaces the base by the expression it names, and endpoints by the bit
positions that they name there. -/
def substitute (table : AliasTable) (reference : Reference) : Reference :=
  match table.get? reference.base with
  | none => reference
  | some named =>
      let position := fun (label : String) => (named.ranges.get? label).getD label
      ⟨named.expression, reference.first.map position, reference.last.map position⟩

/-- Takes a written operand apart and replaces what it names. A text that cannot
be taken apart is a base as a whole, and names nothing. -/
def resolve (table : AliasTable) (cs : List Char) : Reference :=
  let text := Text.trim cs
  match Reference.ofChars? text with
  | none => { base := String.ofList text }
  | some reference => table.substitute reference

end AliasTable

end CoreBench
