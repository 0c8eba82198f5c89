import CoreBench.Text.Numeral

/-!
Documents in JSON, laid out with one entry a line and two spaces for each level.
-/

namespace CoreBench.Text

inductive Json where
  | null
  | boolean (value : Bool)
  | number (value : Nat)
  | text (value : String)
  | array (items : List Json)
  | object (fields : List (String × Json))
  deriving Repr

namespace Json

/-- A character inside quotes. Control characters have no other way in than an escape. -/
def escape (c : Char) : String :=
  match c with
  | '"' => "\\\""
  | '\\' => "\\\\"
  | '\n' => "\\n"
  | '\r' => "\\r"
  | '\t' => "\\t"
  | '\x08' => "\\b"
  | '\x0c' => "\\f"
  | c => if c.toNat < 0x20 then "\\u" ++ (hexUpper 4 c.toNat).map Char.toLower else c.toString

def quote (text : String) : String :=
  "\"" ++ String.join (text.toList.map escape) ++ "\""

def indentation (depth : Nat) : String :=
  "".pushn ' ' (2 * depth)

/-- The entries between brackets. Brackets with nothing in them stay together. -/
def enclose (depth : Nat) (opening closing : String) (entries : List String) : String :=
  if entries.isEmpty then opening ++ closing
  else
    let rows := entries.map fun entry => indentation (depth + 1) ++ entry
    opening ++ "\n" ++ ",\n".intercalate rows ++ "\n" ++ indentation depth ++ closing

mutual

/-- The text of a document that starts on a line of the depth. -/
def layOut (depth : Nat) : Json → String
  | null => "null"
  | boolean value => if value then "true" else "false"
  | number value => toString value
  | text value => quote value
  | array items => enclose depth "[" "]" (layOutItems (depth + 1) items)
  | object fields => enclose depth "\x7b" "\x7d" (layOutFields (depth + 1) fields)

def layOutItems (depth : Nat) : List Json → List String
  | [] => []
  | item :: items => layOut depth item :: layOutItems depth items

def layOutFields (depth : Nat) : List (String × Json) → List String
  | [] => []
  | (name, value) :: fields => (quote name ++ ": " ++ layOut depth value) :: layOutFields depth fields

end

def toText (document : Json) : String :=
  document.layOut 0

end Json

end CoreBench.Text
