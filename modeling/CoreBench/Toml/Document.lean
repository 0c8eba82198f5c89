import CoreBench.Toml.Lexical
import CoreBench.Toml.Scalar

/-!
TOML documents, version 1.0. The text is read into a list of statements, and the
statements are put together into one table. Containers nest less than eighty
deep.
-/

namespace CoreBench.Toml

/-- The items of an array up to its bracket. A comma may follow the last one. -/
def arrayItems (value : Reader Item) : Nat → Reader (List Item)
  | 0, _ => none
  | fuel + 1, cs =>
      match skipLines cs.length cs with
      | ']' :: rest => some ([], rest)
      | start => do
          let (item, rest) ← value start
          match skipLines rest.length rest with
          | ',' :: rest =>
              let (items, rest) ← arrayItems value fuel rest
              some (item :: items, rest)
          | ']' :: rest => some ([item], rest)
          | _ => none

def pair (value : Reader Item) (cs : List Char) : Option ((List String × Item) × List Char) := do
  let (path, rest) ← key cs
  match rest with
  | '=' :: rest =>
      let (item, rest) ← value (skipGap rest)
      some ((path, item), rest)
  | _ => none

/-- The pairs of an inline table up to its brace, on one line. -/
def inlinePairs (value : Reader Item) : Nat → Reader (List (List String × Item))
  | 0, _ => none
  | fuel + 1, cs => do
      let (first, rest) ← pair value cs
      match skipGap rest with
      | ',' :: rest =>
          let (others, rest) ← inlinePairs value fuel rest
          some (first :: others, rest)
      | '\x7d' :: rest => some ([first], rest)
      | _ => none

def inlineTable (value : Reader Item) (cs : List Char) : Option (Item × List Char) :=
  match skipGap cs with
  | '\x7d' :: rest => some (.inline [], rest)
  | _ => do
      let (pairs, rest) ← inlinePairs value (cs.length + 1) cs
      let entries ← Entries.addAll [] pairs
      some (.inline entries, rest)

/-- A value that holds at most `depth` containers inside each other. -/
def value : Nat → Reader Item
  | depth, '[' :: rest =>
      match depth with
      | 0 => none
      | depth + 1 => (arrayItems (value depth) (rest.length + 1) rest).map fun read => (.array read.1, read.2)
  | depth, '\x7b' :: rest =>
      match depth with
      | 0 => none
      | depth + 1 => inlineTable (value depth) rest
  | _, cs =>
      match cs with
      | '"' :: _ | '\'' :: _ => (text cs).map fun read => (.text read.1, read.2)
      | _ =>
          let run := scalarRun cs
          (scalarItem? run).map fun item => (item, cs.drop run.length)

inductive Statement where
  | pair (path : List String) (item : Item)
  | table (path : List String)
  | element (path : List String)

def statement : Reader Statement
  | '[' :: '[' :: rest => do
      let (path, rest) ← key rest
      match rest with
      | ']' :: ']' :: rest => some (.element path, rest)
      | _ => none
  | '[' :: rest => do
      let (path, rest) ← key rest
      match rest with
      | ']' :: rest => some (.table path, rest)
      | _ => none
  | cs => do
      let ((path, item), rest) ← pair (value 79) cs
      some (.pair path item, rest)

def statements : Nat → List Char → Option (List Statement)
  | 0, _ => none
  | fuel + 1, cs =>
      match skipLines cs.length cs with
      | [] => some []
      | '#' :: comment =>
          if (comment.dropWhile isPrintable).isEmpty then some [] else none
      | start => do
          let (first, rest) ← statement start
          let rest ← endOfLine? rest
          let others ← statements fuel rest
          some (first :: others)

/-- A document while its statements are put together: the finished part, and the
table that the last header opened. -/
structure Draft where
  root : Entries
  place : Option (Bool × List String)
  current : Entries

def Draft.close (draft : Draft) : Option Entries :=
  match draft.place with
  | none => some draft.current
  | some (false, path) =>
      Entries.alter (fun _ => some (.table .header draft.current)) path draft.root
  | some (true, path) =>
      Entries.alter (fun
        | none => some (.tables [draft.current])
        | some (.tables elements) => some (.tables (elements ++ [draft.current]))
        | some _ => none) path draft.root

/-- The entries that a header finds below its name, if it may open that table. -/
def openable? : Option Item → Option Entries
  | none => some []
  | some (.table .parent entries) => some entries
  | some _ => none

/-- What stands at the path of a header. -/
def lookAt : List String → Entries → Option Item
  | [], _ => none
  | [key], entries => Table.get? entries key
  | step :: path, entries =>
      match Table.get? entries step with
      | some (.table _ inner) => lookAt path inner
      | some (.tables elements) => elements.getLast?.bind (lookAt path)
      | _ => none

def Draft.step (draft : Draft) : Statement → Option Draft
  | .pair path item => do
      let key ← path.getLast?
      let current ← Entries.addDotted true key item path.dropLast draft.current
      some { draft with current }
  | .table path => do
      let root ← draft.close
      let current ← openable? (lookAt path root)
      some ⟨root, some (false, path), current⟩
  | .element path => do
      let root ← draft.close
      some ⟨root, some (true, path), []⟩

/-- The table that a document describes. A byte order mark at the start is not
part of the text. -/
def Entries.ofText? (content : String) : Option Entries := do
  let cs := match content.toList with
    | '\ufeff' :: cs => cs
    | cs => cs
  let found ← statements (cs.length + 1) cs
  let draft ← found.foldlM Draft.step ⟨[], none, []⟩
  draft.close

end CoreBench.Toml
