import CoreBench.Table

/-!
What a TOML document holds. Tables remember how they came about, because the
format forbids to reopen them in another way: a table written under a header is
closed to dotted keys, one that dotted keys made is closed to headers, and one
that only stands above a deeper header may still get its own.
-/

namespace CoreBench.Toml

inductive Origin where
  | header
  | parent
  | dotted
  deriving DecidableEq, Repr

inductive Item where
  | text (content : String)
  | integer (value : Int)
  | float (digits : String)
  | boolean (value : Bool)
  | moment (written : String)
  | array (items : List Item)
  | inline (entries : List (String × Item))
  | table (origin : Origin) (entries : List (String × Item))
  | tables (elements : List (List (String × Item)))
  deriving Repr, Inhabited

abbrev Entries := Table Item

namespace Entries

/-- Adds `key` below the dotted path. Tables on the way are made as needed. The
last one has to be the table that is being written (`own`) or one that dotted
keys made, and must not hold the key yet. -/
def addDotted (own : Bool) (key : String) (item : Item) : List String → Entries → Option Entries
  | [], entries =>
      if own && (Table.get? entries key).isNone then some (Table.put entries key item) else none
  | step :: path, entries =>
      match Table.get? entries step with
      | none => (addDotted true key item path []).map fun inner => Table.put entries step (.table .dotted inner)
      | some (.table .dotted inner) =>
          (addDotted true key item path inner).map fun inner => Table.put entries step (.table .dotted inner)
      | some (.table .parent inner) =>
          (addDotted false key item path inner).map fun inner => Table.put entries step (.table .parent inner)
      | some (.tables elements) =>
          match elements.getLast? with
          | none => none
          | some last => (addDotted false key item path last).map fun inner =>
              Table.put entries step (.tables (elements.dropLast ++ [inner]))
      | some _ => none

/-- Changes what stands at the path of a header. Tables on the way are made as
needed; an array of tables is entered at its last element. -/
def alter (edit : Option Item → Option Item) : List String → Entries → Option Entries
  | [], _ => none
  | [key], entries => (edit (Table.get? entries key)).map (Table.put entries key)
  | step :: path, entries =>
      match Table.get? entries step with
      | none => (alter edit path []).map fun inner => Table.put entries step (.table .parent inner)
      | some (.table origin inner) =>
          (alter edit path inner).map fun inner => Table.put entries step (.table origin inner)
      | some (.tables elements) =>
          match elements.getLast? with
          | none => none
          | some last => (alter edit path last).map fun inner =>
              Table.put entries step (.tables (elements.dropLast ++ [inner]))
      | some _ => none

/-- Adds pairs of a dotted path and an item one after another. -/
def addAll (entries : Entries) (pairs : List (List String × Item)) : Option Entries :=
  pairs.foldlM (fun entries pair =>
    match pair.1.getLast? with
    | none => none
    | some key => addDotted true key pair.2 pair.1.dropLast entries) entries

end Entries

end CoreBench.Toml
