import CoreBench.Text.Path

/-!
A file system in memory. A path is walked part by part from the directory it starts
at; every place that it goes on from has to be a directory, and a name there must not
be too long. Directories that hold a file need no mention of their own.
-/

namespace CoreBench.Cli

inductive FileError where
  | notFound
  | notADirectory
  | isADirectory
  | nameTooLong
  | permissionDenied
  | noSpace
  deriving DecidableEq, Repr

/-- The system's words, with its number for the error. -/
def FileError.message : FileError → String
  | notFound => "No such file or directory (os error 2)"
  | notADirectory => "Not a directory (os error 20)"
  | isADirectory => "Is a directory (os error 21)"
  | nameTooLong => "File name too long (os error 36)"
  | permissionDenied => "Permission denied (os error 13)"
  | noSpace => "No space left on device (os error 28)"

/-- The most bytes that one name may have. -/
def nameLimit : Nat := 255

/-- The most bytes that a path may have, with all its names and slashes. -/
def pathLimit : Nat := 4095

/-- The names that lead to a place from the root. -/
abbrev Place := List String

structure FileTree where
  files : List (Place × ByteArray) := []
  directories : List Place := []

namespace FileTree

inductive Node where
  | file (content : ByteArray)
  | directory

def node? (tree : FileTree) (place : Place) : Option Node :=
  match tree.files.lookup place with
  | some content => some (.file content)
  | none =>
      let places := tree.files.map Prod.fst ++ tree.directories
      if place = [] || places.any place.isPrefixOf then some .directory else none

/-- Where a part of a path leads from a directory. -/
def enter (place : Place) (part : String) : Place :=
  if part = "" || part = "." then place
  else if part = ".." then place.dropLast
  else place ++ [part]

/-- The place that the parts lead to. Nothing needs to be there. -/
def walk (tree : FileTree) : Place → List String → Except FileError Place
  | place, [] => .ok place
  | place, part :: rest =>
      match tree.node? place with
      | none => .error .notFound
      | some (.file _) => .error .notADirectory
      | some .directory =>
          if nameLimit < part.utf8ByteSize then .error .nameTooLong
          else walk tree (enter place part) rest

/-- The place of a path, for a reader in the directory. -/
def resolve (tree : FileTree) (directory : Place) (path : String) : Except FileError Place :=
  if pathLimit < path.utf8ByteSize then .error .nameTooLong
  else
    match Path.parts path with
    | [""] => .error .notFound
    | "" :: parts => tree.walk [] parts
    | parts => tree.walk directory parts

def find (tree : FileTree) (directory : Place) (path : String) : Except FileError Node := do
  let place ← tree.resolve directory path
  match tree.node? place with
  | some node => .ok node
  | none => .error .notFound

def read (tree : FileTree) (directory : Place) (path : String) : Except FileError ByteArray := do
  match ← tree.find directory path with
  | .file content => .ok content
  | .directory => .error .isADirectory

def put (tree : FileTree) (place : Place) (content : ByteArray) : FileTree :=
  { tree with files := tree.files.filter (fun entry => entry.1 ≠ place) ++ [(place, content)] }

/-- Why nothing can be written to a path that ends with a slash. It can only mean a
directory, and what comes before its last name has to be one. -/
def refuseDirectory (tree : FileTree) (directory : Place) (path : String) : FileError :=
  if pathLimit < path.utf8ByteSize then .nameTooLong
  else
    let outer := (path.toList.reverse.dropWhile (· = '/')).dropWhile (· ≠ '/')
    match tree.find directory (String.ofList outer.reverse ++ ".") with
    | .ok _ => .isADirectory
    | .error error => error

/-- The place that can be written to by a path. -/
def target (tree : FileTree) (directory : Place) (path : String) : Except FileError Place := do
  if path.toList.getLast? = some '/' then .error (tree.refuseDirectory directory path)
  else
    let place ← tree.resolve directory path
    match tree.node? place with
    | some .directory => .error .isADirectory
    | _ => .ok place

/-- Writes a file in a directory that is there. -/
def write (tree : FileTree) (directory : Place) (path : String) (content : ByteArray) :
    Except FileError FileTree :=
  return tree.put (← tree.target directory path) content

def remove (tree : FileTree) (place : Place) : FileTree where
  files := tree.files.filter fun entry => !place.isPrefixOf entry.1
  directories := tree.directories.filter fun directory => !place.isPrefixOf directory

end FileTree

end CoreBench.Cli
