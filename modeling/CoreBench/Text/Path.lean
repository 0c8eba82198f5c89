/-!
Paths with slashes between their parts. A path is only read here; whether it leads
anywhere is for the system to say.
-/

namespace CoreBench.Path

/-- The parts between slashes. A slash at either end leaves an empty part. -/
def parts (path : String) : List String :=
  (path.toList.splitOn '/').map String.ofList

/-- The name of what the path leads to. A last part that is empty or stands for the
directory itself does not count; a last part that goes up leaves no name. -/
def fileName? (path : String) : Option String :=
  ((parts path).filter fun part => part ≠ "" && part ≠ ".").getLast?.filter fun part => part ≠ ".."

/-- The path of an entry of the directory. -/
def child (directory name : String) : String :=
  if directory = "" || directory.toList.getLast? = some '/' then directory ++ name
  else directory ++ "/" ++ name

def absolute (names : List String) : String :=
  "/" ++ "/".intercalate names

/-- The directory that the names lead to from the root, the innermost name first,
and the directories above it. -/
def above : List String → List String
  | [] => [absolute []]
  | name :: outer => absolute (name :: outer).reverse :: above outer

/-- An absolute directory and the directories above it, up to the root. -/
def upward (directory : String) : List String :=
  above ((parts directory).filter (· ≠ "")).reverse

end CoreBench.Path
