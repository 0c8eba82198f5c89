import CoreBench.Text.CharClass

/-!
Cutting texts apart. Texts are lists of characters here: trimming, lines, words,
the first occurrence of a separator, and all of its occurrences. Replacing a
pattern comes to splitting at it and joining with something else.
-/

namespace CoreBench.Text

def trimStart (cs : List Char) : List Char :=
  cs.dropWhile isBlank

def trimEnd (cs : List Char) : List Char :=
  (cs.reverse.dropWhile isBlank).reverse

def trim (cs : List Char) : List Char :=
  trimEnd (trimStart cs)

/-- The maximal runs of other characters than white space. -/
def words (cs : List Char) : List (List Char) :=
  (cs.splitOnP isBlank).filter fun word => !word.isEmpty

/-- A line end may be written with a carriage return before the line feed. -/
def dropReturn (line : List Char) : List Char :=
  if line.getLast? = some '\r' then line.dropLast else line

/-- The lines of a text. Line feeds end lines; what follows the last one is a
line of its own unless it is empty. -/
def lines (cs : List Char) : List (List Char) :=
  let pieces := cs.splitOn '\n'
  pieces.dropLast.map dropReturn ++ pieces.getLast?.toList.filter fun line => !line.isEmpty

/-- What stands before and after the first occurrence of `sep`. -/
def cut (sep : List Char) : List Char → Option (List Char × List Char)
  | [] => if sep.isEmpty then some ([], []) else none
  | c :: cs =>
      if sep.isPrefixOf (c :: cs) then some ([], (c :: cs).drop sep.length)
      else (cut sep cs).map fun parts => (c :: parts.1, parts.2)

/-- What stands before and after the last occurrence of the character `sep`. -/
def cutLast (sep : Char) (cs : List Char) : Option (List Char × List Char) :=
  (cut [sep] cs.reverse).map fun parts => (parts.2.reverse, parts.1.reverse)

/-- Splits at `sep`, after passing over `skip` characters of an occurrence. -/
def splitFrom (sep : List Char) : Nat → List Char → List (List Char)
  | _, [] => [[]]
  | skip + 1, _ :: cs => splitFrom sep skip cs
  | 0, c :: cs =>
      if sep.isPrefixOf (c :: cs) then [] :: splitFrom sep (sep.length - 1) cs
      else (splitFrom sep 0 cs).modifyHead (c :: ·)

/-- The pieces between the occurrences of `sep`, found from left to right
without overlap. The separator is not empty. -/
def split (sep cs : List Char) : List (List Char) :=
  splitFrom sep 0 cs

/-- Replaces occurrences, after passing over `skip` characters of one. -/
def replaceFrom (pattern replacement : List Char) : Nat → List Char → List Char
  | _, [] => []
  | skip + 1, _ :: cs => replaceFrom pattern replacement skip cs
  | 0, c :: cs =>
      if pattern.isPrefixOf (c :: cs) then
        replacement ++ replaceFrom pattern replacement (pattern.length - 1) cs
      else c :: replaceFrom pattern replacement 0 cs

/-- Every occurrence of `pattern` gives way to `replacement`. -/
def replace (pattern replacement cs : List Char) : List Char :=
  replaceFrom pattern replacement 0 cs

def contains (pattern cs : List Char) : Bool :=
  (cut pattern cs).isSome

theorem cut_eq_append (sep cs before after : List Char) (found : cut sep cs = some (before, after)) :
    cs = before ++ sep ++ after := by
  induction cs generalizing before with
  | nil =>
      by_cases empty : sep.isEmpty
      · simp_all [cut]
      · simp [cut, empty] at found
  | cons c cs ih =>
      by_cases here : sep.isPrefixOf (c :: cs)
      · obtain ⟨rest, same⟩ := List.isPrefixOf_iff_prefix.mp here
        simp only [cut, here, ↓reduceIte, Option.some.injEq, Prod.mk.injEq] at found
        obtain ⟨rfl, rfl⟩ := found
        simp [← same]
      · simp only [cut, here, Bool.false_eq_true, ↓reduceIte, Option.map_eq_some_iff] at found
        obtain ⟨⟨before', after'⟩, later, pair⟩ := found
        cases pair
        simp [ih _ later]

theorem splitFrom_ne_nil (sep cs : List Char) (skip : Nat) : splitFrom sep skip cs ≠ [] := by
  fun_induction splitFrom sep skip cs with
  | case1 => simp
  | case2 _ _ _ ih => exact ih
  | case3 => simp
  | case4 c cs _ ih =>
      cases h : splitFrom sep 0 cs with
      | nil => exact absurd h ih
      | cons piece pieces => simp

theorem intercalate_splitFrom (sep cs : List Char) (skip : Nat) (nonempty : sep ≠ []) :
    sep.intercalate (splitFrom sep skip cs) = cs.drop skip := by
  fun_induction splitFrom sep skip cs with
  | case1 => simp [List.intercalate]
  | case2 _ _ _ ih => simpa using ih
  | case3 c cs here ih =>
      obtain ⟨rest, same⟩ := List.isPrefixOf_iff_prefix.mp here
      obtain ⟨first, tail, rfl⟩ := List.exists_cons_of_ne_nil nonempty
      obtain ⟨rfl, rfl⟩ := List.cons.inj same
      rw [List.intercalate_cons_of_ne_nil (splitFrom_ne_nil _ _ _), ih]
      simp
  | case4 c cs _ ih =>
      cases h : splitFrom sep 0 cs with
      | nil => exact absurd h (splitFrom_ne_nil sep cs 0)
      | cons piece pieces =>
          rw [h] at ih
          cases pieces <;> simp_all [List.intercalate]

theorem replaceFrom_eq_intercalate (pattern replacement cs : List Char) (skip : Nat) :
    replaceFrom pattern replacement skip cs =
      replacement.intercalate (splitFrom pattern skip cs) := by
  fun_induction splitFrom pattern skip cs with
  | case1 => simp [replaceFrom, List.intercalate]
  | case2 _ _ _ ih => exact ih
  | case3 c cs here ih =>
      rw [List.intercalate_cons_of_ne_nil (splitFrom_ne_nil _ _ _), replaceFrom, if_pos here, ih]
      simp
  | case4 c cs there ih =>
      rw [replaceFrom, if_neg there, ih]
      cases h : splitFrom pattern 0 cs with
      | nil => exact absurd h (splitFrom_ne_nil pattern cs 0)
      | cons piece pieces => cases pieces <;> simp [List.intercalate]

/-- Replacing joins the pieces between the occurrences with something else. -/
theorem replace_eq_intercalate (pattern replacement cs : List Char) :
    replace pattern replacement cs = replacement.intercalate (split pattern cs) :=
  replaceFrom_eq_intercalate pattern replacement cs 0

/-- Joining the pieces with the separator gives the text back. -/
theorem intercalate_split (sep cs : List Char) (nonempty : sep ≠ []) :
    sep.intercalate (split sep cs) = cs :=
  intercalate_splitFrom sep cs 0 nonempty

end CoreBench.Text
