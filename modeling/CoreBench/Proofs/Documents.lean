import CoreBench.Text.Json

/-!
Reading a document again. The reader follows the grammar of such texts and knows nothing of
how they are laid out here: any white space may stand between the parts, and any escape for a
character. A document that has been laid out is read as that document, entry by entry, so its
text tells all of it.
-/

namespace CoreBench.Text.Json

/-- White space between the parts of a document. -/
def isGap (c : Char) : Bool :=
  c = ' ' || c = '\n' || c = '\r' || c = '\t'

def skip (cs : List Char) : List Char :=
  cs.dropWhile isGap

def unescape? : Char → Option Char
  | '"' => some '"'
  | '\\' => some '\\'
  | '/' => some '/'
  | 'b' => some '\x08'
  | 'f' => some '\x0c'
  | 'n' => some '\n'
  | 'r' => some '\r'
  | 't' => some '\t'
  | _ => none

/-- The characters up to the closing quote, and what stands behind it. -/
def readText? : List Char → Option (List Char × List Char)
  | [] => none
  | '"' :: rest => some ([], rest)
  | '\\' :: 'u' :: a :: b :: c :: d :: rest => do
      let code ← hexadecimal? [a, b, c, d]
      if code.isValidChar then
        (readText? rest).map fun (cs, rest) => (Char.ofNat code :: cs, rest)
      else none
  | '\\' :: letter :: rest => do
      let c ← unescape? letter
      (readText? rest).map fun (cs, rest) => (c :: cs, rest)
  | c :: rest =>
      if c.toNat < 0x20 then none
      else (readText? rest).map fun (cs, rest) => (c :: cs, rest)

section

variable {α : Type}

/-- Entries with commas between them, up to the closing bracket. -/
def readEntries? (closing : Char) (read : List Char → Option (α × List Char)) :
    Nat → List Char → Option (List α × List Char)
  | 0, _ => none
  | fuel + 1, cs => do
      let (entry, rest) ← read (skip cs)
      match skip rest with
      | [] => none
      | c :: rest =>
          if c = closing then some ([entry], rest)
          else if c = ',' then
            (readEntries? closing read fuel rest).map fun (entries, rest) =>
              (entry :: entries, rest)
          else none

/-- What stands between brackets, from behind the opening one on. -/
def readList? (closing : Char) (read : List Char → Option (α × List Char)) (fuel : Nat)
    (cs : List Char) : Option (List α × List Char) :=
  match skip cs with
  | [] => none
  | c :: rest => if c = closing then some ([], rest) else readEntries? closing read fuel cs

end

/-- A name, a colon and a value. -/
def readField? (read : List Char → Option (Json × List Char)) :
    List Char → Option ((String × Json) × List Char)
  | '"' :: rest => do
      let (name, rest) ← readText? rest
      match skip rest with
      | ':' :: rest =>
          (read (skip rest)).map fun (value, rest) => ((String.ofList name, value), rest)
      | _ => none
  | _ => none

/-- The document at the beginning of a text, and what stands behind it. No text has more
levels or more entries than the fuel if it has no more characters. -/
def readValue? : Nat → List Char → Option (Json × List Char)
  | 0, _ => none
  | fuel + 1, cs =>
      match cs with
      | 'n' :: 'u' :: 'l' :: 'l' :: rest => some (null, rest)
      | 't' :: 'r' :: 'u' :: 'e' :: rest => some (boolean true, rest)
      | 'f' :: 'a' :: 'l' :: 's' :: 'e' :: rest => some (boolean false, rest)
      | '"' :: rest => (readText? rest).map fun (cs, rest) => (text (String.ofList cs), rest)
      | '[' :: rest =>
          (readList? ']' (readValue? fuel) fuel rest).map fun (items, rest) => (array items, rest)
      | '\x7b' :: rest =>
          (readList? '\x7d' (readField? (readValue? fuel)) fuel rest).map fun (fields, rest) =>
            (object fields, rest)
      | cs =>
          (decimal? (cs.takeWhile Char.isDigit)).map fun value =>
            (number value, cs.dropWhile Char.isDigit)

/-- The document that a text spells, with nothing but white space around it. -/
def read? (text : String) : Option Json := do
  let (document, rest) ← readValue? text.length (skip text.toList)
  if (skip rest).isEmpty then some document else none

example : read? " [ 1, \"\\u0041\\n\", \x7b\"a\" :[ ]\x7d ]\n" =
    some (array [number 1, text "A\n", object [("a", array [])]]) := by
  rfl

/-- What may stand behind a value: nothing that could still belong to a number. -/
def Apart (rest : List Char) : Prop :=
  ∀ c ∈ rest.head?, c.isDigit = false

/-- A text begins with a value, neither with white space nor with a closing bracket. -/
def Solid (cs : List Char) : Prop :=
  ∃ c rest, cs = c :: rest ∧ isGap c = false ∧ c ≠ ']' ∧ c ≠ '\x7d'

theorem skip_gap (gap cs : List Char) (blank : ∀ c ∈ gap, isGap c = true) :
    skip (gap ++ cs) = skip cs :=
  List.dropWhile_append_of_pos blank

theorem line_gap : ∀ c ∈ ['\n'], isGap c = true :=
  List.forall_mem_singleton.mpr rfl

theorem space_gap : ∀ c ∈ [' '], isGap c = true :=
  List.forall_mem_singleton.mpr rfl

theorem skip_part (c : Char) (rest : List Char) (part : isGap c = false) :
    skip (c :: rest) = c :: rest :=
  List.dropWhile_cons_of_neg (by rw [part]; exact Bool.false_ne_true)

theorem skip_solid (cs rest : List Char) (solid : Solid cs) : skip (cs ++ rest) = cs ++ rest := by
  obtain ⟨c, others, rfl, part, _⟩ := solid
  exact skip_part c _ part

theorem gap_apart (c : Char) (rest : List Char) (blank : isGap c = true) : Apart (c :: rest) := by
  rintro _ ⟨⟩
  rw [isGap] at blank
  simp only [Bool.or_eq_true, decide_eq_true_eq] at blank
  rcases blank with ((rfl | rfl) | rfl) | rfl <;> rfl

section

variable {α : Type} {closing : Char} {read : List Char → Option (α × List Char)}
variable {write : α → List Char} {indent tail : List Char}

theorem closed_apart (outside : closing.isDigit = false) (ends : ∀ c ∈ tail, isGap c = true)
    (rest : List Char) : Apart (tail ++ closing :: rest) := by
  cases tail with
  | nil =>
      rintro _ ⟨⟩
      exact outside
  | cons c tail => exact gap_apart c _ (ends c List.mem_cons_self)

theorem skip_closed (outside : isGap closing = false) (ends : ∀ c ∈ tail, isGap c = true)
    (rest : List Char) : skip (tail ++ closing :: rest) = closing :: rest := by
  rw [skip_gap tail _ ends]
  exact skip_part closing rest outside

/-- A value is read back from its text, whatever stands around it. -/
structure Recovers (read : List Char → Option (α × List Char)) (write : α → List Char)
    (entry : α) : Prop where
  solid : Solid (write entry)
  reads : ∀ rest, Apart rest → read (write entry ++ rest) = some (entry, rest)

theorem Recovers.behind_gap {entry : α} (recovers : Recovers read write entry)
    (spaces : ∀ c ∈ indent, isGap c = true) (front : List Char)
    (gap : ∀ c ∈ front, isGap c = true) (rest : List Char) (apart : Apart rest) :
    read (skip (front ++ (indent ++ (write entry ++ rest)))) = some (entry, rest) := by
  rw [skip_gap front _ gap, skip_gap indent _ spaces, skip_solid _ _ recovers.solid,
    recovers.reads rest apart]

theorem entries_read (blank : isGap closing = false) (digit : closing.isDigit = false)
    (comma : closing ≠ ',') (spaces : ∀ c ∈ indent, isGap c = true)
    (ends : ∀ c ∈ tail, isGap c = true) (first : α) (others : List α)
    (each : ∀ entry ∈ first :: others, Recovers read write entry) (front : List Char)
    (gap : ∀ c ∈ front, isGap c = true) (fuel : Nat) (enough : others.length ≤ fuel)
    (rest : List Char) :
    readEntries? closing read (fuel + 1) (front ++ (indent ++ (write first ++
        (others.flatMap (fun entry => ',' :: '\n' :: (indent ++ write entry)) ++
          (tail ++ closing :: rest))))) =
      some (first :: others, rest) := by
  induction others generalizing first front fuel with
  | nil =>
      have here := (each first List.mem_cons_self).behind_gap spaces front gap _
        (closed_apart digit ends rest)
      rw [readEntries?, List.flatMap_nil, List.nil_append, here]
      simp only [Option.bind_eq_bind, Option.bind_some, skip_closed blank ends rest, ↓reduceIte]
  | cons second others ih =>
      obtain ⟨fuel, rfl⟩ := Nat.exists_eq_succ_of_ne_zero (Nat.ne_of_gt (Nat.zero_lt_of_lt enough))
      obtain ⟨recovers, later⟩ := List.forall_mem_cons.mp each
      have others_read := ih second later ['\n'] line_gap fuel (Nat.le_of_succ_le_succ enough)
      have here := fun after => recovers.behind_gap spaces front gap (',' :: after)
        (by rintro _ ⟨⟩; rfl)
      have comma_read : ∀ after, skip (',' :: after) = ',' :: after := fun _ => rfl
      rw [readEntries?, List.flatMap_cons]
      simp only [List.cons_append, List.nil_append, List.append_assoc, here, Option.bind_eq_bind,
        Option.bind_some, comma_read, Ne.symm comma, ↓reduceIte] at others_read ⊢
      rw [others_read, Option.map_some]

theorem indentation_gap (depth : Nat) : ∀ c ∈ (indentation depth).toList, isGap c = true := by
  rw [indentation, String.pushn]
  induction 2 * depth with
  | zero => nofun
  | succ count ih =>
      intro c member
      rw [Nat.repeat, String.toList_push, List.mem_append] at member
      rcases member with earlier | last
      · exact ih c earlier
      · rw [List.mem_singleton.mp last]
        rfl

theorem intercalate_cons_flatMap (sep first : List Char) (others : List (List Char)) :
    sep.intercalate (first :: others) = first ++ others.flatMap fun other => sep ++ other := by
  induction others generalizing first with
  | nil => rw [List.intercalate_singleton, List.flatMap_nil, List.append_nil]
  | cons second others ih =>
      rw [List.intercalate_cons_cons, ih, List.flatMap_cons, List.append_assoc, List.append_assoc]

/-- What stands behind the opening bracket of some entries, up to the end of the text. -/
def interior (depth : Nat) (closing : Char) (write : α → String) (first : α) (others : List α)
    (rest : List Char) : List Char :=
  ['\n'] ++ ((indentation (depth + 1)).toList ++ ((write first).toList ++
    (others.flatMap (fun entry =>
        ',' :: '\n' :: ((indentation (depth + 1)).toList ++ (write entry).toList)) ++
      ('\n' :: (indentation depth).toList ++ closing :: rest))))

theorem enclose_interior (depth : Nat) (opening : String) (closing : Char) (write : α → String)
    (first : α) (others : List α) (rest : List Char) :
    (enclose depth opening (String.singleton closing) ((first :: others).map write)).toList ++
        rest =
      opening.toList ++ interior depth closing write first others rest := by
  rw [enclose, List.map_cons, List.isEmpty_cons, if_neg Bool.false_ne_true]
  simp only [String.toList_append, String.toList_intercalate, List.map_cons, List.map_map,
    intercalate_cons_flatMap, List.flatMap_map, Function.comp_def, List.append_assoc,
    String.toList_singleton]
  rfl

theorem closing_part (closes : closing = ']' ∨ closing = '\x7d') :
    isGap closing = false ∧ closing.isDigit = false ∧ closing ≠ ',' := by
  rcases closes with rfl | rfl <;> decide

/-- Entries that are read back one by one are read back as a list. -/
theorem list_read (closes : closing = ']' ∨ closing = '\x7d') (depth : Nat)
    (opening : String) (write : α → String) (entries : List α)
    (each : ∀ entry ∈ entries, Recovers read (fun entry => (write entry).toList) entry)
    (fuel : Nat) (enough : entries.length ≤ fuel) (rest : List Char) :
    ∃ inside,
      (enclose depth opening (String.singleton closing) (entries.map write)).toList ++ rest =
        opening.toList ++ inside ∧
      readList? closing read fuel inside = some (entries, rest) := by
  obtain ⟨blank, digit, comma⟩ := closing_part closes
  cases entries with
  | nil =>
      refine ⟨closing :: rest, by simp [enclose], ?_⟩
      rw [readList?, skip_part closing rest blank]
      exact if_pos rfl
  | cons first others =>
      obtain ⟨fuel, rfl⟩ := Nat.exists_eq_succ_of_ne_zero (Nat.ne_of_gt (Nat.zero_lt_of_lt enough))
      refine ⟨_, enclose_interior depth opening closing write first others rest, ?_⟩
      have ends : ∀ c ∈ '\n' :: (indentation depth).toList, isGap c = true :=
        List.forall_mem_cons.mpr ⟨rfl, indentation_gap depth⟩
      have entered := entries_read blank digit comma (indentation_gap (depth + 1)) ends first others
        each ['\n'] line_gap fuel (Nat.le_of_succ_le_succ enough) rest
      obtain ⟨⟨c, cs, written, part, bracket, brace⟩, -⟩ := each first List.mem_cons_self
      have other : c ≠ closing := by
        rcases closes with rfl | rfl
        · exact bracket
        · exact brace
      have begun : ∃ after, skip (interior depth closing write first others rest) = c :: after := by
        rw [interior, skip_gap ['\n'] _ line_gap, skip_gap _ _ (indentation_gap (depth + 1)),
          written]
        exact ⟨_, skip_part c _ part⟩
      obtain ⟨after, begun⟩ := begun
      rw [readList?, begun]
      exact (if_neg other).trans entered

end

/-- A control character is written by its code, in four digits. -/
theorem code_read : ∀ code < 0x20,
    ("\\u" ++ (hexUpper 4 code).map Char.toLower).toList =
        ['\\', 'u', '0', '0', (code / 16).digitChar, (code % 16).digitChar] ∧
      hexadecimal? ['0', '0', (code / 16).digitChar, (code % 16).digitChar] = some code := by
  decide +kernel

theorem escape_read (c : Char) (rest : List Char) :
    readText? ((escape c).toList ++ rest) =
      (readText? rest).map fun (cs, rest) => (c :: cs, rest) := by
  unfold escape
  split
  · rfl
  · rfl
  · rfl
  · rfl
  · rfl
  · rfl
  · rfl
  next quote backslash _ _ _ _ _ =>
    split
    next control =>
      obtain ⟨written, code⟩ := code_read c.toNat control
      have scalar : c.toNat.isValidChar := c.valid
      rw [written]
      simp only [List.cons_append, List.nil_append, readText?, code, Option.bind_eq_bind,
        Option.bind_some, scalar, ↓reduceIte, Char.ofNat_toNat]
    next printed =>
      rw [Char.toString, String.toList_singleton, List.singleton_append, readText?.eq_def]
      split
      next same => cases same
      next same => exact (quote (List.cons.inj same).1).elim
      next same => exact (backslash (List.cons.inj same).1).elim
      next same => exact (backslash (List.cons.inj same).1).elim
      next same =>
        obtain ⟨rfl, rfl⟩ := List.cons.inj same
        exact if_neg printed

/-- A text in quotes is read back from behind the opening one. -/
theorem quote_read (text : String) (rest : List Char) :
    ∃ inside, (quote text).toList ++ rest = '"' :: inside ∧
      readText? inside = some (text.toList, rest) := by
  refine ⟨text.toList.flatMap (fun c => (escape c).toList) ++ '"' :: rest, ?_, ?_⟩
  · simp [quote, String.toList_join, List.flatMap_map]
  · induction text.toList with
    | nil => rfl
    | cons c cs ih =>
        rw [List.flatMap_cons, List.append_assoc, escape_read, ih]
        rfl

theorem field_read {read : List Char → Option (Json × List Char)} {depth : Nat}
    (field : String × Json)
    (recovers : Recovers read (fun value => (layOut depth value).toList) field.2) :
    Recovers (readField? read)
      (fun field => (quote field.1 ++ ": " ++ layOut depth field.2).toList) field := by
  have shape : ∀ rest, ∃ inside,
      (quote field.1 ++ ": " ++ layOut depth field.2).toList ++ rest = '"' :: inside ∧
        readText? inside =
          some (field.1.toList, ':' :: ([' '] ++ ((layOut depth field.2).toList ++ rest))) := by
    intro rest
    rw [String.toList_append, String.toList_append, List.append_assoc, List.append_assoc]
    exact quote_read field.1 _
  constructor
  · obtain ⟨inside, written, -⟩ := shape []
    rw [List.append_nil] at written
    exact ⟨'"', inside, written, by decide⟩
  · intro rest apart
    obtain ⟨inside, written, named⟩ := shape rest
    have none_indented : ∀ c ∈ ([] : List Char), isGap c = true := nofun
    have value := recovers.behind_gap none_indented [' '] space_gap rest apart
    rw [List.nil_append] at value
    rw [written, readField?, named]
    simp only [Option.bind_eq_bind, Option.bind_some, skip_part ':' _ rfl, value, Option.map_some,
      String.ofList_toList]

theorem digit_part (d : Char) (digit : d.isDigit = true) :
    isGap d = false ∧ d ≠ ']' ∧ d ≠ '\x7d' := by
  refine ⟨?_, ?_, ?_⟩
  · cases blank : isGap d with
    | false => rfl
    | true => exact digit.symm.trans (gap_apart d [] blank d rfl)
  · rintro rfl
    cases digit
  · rintro rfl
    cases digit

theorem digits_written (value : Nat) :
    ∃ d ds, Nat.toDigits 10 value = d :: ds ∧ d.isDigit = true := by
  obtain ⟨d, ds, whole⟩ := List.exists_cons_of_ne_nil (Nat.toDigits_ne_nil (n := value) (b := 10))
  have member : d ∈ Nat.toDigits 10 value := by
    rw [whole]
    exact List.mem_cons_self
  exact ⟨d, ds, whole, Nat.isDigit_of_mem_toDigits (by decide) (by decide) member⟩

theorem number_read (value fuel : Nat) (rest : List Char) (apart : Apart rest) :
    readValue? (fuel + 1) (Nat.toDigits 10 value ++ rest) = some (number value, rest) := by
  have digits : ∀ c ∈ Nat.toDigits 10 value, c.isDigit = true := fun c member =>
    Nat.isDigit_of_mem_toDigits (by decide) (by decide) member
  have behind : rest.takeWhile Char.isDigit = [] ∧ rest.dropWhile Char.isDigit = rest := by
    cases rest with
    | nil => exact ⟨rfl, rfl⟩
    | cons c rest =>
        have other : ¬c.isDigit = true := by
          rw [apart c rfl]
          exact Bool.false_ne_true
        exact ⟨List.takeWhile_cons_of_neg other, List.dropWhile_cons_of_neg other⟩
  have taken : (Nat.toDigits 10 value ++ rest).takeWhile Char.isDigit = Nat.toDigits 10 value := by
    rw [List.takeWhile_append_of_pos digits, behind.1, List.append_nil]
  have left : (Nat.toDigits 10 value ++ rest).dropWhile Char.isDigit = rest := by
    rw [List.dropWhile_append_of_pos digits, behind.2]
  have read : (decimal? ((Nat.toDigits 10 value ++ rest).takeWhile Char.isDigit)).map
      (fun read => (number read, (Nat.toDigits 10 value ++ rest).dropWhile Char.isDigit)) =
        some (number value, rest) := by
    rw [taken, left, decimal?_toDigits]
    rfl
  obtain ⟨d, ds, whole, first⟩ := digits_written value
  rw [whole] at read ⊢
  rw [readValue?.eq_def]
  dsimp only
  split
  case h_7 => exact read
  -- A digit is the first character of no other value.
  all_goals
    rename_i same
    exact absurd first (by rw [(List.cons.inj same).1]; decide)

theorem lay_out_items (depth : Nat) (items : List Json) :
    layOutItems depth items = items.map (layOut depth) := by
  induction items with
  | nil => rfl
  | cons item items ih => rw [layOutItems, List.map_cons, ih]

theorem lay_out_fields (depth : Nat) (fields : List (String × Json)) :
    layOutFields depth fields =
      fields.map fun field => quote field.1 ++ ": " ++ layOut depth field.2 := by
  induction fields with
  | nil => rfl
  | cons field fields ih => rw [layOutFields, List.map_cons, ih]

theorem rows_length {α : Type} (indent : List Char) (write : α → String) (entries : List α) :
    let length := (entries.flatMap fun entry =>
      ',' :: '\n' :: (indent ++ (write entry).toList)).length
    entries.length ≤ length ∧ ∀ entry ∈ entries, (write entry).length ≤ length := by
  induction entries with
  | nil => exact ⟨Nat.le_refl _, nofun⟩
  | cons first others ih =>
      obtain ⟨fewer, shorter⟩ := ih
      simp only [List.flatMap_cons, List.length_append, List.length_cons, String.length_toList]
      refine ⟨by omega, List.forall_mem_cons.mpr ⟨by omega, fun entry member => ?_⟩⟩
      have short := shorter entry member
      omega

/-- Entries are fewer and shorter than the text that encloses them. -/
theorem enclose_length {α : Type} (depth : Nat) (opening : String) (closing : Char)
    (write : α → String) (entries : List α) :
    let length := (enclose depth opening (String.singleton closing) (entries.map write)).length
    entries.length < length ∧ ∀ entry ∈ entries, (write entry).length < length := by
  cases entries with
  | nil => exact ⟨by simp [enclose], nofun⟩
  | cons first others =>
      have whole := congrArg List.length
        (enclose_interior depth opening closing write first others [])
      obtain ⟨fewer, shorter⟩ := rows_length (indentation (depth + 1)).toList write others
      simp only [interior, List.append_nil, List.length_append, String.length_toList,
        List.length_cons, List.length_nil] at whole fewer shorter ⊢
      refine ⟨by omega, List.forall_mem_cons.mpr ⟨by omega, fun entry member => ?_⟩⟩
      have short := shorter entry member
      omega

/-- Entries are read back from their brackets, with as much fuel as there are characters. -/
theorem enclosed_read {α : Type} {closing : Char} {read : List Char → Option (α × List Char)}
    (closes : closing = ']' ∨ closing = '\x7d') (depth : Nat) (opening : String)
    (write : α → String) (entries : List α) (fuel : Nat)
    (enough : (enclose depth opening (String.singleton closing) (entries.map write)).length ≤
      fuel + 1)
    (each : ∀ entry ∈ entries, (write entry).length ≤ fuel →
      Recovers read (fun entry => (write entry).toList) entry) (rest : List Char) :
    ∃ inside,
      (enclose depth opening (String.singleton closing) (entries.map write)).toList ++ rest =
        opening.toList ++ inside ∧
      readList? closing read fuel inside = some (entries, rest) := by
  obtain ⟨fewer, shorter⟩ := enclose_length depth opening closing write entries
  have bounded : entries.length ≤ fuel := by
    omega
  refine list_read closes depth opening write entries ?_ fuel bounded rest
  intro entry member
  have short := shorter entry member
  exact each entry member (by omega)

/-- A document that is laid out on any level is read back, with fuel for its characters. -/
def Lasts (document : Json) : Prop :=
  ∀ depth fuel, (layOut depth document).length ≤ fuel →
    Recovers (readValue? fuel) (fun document => (layOut depth document).toList) document

/-- No document is laid out as nothing, so there is fuel to begin with. -/
theorem lasts_of_fuel {document : Json}
    (lasts : ∀ depth fuel, (layOut depth document).length ≤ fuel + 1 →
      Recovers (readValue? (fuel + 1)) (fun document => (layOut depth document).toList) document) :
    Lasts document := by
  intro depth fuel enough
  cases fuel with
  | zero =>
      obtain ⟨⟨c, rest, written, -⟩, -⟩ := lasts depth _ (Nat.le_succ _)
      have empty := Nat.le_zero.mp enough
      rw [← String.length_toList] at empty
      rw [written] at empty
      cases empty
  | succ fuel => exact lasts depth fuel enough

/-- A document that is one word on every level. -/
theorem lasts_of_word {document : Json} {word : List Char} (solid : Solid word)
    (written : ∀ depth, (layOut depth document).toList = word)
    (read : ∀ fuel rest, Apart rest →
      readValue? (fuel + 1) (word ++ rest) = some (document, rest)) :
    Lasts document := by
  refine lasts_of_fuel fun depth fuel _ => ?_
  constructor
  · rw [written]
    exact solid
  · rw [written]
    exact read fuel

theorem null_lasts : Lasts null := by
  have written : ∀ depth, (layOut depth null).toList = ['n', 'u', 'l', 'l'] := fun depth => by
    rw [layOut]
    rfl
  exact lasts_of_word ⟨'n', _, rfl, by decide⟩ written fun _ _ _ => rfl

theorem boolean_lasts (value : Bool) : Lasts (boolean value) := by
  have written : ∀ depth, (layOut depth (boolean value)).toList =
      if value then ['t', 'r', 'u', 'e'] else ['f', 'a', 'l', 's', 'e'] := fun depth => by
    rw [layOut]
    cases value <;> rfl
  cases value with
  | true => exact lasts_of_word ⟨'t', _, rfl, by decide⟩ written fun _ _ _ => rfl
  | false => exact lasts_of_word ⟨'f', _, rfl, by decide⟩ written fun _ _ _ => rfl

theorem number_lasts (value : Nat) : Lasts (number value) := by
  have written : ∀ depth, (layOut depth (number value)).toList = Nat.toDigits 10 value :=
    fun _ => String.toList_ofList
  obtain ⟨d, ds, whole, digit⟩ := digits_written value
  exact lasts_of_word ⟨d, ds, whole, digit_part d digit⟩ written (number_read value)

theorem text_lasts (value : String) : Lasts (text value) := by
  refine lasts_of_fuel fun depth fuel _ => ⟨?_, fun rest _ => ?_⟩
  · obtain ⟨inside, written, -⟩ := quote_read value []
    rw [List.append_nil] at written
    exact ⟨'"', inside, written, by decide⟩
  · obtain ⟨inside, written, read⟩ := quote_read value rest
    rw [layOut, written, readValue?, read]
    exact congrArg (fun value => some (text value, rest)) String.ofList_toList

theorem array_lasts (items : List Json) (each : ∀ item ∈ items, Lasts item) :
    Lasts (array items) := by
  refine lasts_of_fuel fun depth fuel enough => ?_
  have written : layOut depth (array items) =
      enclose depth "[" (String.singleton ']') (items.map (layOut (depth + 1))) := by
    rw [layOut, lay_out_items]
    rfl
  rw [written] at enough
  have recovered := enclosed_read (.inl rfl) depth "[" (layOut (depth + 1)) items fuel enough
    fun item member short => each item member (depth + 1) fuel short
  constructor
  · obtain ⟨inside, whole, -⟩ := recovered []
    rw [List.append_nil, ← written] at whole
    exact ⟨'[', inside, whole, by decide⟩
  · intro rest _
    obtain ⟨inside, whole, read⟩ := recovered rest
    rw [written, whole]
    exact congrArg (Option.map fun (items, rest) => (array items, rest)) read

theorem object_lasts (fields : List (String × Json)) (each : ∀ field ∈ fields, Lasts field.2) :
    Lasts (object fields) := by
  refine lasts_of_fuel fun depth fuel enough => ?_
  have written : layOut depth (object fields) =
      enclose depth "\x7b" (String.singleton '\x7d')
        (fields.map fun field => quote field.1 ++ ": " ++ layOut (depth + 1) field.2) := by
    rw [layOut, lay_out_fields]
    rfl
  rw [written] at enough
  have recovered := enclosed_read (.inr rfl) depth "\x7b" _ fields fuel enough
    fun field member short => field_read field (each field member (depth + 1) fuel (by
      rw [String.length_append] at short
      omega))
  constructor
  · obtain ⟨inside, whole, -⟩ := recovered []
    rw [List.append_nil, ← written] at whole
    exact ⟨'\x7b', inside, whole, by decide⟩
  · intro rest _
    obtain ⟨inside, whole, read⟩ := recovered rest
    rw [written, whole]
    exact congrArg (Option.map fun (fields, rest) => (object fields, rest)) read

mutual

theorem document_lasts : (document : Json) → Lasts document
  | null => null_lasts
  | boolean value => boolean_lasts value
  | number value => number_lasts value
  | text value => text_lasts value
  | array items => array_lasts items (items_last items)
  | object fields => object_lasts fields (fields_last fields)

theorem items_last : (items : List Json) → ∀ item ∈ items, Lasts item
  | [] => nofun
  | item :: items => List.forall_mem_cons.mpr ⟨document_lasts item, items_last items⟩

theorem fields_last : (fields : List (String × Json)) → ∀ field ∈ fields, Lasts field.2
  | [] => nofun
  | field :: fields => List.forall_mem_cons.mpr ⟨document_lasts field.2, fields_last fields⟩

end

/-- A text that was laid out is read as what it was made from, also with white space behind
it. -/
theorem read_to_text (document : Json) (gap : String) (blank : ∀ c ∈ gap.toList, isGap c = true) :
    read? (document.toText ++ gap) = some document := by
  have enough : document.toText.length ≤ (document.toText ++ gap).length := by
    rw [String.length_append]
    exact Nat.le_add_right _ _
  have apart : Apart gap.toList := by
    cases written : gap.toList with
    | nil => nofun
    | cons c rest => exact gap_apart c rest (blank c (by rw [written]; exact List.mem_cons_self))
  have skipped : skip (gap.toList ++ []) = [] := skip_gap gap.toList [] blank
  obtain ⟨solid, reads⟩ := document_lasts document 0 (document.toText ++ gap).length enough
  have begun := skip_solid _ gap.toList solid
  have whole := reads gap.toList apart
  unfold toText at whole ⊢
  rw [List.append_nil] at skipped
  rw [read?, String.toList_append, begun, whole]
  simp only [Option.bind_eq_bind, Option.bind_some, skipped, List.isEmpty_nil, ↓reduceIte]

end CoreBench.Text.Json
