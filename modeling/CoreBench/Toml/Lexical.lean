import CoreBench.Text.Numeral

/-!
The smallest parts of a TOML text: blanks and comments, line ends, the four
kinds of string, and keys. A reader takes the text and gives what it read and the
rest, or nothing when the text does not start that way.
-/

namespace CoreBench.Toml

abbrev Reader (α : Type) := List Char → Option (α × List Char)

def isGap (c : Char) : Bool :=
  c == ' ' || c == '\t'

/-- Tabs and everything printable; the control characters are not allowed. -/
def isPrintable (c : Char) : Bool :=
  c == '\t' || (0x20 ≤ c.toNat && c.toNat != 0x7F)

def skipGap (cs : List Char) : List Char :=
  cs.dropWhile isGap

/-- The rest after a line end. A carriage return has to have its line feed. -/
def lineEnd? : List Char → Option (List Char)
  | '\n' :: rest => some rest
  | '\r' :: '\n' :: rest => some rest
  | _ => none

/-- The rest after the blanks and the comment that may end a line. -/
def endOfLine? (cs : List Char) : Option (List Char) :=
  let rest := match skipGap cs with
    | '#' :: comment => comment.dropWhile isPrintable
    | rest => rest
  if rest.isEmpty then some [] else lineEnd? rest

/-- Skips blanks, line ends and whole comments. -/
def skipLines : Nat → List Char → List Char
  | 0, cs => cs
  | fuel + 1, cs =>
      match skipGap cs with
      | '#' :: comment =>
          match lineEnd? (comment.dropWhile isPrintable) with
          | some rest => skipLines fuel rest
          | none => '#' :: comment
      | rest =>
          match lineEnd? rest with
          | some rest => skipLines fuel rest
          | none => rest

/-- The character with the given hexadecimal code of `count` digits. -/
def scalar (count : Nat) : Reader Char := fun cs =>
  match Text.hexadecimal? (cs.take count) with
  | some code =>
      if cs.length < count then none
      else if code.isValidChar then some (Char.ofNat code, cs.drop count)
      else none
  | none => none

/-- What a backslash and the following characters stand for. -/
def escape : Reader Char
  | 'b' :: rest => some ('\x08', rest)
  | 't' :: rest => some ('\t', rest)
  | 'n' :: rest => some ('\n', rest)
  | 'f' :: rest => some ('\x0c', rest)
  | 'r' :: rest => some ('\r', rest)
  | '"' :: rest => some ('"', rest)
  | '\\' :: rest => some ('\\', rest)
  | 'u' :: rest => scalar 4 rest
  | 'U' :: rest => scalar 8 rest
  | _ => none

/-- The rest of a string in double quotes. -/
def basicBody : Nat → Reader (List Char)
  | 0, _ => none
  | _ + 1, [] => none
  | fuel + 1, c :: rest =>
      if c = '"' then some ([], rest)
      else if c = '\\' then do
        let (escaped, rest) ← escape rest
        let (body, rest) ← basicBody fuel rest
        some (escaped :: body, rest)
      else if isPrintable c then do
        let (body, rest) ← basicBody fuel rest
        some (c :: body, rest)
      else none

/-- The rest of a string in single quotes. -/
def literalBody (cs : List Char) : Option (List Char × List Char) :=
  match cs.dropWhile fun c => c != '\'' && isPrintable c with
  | '\'' :: rest => some (cs.takeWhile fun c => c != '\'' && isPrintable c, rest)
  | _ => none

/-- Inside a string of several lines up to two quotes stand for themselves, also
right before the three that close it. With `escapes`, a backslash at the end of a
line joins the lines and skips the blanks between them. -/
def longBody (quote : Char) (escapes : Bool) : Nat → Reader (List Char)
  | 0, _ => none
  | fuel + 1, cs =>
      let quotes := cs.takeWhile (· == quote)
      let rest := cs.drop quotes.length
      if 3 ≤ quotes.length then
        let kept := min 2 (quotes.length - 3)
        some (List.replicate kept quote, cs.drop (kept + 3))
      else do
        let (body, rest) ← content fuel rest
        some (quotes ++ body, rest)
where
  content (fuel : Nat) (cs : List Char) : Option (List Char × List Char) :=
    match cs with
    | [] => none
    | c :: rest =>
        match lineEnd? (c :: rest) with
        | some rest => do
            let (body, rest) ← longBody quote escapes fuel rest
            some ('\n' :: body, rest)
        | none =>
            if escapes && c == '\\' then
              match lineEnd? (skipGap rest) with
              | some rest => longBody quote escapes fuel (skipBlankLines rest.length rest)
              | none => do
                  let (escaped, rest) ← escape rest
                  let (body, rest) ← longBody quote escapes fuel rest
                  some (escaped :: body, rest)
            else if isPrintable c then do
              let (body, rest) ← longBody quote escapes fuel rest
              some (c :: body, rest)
            else none
  skipBlankLines : Nat → List Char → List Char
    | 0, cs => cs
    | fuel + 1, cs =>
        match lineEnd? (skipGap cs) with
        | some rest => skipBlankLines fuel rest
        | none => skipGap cs

def shortText : Reader String
  | '"' :: rest => (basicBody (rest.length + 1) rest).map fun read => (String.ofList read.1, read.2)
  | '\'' :: rest => (literalBody rest).map fun read => (String.ofList read.1, read.2)
  | _ => none

/-- A string over several lines. A line end right after the opening quotes is not
part of it. -/
def longText (quote : Char) (escapes : Bool) (cs : List Char) : Option (String × List Char) :=
  let body := (lineEnd? cs).getD cs
  (longBody quote escapes (body.length + 1) body).map fun read => (String.ofList read.1, read.2)

def text : Reader String
  | '"' :: '"' :: '"' :: rest => longText '"' true rest
  | '\'' :: '\'' :: '\'' :: rest => longText '\'' false rest
  | cs => shortText cs

def isBareKey (c : Char) : Bool :=
  c.isAlphanum || c == '_' || c == '-'

/-- One step of a key: a bare word or a string on one line. -/
def keyStep (cs : List Char) : Option (String × List Char) :=
  match shortText cs with
  | some read => some read
  | none =>
      let bare := cs.takeWhile isBareKey
      if bare.isEmpty then none else some (String.ofList bare, cs.drop bare.length)

/-- Steps joined by dots, with blanks around each of them. -/
def keySteps : Nat → Reader (List String)
  | 0, _ => none
  | fuel + 1, cs => do
      let (first, rest) ← keyStep (skipGap cs)
      match skipGap rest with
      | '.' :: rest =>
          let (steps, rest) ← keySteps fuel rest
          some (first :: steps, rest)
      | rest => some ([first], rest)

/-- A key has fewer than eighty steps. -/
def key : Reader (List String) :=
  keySteps 79

end CoreBench.Toml
