import CoreBench.TimeUnit
import CoreBench.Waveform.Basic
import CoreBench.Waveform.Token

/-!
Loading a value change dump. The loader takes one token after another and keeps
what it has read so far, so the result depends on the tokens and not on their
layout, and a longer dump continues a shorter one. Line numbers only go into
errors; they name the token that opened the failing section, timestamp or change.
-/

namespace CoreBench.Waveform

inductive DumpIssue where
  | timescale (error : TimeUnitError)
  | unterminated (keyword : String)
  | variableBody (body : String)
  | variableWidth (width : String)
  | header (token : String)
  | timestamp (digits : String)
  | timestampRange (digits : String)
  | timestampOrder (digits : String)
  | noIdentifier (change : String)
  | valueChange (token : String)
  | value (levels : String)
  deriving DecidableEq, Repr

def DumpIssue.message : DumpIssue → String
  | timescale error => error.message
  | unterminated keyword => s!"unterminated {keyword}"
  | variableBody body => s!"invalid $var: {body}"
  | variableWidth width => s!"invalid width in $var: {width}"
  | header token => s!"unexpected '{token}' in header"
  | timestamp digits => s!"invalid timestamp: #{digits}"
  | timestampRange digits => s!"timestamp out of range: #{digits}"
  | timestampOrder digits => s!"timestamp goes backwards: #{digits}"
  | noIdentifier change => s!"missing identifier after {change}"
  | valueChange token => s!"invalid value change: {token}"
  | value levels => s!"invalid value '{levels}'"

inductive LoadError where
  | unreadable (reason : String)
  | malformed (line : Nat) (issue : DumpIssue)
  | noDefinitions
  deriving DecidableEq, Repr

def LoadError.message : LoadError → String
  | unreadable reason => s!"I/O error: {reason}"
  | malformed line issue => s!"parse error at line {line}: {issue.message}"
  | noDefinitions => "format error: missing $enddefinitions"

/-- A declared variable: the identifier of its changes, and its signal with the
newest sample first. -/
structure Variable where
  identifier : List Char
  name : String
  width : Nat
  newest : List Sample
  deriving DecidableEq, Repr

/-- Where the loader stands between two tokens. -/
inductive Place where
  /-- Before the end of the definitions, outside of sections. -/
  | header
  /-- In a section, with the tokens of its body so far, the last one first. -/
  | inside (keyword : List Char) (line : Nat) (body : List (List Char)) (inHeader : Bool)
  /-- Among the value changes. -/
  | changes
  /-- After the value of a vector, before the identifier. -/
  | vector (token : List Char) (line : Nat)
  /-- After a real value, whose identifier is passed over. -/
  | real
  deriving DecidableEq, Repr

structure Progress where
  place : Place := .header
  fsPerUnit : Nat := 1
  scopes : List (List Char) := []
  declared : List Variable := []
  time : Nat := 0
  endTime : Nat := 0
  deriving Repr

/-- The level of the lines above a value: unknown or floating if its top line is that,
low otherwise. -/
def levelAbove (value : Bus) : Level :=
  match value.levels.getLast? with
  | some .unknown => .unknown
  | some .floating => .floating
  | _ => .low

/-- Adds lines above the top one. A wider value loses its top lines. -/
def extend (value : Bus) (width : Nat) : Bus :=
  value.resize width (levelAbove value)

def dottedName (scopes : List (List Char)) (name : List Char) : String :=
  String.ofList (['.'].intercalate (scopes ++ [name]))

namespace Progress

/-- Declares the variable of a section with at least type, width, identifier and
name. -/
def declare (progress : Progress) (line : Nat) (body : List (List Char)) : Except LoadError Progress :=
  match body with
  | _ :: width :: identifier :: name :: _ =>
      match Text.unsigned? 32 width with
      | none => .error (.malformed line (.variableWidth (String.ofList width)))
      | some count =>
          .ok { progress with
            place := .header
            declared := progress.declared ++ [⟨identifier, dottedName progress.scopes name, count, []⟩] }
  | _ => .error (.malformed line (.variableBody (String.ofList ([' '].intercalate body))))

/-- What a section of the header does when it ends. -/
def closeHeader (progress : Progress) (keyword : List Char) (line : Nat) (body : List (List Char)) :
    Except LoadError Progress :=
  if keyword = "$timescale".toList then
    if body.flatten.isEmpty then .ok { progress with place := .header, fsPerUnit := 1 }
    else match TimeUnit.ofChars body.flatten with
      | .ok size => .ok { progress with place := .header, fsPerUnit := size }
      | .error error => .error (.malformed line (.timescale error))
  else if keyword = "$scope".toList then
    let name := body[1]?.or body[0]?
    .ok { progress with place := .header, scopes := progress.scopes ++ name.toList }
  else if keyword = "$upscope".toList then
    .ok { progress with place := .header, scopes := progress.scopes.dropLast }
  else if keyword = "$var".toList then progress.declare line body
  else if keyword = "$enddefinitions".toList then .ok { progress with place := .changes }
  else .ok { progress with place := .header }

/-- Takes the time of a timestamp. -/
def advance (progress : Progress) (line : Nat) (digits : List Char) : Except LoadError Progress :=
  match Text.unsigned? 64 digits with
  | none => .error (.malformed line (.timestamp (String.ofList digits)))
  | some count =>
      let time := count * progress.fsPerUnit
      if wordLimit ≤ time then .error (.malformed line (.timestampRange (String.ofList digits)))
      else if time < progress.time then .error (.malformed line (.timestampOrder (String.ofList digits)))
      else .ok { progress with time, endTime := time }

/-- Adds a value to every variable with the identifier. Changes of undeclared
identifiers are passed over unread. -/
def record (progress : Progress) (line : Nat) (identifier levels : List Char) :
    Except LoadError Progress :=
  if progress.declared.any fun entry => entry.identifier = identifier then
    match (Bus.ofChars? levels).filter fun value => 0 < value.width with
    | none => .error (.malformed line (.value (String.ofList levels)))
    | some value =>
        .ok { progress with
          place := .changes
          declared := progress.declared.map fun entry =>
            if entry.identifier = identifier then
              { entry with newest := ⟨progress.time, extend value entry.width⟩ :: entry.newest }
            else entry }
  else .ok { progress with place := .changes }

/-- The keywords that stand alone among the value changes. -/
def loneKeywords : List (List Char) :=
  ["$dumpvars", "$dumpall", "$dumpon", "$dumpoff", "$end"].map String.toList

def change (progress : Progress) (line : Nat) (token : List Char) : Except LoadError Progress :=
  match token with
  | '$' :: _ =>
      if loneKeywords.contains token then .ok progress
      else .ok { progress with place := .inside token line [] false }
  | '#' :: digits => progress.advance line digits
  | 'b' :: _ | 'B' :: _ => .ok { progress with place := .vector token line }
  | 'r' :: _ | 'R' :: _ => .ok { progress with place := .real }
  | [level] => .error (.malformed line (.valueChange (String.ofList [level])))
  | level :: identifier => progress.record line identifier [level]
  | [] => .ok progress

def step (progress : Progress) (token : Token) : Except LoadError Progress :=
  match progress.place with
  | .header =>
      match token.text with
      | '$' :: _ => .ok { progress with place := .inside token.text token.line [] true }
      | _ => .error (.malformed token.line (.header (String.ofList token.text)))
  | .inside keyword line body inHeader =>
      if token.text ≠ "$end".toList then
        .ok { progress with place := .inside keyword line (token.text :: body) inHeader }
      else if inHeader then progress.closeHeader keyword line body.reverse
      else .ok { progress with place := .changes }
  | .changes => progress.change token.line token.text
  | .vector value line => progress.record line token.text value.tail
  | .real => .ok { progress with place := .changes }

/-- The waveform, if the dump may end here. -/
def finish (progress : Progress) : Except LoadError Waveform :=
  match progress.place with
  | .header => .error .noDefinitions
  | .inside keyword line _ _ => .error (.malformed line (.unterminated (String.ofList keyword)))
  | .vector token line => .error (.malformed line (.noIdentifier (String.ofList token)))
  | .changes | .real =>
      .ok {
        fsPerUnit := progress.fsPerUnit
        signals := progress.declared.map fun entry =>
          ⟨entry.name, entry.width, entry.newest.reverse⟩
        endTime := progress.endTime }

end Progress

def ofTokens (tokens : List Token) : Except LoadError Waveform :=
  tokens.foldlM Progress.step {} >>= Progress.finish

def ofText (text : String) : Except LoadError Waveform :=
  ofTokens (Token.ofText text.toList)

def load (content : Except String String) : Except LoadError Waveform :=
  match content with
  | .error reason => .error (.unreadable reason)
  | .ok text => ofText text

end CoreBench.Waveform
