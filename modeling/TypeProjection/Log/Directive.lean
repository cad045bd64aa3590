import TypeProjection.Log
import TypeProjection.Pattern

/-!
# Directives of a log filter

A directive says up to which level entries are shown: all of them, or those of some targets, of some
spans, or with some field. It is written as a target, a span and a field in brackets, and a level
behind an equals sign; each part may be left off.
-/

namespace TypeProjection

/-- A field that an entry is required to have. -/
structure FieldDirective where
  name : String
  /-- Whether a value is given for the field. -/
  hasValue : Bool
deriving DecidableEq, Repr

/-- Shows entries up to a rank. -/
structure LogDirective where
  /-- What the targets of the entries begin with. -/
  target? : Option String
  /-- The span that the entries lie in. -/
  span? : Option String
  field? : Option FieldDirective
  maxRank : Nat
deriving DecidableEq, Repr

inductive DirectiveError where
  | malformed
  /-- What stands behind the equals sign is no level. -/
  | notALevel
  /-- The value of a field is no pattern. -/
  | notAPattern (error : PatternError)
  /-- A word would begin or end inside a character. -/
  | insideCharacter
deriving DecidableEq, Repr

def DirectiveError.message : DirectiveError → String
  | malformed => "invalid filter directive"
  | notALevel =>
    "error parsing level filter: expected one of \"off\", \"error\", \"warn\", \"info\", " ++
      "\"debug\", \"trace\", or a number 0-5"
  | notAPattern error => "invalid field filter: " ++ error.message
  | insideCharacter => "word boundary inside a character"

namespace LogDirective

/-! ## Levels -/

/-- The rank that a number gives. A plus may stand in front of its digits. -/
def numberRank? (word : String) : Option Nat :=
  let digits := match word.toList with
    | '+' :: digits => digits
    | digits => digits
  let rank := Digits.number 10 digits
  if !digits.isEmpty && digits.all Char.isDigit && rank ≤ LogLevel.trace.rank then some rank
  else none

/-- The rank that the name of a level or a number gives. There is a word for no level at all. -/
def rankOf? (word : String) : Option Nat :=
  match LogLevel.ofName? word with
  | some level => some level.rank
  | none =>
    if word.toList.map Char.toLower == ['o', 'f', 'f'] then some 0 else numberRank? word

/-- The rank of what stands behind the equals sign. Nothing there stands for every level. -/
def rankAfterSign (word : String) : Except DirectiveError Nat :=
  if word == "" then .ok LogLevel.trace.rank
  else
    match rankOf? word with
    | some rank => .ok rank
    | none => .error .notALevel

/-- Up to a level, whatever the target. -/
def ofRank (rank : Nat) : LogDirective := ⟨none, none, none, rank⟩

/-- Up to a level, for targets that begin with a text. -/
def ofTarget (target : String) (rank : Nat) : LogDirective := ⟨some target, none, none, rank⟩

end LogDirective

/-! ## Fields -/

namespace FieldDirective

open Reader

/-- A number with or without a point and an exponent, or a word for a number that is not finite. -/
def numberValue : Reader Unit := do
  let _ ← optional? (one fun c => c == '+' || c == '-')
  let special : Reader Unit := do
    let letters ← while1 Char.isAlpha
    require (["inf", "infinity", "nan"].contains (String.ofList (letters.map Char.toLower)))
  let plain : Reader Unit := do
    let whole ← while_ Char.isDigit
    let fraction ← optional? (do char '.'; while_ Char.isDigit)
    require (!whole.isEmpty || !(fraction.getD []).isEmpty)
    let _ ← optional? do
      let _ ← one fun c => c == 'e' || c == 'E'
      let _ ← optional? (one fun c => c == '+' || c == '-')
      while1 Char.isDigit
  special <|> plain

/-- A value is a number, or else a pattern. -/
def checkValue (value : String) : Except DirectiveError Unit :=
  if (readAll? numberValue value.toList).isSome then .ok ()
  else (Pattern.check value).mapError .notAPattern

/-- The field of a text: a name, or a name and a value behind an equals sign. What follows a second
equals sign is left out. -/
def ofText (text : String) : Except DirectiveError FieldDirective :=
  match text.splitOn "=" with
  | name :: value :: _ => (checkValue value).map fun _ => ⟨name, true⟩
  | _ => .ok ⟨text, false⟩

end FieldDirective

namespace LogDirective

/-! ## Words -/

/-- The characters behind a number of bytes, unless the place is inside a character. -/
def dropBytes? (n : Nat) : List Char → Option (List Char)
  | [] => if n = 0 then some [] else none
  | c :: rest =>
    if n = 0 then some (c :: rest)
    else if c.utf8Size ≤ n then dropBytes? (n - c.utf8Size) rest
    else none

/-- The characters of a number of bytes, unless the end is inside a character. -/
def takeBytes? (n : Nat) : List Char → Option (List Char)
  | [] => if n = 0 then some [] else none
  | c :: rest =>
    if n = 0 then some []
    else if c.utf8Size ≤ n then (takeBytes? (n - c.utf8Size) rest).map (c :: ·)
    else none

def byteCount (chars : List Char) : Nat := chars.foldl (fun n c => n + c.utf8Size) 0

/-- A place in a text that is looked at without the white space around it. Words are cut out of the
text as it is written, at the places that were counted without the white space. -/
structure Cursor where
  /-- The text as it is written. -/
  written : List Char
  /-- The number of bytes that have been passed. -/
  place : Nat
  /-- What is looked at. -/
  ahead : List Char

namespace Cursor

def ofText (text : String) : Cursor := ⟨text.toList, 0, Text.trimBlank text.toList⟩

def skip (c : Cursor) (n : Nat) : Cursor :=
  ⟨c.written, c.place + byteCount (c.ahead.take n), c.ahead.drop n⟩

def skipTo (c : Cursor) (stop : Char → Bool) : Cursor :=
  c.skip (c.ahead.takeWhile fun a => !stop a).length

def wordTo (c next : Cursor) : Except DirectiveError String :=
  match (dropBytes? c.place c.written).bind (takeBytes? (next.place - c.place)) with
  | some chars => .ok (String.ofList chars)
  | none => .error .insideCharacter

def rest (c : Cursor) : Except DirectiveError String :=
  match dropBytes? c.place c.written with
  | some chars => .ok (String.ofList chars)
  | none => .error .insideCharacter

end Cursor

/-! ## Parsing -/

/-- Whether a target or a level may begin with a character. -/
def beginsWord (c : Char) : Bool := Text.isAlphanumeric c || c == '-' || c == ':' || c == '_'

/-- Parses the end of a directive: nothing, or an equals sign and a level. -/
def parseLevel (target? span? : Option String) (field? : Option FieldDirective) (c : Cursor) :
    Except DirectiveError LogDirective :=
  match c.ahead with
  | [] => .ok ⟨target?, span?, field?, LogLevel.trace.rank⟩
  | '=' :: _ => do
    let rank ← rankAfterSign (← (c.skip 1).rest)
    return ⟨target?, span?, field?, rank⟩
  | _ => .error .malformed

/-- Parses a field behind its opening brace, and what follows it. -/
def parseField (target? span? : Option String) (c : Cursor) :
    Except DirectiveError LogDirective :=
  let close := c.skipTo (· == '\x7d')
  match close.ahead with
  | '\x7d' :: after => do
    let word ← c.wordTo close
    if word == "" then throw .malformed
    let field ← FieldDirective.ofText word
    match after with
    | ']' :: _ => parseLevel target? span? (some field) (close.skip 2)
    | _ => throw .malformed
  | _ => .error .malformed

/-- Parses a span behind its opening bracket, and what follows it. The brackets may hold a field
alone, but without a field they hold a span, be it without a name. -/
def parseSpan (target? : Option String) (c : Cursor) : Except DirectiveError LogDirective :=
  let stop := c.skipTo fun a => a == ']' || a == '\x7b'
  match stop.ahead with
  | ']' :: _ => do
    let word ← c.wordTo stop
    parseLevel target? (some word) none (stop.skip 1)
  | '\x7b' :: _ => do
    let word ← c.wordTo stop
    parseField target? (if word == "" then none else some word) (stop.skip 1)
  | _ => .error .malformed

/-- The directive of a text. A word alone is a level if it can be one, and else a target. -/
def ofText (text : String) : Except DirectiveError LogDirective :=
  let c := Cursor.ofText text
  match c.ahead with
  | [] => .error .malformed
  | '[' :: _ => parseSpan none (c.skip 1)
  | first :: _ =>
    if beginsWord first then
      let stop := c.skipTo fun a => a == '=' || a == '['
      match stop.ahead with
      | [] => do
        let word ← c.rest
        match rankOf? word with
        | some rank => return ofRank rank
        | none => return ofTarget word LogLevel.trace.rank
      | '[' :: _ => do
        let word ← c.wordTo stop
        parseSpan (some word) (stop.skip 1)
      | _ => do
        let word ← c.wordTo stop
        parseLevel (some word) none none stop
    else .error .malformed

end LogDirective

end TypeProjection
