import TypeProjection.Toml.Scalar

/-!
# TOML texts

Reads the table of a settings file from its text.
-/

namespace TypeProjection.Toml

open Reader

/-- Values may be nested, and keys be dotted, below this limit. -/
def nestingLimit : Nat := 80

/-! ## Keys -/

/-- A character of a key without quotes. -/
def isBareKeyChar (c : Char) : Bool := c.isAlphanum || c == '-' || c == '_'

def segment : Reader String := do
  spaces
  let text ← singleLineText <|> (do return String.ofList (← while1 isBareKeyChar))
  spaces
  return text

/-- A key as the path to its last segment and that segment. -/
def key : Reader (List String × String) := do
  let first ← segment
  let rest ← many (do char '.'; segment)
  require (rest.length + 1 < nestingLimit)
  match (first :: rest).reverse with
  | last :: before => return (before.reverse, last)
  | [] => refuse

/-! ## Values -/

/-- A value that is neither an array nor a table. -/
def scalar : Reader Toml :=
  (do return string (← quotedText)) <|> dateOrTime <|> float <|> integer <|>
    (do word ['t', 'r', 'u', 'e']; return boolean true) <|>
    (do word ['f', 'a', 'l', 's', 'e']; return boolean false)

/-- An array of values. A comma may follow the last. -/
def arrayOf (value : Reader Toml) : Reader Toml := do
  char '['
  match ← optional? (do gap; value) with
  | none => gap; char ']'; return array []
  | some first =>
    let rest ← many (do gap; char ','; gap; value)
    let _ ← optional? (do gap; char ',')
    gap
    char ']'
    return array (first :: rest)

def pair (value : Reader Toml) : Reader (List String × String × Toml) := do
  let (path, last) ← key
  char '='
  spaces
  let v ← value
  return (path, last, v)

/-- A table in one piece. It stands on one line, and no comma follows the last pair. -/
def tableOf (value : Reader Toml) : Reader Toml := do
  let entry : Reader (List String × String × Toml) := do
    let p ← pair value
    spaces
    return p
  char '\x7b'
  spaces
  let pairs ← match ← optional? entry with
    | none => pure []
    | some first => do
      let rest ← many (do char ','; entry)
      pure (first :: rest)
  spaces
  char '\x7d'
  match inlineTable? pairs with
  | some v => return v
  | none => refuse

/-- A value that is nested at most `n` deep. -/
def value : Nat → Reader Toml
  | 0 => do
    match ← peek? with
    | some '[' | some '\x7b' => refuse
    | _ => scalar
  | n + 1 => do
    match ← peek? with
    | some '[' => arrayOf (value n)
    | some '\x7b' => tableOf (value n)
    | _ => scalar

/-! ## Files -/

def header : Reader Statement := do
  char '['
  match ← peek? with
  | some '[' =>
    char '['
    let (path, last) ← key
    word [']', ']']
    return .arrayHeader path last
  | _ =>
    let (path, last) ← key
    char ']'
    return .header path last

def statement : Reader (Option Statement) := do
  match ← peek? with
  | some '[' => return some (← header)
  | some '#' | some '\n' | some '\r' | none => return none
  | _ =>
    let (path, last, v) ← pair (value (nestingLimit - 1))
    return some (.assign path last v)

/-- A line that is not the empty end of the text. -/
def line : Reader (Option Statement) := do
  require (← peek?).isSome
  spaces
  let s? ← statement
  lineEnd
  return s?

/-- The statements of a text, behind a byte order mark if there is one. -/
def statements : Reader (List Statement) := do
  let _ ← optional? (char '\ufeff')
  return (← many line).filterMap id

def ofText? (text : String) : Option Entries := do
  let built ← Building.start.runAll (← readAll? statements text.toList)
  return built.root

end TypeProjection.Toml
