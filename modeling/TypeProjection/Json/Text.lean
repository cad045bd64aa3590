import TypeProjection.Json
import TypeProjection.Text.Decimal
import TypeProjection.Text.Reader

/-!
# JSON texts

Reads a JSON value from a text. The grammar is strict. What the grammar admits but cannot be held
becomes `Json.unreadable`, so that it does no harm where values are passed over.
-/

namespace TypeProjection.Json

open Reader

/-- Lists and objects may be nested this deep. -/
def maxDepth : Nat := 127

def blanks : Reader Unit := do
  let _ ← while_ fun c => c == ' ' || c == '\n' || c == '\r' || c == '\t'

/-! ## Strings -/

/-- The code point of an escape of one letter. -/
def escapeValue? : Char → Option Nat
  | '"' => some 0x22
  | '\\' => some 0x5C
  | '/' => some 0x2F
  | 'b' => some 0x08
  | 'f' => some 0x0C
  | 'n' => some 0x0A
  | 'r' => some 0x0D
  | 't' => some 0x09
  | _ => none

/-- The code points and surrogates up to the closing quote, and the rest of the text. -/
def stringUnits : List Char → Option (List Nat × List Char)
  | '"' :: rest => some ([], rest)
  | '\\' :: 'u' :: a :: b :: c :: d :: rest => do
    let unit := 4096 * (← Digits.value? a) + 256 * (← Digits.value? b) +
      16 * (← Digits.value? c) + (← Digits.value? d)
    let (units, rest) ← stringUnits rest
    return (unit :: units, rest)
  | '\\' :: c :: rest => do
    let unit ← escapeValue? c
    let (units, rest) ← stringUnits rest
    return (unit :: units, rest)
  | c :: rest =>
    if c.toNat < 0x20 then none
    else do
      let (units, rest) ← stringUnits rest
      return (c.toNat :: units, rest)
  | [] => none

def isHighSurrogate (unit : Nat) : Bool := 0xD800 ≤ unit && unit < 0xDC00

def isLowSurrogate (unit : Nat) : Bool := 0xDC00 ≤ unit && unit < 0xE000

/-- The characters of code points and surrogates, if every surrogate is one of a pair. -/
def joinSurrogates : List Nat → Option (List Char)
  | [] => some []
  | [unit] =>
    if isHighSurrogate unit || isLowSurrogate unit then none else some [Char.ofNat unit]
  | unit :: next :: rest =>
    if isHighSurrogate unit then
      if isLowSurrogate next then
        (joinSurrogates rest).map
          (Char.ofNat (0x10000 + 0x400 * (unit - 0xD800) + (next - 0xDC00)) :: ·)
      else none
    else if isLowSurrogate unit then none
    else (joinSurrogates (next :: rest)).map (Char.ofNat unit :: ·)

/-- A string behind its opening quote; none is inside if half a surrogate pair is. -/
def stringBody : Reader (Option String) := fun s => do
  let (units, rest) ← stringUnits s
  return ((joinSurrogates units).map String.ofList, rest)

/-! ## Numbers -/

/-- The part before the point has no superfluous zero in front. -/
def wholePart : Reader (List Char) := do
  let c ← one Char.isDigit
  if c == '0' then return [c] else return c :: (← while_ Char.isDigit)

def exponentPart : Reader (Int × List Char) := do
  let e ← one fun c => c == 'e' || c == 'E'
  let sign ← optional? (one fun c => c == '+' || c == '-')
  let digits ← while1 Char.isDigit
  let value : Int := Digits.number 10 digits
  return (if sign == some '-' then -value else value, e :: sign.toList ++ digits)

/-- A number. It is out of range if its leading digits are, times their power of ten. -/
def number_ : Reader Json := do
  let sign ← optional? (one (· == '-'))
  let whole ← wholePart
  let fraction ← optional? do char '.'; while1 Char.isDigit
  let exponent ← optional? exponentPart
  -- a point without digits and a letter without exponent are left over, and refused by what follows
  let leading := Decimal.ofLeadingDigits whole (fraction.getD []) (exponent.elim 0 Prod.fst)
  if leading.factorsOverflowDouble then
    return unreadable
  else
    return number <| String.ofList <|
      sign.toList ++ whole ++ (fraction.elim [] ('.' :: ·)) ++ exponent.elim [] Prod.snd

/-! ## Values -/

/-- A value that is nested too deep cannot be held. -/
def nested (level : Nat) (v : Json) : Json := if maxDepth < level then unreadable else v

def enclosed {α : Type} (n : Nat) (item : Reader α) (close : Char) : Reader (List α) := do
  blanks
  match ← peek? with
  | some c =>
    if c == close then
      char close
      return []
    else
      let first ← item
      blanks
      let rest ← upTo (do char ','; blanks; let a ← item; blanks; return a) n
      char close
      return first :: rest
  | none => refuse

/-- An object whose keys can all be held. -/
def objectOf (fields : List (Option String × Json)) : Json :=
  match fields.mapM fun (key?, v) => key?.map (·, v) with
  | some fields => object fields
  | none => unreadable

/-- A value at a level of nesting. A text of `n` characters is never nested deeper than `n`. -/
def value : Nat → Nat → Reader Json
  | 0, _ => refuse
  | n + 1, level => do
    match ← peek? with
    | some '[' =>
      char '['
      return nested level (list (← enclosed n (value n (level + 1)) ']'))
    | some '\x7b' =>
      char '\x7b'
      let field : Reader (Option String × Json) := do
        char '"'
        let key? ← stringBody
        blanks
        char ':'
        blanks
        return (key?, ← value n (level + 1))
      return nested level (objectOf (← enclosed n field '\x7d'))
    | some '"' =>
      char '"'
      match ← stringBody with
      | some text => return string text
      | none => return unreadable
    | some 't' => word ['t', 'r', 'u', 'e']; return bool true
    | some 'f' => word ['f', 'a', 'l', 's', 'e']; return bool false
    | some 'n' => word ['n', 'u', 'l', 'l']; return null
    | _ => number_

/-- The value of a text that holds one value between blanks. -/
def ofText? (text : String) : Option Json :=
  let chars := text.toList
  Reader.readAll? (do blanks; let v ← value (chars.length + 1) 1; blanks; return v) chars

end TypeProjection.Json
