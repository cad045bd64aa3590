import TypeProjection.Text.Decimal
import TypeProjection.Text.Reader
import TypeProjection.Toml

/-!
# TOML scalars

Readers of white space, texts, numbers and dates in a settings file.
-/

namespace TypeProjection.Toml

open Reader

/-! ## White space -/

def isSpace (c : Char) : Bool := c == ' ' || c == '\t'

/-- A character that may stand in a comment: a tab or no control character. -/
def isPrintable (c : Char) : Bool := c == '\t' || (0x20 ≤ c.toNat && c.toNat != 0x7F)

def spaces : Reader Unit := do
  let _ ← while_ isSpace

def newline : Reader Unit := char '\n' <|> word ['\r', '\n']

/-- A comment, without the end of its line. -/
def comment : Reader Unit := do
  char '#'
  let _ ← while_ isPrintable

/-- What may follow a statement on its line. -/
def lineEnd : Reader Unit := do
  spaces
  let _ ← optional? comment
  newline <|> atEnd

/-- White space, comments and ends of lines between the items of an array. -/
def gap : Reader Unit := do
  let piece : Reader Unit :=
    (do let _ ← while1 isSpace) <|> newline <|> (do comment; newline)
  let _ ← many piece

/-! ## Texts -/

def exactly (p : Char → Bool) : Nat → Reader (List Char)
  | 0 => pure []
  | n + 1 => do
    let c ← one p
    return c :: (← exactly p n)

def codePoint (digits : Nat) : Reader Char := do
  let n := Digits.number 16 (← exactly Digits.isHex digits)
  require (decide n.isValidChar)
  return Char.ofNat n

def escape : Reader Char := do
  match ← one fun _ => true with
  | 'b' => return '\x08'
  | 't' => return '\t'
  | 'n' => return '\n'
  | 'f' => return '\x0c'
  | 'r' => return '\r'
  | '"' => return '"'
  | '\\' => return '\\'
  | 'u' => codePoint 4
  | 'U' => codePoint 8
  | _ => refuse

/-- A text on one line between double quotes, behind the first of them. -/
def basicBody : Reader String := do
  let piece : Reader Char :=
    (one fun c => isPrintable c && c != '"' && c != '\\') <|> (do char '\\'; escape)
  let chars ← many piece
  char '"'
  return String.ofList chars

/-- A text on one line between single quotes, behind the first of them. -/
def literalBody : Reader String := do
  let chars ← while_ fun c => isPrintable c && c != '\''
  char '\''
  return String.ofList chars

/-- A quote that does not begin the three that close a text of many lines. -/
def innerQuote (quote : Char) : Reader (List Char) := fun s =>
  match s with
  | a :: rest =>
    if a = quote ∧ ¬ [quote, quote].isPrefixOf rest then some ([quote], rest) else none
  | [] => none

/-- The quotes at the end of a text of many lines: three, after up to two that belong to it. -/
def closingQuotes (quote : Char) : Reader (List Char) := do
  word [quote, quote, quote]
  let first ← optional? (char quote)
  let second ← optional? (char quote)
  return (first.toList ++ second.toList).map fun _ => quote

def innerNewline : Reader (List Char) := do
  newline
  return ['\n']

/-- A backslash at the end of a line takes away the white space up to the next text. -/
def joinedLine : Reader (List Char) := do
  char '\\'
  spaces
  newline
  let _ ← many ((do let _ ← while1 isSpace) <|> newline)
  return []

/-- A text of many lines between double quotes, behind the first three of them. -/
def multilineBasicBody : Reader String := do
  let _ ← optional? newline
  let piece : Reader (List Char) :=
    (do return [← one fun c => isPrintable c && c != '"' && c != '\\']) <|> innerNewline <|>
      innerQuote '"' <|> joinedLine <|> (do char '\\'; return [← escape])
  let chars ← many piece
  let last ← closingQuotes '"'
  return String.ofList (chars.flatten ++ last)

/-- A text of many lines between single quotes, behind the first three of them. -/
def multilineLiteralBody : Reader String := do
  let _ ← optional? newline
  let piece : Reader (List Char) :=
    (do return [← one fun c => isPrintable c && c != '\'']) <|> innerNewline <|> innerQuote '\''
  let chars ← many piece
  let last ← closingQuotes '\''
  return String.ofList (chars.flatten ++ last)

def singleLineText : Reader String :=
  (do char '"'; basicBody) <|> (do char '\''; literalBody)

/-- A text. Three quotes always begin a text of many lines. -/
def quotedText : Reader String := fun s =>
  match s with
  | '"' :: '"' :: '"' :: rest => multilineBasicBody.run rest
  | '\'' :: '\'' :: '\'' :: rest => multilineLiteralBody.run rest
  | _ => singleLineText.run s

/-! ## Numbers -/

/-- Digits with single underscores between them, which are left out. -/
def digitRun (p : Char → Bool) : Reader (List Char) := do
  let first ← one p
  let rest ← many (one p <|> (do char '_'; one p))
  return first :: rest

def sign : Reader (Option Char) := optional? (one fun c => c == '+' || c == '-')

/-- The digits of a decimal integer, without a superfluous zero in front. -/
def wholePart : Reader (List Char) := do
  match ← peek? with
  | some '0' => char '0'; return ['0']
  | _ => digitRun Char.isDigit

/-- An integer in a base given by a letter. Such an integer has no sign. -/
def basedInteger (letter : Char) (base : Nat) (p : Char → Bool) : Reader Unit := do
  word ['0', letter]
  let digits ← digitRun p
  require (Digits.number base digits < Nat.pow 2 63)

/-- An integer of 64 bits. -/
def integer : Reader Toml := do
  basedInteger 'x' 16 Digits.isHex <|>
    basedInteger 'o' 8 (fun c => '0' ≤ c && c ≤ '7') <|>
    basedInteger 'b' 2 (fun c => c == '0' || c == '1') <|>
    (do
      let minus := (← sign) == some '-'
      let n := Digits.number 10 (← wholePart)
      require (if minus then n ≤ Nat.pow 2 63 else n < Nat.pow 2 63))
  return number

def exponentPart : Reader Int := do
  let _ ← one fun c => c == 'e' || c == 'E'
  let minus := (← sign) == some '-'
  let n := Digits.number 10 (← digitRun Char.isDigit)
  return if minus then -n else n

/-- A float. One above the range of doubles is refused, one below it is not. -/
def float : Reader Toml := do
  let minus := (← sign) == some '-'
  let special : Reader Unit := word ['i', 'n', 'f'] <|> word ['n', 'a', 'n']
  let plain : Reader Unit := do
    let whole ← wholePart
    let fraction ← optional? (do char '.'; digitRun Char.isDigit)
    let exponent ← optional? exponentPart
    require (fraction.isSome || exponent.isSome)
    require (minus || !(Decimal.ofDigits whole (fraction.getD []) (exponent.getD 0)).overflowsDouble)
  special <|> plain
  return number

/-! ## Dates and times -/

def fixedNumber (digits : Nat) : Reader Nat := do
  return Digits.number 10 (← exactly Char.isDigit digits)

def padded (digits n : Nat) : List Char := (Nat.toDigits 10 n).leftpad digits '0'

/-- A year with a day more: every fourth, but of the full centuries only every fourth. -/
def isLeapYear (year : Nat) : Bool := year % 4 == 0 && (year % 100 != 0 || year % 400 == 0)

/-- The number of days of a month; there are no other months than twelve. -/
def daysInMonth (year month : Nat) : Nat :=
  if month == 2 then if isLeapYear year then 29 else 28
  else if [4, 6, 9, 11].contains month then 30
  else if 1 ≤ month ∧ month ≤ 12 then 31
  else 0

def date : Reader (List Char) := do
  let year ← fixedNumber 4
  char '-'
  let month ← fixedNumber 2
  char '-'
  let day ← fixedNumber 2
  require (1 ≤ day && day ≤ daysInMonth year month)
  return padded 4 year ++ '-' :: padded 2 month ++ '-' :: padded 2 day

/-- A time of the day. Of a fraction of a second nine digits count, and zeros at its end do not. -/
def time : Reader (List Char) := do
  let hour ← fixedNumber 2
  char ':'
  let minute ← fixedNumber 2
  char ':'
  let second ← fixedNumber 2
  let fraction ← optional? (do char '.'; while1 Char.isDigit)
  require (hour ≤ 23 && minute ≤ 59 && second ≤ 60)
  let digits := (((fraction.getD []).take 9).reverse.dropWhile (· == '0')).reverse
  return padded 2 hour ++ ':' :: padded 2 minute ++ ':' :: padded 2 second ++
    if digits.isEmpty then [] else '.' :: digits

def offset : Reader (List Char) :=
  (do let _ ← one (fun c => c == 'Z' || c == 'z'); return ['Z']) <|>
  (do
    let sign ← one fun c => c == '+' || c == '-'
    let hour ← fixedNumber 2
    char ':'
    let minute ← fixedNumber 2
    require (hour ≤ 23 && minute ≤ 59)
    -- an offset of zero is written with a plus
    let shown := if hour == 0 && minute == 0 then '+' else sign
    return shown :: padded 2 hour ++ ':' :: padded 2 minute)

/-- A date with or without a time, or a time alone. -/
def dateOrTime : Reader Toml := do
  let dated : Reader (List Char) := do
    let day ← date
    let clock? ← optional? do
      let _ ← one fun c => c == 'T' || c == 't' || c == ' '
      let clock ← time
      return 'T' :: clock ++ ((← optional? offset).getD [])
    return day ++ clock?.getD []
  return dateTime (String.ofList (← dated <|> time))

end TypeProjection.Toml
