/-!
# Quoted texts

The form in which a text is shown to a developer: between double quotes, with escapes for quotes,
backslashes and control characters.
-/

namespace TypeProjection.Text

/-- One character between quotes. Control characters without a short escape are written by their
code point. -/
def quotedChar (c : Char) : List Char :=
  if c = '"' then ['\\', '"']
  else if c = '\\' then ['\\', '\\']
  else if c = '\n' then ['\\', 'n']
  else if c = '\r' then ['\\', 'r']
  else if c = '\t' then ['\\', 't']
  else if c = '\x00' then ['\\', '0']
  else if c.toNat < 0x20 ∨ c.toNat = 0x7F then
    ['\\', 'u', '\x7b'] ++ Nat.toDigits 16 c.toNat ++ ['\x7d']
  else [c]

/-- The quoted form of an ASCII text. Which other characters are shown as they are depends on a
table of printable characters, and for those the form is left open. -/
def quoted? (text : String) : Option String :=
  if text.toList.all fun c => decide (c.toNat < 0x80) then
    some (String.ofList ('"' :: text.toList.flatMap quotedChar ++ ['"']))
  else none

end TypeProjection.Text
