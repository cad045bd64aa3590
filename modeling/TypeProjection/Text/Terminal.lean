/-!
# Texts on a terminal

Some control characters make a terminal act in place of showing them. Before a text from elsewhere
is shown they are written out by their code points.
-/

namespace TypeProjection.Text

/-- The control characters of ASCII that start a command to a terminal, ring its bell, move back, end
a page or delete. -/
def isTerminalControl (c : Char) : Bool :=
  c == '\x1b' || c == '\x07' || c == '\x08' || c == '\x0c' || c == '\x7f'

/-- Whether a character is a control character above ASCII. -/
def isHighControl (c : Char) : Bool := 0x80 ≤ c.toNat && c.toNat ≤ 0x9F

def terminalSafeChar (c : Char) : List Char :=
  if isTerminalControl c then ['\\', 'x'] ++ (Nat.toDigits 16 c.toNat).leftpad 2 '0'
  else if isHighControl c then ['\\', 'u', '\x7b'] ++ Nat.toDigits 16 c.toNat ++ ['\x7d']
  else [c]

/-- A text with the control characters written out that a terminal would act on. -/
def terminalSafe (text : String) : String := String.ofList (text.toList.flatMap terminalSafeChar)

end TypeProjection.Text
