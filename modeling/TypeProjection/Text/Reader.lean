/-!
# Readers

A reader takes characters from the front of a text and gives a value, or refuses the text. Readers
are combined with `do`, and `<|>` tries a second reader where the first refuses.
-/

namespace TypeProjection

/-- A reader of values of type `α`. -/
abbrev Reader (α : Type) := StateT (List Char) Option α

namespace Reader

variable {α : Type}

/-- The value of a text that a reader takes as a whole. -/
def readAll? (r : Reader α) (text : List Char) : Option α :=
  match r.run text with
  | some (a, []) => some a
  | _ => none

def refuse : Reader α := fun _ => none

def require (condition : Bool) : Reader Unit := if condition then pure () else refuse

/-- The next character, which is not taken. -/
def peek? : Reader (Option Char) := fun s => some (s.head?, s)

def one (p : Char → Bool) : Reader Char
  | c :: rest => if p c then some (c, rest) else none
  | [] => none

def char (c : Char) : Reader Unit := do
  let _ ← one (· == c)

def word : List Char → Reader Unit
  | [] => pure ()
  | c :: rest => do char c; word rest

def while_ (p : Char → Bool) : Reader (List Char) := fun s => some (s.takeWhile p, s.dropWhile p)

/-- Takes at least one character and goes on as long as they meet a condition. -/
def while1 (p : Char → Bool) : Reader (List Char) := do
  let c ← one p
  return c :: (← while_ p)

def atEnd : Reader Unit
  | [] => some ((), [])
  | _ :: _ => none

/-- Reads a value, or takes nothing where the reader refuses. -/
def optional? (r : Reader α) : Reader (Option α) := fun s =>
  match r.run s with
  | some (a, rest) => some (some a, rest)
  | none => some (none, s)

/-- Reads values until the reader refuses, at most `n` of them. -/
def upTo (r : Reader α) : Nat → Reader (List α)
  | 0 => pure []
  | n + 1 => do
    match ← optional? r with
    | some a => return a :: (← r.upTo n)
    | none => return []

/-- Reads values until the reader refuses. A reader that takes a character each time is never cut
short, because a text has no more values than characters. -/
def many (r : Reader α) : Reader (List α) := fun s => (r.upTo s.length).run s

end Reader

end TypeProjection
