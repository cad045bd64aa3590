/-!
# Arity markers

A host spells a generic type with a marker that counts its parameters: the name, a grave accent and
decimal digits. This file holds the marker and the function that takes it off a name.
-/

namespace TypeProjection.ArityMarker

def mark : Char := '\x60'

/-- The marker of a type with `n` parameters. -/
def text (n : Nat) : String := mark.toString ++ toString n

def occursIn (name : String) : Bool := name.toList.contains mark

def startsName (name : String) : Bool := name.toList.head? == some mark

/-- Takes off a marker that ends the name: the mark and one or more ASCII digits. A name that would
be left empty keeps its marker. -/
def stripChars (name : List Char) : List Char :=
  let digits := name.reverse.takeWhile Char.isDigit
  match name.reverse.dropWhile Char.isDigit with
  | c :: before => if c = mark ∧ digits ≠ [] ∧ before ≠ [] then before.reverse else name
  | [] => name

def strip (name : String) : String := String.ofList (stripChars name.toList)

end TypeProjection.ArityMarker
