/-!
# Type expressions

The expressions of the target language that a projection is made of, and how they are written. A
union with null binds weaker than the brackets of an array, so it stands in parentheses where it is
an element or the value of a map.
-/

namespace TypeProjection

inductive Expr where
  | named (text : String)
  | apply (name : String) (args : List Expr)
  | array (element : Expr)
  /-- An object that maps every key to a value. -/
  | map (key value : Expr)
  | orNull (type : Expr)
  /-- Any value, with a note that it is a web result. -/
  | actionResult
  /-- A text that is taken as it is. -/
  | verbatim (text : String)

namespace Expr

/-- Whether the outermost operator is a union. -/
def isUnion : Expr → Bool
  | orNull _ => true
  | named _ | apply _ _ | array _ | map _ _ | actionResult | verbatim _ => false

/-- Puts the text of a union into parentheses. -/
def parenthesize (isUnion : Bool) (text : String) : String :=
  if isUnion then "(" ++ text ++ ")" else text

mutual

def print : Expr → String
  | named text => text
  | apply name args => name ++ "<" ++ ", ".intercalate (printAll args) ++ ">"
  | array element => parenthesize element.isUnion element.print ++ "[]"
  | map key value =>
    "\x7b [key: " ++ key.print ++ "]: " ++ parenthesize value.isUnion value.print ++ " \x7d"
  | orNull type => parenthesize type.isUnion type.print ++ " | null"
  | actionResult => "any /* IActionResult */"
  | verbatim text => text

def printAll : List Expr → List String
  | [] => []
  | e :: rest => e.print :: printAll rest

end

def orNullIf (wanted : Bool) (e : Expr) : Expr := if wanted then orNull e else e

end Expr

end TypeProjection
