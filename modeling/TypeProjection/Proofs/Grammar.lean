import TypeProjection.Expr
import TypeProjection.Text.Alphanumeric

/-!
# The grammar of type expressions

A phrase is a derivation by the grammar of the target's type expressions. The levels of the grammar
say how tightly an operator binds: brackets bind tighter than a union with null, and parentheses make
any phrase an atom. Beside the grammar stands a parser that goes over a text once, from the left. It
accepts what the grammar derives and gives the tree of the derivation.

    type ::= item | type " | null"
    item ::= atom | item "[]"
    atom ::= path | path "<" args ">" | "{ [key: " type "]: " type " }" | "(" type ")"
           | "any /* IActionResult */"
    args ::= type | type ", " args
-/

namespace TypeProjection

namespace Grammar

/-! ## Names -/

/-- A letter, a digit or the underscore. -/
def isWordChar (c : Char) : Bool := c == '_' || Text.isAlphanumeric c

/-- A word of at least one character. -/
def isIdentifier (word : List Char) : Bool := !word.isEmpty && word.all isWordChar

/-- Whether a text consists of identifiers with dots between them. -/
def isPath (text : String) : Bool := (text.toList.splitOn '.').all isIdentifier

structure Path where
  text : String
  isPath : Grammar.isPath text = true

/-! ## Phrases -/

inductive Level where
  /-- Cannot be taken apart from outside. -/
  | atom
  /-- May be followed by brackets. -/
  | item
  /-- May be followed by a null arm. -/
  | type
  /-- Arguments with commas between them. -/
  | args

/-- What a phrase of a level stands for. -/
abbrev Level.Tree : Level → Type
  | atom | item | type => Expr
  | args => List Expr

/-- The derivations of the grammar, one constructor for each production. -/
inductive Phrase : Level → Type where
  | name (path : Path) : Phrase .atom
  | apply (path : Path) (args : Phrase .args) : Phrase .atom
  | map (key value : Phrase .type) : Phrase .atom
  | group (inner : Phrase .type) : Phrase .atom
  | actionResult : Phrase .atom
  | atom (phrase : Phrase .atom) : Phrase .item
  | array (element : Phrase .item) : Phrase .item
  | item (phrase : Phrase .item) : Phrase .type
  | orNull (phrase : Phrase .type) : Phrase .type
  | last (arg : Phrase .type) : Phrase .args
  | more (arg : Phrase .type) (rest : Phrase .args) : Phrase .args

def mapOpen : List Char := ['\x7b', ' ', '[', 'k', 'e', 'y', ':', ' ']

def mapMiddle : List Char := [']', ':', ' ']

def mapClose : List Char := [' ', '\x7d']

/-- The null arm of a union. -/
def nullArm : List Char := [' ', '|', ' ', 'n', 'u', 'l', 'l']

def comma : List Char := [',', ' ']

/-- The note behind the name of any value, which says that it is a web result. -/
def note : List Char :=
  [' ', '/', '*', ' ', 'I', 'A', 'c', 't', 'i', 'o', 'n', 'R', 'e', 's',
    'u', 'l', 't', ' ', '*', '/']

namespace Phrase

@[simp] def chars : {level : Level} → Phrase level → List Char
  | _, name path => path.text.toList
  | _, apply path args => path.text.toList ++ '<' :: (args.chars ++ ['>'])
  | _, map key value => mapOpen ++ (key.chars ++ (mapMiddle ++ (value.chars ++ mapClose)))
  | _, group inner => '(' :: (inner.chars ++ [')'])
  | _, actionResult => 'a' :: 'n' :: 'y' :: note
  | _, atom phrase => phrase.chars
  | _, array element => element.chars ++ ['[', ']']
  | _, item phrase => phrase.chars
  | _, orNull phrase => phrase.chars ++ nullArm
  | _, last arg => arg.chars
  | _, more arg rest => arg.chars ++ (comma ++ rest.chars)

/-- The tree of a phrase. Parentheses leave no trace in it. -/
def tree : {level : Level} → Phrase level → level.Tree
  | _, name path => Expr.named path.text
  | _, apply path args => Expr.apply path.text args.tree
  | _, map key value => Expr.map key.tree value.tree
  | _, group inner => inner.tree
  | _, actionResult => Expr.actionResult
  | _, atom phrase => phrase.tree
  | _, array element => Expr.array element.tree
  | _, item phrase => phrase.tree
  | _, orNull phrase => Expr.orNull phrase.tree
  | _, last arg => [arg.tree]
  | _, more arg rest => arg.tree :: rest.tree

end Phrase

/-- The grammar derives a text, and the tree of the derivation is the given expression. -/
def Derives (text : String) (e : Expr) : Prop :=
  ∃ phrase : Phrase .type, phrase.chars = text.toList ∧ phrase.tree = e

/-! ## A parser -/

/-- What is left of a text after a token. -/
def after? (token cs : List Char) : Option (List Char) :=
  if token.isPrefixOf cs then some (cs.drop token.length) else none

/-- Reads an expression from the beginning of a text and gives the rest. -/
abbrev Reader := List Char → Option (Expr × List Char)

def isPathChar (c : Char) : Bool := c == '.' || isWordChar c

def readPath (cs : List Char) : Option (Path × List Char) :=
  if h : isPath (String.ofList (cs.takeWhile isPathChar)) = true then
    some (⟨String.ofList (cs.takeWhile isPathChar), h⟩, cs.dropWhile isPathChar)
  else none

/-- Reads arguments, at most as many as given. -/
def readArgs (read : Reader) : Nat → List Char → Option (List Expr × List Char)
  | 0, _ => none
  | limit + 1, cs => do
    let (arg, cs) ← read cs
    match after? comma cs with
    | none => return ([arg], cs)
    | some cs =>
      let (args, cs) ← readArgs read limit cs
      return (arg :: args, cs)

/-- Reads a path with what belongs to it. -/
def readNamed (read : Reader) (cs : List Char) : Option (Expr × List Char) := do
  let (path, cs) ← readPath cs
  match after? ['<'] cs with
  | some cs =>
    let (args, cs) ← readArgs read cs.length cs
    let cs ← after? ['>'] cs
    return (.apply path.text args, cs)
  | none =>
    match after? note cs with
    | some rest =>
      if path.text = "any" then return (.actionResult, rest) else return (.named path.text, cs)
    | none => return (.named path.text, cs)

def readMap (read : Reader) (cs : List Char) : Option (Expr × List Char) := do
  let cs ← after? mapOpen cs
  let (key, cs) ← read cs
  let cs ← after? mapMiddle cs
  let (value, cs) ← read cs
  let cs ← after? mapClose cs
  return (.map key value, cs)

def readGroup (read : Reader) (cs : List Char) : Option (Expr × List Char) := do
  let cs ← after? ['('] cs
  let (e, cs) ← read cs
  let cs ← after? [')'] cs
  return (e, cs)

/-- Reads an atom. Its first character says which one. -/
def readAtom (read : Reader) (cs : List Char) : Option (Expr × List Char) :=
  if cs.head? = some '(' then readGroup read cs
  else if cs.head? = some '\x7b' then readMap read cs
  else readNamed read cs

def readBrackets (e : Expr) : List Char → Expr × List Char
  | '[' :: ']' :: rest => readBrackets (.array e) rest
  | rest => (e, rest)

def readNulls (e : Expr) : List Char → Expr × List Char
  | ' ' :: '|' :: ' ' :: 'n' :: 'u' :: 'l' :: 'l' :: rest => readNulls (.orNull e) rest
  | rest => (e, rest)

def readItem (read : Reader) (cs : List Char) : Option (Expr × List Char) :=
  (readAtom read cs).map fun (e, rest) => readBrackets e rest

/-- Reads a type in which parts are nested at most so deep. -/
def readType : Nat → Reader
  | 0, _ => none
  | depth + 1, cs => (readItem (readType depth) cs).map fun (e, rest) => readNulls e rest

/-- The expression that a text is read as. No text nests deeper than it is long. -/
def parse? (text : String) : Option Expr :=
  match readType (text.toList.length + 1) text.toList with
  | some (e, []) => some e
  | _ => none

end Grammar

end TypeProjection
