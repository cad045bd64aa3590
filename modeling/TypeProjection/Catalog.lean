import TypeProjection.Catalog.Library
import TypeProjection.Table

/-!
# Catalogs

A catalog knows types by their definition names and resolves references to them. It usually starts
from the host's library, and definitions are added one by one: each needs a name and a namespace that
are not blank, and a definition name that is not taken.
-/

namespace TypeProjection

inductive BlankPart where
  | typeName
  | namespaceName
deriving DecidableEq, Repr

/-- Why a catalog cannot be loaded or a reference cannot be resolved. -/
inductive CatalogError where
  /-- The text is no catalog document. -/
  | malformed
  | unknownType (name : String)
  | duplicateDefinition (name : String)
  | invalidDefinition (name : String) (part : BlankPart)
  | arityMismatch (name : String) (expected actual : Nat)
deriving DecidableEq, Repr

namespace CatalogError

/-- The text of an error. What is wrong with a malformed text is left out. -/
def message : CatalogError → String
  | malformed => "Failed to parse type catalog:"
  | unknownType name => "Unknown type '" ++ name ++ "'"
  | duplicateDefinition name => "Duplicate definition for type '" ++ name ++ "'"
  | invalidDefinition name .typeName =>
    "Invalid definition for type '" ++ name ++ "': blank type name"
  | invalidDefinition name .namespaceName =>
    "Invalid definition for type '" ++ name ++ "': blank namespace"
  | arityMismatch name expected actual =>
    "Type '" ++ name ++ "' expects " ++ toString expected ++ " generic argument(s), got " ++
      toString actual

end CatalogError

/-- Types by definition name, and references to project. -/
structure Catalog where
  types : Table Descriptor
  roots : List Reference

namespace Catalog

def empty : Catalog := ⟨.empty, []⟩

def enter (c : Catalog) (d : Descriptor) : Catalog :=
  { c with types := c.types.insert d.definitionName d }

def library : Catalog := Library.definitions.foldl (fun c d => c.enter d.toDescriptor) empty

def get? (c : Catalog) (name : String) : Option Descriptor := c.types.get? name

def size (c : Catalog) : Nat := c.types.size

def isEmpty (c : Catalog) : Bool := c.types.isEmpty

/-! ## Definitions -/

/-- What is blank in a definition. The name is looked at first. -/
def blankPart? (d : Definition) : Option BlankPart :=
  if d.hasBlankName then some .typeName
  else if d.hasBlankNamespace then some .namespaceName
  else none

/-- Adds a definition, and gives the type that it defines or the reason why it is refused. The catalog
that is left behind stands next to the result, whatever that is. -/
def define (c : Catalog) (d : Definition) : Except CatalogError Descriptor × Catalog :=
  match blankPart? d with
  | some part => (.error (.invalidDefinition d.name part), c)
  | none =>
    if c.types.contains d.toDescriptor.definitionName then
      (.error (.duplicateDefinition d.toDescriptor.definitionName), c)
    else (.ok d.toDescriptor, c.enter d.toDescriptor)

/-- Adds definitions in order, up to the first that cannot be added. -/
def defineAll (c : Catalog) : List Definition → Except CatalogError Catalog
  | [] => .ok c
  | d :: rest =>
    match c.define d with
    | (.error e, _) => .error e
    | (.ok _, c') => c'.defineAll rest

/-- The host's library with the definitions and the roots of a document. -/
def ofDocument (doc : Document) : Except CatalogError Catalog :=
  match library.defineAll doc.types with
  | .error e => .error e
  | .ok c => .ok { c with roots := doc.roots }

/-! ## References -/

def lookup (c : Catalog) (name : String) : Except CatalogError Descriptor :=
  match c.get? name with
  | some d => .ok d
  | none => .error (.unknownType name)

/-- Resolves a name that is given from its last character on. -/
def resolveReversed (c : Catalog) : List Char → Except CatalogError Descriptor
  | ']' :: '[' :: before =>
    match c.resolveReversed before with
    | .error e => .error e
    | .ok element => .ok (.arrayOf element)
  | name => c.lookup (String.ofList name.reverse)

/-- Resolves a bare name. Each pair of brackets at the end makes an array. -/
def resolveName (c : Catalog) (name : String) : Except CatalogError Descriptor :=
  c.resolveReversed name.toList.reverse

/-- The number of arguments that a type is closed over. -/
def arity (d : Descriptor) : Nat := if d.isOpen then d.args.length else 0

mutual

def resolve (c : Catalog) : Reference → Except CatalogError Descriptor
  | .named name => c.resolveName name
  | .array element =>
    match c.resolve element with
    | .error e => .error e
    | .ok d => .ok (.arrayOf d)
  | .generic name args =>
    match c.lookup name with
    | .error e => .error e
    | .ok definition =>
      if args.length ≠ arity definition then
        .error (.arityMismatch name (arity definition) args.length)
      else if args.isEmpty then .ok definition
      else
        match c.resolveAll args with
        | .error e => .error e
        | .ok ds => .ok (definition.close ds)

def resolveAll (c : Catalog) : List Reference → Except CatalogError (List Descriptor)
  | [] => .ok []
  | reference :: rest =>
    match c.resolve reference with
    | .error e => .error e
    | .ok d =>
      match c.resolveAll rest with
      | .error e => .error e
      | .ok ds => .ok (d :: ds)

end

def resolveRoots (c : Catalog) : Except CatalogError (List Descriptor) := c.resolveAll c.roots

def resolveNames (c : Catalog) (names : List String) : Except CatalogError (List Descriptor) :=
  c.resolveAll (names.map .named)

end Catalog

end TypeProjection
