import TypeProjection.Descriptor
import TypeProjection.Text.Blank

/-!
# Definitions and references

A definition declares a type: a catalog turns it into a descriptor, which is an open generic
definition if there are parameters. A reference denotes a type of a catalog by name, as an array, or
as a generic definition closed over arguments.
-/

namespace TypeProjection

inductive DefinitionKind where
  | classType
  | interfaceType
  | structType
  | enumType
  | other
deriving DecidableEq, Repr

def DefinitionKind.toKind : DefinitionKind → Kind
  | classType => .classType
  | interfaceType => .interfaceType
  | structType => .structType
  | enumType => .enumType
  | other => .other

inductive Contract where
  | sequence
  /-- A mapping is a sequence as well. -/
  | mapping
deriving DecidableEq, Repr

structure Definition where
  namespaceName? : Option String
  name : String
  kind : DefinitionKind
  /-- The names of generic parameters. -/
  params : List String
  implements : List Contract
deriving DecidableEq, Repr

def Contracts.add (c : Contracts) : Contract → Contracts
  | .sequence => { c with sequence := true }
  | .mapping => .dictionary

def Contracts.ofList (contracts : List Contract) : Contracts := contracts.foldl add .none

namespace Definition

/-- The name of the declared type. A generic definition without any mark gets the arity marker of
its parameters. -/
def markedName (d : Definition) : String :=
  if d.params.isEmpty || ArityMarker.occursIn d.name then d.name
  else d.name ++ ArityMarker.text d.params.length

def toDescriptor (d : Definition) : Descriptor :=
  .named d.namespaceName? d.markedName d.kind.toKind (d.params.map .parameter) (!d.params.isEmpty)
    (.ofList d.implements)

/-- A name is blank if no text is left without its marker, or if it begins with a mark. -/
def hasBlankName (d : Definition) : Bool :=
  Text.isBlank (ArityMarker.strip d.name) || ArityMarker.startsName d.name

def hasBlankNamespace (d : Definition) : Bool := d.namespaceName?.any Text.isBlank

end Definition

inductive Reference where
  /-- By full name; each pair of brackets at the end makes an array. -/
  | named (name : String)
  | array (element : Reference)
  /-- A definition, by its exact name, closed over arguments. -/
  | generic (name : String) (args : List Reference)

/-- What a catalog is loaded from: definitions to add and references to project. -/
structure Document where
  types : List Definition
  roots : List Reference

end TypeProjection
