import TypeProjection.Descriptor
import TypeProjection.Table

/-!
# Builtin types

Primitive types of the host have a fixed spelling in the target language. The builtin table maps
their full names to that spelling, and the listing shows a table in the order of its names.
-/

namespace TypeProjection

/-- The target spelling of a builtin type. -/
structure Builtin where
  name : String
  /-- Whether values of the type may be null without any wrapper. -/
  nullable : Bool
deriving DecidableEq, Repr

abbrev BuiltinTable := Table Builtin

namespace BuiltinTable

/-- The primitives of the host. An array of bytes travels as an encoded text. -/
def standardEntries : List (String × Builtin) :=
  [("System.Object", ⟨"any", true⟩), ("System.Boolean", ⟨"boolean", false⟩),
    ("System.Byte", ⟨"number", false⟩), ("System.SByte", ⟨"number", false⟩),
    ("System.Int16", ⟨"number", false⟩), ("System.UInt16", ⟨"number", false⟩),
    ("System.Int32", ⟨"number", false⟩), ("System.UInt32", ⟨"number", false⟩),
    ("System.Int64", ⟨"number", false⟩), ("System.UInt64", ⟨"number", false⟩),
    ("System.Single", ⟨"number", false⟩), ("System.Double", ⟨"number", false⟩),
    ("System.Decimal", ⟨"number", false⟩), ("System.String", ⟨"string", true⟩),
    ("System.Char", ⟨"string", false⟩), ("System.DateTime", ⟨"Date", false⟩),
    ("System.DateTimeOffset", ⟨"Date", false⟩), ("System.Byte[]", ⟨"string", true⟩),
    ("System.Guid", ⟨"string", false⟩), ("System.Exception", ⟨"string", true⟩),
    ("System.Void", ⟨"void", false⟩)]

def standard : BuiltinTable := Table.ofList standardEntries

def of? (t : BuiltinTable) (d : Descriptor) : Option Builtin := t.get? d.fullName

def hasType (t : BuiltinTable) (d : Descriptor) : Bool := t.contains d.fullName

def line (entry : String × Builtin) : String :=
  entry.1 ++ " => " ++ entry.2.name ++ if entry.2.nullable then " (nullable)" else ""

/-- One line for each entry, or for each nullable one, in ascending order of the keys. -/
def listing (t : BuiltinTable) (nullableOnly : Bool) : List String :=
  (t.sorted.filter fun entry => !nullableOnly || entry.2.nullable).map line

end BuiltinTable

end TypeProjection
