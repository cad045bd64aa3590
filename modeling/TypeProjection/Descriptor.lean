import TypeProjection.Text.ArityMarker
import TypeProjection.Text.Quoted

/-!
# Type descriptors

A descriptor says what one host type is: where it is declared, how the host spells and classifies
it, which types it is closed over and which collection contracts it implements. A descriptor has
four names. The definition name leaves generic arguments out, the full name holds them in brackets
and is the identity of the type, the simple name has no arity marker, and the pretty name is for
people.
-/

namespace TypeProjection

/-- The collection contracts that a type implements. -/
structure Contracts where
  /-- Can be iterated. -/
  sequence : Bool
  /-- Maps keys to values. -/
  mapping : Bool
deriving DecidableEq, Repr

namespace Contracts

def none : Contracts := ⟨false, false⟩

def iteration : Contracts := ⟨true, false⟩

/-- A dictionary, which can be iterated like every dictionary of the host. -/
def dictionary : Contracts := ⟨true, true⟩

end Contracts

mutual

/-- A host type. -/
inductive Descriptor where
  /-- A type with a name of its own. Its arguments are the types it is closed over, or its own
  parameters if it is an open generic definition. -/
  | named (namespaceName? : Option String) (name : String) (kind : Kind) (args : List Descriptor)
      (isOpen : Bool) (contracts : Contracts)
  | arrayOf (element : Descriptor)

/-- How the host classifies a type. -/
inductive Kind where
  | classType
  | interfaceType
  /-- A value type that is not an enumeration. -/
  | structType
  | enumType
  | array (element : Descriptor)
  /-- An unbound generic parameter. -/
  | parameter
  /-- Anything else, such as a pointer. -/
  | other

end

namespace Descriptor

/-! ## Parts -/

/-- The declaring namespace. An array lives where its element does. -/
def namespaceName? : Descriptor → Option String
  | named ns _ _ _ _ _ => ns
  | arrayOf element => element.namespaceName?

/-- The name as the host spells it, arity marker included. -/
def name : Descriptor → String
  | named _ name _ _ _ _ => name
  | arrayOf element => element.name ++ "[]"

def kind : Descriptor → Kind
  | named _ _ kind _ _ _ => kind
  | arrayOf element => .array element

/-- Generic arguments, or the parameters of an open definition. -/
def args : Descriptor → List Descriptor
  | named _ _ _ args _ _ => args
  | arrayOf _ => []

/-- Whether the arguments are the type's own parameters. -/
def isOpen : Descriptor → Bool
  | named _ _ _ _ isOpen _ => isOpen
  | arrayOf _ => false

/-- The collection contracts. Every array can be iterated. -/
def contracts : Descriptor → Contracts
  | named _ _ _ _ _ contracts => contracts
  | arrayOf _ => .iteration

def isGeneric (d : Descriptor) : Bool := !d.args.isEmpty

def element? (d : Descriptor) : Option Descriptor :=
  match d.kind with
  | .array element => some element
  | _ => none

def isClass (d : Descriptor) : Bool := d.kind matches .classType

def isInterface (d : Descriptor) : Bool := d.kind matches .interfaceType

def isEnum (d : Descriptor) : Bool := d.kind matches .enumType

def isArray (d : Descriptor) : Bool := d.kind matches .array _

/-- Structs and enumerations are values. -/
def isValueType (d : Descriptor) : Bool := d.kind matches .structType | .enumType

/-- Classes, interfaces and arrays are references, so they admit null. -/
def isReferenceType (d : Descriptor) : Bool := d.kind matches .classType | .interfaceType | .array _

/-! ## Construction -/

def parameter (name : String) : Descriptor := named none name .parameter [] false .none

/-- The same type as a generic definition over the named parameters, open if there are any. -/
def withParameters (d : Descriptor) (params : List String) : Descriptor :=
  named d.namespaceName? d.name d.kind (params.map parameter) (!params.isEmpty) d.contracts

/-- The same type closed over arguments. Namespace, name, kind and contracts stay. -/
def close (d : Descriptor) (args : List Descriptor) : Descriptor :=
  named d.namespaceName? d.name d.kind args false d.contracts

/-! ## Names -/

def qualify (namespaceName? : Option String) (name : String) : String :=
  match namespaceName? with
  | some ns => ns ++ "." ++ name
  | none => name

/-- The name of the generic definition: the namespace and the name. -/
def definitionName : Descriptor → String
  | named ns name _ _ _ _ => qualify ns name
  | arrayOf element => element.definitionName ++ "[]"

mutual

/-- The identity of a type. A closed generic type lists the full names of its arguments, each in
brackets; an open definition is known by its definition name alone. -/
def fullName : Descriptor → String
  | named ns name _ args isOpen _ =>
    if isOpen || args.isEmpty then qualify ns name
    else qualify ns name ++ "[" ++ ",".intercalate (bracketedNames args) ++ "]"
  | arrayOf element => element.fullName ++ "[]"

def bracketedNames : List Descriptor → List String
  | [] => []
  | d :: rest => ("[" ++ d.fullName ++ "]") :: bracketedNames rest

end

def simpleName (d : Descriptor) : String := ArityMarker.strip d.name

mutual

/-- The name shown to people: the arguments of a generic type stand in angle brackets, and any
other type is shown by its full name. -/
def prettyName : Descriptor → String
  | named ns name kind args isOpen contracts =>
    if args.isEmpty then (named ns name kind args isOpen contracts).fullName
    else qualify ns (ArityMarker.strip name) ++ "<" ++ ", ".intercalate (prettyNames args) ++ ">"
  | arrayOf element => (arrayOf element).fullName

def prettyNames : List Descriptor → List String
  | [] => []
  | d :: rest => d.prettyName :: prettyNames rest

end

/-- The form in which a developer sees a descriptor, for full names in ASCII. -/
def debugText? (d : Descriptor) : Option String :=
  (Text.quoted? d.fullName).map fun quoted => "TypeDescriptor(" ++ quoted ++ ")"

/-! ## Identity -/

/-- Two descriptors denote the same type if their full names are equal. -/
def same (a b : Descriptor) : Bool := a.fullName == b.fullName

def compareNames (a b : Descriptor) : Ordering :=
  if a.fullName < b.fullName then .lt else if b.fullName < a.fullName then .gt else .eq

end Descriptor

/-- Two kinds are the same if they are of one sort; arrays also need the same element type. -/
def Kind.same : Kind → Kind → Bool
  | .classType, .classType | .interfaceType, .interfaceType => true
  | .structType, .structType | .enumType, .enumType => true
  | .array a, .array b => a.same b
  | .parameter, .parameter | .other, .other => true
  | _, _ => false

/-! ## Size -/

namespace Descriptor

mutual

/-- The number of types that a descriptor is built from. -/
def size : Descriptor → Nat
  | named _ _ kind args _ _ => kindSize kind + listSize args + 1
  | arrayOf element => element.size + 1

def kindSize : Kind → Nat
  | .array element => element.size
  | .classType | .interfaceType | .structType | .enumType | .parameter | .other => 0

def listSize : List Descriptor → Nat
  | [] => 0
  | d :: rest => d.size + listSize rest

end

theorem size_pos (d : Descriptor) : 0 < d.size := by
  cases d <;> simp [size]

theorem size_le_listSize {d : Descriptor} {ds : List Descriptor} (h : d ∈ ds) :
    d.size ≤ listSize ds := by
  induction ds with
  | nil => cases h
  | cons a rest ih =>
    rw [listSize]
    rcases List.mem_cons.1 h with rfl | h
    · omega
    · have := ih h; omega

theorem listSize_args_lt (d : Descriptor) : listSize d.args < d.size := by
  cases d with
  | named ns name kind args isOpen contracts =>
    simp only [Descriptor.args, size]
    omega
  | arrayOf element => exact size_pos _

theorem size_lt_of_mem_args {a d : Descriptor} (h : a ∈ d.args) : a.size < d.size :=
  Nat.lt_of_le_of_lt (size_le_listSize h) d.listSize_args_lt

theorem size_lt_of_element {e d : Descriptor} (h : d.element? = some e) : e.size < d.size := by
  cases d with
  | named ns name kind args isOpen contracts =>
    cases kind <;> simp [element?, Descriptor.kind] at h
    subst h
    simp only [size, kindSize]
    omega
  | arrayOf element =>
    simp only [element?, Descriptor.kind, Option.some.injEq] at h
    subst h
    simp only [size]
    omega

end Descriptor

end TypeProjection
