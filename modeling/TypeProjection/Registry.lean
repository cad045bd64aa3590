import TypeProjection.Descriptor
import TypeProjection.Table

/-!
# Registered types

The registry remembers which complex types have been named, so that a declaration can be written for
each. All instantiations of one generic definition share an entry, which is the first of them.
Namespaces may be renamed to modules. Where a type is declared is stored when it is registered, and a
module that is named later does not move it.
-/

namespace TypeProjection

/-- Where a registered type is declared. -/
structure Member where
  module : String
  /-- The name inside the module, arity marker included. -/
  name : String
deriving DecidableEq, Repr

/-- Registered types in the order of their registration, and where each is declared. -/
structure Registry where
  /-- Target modules by host namespace. -/
  modules : Table String
  entries : List Descriptor
  /-- What is stored for the entries, by definition name. -/
  members : Table (Option Member)
  in_step : members.keys = entries.map Descriptor.definitionName

namespace Registry

def new (modules : Table String) : Registry := ⟨modules, [], .empty, rfl⟩

/-- Renames a namespace to a module, for types that are registered from now on. -/
def withModule (r : Registry) (ns module : String) : Registry :=
  { r with modules := r.modules.insert ns module }

/-- The entry for the generic definition of a type. -/
def find? (r : Registry) (d : Descriptor) : Option Descriptor :=
  r.entries.find? fun e => e.definitionName == d.definitionName

def contains (r : Registry) (d : Descriptor) : Bool := r.members.contains d.definitionName

/-- The module that a namespace is renamed to, or the namespace itself. -/
def moduleName (r : Registry) (ns : String) : String := (r.modules.get? ns).getD ns

/-- Where a type is declared if it is registered now. A type without a namespace is in no module. -/
def memberFor? (r : Registry) (d : Descriptor) : Option Member :=
  d.namespaceName?.map fun ns => ⟨r.moduleName ns, d.name⟩

theorem get?_of_new {r : Registry} {d : Descriptor} (h : r.contains d = false) :
    r.members.get? d.definitionName = none := by
  rwa [contains, Table.contains, Option.isSome_eq_false_iff, Option.isNone_iff_eq_none] at h

/-- Adds a type, and stores where it is declared, unless its generic definition is registered. -/
def register (r : Registry) (d : Descriptor) : Registry :=
  if h : r.contains d = true then r
  else
    { modules := r.modules
      entries := r.entries ++ [d]
      members := r.members.insert d.definitionName (r.memberFor? d)
      in_step := by
        rw [Table.keys_insert (get?_of_new (eq_false_of_ne_true h)), r.in_step,
          List.map_append, List.map_singleton] }

def registerAll (r : Registry) (ds : List Descriptor) : Registry := ds.foldl register r

/-- Where a type is declared, as it was stored for the entry. -/
def moduleOf? (r : Registry) (d : Descriptor) : Option Member :=
  (r.members.get? d.definitionName).join

def size (r : Registry) : Nat := r.entries.length

def isEmpty (r : Registry) : Bool := r.entries.isEmpty

end Registry

end TypeProjection
