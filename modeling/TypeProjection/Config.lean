import TypeProjection.Table

/-!
# Projection settings

Settings that steer the projection: the null arm, one namespace for all names, and literal texts for
single types.
-/

namespace TypeProjection

/-- Settings of a projection. -/
structure Config where
  /-- Whether nullable types get a null arm. -/
  strictNulls : Bool
  /-- The namespace that every complex type is named in. -/
  globalNamespace? : Option String
  /-- Literal texts by full name of the host type. -/
  overrides : Table String

namespace Config

/-- No override, no global namespace, no null arms. -/
def default : Config := ⟨false, none, .empty⟩

instance : Inhabited Config := ⟨default⟩

def setStrictNulls (c : Config) (strict : Bool) : Config := { c with strictNulls := strict }

def setGlobalNamespace (c : Config) (ns : String) : Config :=
  { c with globalNamespace? := some ns }

def override (c : Config) (fullName text : String) : Config :=
  { c with overrides := c.overrides.insert fullName text }

/-- The global namespace, unless it is empty. -/
def qualifier? (c : Config) : Option String := c.globalNamespace?.filter fun ns => ns != ""

end Config

end TypeProjection
