import TypeProjection.Config
import TypeProjection.Registry

/-!
# Names of complex types

A complex type is referred to by a qualified name: in the global namespace if one is set, else in the
module that it is declared in, else by the host's own qualified name. The arity marker is dropped.
-/

namespace TypeProjection

/-- The qualified name of a type that is declared in the given module, if any. -/
def Config.qualifiedName (c : Config) (member? : Option Member) (d : Descriptor) : String :=
  ArityMarker.strip <|
    match c.qualifier?, member? with
    | some ns, _ => ns ++ "." ++ d.name
    | none, some member => member.module ++ "." ++ member.name
    | none, none => d.definitionName

/-- The qualified name of a type under the settings, as far as it is registered. -/
def Registry.qualifiedName (r : Registry) (c : Config) (d : Descriptor) : String :=
  c.qualifiedName (r.moduleOf? d) d

end TypeProjection
