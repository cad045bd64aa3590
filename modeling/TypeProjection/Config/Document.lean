import TypeProjection.Config
import TypeProjection.Toml.Text

/-!
# Settings files

Decodes settings, and the modules that namespaces are renamed to, from the table of a settings file.
Keys of other names are passed over.
-/

namespace TypeProjection

inductive ConfigError where
  /-- The text is no settings file. -/
  | malformed
  | unreadable (path reason : String)
deriving DecidableEq, Repr

/-- The text of an error. What is wrong with a malformed text is left out. -/
def ConfigError.message : ConfigError → String
  | malformed => "Failed to parse config:"
  | unreadable path reason => "Failed to read config file " ++ path ++ ": " ++ reason

namespace Config

def ofEntries? (entries : Toml.Entries) : Option Config := do
  let strictNulls ← Toml.field? Toml.boolean? false "strict_nulls" entries
  let globalNamespace? ← Toml.field? (fun v => v.text?.map some) none "global_namespace" entries
  let overrides ← Toml.field? Toml.textTable? [] "overrides" entries
  return ⟨strictNulls, globalNamespace?, .ofList overrides⟩

def modulesOfEntries? (entries : Toml.Entries) : Option (Table String) := do
  let modules ← Toml.field? Toml.textTable? [] "modules" entries
  return .ofList modules

def ofText (text : String) : Except ConfigError Config :=
  match (Toml.ofText? text).bind ofEntries? with
  | some config => .ok config
  | none => .error .malformed

def modulesOfText (text : String) : Except ConfigError (Table String) :=
  match (Toml.ofText? text).bind modulesOfEntries? with
  | some modules => .ok modules
  | none => .error .malformed

end Config

end TypeProjection
