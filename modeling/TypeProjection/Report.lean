import TypeProjection.Catalog.Document
import TypeProjection.Config.Document
import TypeProjection.Files
import TypeProjection.Projection

/-!
# Reports

A report projects the roots of a catalog, or types that are given by name, one line each. It may end
with the types that have been registered on the way. Settings are loaded before the catalog, and all
types are resolved before the first of them is projected.
-/

namespace TypeProjection

/-- What a report is asked for. -/
structure ReportOptions where
  catalog : String
  /-- Names of types to project in place of the roots. -/
  types : List String
  config? : Option String
  strictNulls : Bool
  globalNamespace? : Option String
  showRegistered : Bool
deriving DecidableEq, Repr

/-- Why there is no report. -/
inductive ReportError where
  | config (error : ConfigError)
  | catalogUnreadable (path reason : String)
  | catalog (error : CatalogError)
deriving DecidableEq, Repr

namespace ReportError

def message : ReportError → String
  | config error => error.message
  | catalogUnreadable path reason => "Failed to read catalog " ++ path ++ ": " ++ reason
  | catalog error => error.message

/-- Whether a file does not have the form that it should have. -/
def isMalformed : ReportError → Bool
  | config .malformed | catalog .malformed => true
  | config (.unreadable _ _) | catalogUnreadable _ _ | catalog _ => false

end ReportError

def Config.load (fs : FileSystem) (path : String) : Except ConfigError Config :=
  match fs path with
  | .error e => .error (.unreadable path e.message)
  | .ok text => Config.ofText text

def Config.loadWithModules (fs : FileSystem) (path : String) :
    Except ConfigError (Config × Table String) :=
  match fs path with
  | .error e => .error (.unreadable path e.message)
  | .ok text =>
    match Config.ofText text, Config.modulesOfText text with
    | .ok config, .ok modules => .ok (config, modules)
    | .error e, _ | _, .error e => .error e

namespace Report

structure Sources where
  projector : Projector
  modules : Table String
  catalog : Catalog

/-- The settings of the file, if one is given, changed by the options. -/
def loadConfig (fs : FileSystem) (o : ReportOptions) :
    Except ConfigError (Config × Table String) :=
  let loaded : Except ConfigError (Config × Table String) :=
    match o.config? with
    | some path => Config.loadWithModules fs path
    | none => .ok (.default, .empty)
  match loaded with
  | .error e => .error e
  | .ok (config, modules) =>
    let config := if o.strictNulls then config.setStrictNulls true else config
    let config := o.globalNamespace?.elim config config.setGlobalNamespace
    .ok (config, modules)

def loadCatalog (fs : FileSystem) (o : ReportOptions) : Except ReportError Catalog :=
  match fs o.catalog with
  | .error e => .error (.catalogUnreadable o.catalog e.message)
  | .ok text => (Catalog.ofText text).mapError .catalog

/-- Loads the settings and then the catalog. -/
def load (fs : FileSystem) (o : ReportOptions) : Except ReportError Sources :=
  match loadConfig fs o with
  | .error e => .error (.config e)
  | .ok (config, modules) =>
    match loadCatalog fs o with
    | .error e => .error e
    | .ok catalog => .ok ⟨⟨config, .standard⟩, modules, catalog⟩

/-- The types to project: those with the given names, or the roots if no name is given. -/
def Sources.types (s : Sources) (names : List String) : Except CatalogError (List Descriptor) :=
  if names.isEmpty then s.catalog.resolveRoots else s.catalog.resolveNames names

def rootLine (d : Descriptor) (projection : Projection) : String :=
  d.prettyName ++ " => " ++ projection.text

def rootLines (p : Projector) (r : Registry) : List Descriptor → List String
  | [] => []
  | d :: rest =>
    let outcome := p.project r d
    rootLine d outcome.projection :: rootLines p outcome.registry rest

/-- The registry after types are projected in order. -/
def registryAfter (p : Projector) (r : Registry) (ds : List Descriptor) : Registry :=
  ds.foldl (fun r d => (p.project r d).registry) r

def events (p : Projector) (r : Registry) : List Descriptor → List Event
  | [] => []
  | d :: rest =>
    let outcome := p.project r d
    outcome.events ++ events p outcome.registry rest

def registeredLine (c : Config) (r : Registry) (d : Descriptor) : String :=
  "  " ++ r.qualifiedName c d ++ " (" ++ d.definitionName ++ ")"

def registeredLines (c : Config) (r : Registry) : List String :=
  ["", "Registered types (" ++ toString r.size ++ "):"] ++ r.entries.map (registeredLine c r)

/-- Lines with their ends. -/
def unlines (lines : List String) : String := String.join (lines.map (· ++ "\n"))

def Sources.render (s : Sources) (showRegistered : Bool) (ds : List Descriptor) : String :=
  let start := Registry.new s.modules
  unlines <|
    rootLines s.projector start ds ++
      if showRegistered then
        registeredLines s.projector.config (registryAfter s.projector start ds)
      else []

end Report

def report (fs : FileSystem) (o : ReportOptions) : Except ReportError String :=
  match Report.load fs o with
  | .error e => .error e
  | .ok s =>
    match s.types o.types with
    | .error e => .error (.catalog e)
    | .ok ds => .ok (s.render o.showRegistered ds)

end TypeProjection
