import TypeProjection.Catalog
import TypeProjection.Projection

/-!
# Sessions

In a session types are defined and projected one after another. The catalog, the registry and the
warnings grow; the projector stays the same.
-/

namespace TypeProjection

/-- A projector with what it has defined, registered and warned of so far. -/
structure Session where
  projector : Projector
  catalog : Catalog
  registry : Registry
  /-- Oldest first. -/
  warnings : List String

namespace Session

def start (p : Projector) (c : Catalog) (modules : Table String) : Session :=
  ⟨p, c, .new modules, []⟩

def project (s : Session) (d : Descriptor) : Projection × Session :=
  let outcome := s.projector.project s.registry d
  (outcome.projection,
    { s with registry := outcome.registry, warnings := s.warnings ++ outcome.warnings })

def projectAll (s : Session) : List Descriptor → List Projection × Session
  | [] => ([], s)
  | d :: rest =>
    let (projection, s) := s.project d
    let (projections, s) := s.projectAll rest
    (projection :: projections, s)

/-- Registers a type without projecting it. -/
def register (s : Session) (d : Descriptor) : Session :=
  { s with registry := s.registry.register d }

def define (s : Session) (d : Definition) : Except CatalogError Descriptor × Session :=
  let (result, catalog) := s.catalog.define d
  (result, { s with catalog })

def qualifiedName (s : Session) (d : Descriptor) : String :=
  s.registry.qualifiedName s.projector.config d

end Session

end TypeProjection
