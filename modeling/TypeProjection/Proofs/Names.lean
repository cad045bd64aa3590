import TypeProjection.Proofs.Expressions
import TypeProjection.Proofs.Markers
import TypeProjection.Proofs.Provenance

/-!
# Names of registered types

The name of a complex type is read back from the registry, where an earlier instantiation of the same
definition may have left the entry. As long as all entries are declared in one catalog, and none of
their namespaces has been renamed since, nothing hangs on that: a type is named by its own namespace and
its own name (`qualifiedName_project`), so a projection is the one on a fresh registry (`project_eq_fresh`).
-/

namespace TypeProjection

namespace Registry

/-- Every entry is declared in the catalog, and its namespace has not been renamed since it was
registered. -/
structure DeclaredBy (r : Registry) (c : Catalog) : Prop where
  current : r.Current
  declares : ∀ e ∈ r.entries, c.Declares e

theorem declaredBy_new (modules : Table String) (c : Catalog) : (new modules).DeclaredBy c :=
  ⟨current_new modules, fun _ he => nomatch he⟩

theorem DeclaredBy.mono {r : Registry} {c c' : Catalog} (h : r.DeclaredBy c)
    (hext : c.Extends c') : r.DeclaredBy c' :=
  ⟨h.current, fun e he => (h.declares e he).mono hext⟩

theorem DeclaredBy.registerAll {c : Catalog} {ds : List Descriptor} {r : Registry}
    (h : r.DeclaredBy c) (hds : ∀ d ∈ ds, c.Declares d) : (r.registerAll ds).DeclaredBy c := by
  refine ⟨h.current.registerAll ds, fun e he => ?_⟩
  rcases mem_entries_registerAll he with he | he
  · exact h.declares e he
  · exact hds e he

/-- Whichever instantiation left the entry of a type, it is declared where the type itself is. -/
theorem moduleOf?_eq_memberFor? {r : Registry} {c : Catalog} (hr : r.DeclaredBy c)
    {d : Descriptor} (hd : c.Declares d) (hcontains : r.contains d = true) :
    r.moduleOf? d = r.memberFor? d := by
  rw [contains_eq_isSome] at hcontains
  obtain ⟨e, he⟩ := Option.isSome_iff_exists.1 hcontains
  -- The entry may be closed over other arguments. It shares the definition name alone.
  obtain ⟨hmem, hkey⟩ := find?_some he
  obtain ⟨hns, hname⟩ := (hr.declares e hmem).congr hd hkey
  rw [hr.current.moduleOf?_eq, he]
  show r.memberFor? e = r.memberFor? d
  rw [memberFor?, memberFor?, hns, hname]

/-! ## Qualifiers and simple names -/

/-- The name that a type gets once it is registered: its simple name behind the global namespace, or
else behind the module of its own namespace. -/
def declaredName (r : Registry) (config : Config) (d : Descriptor) : String :=
  Descriptor.qualify (config.qualifier?.or (d.namespaceName?.map r.moduleName)) d.simpleName

theorem declaredName_congr {r r' : Registry} (h : r'.modules = r.modules) :
    r'.declaredName = r.declaredName := by
  have hmodule : r'.moduleName = r.moduleName := by
    funext ns
    rw [moduleName, moduleName, h]
  funext config d
  rw [declaredName, declaredName, hmodule]

/-- Joining and then taking the marker off gives the simple name behind the qualifier. -/
theorem qualifiedName_memberFor? {c : Catalog} (hc : c.Keyed) (r : Registry) (config : Config)
    {d : Descriptor} (hd : c.Declares d) :
    config.qualifiedName (r.memberFor? d) d = r.declaredName config d := by
  obtain ⟨definition, hvalid, known, hns, hname⟩ := hd
  have hstart : ArityMarker.startsName d.name = false := by
    rw [hname]
    exact Catalog.startsName_markedName hvalid
  unfold Config.qualifiedName declaredName Descriptor.simpleName
  cases hq : config.qualifier? with
  | some ns =>
    simp only [Option.some_or, Descriptor.qualify]
    rw [ArityMarker.strip_qualified ns hstart]
  | none =>
    cases hd : d.namespaceName? with
    | some ns =>
      simp only [memberFor?, hd, Option.map_some, Option.none_or, Descriptor.qualify]
      rw [ArityMarker.strip_qualified (r.moduleName ns) hstart]
    | none =>
      simp only [memberFor?, hd, Option.map_none, Option.none_or, Descriptor.qualify]
      -- Without a namespace the definition name is the name alone.
      obtain ⟨_, _, _, hkey⟩ := hc _ _ known
      have hdefinition : d.definitionName = d.name := by
        rw [← hkey, hname]
        show Descriptor.qualify definition.namespaceName? definition.markedName = _
        rw [← hns, hd]
        rfl
      rw [hdefinition]

end Registry

namespace Projector

variable {p : Projector} {c : Catalog}

theorem project_declaredBy (hc : c.Keyed) {r : Registry} (hr : r.DeclaredBy c)
    {d : Descriptor} (hd : c.Provides d) : (p.project r d).registry.DeclaredBy c := by
  rw [project_registry]
  refine hr.registerAll fun x hx => ?_
  obtain ⟨hvisited, hdeclared⟩ := List.mem_filter.1 hx
  exact declares_of_visited hc p hd hvisited hdeclared

/-- A type that a projection has registered has its declared name. -/
theorem qualifiedName_project (hc : c.Keyed) {r : Registry} (hr : r.DeclaredBy c)
    {d x : Descriptor} (hd : c.Provides d) (hx : x ∈ p.visited d)
    (hdeclared : p.isDeclared x = true) :
    (p.project r d).registry.qualifiedName p.config x = r.declaredName p.config x := by
  have hcontains : (p.project r d).registry.contains x = true := by
    rw [project_registry, Registry.contains_registerAll]
    exact Or.inr ⟨x, List.mem_filter.2 ⟨hx, hdeclared⟩, rfl⟩
  have hx' := declares_of_visited hc p hd hx hdeclared
  have hmember := Registry.moduleOf?_eq_memberFor? (project_declaredBy hc hr hd) hx' hcontains
  have hmodules : (p.project r d).registry.modules = r.modules := by
    rw [project_registry, Registry.modules_registerAll]
  rw [Registry.qualifiedName, hmember, Registry.qualifiedName_memberFor? hc _ _ hx',
    Registry.declaredName_congr hmodules]

/-- The expression of a provided type does not depend on what is registered. -/
theorem expr_eq_of_declaredBy (hc : c.Keyed) {r : Registry} (hr : r.DeclaredBy c)
    {d : Descriptor} (hd : c.Provides d) :
    p.expr r d = p.exprWith (r.declaredName p.config) d :=
  p.exprWith_congr d fun _ hx hdeclared => qualifiedName_project hc hr hd hx hdeclared

/-- A projection writes the expression in which each declared type has its declared name. -/
theorem projection_eq_ofExpr (hc : c.Keyed) {r : Registry} (hr : r.DeclaredBy c) {d : Descriptor}
    (hd : c.Provides d) :
    (p.project r d).projection = .ofExpr (p.exprWith (r.declaredName p.config) d) := by
  rw [project_expr, expr_eq_of_declaredBy hc hr hd]

theorem project_eq_fresh (hc : c.Keyed) {r : Registry} (hr : r.DeclaredBy c) {d : Descriptor}
    (hd : c.Provides d) :
    (p.project r d).projection = (p.project (.new r.modules) d).projection := by
  rw [projection_eq_ofExpr hc hr hd,
    projection_eq_ofExpr hc (Registry.declaredBy_new r.modules c) hd]
  rfl

end Projector

end TypeProjection
