import TypeProjection.Proofs.Constructions
import TypeProjection.Proofs.History

/-!
# Names of declarations

Without a global namespace and without modules, a registered type is named by its definition name,
from which the arity marker is taken off. This file says what that means for a client whose types all
end up in one output: declarations are told apart up to the arity marker, and every name in a text is
the name of a registered type (`run_stemNames`). Types that differ in nothing but their arity share a
name (`boxes_share_name`).
-/

namespace TypeProjection

/-- Without a global namespace and without modules, every type is named by its definition name,
whether it is registered or not, and whichever instantiation has left the entry. -/
theorem Registry.qualifiedName_eq_strip {r : Registry} {config : Config}
    (hqualifier : config.qualifier? = none) (hmodules : r.modules = .empty) (hcurrent : r.Current)
    (d : Descriptor) : r.qualifiedName config d = ArityMarker.strip d.definitionName := by
  unfold Registry.qualifiedName Config.qualifiedName
  rw [hqualifier, hcurrent.moduleOf?_eq]
  cases hfind : r.find? d with
  | none => rfl
  | some e =>
    have hname := e.qualify_name
    rw [(find?_some hfind).2] at hname
    rw [Option.bind_some, memberFor?]
    cases hns : e.namespaceName? with
    | none => rfl
    | some ns =>
      have hmodule : r.moduleName ns = ns := by
        rw [moduleName, hmodules]
        rfl
      rw [hns] at hname
      show ArityMarker.strip (r.moduleName ns ++ "." ++ e.name) = _
      rw [hmodule, ← hname]
      rfl

namespace Client

/-- What the names are like that a client's declarations and texts have in the end. -/
structure StemNames (p : Projector) (k : Client) : Prop where
  /-- No definition is registered twice. -/
  registered_once : (k.session.registry.entries.map Descriptor.definitionName).Nodup
  /-- A declaration is named by its definition name without the arity marker. -/
  name : ∀ e ∈ k.session.registry.entries,
    k.session.qualifiedName e = ArityMarker.strip e.definitionName ∧
      ArityMarker.Marks (k.session.qualifiedName e) e.definitionName
  /-- Two declarations have one name only if their definition names differ in the marker alone. -/
  same_name_iff : ∀ e ∈ k.session.registry.entries, ∀ e' ∈ k.session.registry.entries,
    k.session.qualifiedName e = k.session.qualifiedName e' ↔
      ArityMarker.strip e.definitionName = ArityMarker.strip e'.definitionName
  /-- A text is written with these names. -/
  text : ∀ call ∈ k.calls,
    call.projection = .ofExpr (p.exprWith k.session.qualifiedName call.type)
  /-- Each name in a text is that of a registered type, and of no other but for the marker. -/
  named : ∀ call ∈ k.calls, ∀ x ∈ p.visited call.type, p.isDeclared x = true →
    ∃ e ∈ k.session.registry.entries, e.definitionName = x.definitionName ∧
      k.session.qualifiedName e = k.session.qualifiedName x ∧
      ∀ e' ∈ k.session.registry.entries,
        k.session.qualifiedName e' = k.session.qualifiedName x →
          ArityMarker.strip e'.definitionName = ArityMarker.strip x.definitionName

theorem Sound.modules {p : Projector} {modules : Table String} {k : Client}
    (h : k.Sound p modules) : k.session.registry.modules = modules := by
  rw [h.registry, Registry.modules_registerAll]
  rfl

/-- **Declarations are told apart up to the arity marker.** Without a global namespace and without
modules, whatever a client defines, resolves and projects: each definition is registered once, under
its definition name without the arity marker, and the texts refer to the registered types by these
names. So two declarations share a name exactly if their definition names differ in the marker
alone. -/
theorem run_stemNames (p : Projector) (hqualifier : p.config.qualifier? = none) {c : Catalog}
    (hc : c.Built) (requests : List Request) :
    ((start p c .empty).run requests).StemNames p := by
  have h := (sound_start p hc .empty).run requests
  generalize (start p c .empty).run requests = k at h
  have hname : k.session.qualifiedName = fun d => ArityMarker.strip d.definitionName := by
    funext d
    rw [Session.qualifiedName, h.projector]
    exact Registry.qualifiedName_eq_strip hqualifier h.modules h.declared.current d
  refine ⟨?registered_once, ?name, ?same_name_iff, ?text, ?named⟩
  case registered_once =>
    exact k.session.registry.nodup_definitionNames
  case name =>
    intro e _
    rw [hname]
    exact ⟨rfl, ArityMarker.marks_strip _⟩
  case same_name_iff =>
    intro e _ e' _
    rw [hname]
  case text =>
    intro call hcall
    rw [h.calls] at hcall
    obtain ⟨d, _, rfl⟩ := List.mem_map.1 hcall
    have hmodules : (p.project (.new .empty) d).registry.modules = .empty := by
      rw [Projector.project_registry, Registry.modules_registerAll]
      rfl
    have hcurrent : (p.project (.new .empty) d).registry.Current := by
      rw [Projector.project_registry]
      exact (Registry.current_new .empty).registerAll _
    have hfresh : (p.project (.new .empty) d).registry.qualifiedName p.config =
        k.session.qualifiedName := by
      rw [hname]
      funext x
      exact Registry.qualifiedName_eq_strip hqualifier hmodules hcurrent x
    show (p.project (.new .empty) d).projection = _
    rw [p.project_expr, Projector.expr, hfresh]
  case named =>
    intro call hcall x hx hdeclared
    have hregistered : x.definitionName ∈ k.registeredNames :=
      (mem_registeredNames h).2 ⟨call.type, List.mem_map_of_mem hcall, x, hx, hdeclared, rfl⟩
    obtain ⟨e, he, hkey⟩ := List.mem_map.1 hregistered
    refine ⟨e, he, hkey, ?_, ?_⟩
    · rw [hname]
      exact congrArg ArityMarker.strip hkey
    · intro e' _ hsame
      rw [hname] at hsame
      exact hsame

/-- Requests that define a plain box and a generic one, and project a plain box and a generic box of
numbers. -/
def twoBoxRequests : List Request :=
  [.define ⟨some "Shop", "Box", .classType, [], []⟩,
    .define ⟨some "Shop", "Box", .classType, ["T"], []⟩,
    .resolve (.named "Shop.Box"),
    .resolve (.generic "Shop.Box`1" [.named "System.Int32"]),
    .project 2, .project 3]

/-- A client that projects both boxes. -/
def twoBoxClient : Client :=
  (start ⟨.default, .standard⟩ .library .empty).run twoBoxRequests

theorem two_boxes_stemNames :
    (Config.default).qualifier? = none ∧ Catalog.library.Built ∧
      twoBoxClient.StemNames ⟨.default, .standard⟩ :=
  ⟨rfl, .library, run_stemNames _ rfl .library twoBoxRequests⟩

/-- The plain and the generic box are two entries of the registry with one name. -/
theorem boxes_share_name :
    ∃ e ∈ twoBoxClient.session.registry.entries, ∃ e' ∈ twoBoxClient.session.registry.entries,
      e.definitionName = "Shop.Box" ∧ e'.definitionName = "Shop.Box`1" ∧
        e.definitionName ≠ e'.definitionName ∧
        twoBoxClient.session.qualifiedName e = twoBoxClient.session.qualifiedName e' := by
  decide +kernel

end Client

end TypeProjection
