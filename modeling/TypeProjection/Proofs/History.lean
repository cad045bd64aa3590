import TypeProjection.Proofs.Names
import TypeProjection.Session

/-!
# Histories

A client of a session defines types, resolves references and projects what it has got hold of, in any
order. This file shows that nothing hangs on that order: a projection is the one on a fresh registry,
and two orders of the same calls differ in the order of registrations and warnings alone
(`run_independent_of_history`).
-/

namespace TypeProjection

/-! ## Clients -/

/-- What a client asks of a session. -/
inductive Request where
  | define (definition : Definition)
  | resolve (reference : Reference)
  /-- Projects one of the types that the client has got hold of, by its position. -/
  | project (index : Nat)

/-- A projection that was asked for and what came of it. -/
structure Call where
  type : Descriptor
  projection : Projection

/-- A session with what its client has got from it. -/
structure Client where
  session : Session
  /-- Types that were defined or resolved, oldest first. -/
  types : List Descriptor
  /-- Oldest first. -/
  calls : List Call

namespace Client

/-- A client before its first request. -/
def start (p : Projector) (c : Catalog) (modules : Table String) : Client :=
  ⟨.start p c modules, [], []⟩

/-- One request. A client gets nothing from a request that fails. -/
def step (k : Client) : Request → Client
  | .define definition =>
    match k.session.define definition with
    | (.error _, session) => { k with session }
    | (.ok d, session) => { k with session, types := k.types ++ [d] }
  | .resolve reference =>
    match k.session.catalog.resolve reference with
    | .error _ => k
    | .ok d => { k with types := k.types ++ [d] }
  | .project index =>
    match k.types[index]? with
    | none => k
    | some d =>
      let (projection, session) := k.session.project d
      { k with session, calls := k.calls ++ [⟨d, projection⟩] }

def run (k : Client) (requests : List Request) : Client := requests.foldl step k

/-- The types that were projected, oldest first. -/
def projected (k : Client) : List Descriptor := k.calls.map Call.type

/-! ## What holds after every request -/

/-- What a session and its client are like at any time, given what they started with. All types come
from the catalog, and every call went as if it were the only one. -/
structure Sound (p : Projector) (modules : Table String) (k : Client) : Prop where
  projector : k.session.projector = p
  keyed : k.session.catalog.Keyed
  types : ∀ d ∈ k.types, k.session.catalog.Provides d
  declared : k.session.registry.DeclaredBy k.session.catalog
  calls : k.calls = k.projected.map fun d => ⟨d, (p.project (.new modules) d).projection⟩
  registry : k.session.registry =
    (Registry.new modules).registerAll
      (k.projected.flatMap fun d => (p.visited d).filter p.isDeclared)
  warnings : k.session.warnings =
    k.projected.flatMap fun d => ((p.visited d).filter p.isUnknown).map unknownTypeMessage

variable {p : Projector} {modules : Table String} {k : Client}

theorem sound_start (p : Projector) {c : Catalog} (hc : c.Built) (modules : Table String) :
    (start p c modules).Sound p modules where
  projector := rfl
  keyed := hc.keyed
  types := fun _ hd => nomatch hd
  declared := Registry.declaredBy_new modules c
  calls := rfl
  registry := rfl
  warnings := rfl

theorem Sound.define (h : k.Sound p modules) (definition : Definition) :
    (k.step (.define definition)).Sound p modules := by
  have hext := k.session.catalog.define_extends definition
  have hkeyed := h.keyed.define definition
  have hok : ∀ d, (k.session.catalog.define definition).1 = .ok d →
      (k.session.catalog.define definition).2.get? d.definitionName = some d :=
    fun _ => Catalog.get?_define
  rw [step, Session.define]
  generalize k.session.catalog.define definition = outcome at hext hkeyed hok ⊢
  obtain ⟨result, catalog⟩ := outcome
  -- The catalog only grows, so what was provided and declared before still is.
  have htypes : ∀ a ∈ k.types, catalog.Provides a := fun a ha => (h.types a ha).mono hext
  cases result with
  | error e =>
    exact ⟨h.projector, hkeyed, htypes, h.declared.mono hext, h.calls, h.registry, h.warnings⟩
  | ok d =>
    refine ⟨h.projector, hkeyed, ?_, h.declared.mono hext, h.calls, h.registry, h.warnings⟩
    intro a ha
    rcases List.mem_append.1 ha with ha | ha
    · exact htypes a ha
    · rw [List.mem_singleton.1 ha]
      exact .entry (hok d rfl)

theorem Sound.resolve (h : k.Sound p modules) (reference : Reference) :
    (k.step (.resolve reference)).Sound p modules := by
  show Sound p modules
    (match k.session.catalog.resolve reference with
      | .error _ => k
      | .ok d => { k with types := k.types ++ [d] })
  cases hresolve : k.session.catalog.resolve reference with
  | error e => exact h
  | ok d =>
    refine { h with types := ?_ }
    intro a ha
    rcases List.mem_append.1 ha with ha | ha
    · exact h.types a ha
    · rw [List.mem_singleton.1 ha]
      exact Catalog.provides_resolve _ reference hresolve

theorem Sound.project (h : k.Sound p modules) (index : Nat) :
    (k.step (.project index)).Sound p modules := by
  show Sound p modules
    (match k.types[index]? with
      | none => k
      | some d =>
        { k with
          session := (k.session.project d).2
          calls := k.calls ++ [⟨d, (k.session.project d).1⟩] })
  cases hindex : k.types[index]? with
  | none => exact h
  | some d =>
    have hd : k.session.catalog.Provides d := h.types d (List.mem_of_getElem? hindex)
    have hmodules : k.session.registry.modules = modules := by
      rw [h.registry, Registry.modules_registerAll]
      rfl
    have hfresh : (k.session.project d).1 = (p.project (.new modules) d).projection := by
      show (k.session.projector.project k.session.registry d).projection = _
      rw [h.projector, Projector.project_eq_fresh h.keyed h.declared hd, hmodules]
    have hprojected : (k.calls ++ [Call.mk d (k.session.project d).1]).map Call.type =
        k.projected ++ [d] := List.map_append
    refine ⟨h.projector, h.keyed, h.types, ?_, ?_, ?_, ?_⟩
    · exact Projector.project_declaredBy h.keyed h.declared hd
    · show k.calls ++ [⟨d, (k.session.project d).1⟩] = List.map _ (List.map Call.type _)
      rw [hprojected, List.map_append, ← h.calls, hfresh]
      rfl
    · show (k.session.projector.project k.session.registry d).registry =
        Registry.registerAll _ (List.flatMap _ (List.map Call.type _))
      rw [hprojected, List.flatMap_append, Registry.registerAll_append, h.projector,
        Projector.project_registry, h.registry, List.flatMap_singleton]
    · show k.session.warnings ++ (k.session.projector.project k.session.registry d).warnings =
        List.flatMap _ (List.map Call.type _)
      rw [hprojected, List.flatMap_append, h.warnings, h.projector,
        Projector.project_warnings, List.flatMap_singleton]

/-- One request keeps a client sound. -/
theorem Sound.step (h : k.Sound p modules) (request : Request) :
    (k.step request).Sound p modules := by
  cases request with
  | define definition => exact h.define definition
  | resolve reference => exact h.resolve reference
  | project index => exact h.project index

/-- A client that starts with a catalog that can be built is sound at any time. -/
theorem Sound.run (h : k.Sound p modules) (requests : List Request) :
    (k.run requests).Sound p modules := by
  induction requests generalizing k with
  | nil => exact h
  | cons request rest ih => exact ih (h.step request)

/-! ## The order of calls -/

/-- The names by which types are registered. -/
def registeredNames (k : Client) : List String :=
  k.session.registry.entries.map Descriptor.definitionName

theorem mem_registeredNames (h : k.Sound p modules) {name : String} :
    name ∈ k.registeredNames ↔
      ∃ d ∈ k.projected, ∃ x ∈ p.visited d, p.isDeclared x = true ∧ x.definitionName = name := by
  have hcontains : name ∈ k.registeredNames ↔
      k.session.registry.contains (.named none name .other [] false .none) = true := by
    rw [Registry.contains_iff, registeredNames, List.mem_map]
    rfl
  rw [hcontains, h.registry, Registry.contains_registerAll]
  constructor
  · rintro (hnew | ⟨x, hx, hname⟩)
    · cases hnew
    · obtain ⟨d, hd, hx⟩ := List.mem_flatMap.1 hx
      obtain ⟨hvisited, hdeclared⟩ := List.mem_filter.1 hx
      exact ⟨d, hd, x, hvisited, hdeclared, hname⟩
  · rintro ⟨d, hd, x, hx, hdeclared, hname⟩
    exact Or.inr ⟨x, List.mem_flatMap.2 ⟨d, hd, List.mem_filter.2 ⟨hx, hdeclared⟩⟩, hname⟩

/-- **Projections do not depend on history.** Whatever a client has asked for before, every call gives
the projection that the same call gives on a fresh registry. So if the calls of two clients are the
same up to their order, both get the same projections, the same names are registered, and the same
warnings are given, each as often. -/
theorem run_independent_of_history (p : Projector) (modules : Table String) {c : Catalog}
    (hc : c.Built) (requests : List Request) :
    (∀ call ∈ ((start p c modules).run requests).calls,
      call.projection = (p.project (.new modules) call.type).projection) ∧
    ∀ {c' : Catalog}, c'.Built → ∀ requests' : List Request,
      ((start p c modules).run requests).projected.Perm
        ((start p c' modules).run requests').projected →
      ((start p c modules).run requests).calls.Perm
          ((start p c' modules).run requests').calls ∧
        (∀ name, name ∈ ((start p c modules).run requests).registeredNames ↔
          name ∈ ((start p c' modules).run requests').registeredNames) ∧
        ((start p c modules).run requests).session.warnings.Perm
          ((start p c' modules).run requests').session.warnings := by
  have h := (sound_start p hc modules).run requests
  constructor
  · intro call hcall
    rw [h.calls] at hcall
    obtain ⟨d, _, rfl⟩ := List.mem_map.1 hcall
    rfl
  · intro c' hc' requests' hperm
    have h' := (sound_start p hc' modules).run requests'
    refine ⟨?_, ?_, ?_⟩
    · rw [h.calls, h'.calls]
      exact hperm.map _
    · intro name
      rw [mem_registeredNames h, mem_registeredNames h']
      simp only [hperm.mem_iff]
    · rw [h.warnings, h'.warnings]
      exact hperm.flatMap_right _

/-- Requests that define boxes and items, resolve a box of items and a box of such boxes, and project
two of these four types. -/
def boxRequests (first second : Nat) : List Request :=
  [.define ⟨some "Shop", "Box", .classType, ["T"], []⟩,
    .define ⟨some "Shop", "Item", .classType, [], []⟩,
    .resolve (.generic "Shop.Box`1" [.named "Shop.Item"]),
    .resolve (.generic "Shop.Box`1" [.generic "Shop.Box`1" [.named "Shop.Item"]]),
    .project first, .project second]

/-- A client that projects both boxes, in either order. Both share an entry of the registry. -/
def boxClient (first second : Nat) : Client :=
  (start ⟨.default, .standard⟩ .empty .empty).run (boxRequests first second)

theorem boxes_in_two_orders :
    Catalog.empty.Built ∧ (boxClient 2 3).projected.Perm (boxClient 3 2).projected ∧
      (boxClient 2 3).calls.Perm (boxClient 3 2).calls ∧
      (∀ name, name ∈ (boxClient 2 3).registeredNames ↔
        name ∈ (boxClient 3 2).registeredNames) ∧
      (boxClient 2 3).session.warnings.Perm (boxClient 3 2).session.warnings := by
  have hperm : (boxClient 2 3).projected.Perm (boxClient 3 2).projected := by
    obtain ⟨a, b, hab, hba⟩ :
        ∃ a b, (boxClient 2 3).projected = [a, b] ∧ (boxClient 3 2).projected = [b, a] :=
      ⟨_, _, rfl, rfl⟩
    rw [hab, hba]
    exact List.Perm.swap b a []
  have horder := run_independent_of_history ⟨.default, .standard⟩ .empty .empty
    (boxRequests 2 3)
  exact ⟨.empty, hperm, horder.2 .empty (boxRequests 3 2) hperm⟩

end Client

end TypeProjection
