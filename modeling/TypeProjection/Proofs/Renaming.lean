import Mathlib.Data.List.Forall2
import TypeProjection.Proofs.Identity
import TypeProjection.Proofs.Names

/-!
# Naming settings

A global namespace and the modules of namespaces say how complex types are named, and nothing else. Two
projections of one type under different naming settings are compared: they register the same types,
give the same warnings, and write the same expression but for the names of registered types. Main
statement: `project_renamed`. Each of those names is that of a definition under the settings
(`Naming.nameOf`), so it is the same wherever the definition is used.
-/

namespace TypeProjection

/-! ## Expressions that differ in names -/

namespace Expr

/-- The same expression twice, but for names that are related. -/
inductive AgreeBut (related : String → String → Prop) : Expr → Expr → Prop where
  | same (text : String) : AgreeBut related (.named text) (.named text)
  | named {a b : String} (name : related a b) : AgreeBut related (.named a) (.named b)
  | apply {a b : String} {args args' : List Expr} (name : related a b)
      (agree : List.Forall₂ (AgreeBut related) args args') :
      AgreeBut related (.apply a args) (.apply b args')
  | array {e e' : Expr} (agree : AgreeBut related e e') : AgreeBut related (.array e) (.array e')
  | map {key key' value value' : Expr} (keys : AgreeBut related key key')
      (values : AgreeBut related value value') : AgreeBut related (.map key value) (.map key' value')
  | orNull {e e' : Expr} (agree : AgreeBut related e e') : AgreeBut related (.orNull e) (.orNull e')
  | actionResult : AgreeBut related .actionResult .actionResult
  | verbatim (text : String) : AgreeBut related (.verbatim text) (.verbatim text)

variable {related : String → String → Prop} {e e' : Expr}

theorem AgreeBut.orNullIf (h : AgreeBut related e e') (wanted : Bool) :
    AgreeBut related (.orNullIf wanted e) (.orNullIf wanted e') := by
  cases wanted with
  | false => exact h
  | true => exact .orNull h

/-- Whether an expression is a union is not a matter of names. -/
theorem AgreeBut.isUnion_eq (h : AgreeBut related e e') : e.isUnion = e'.isUnion := by
  cases h <;> rfl

end Expr

theorem Leaf.agree_silent {leaf : Leaf} (h : leaf.isSilent = true)
    (related : String → String → Prop) (strict : Bool) (name name' : String) :
    Expr.AgreeBut related (leaf.toExpr strict name) (leaf.toExpr strict name') := by
  cases leaf with
  | override text => exact .verbatim text
  | builtin entry nullable => exact (Expr.AgreeBut.same entry.name).orNullIf _
  | actionResult => exact .actionResult
  | formData | dynamicJson | runtime => exact .same _
  | untypedMap => exact .map (.same _) (.same _)
  | untypedArray => exact .array (.same _)
  | enumeration | unknown => cases h

/-- The expressions of a type under two namings differ in the names of declared types alone. -/
theorem Projector.agree_exprWith {f g : Descriptor → String} {related : String → String → Prop}
    (p : Projector) (d : Descriptor)
    (h : ∀ x ∈ p.visited d, p.isDeclared x = true → related (f x) (g x)) :
    Expr.AgreeBut related (p.exprWith f d) (p.exprWith g d) := by
  induction d using p.rule_induction with
  | step d r hr hfits ih =>
    have hself := h d.unwrap.type (p.mem_visited_self d)
    have hparts : ∀ a ∈ r.parts, Expr.AgreeBut related (p.exprWith f a) (p.exprWith g a) := by
      intro a ha
      apply ih a ha
      intro x hx
      exact h x (mem_visited_of_part (by rw [hr]; exact ha) hx)
    rw [exprWith_eq p f, exprWith_eq p g, hr]
    cases hfits with
    | silent hs _ _ => exact Leaf.agree_silent hs _ _ _ _
    | enumeration hrole _ =>
      have hname := hself (by rw [isDeclared, hrole])
      exact (Expr.AgreeBut.named hname).orNullIf _
    | unknown _ _ => exact .same _
    | @map key value _ _ =>
      exact .map (hparts key (by simp [Rule.parts])) (hparts value (by simp [Rule.parts]))
    | @array element _ _ => exact .array (hparts element (by simp [Rule.parts]))
    | complex hrole _ =>
      have hname := hself (by rw [isDeclared, hrole])
      refine Expr.AgreeBut.orNullIf ?_ _
      by_cases hargs : d.unwrap.type.args.isEmpty = true
      · rw [if_pos hargs, if_pos hargs]
        exact .named hname
      · rw [if_neg hargs, if_neg hargs]
        refine .apply hname ?_
        rw [List.forall₂_map_left_iff, List.forall₂_map_right_iff, List.forall₂_same]
        exact hparts

/-! ## Naming settings -/

/-- The settings that complex types are named by. -/
structure Naming where
  globalNamespace? : Option String
  /-- Target modules by host namespace. -/
  modules : Table String

namespace Naming

/-- The name of a definition: its simple name behind the global namespace, if that is set and not
empty, or else behind the module of its own namespace. -/
def nameOf (n : Naming) (definition : Descriptor) : String :=
  let module? := definition.namespaceName?.map fun ns => (n.modules.get? ns).getD ns
  let qualifier? := (n.globalNamespace?.filter fun ns => ns != "").or module?
  Descriptor.qualify qualifier? definition.simpleName

/-- The name of a type: that of the definition that the catalog knows by the type's definition
name. -/
def nameIn (n : Naming) (c : Catalog) (d : Descriptor) : String :=
  ((c.get? d.definitionName).map n.nameOf).getD ""

end Naming

namespace Projector

variable {c : Catalog} {d : Descriptor}

/-- The same projector with another global namespace. -/
def withNaming (p : Projector) (n : Naming) : Projector :=
  { p with config := { p.config with globalNamespace? := n.globalNamespace? } }

/-- The projection of a type on a fresh registry, under naming settings. -/
def projectNamed (p : Projector) (n : Naming) (d : Descriptor) : Outcome :=
  (p.withNaming n).project (.new n.modules) d

theorem visited_withNaming (p : Projector) (n : Naming) (d : Descriptor) :
    (p.withNaming n).visited d = p.visited d := by
  have hcomponents : (p.withNaming n).components = p.components := rfl
  exact visited_congr hcomponents d

theorem exprWith_withNaming (p : Projector) (n : Naming) (nameOf : Descriptor → String)
    (d : Descriptor) : (p.withNaming n).exprWith nameOf d = p.exprWith nameOf d := by
  have hrule : (p.withNaming n).rule = p.rule := rfl
  rw [exprWith, exprWith, outline_congr hrule]
  rfl

/-! ## One naming -/

/-- Nothing that is registered hangs on the naming. -/
theorem entries_projectNamed (p : Projector) (n : Naming) (d : Descriptor) :
    (p.projectNamed n d).registry.entries =
      (Registry.new .empty).unregistered ((p.visited d).filter p.isDeclared) := by
  have hdeclared : (p.withNaming n).isDeclared = p.isDeclared := rfl
  rw [projectNamed, project_registry, Registry.entries_registerAll, visited_withNaming, hdeclared]
  rfl

theorem warnings_projectNamed (p : Projector) (n : Naming) (d : Descriptor) :
    (p.projectNamed n d).warnings = ((p.visited d).filter p.isUnknown).map unknownTypeMessage := by
  have hunknown : (p.withNaming n).isUnknown = p.isUnknown := rfl
  rw [projectNamed, project_warnings, visited_withNaming, hunknown]

theorem mem_entries_projectNamed {p : Projector} {n : Naming} {e : Descriptor}
    (he : e ∈ (p.projectNamed n d).registry.entries) :
    e ∈ p.visited d ∧ p.isDeclared e = true := by
  rw [projectNamed, project_registry, visited_withNaming] at he
  rcases Registry.mem_entries_registerAll he with hnew | hvisited
  · cases hnew
  · exact List.mem_filter.1 hvisited

/-- A declared type is named like its definition, however it is closed over arguments. -/
theorem declaredName_eq_nameIn {x : Descriptor} (hx : c.Declares x) (p : Projector) (n : Naming) :
    (Registry.new n.modules).declaredName (p.withNaming n).config x = n.nameIn c x := by
  obtain ⟨definition, _, known, hns, hname⟩ := hx
  have hentry : n.nameIn c x = n.nameOf definition.toDescriptor := by
    rw [Naming.nameIn, known]
    rfl
  rw [hentry, Registry.declaredName, Descriptor.simpleName, hns, hname]
  rfl

theorem projection_projectNamed (hc : c.Keyed) (hd : c.Provides d) (p : Projector) (n : Naming) :
    (p.projectNamed n d).projection = .ofExpr (p.exprWith (n.nameIn c) d) := by
  rw [projectNamed, projection_eq_ofExpr hc (Registry.declaredBy_new n.modules c) hd,
    exprWith_withNaming]
  apply congrArg Projection.ofExpr
  apply p.exprWith_congr
  intro x hx hdeclared
  exact declaredName_eq_nameIn (declares_of_visited hc p hd hx hdeclared) p n

/-- A registered entry is named like its definition once the projection is done. -/
theorem qualifiedName_projectNamed (hc : c.Keyed) (hd : c.Provides d) {p : Projector} {n : Naming}
    {e : Descriptor} (he : e ∈ (p.projectNamed n d).registry.entries) :
    ∃ definition, c.get? e.definitionName = some definition ∧
      (p.projectNamed n d).registry.qualifiedName (p.withNaming n).config e =
        n.nameOf definition ∧ n.nameIn c e = n.nameOf definition := by
  obtain ⟨hvisited, hdeclared⟩ := mem_entries_projectNamed he
  have hdeclares := declares_of_visited hc p hd hvisited hdeclared
  have hqualified : (p.projectNamed n d).registry.qualifiedName (p.withNaming n).config e =
      n.nameIn c e := by
    rw [← visited_withNaming p n] at hvisited
    rw [projectNamed, qualifiedName_project hc (Registry.declaredBy_new n.modules c) hd hvisited
      hdeclared, declaredName_eq_nameIn hdeclares]
  obtain ⟨definition, _, known, _⟩ := hdeclares
  have hname : n.nameIn c e = n.nameOf definition.toDescriptor := by
    rw [Naming.nameIn, known]
    rfl
  exact ⟨definition.toDescriptor, known, hqualified.trans hname, hname⟩

/-! ## Two namings -/

/-- **Naming settings are a pure renaming.** Take a type that a catalog resolves, and a projector of
which only the naming settings change, each time with a fresh registry. Every projection writes the
expression in which each declared type has the name of its definition under the settings, and this is
the name that a registered entry has afterwards. Between any two settings nothing else differs: the
same types are registered in the same order, the same warnings are given, the text is a union in both
cases or in none, and the two expressions are the same but for the names of registered types. -/
theorem project_renamed (hc : c.Built) {reference : Reference} (hd : c.resolve reference = .ok d)
    (p : Projector) :
    let tree : Naming → Expr := fun n => p.exprWith (n.nameIn c) d
    (∀ n, (p.projectNamed n d).projection = .ofExpr (tree n) ∧
      ∀ e ∈ (p.projectNamed n d).registry.entries, ∃ definition,
        c.get? e.definitionName = some definition ∧
          (p.projectNamed n d).registry.qualifiedName (p.withNaming n).config e =
            n.nameOf definition ∧ n.nameIn c e = n.nameOf definition) ∧
      ∀ n n', (p.projectNamed n d).registry.entries = (p.projectNamed n' d).registry.entries ∧
        (p.projectNamed n d).warnings = (p.projectNamed n' d).warnings ∧
        (p.projectNamed n d).projection.isUnion = (p.projectNamed n' d).projection.isUnion ∧
        Expr.AgreeBut
          (fun a b => ∃ e ∈ (p.projectNamed n d).registry.entries,
            a = n.nameIn c e ∧ b = n'.nameIn c e)
          (tree n) (tree n') := by
  intro tree
  have hprovided := c.provides_resolve reference hd
  have hwritten := projection_projectNamed hc.keyed hprovided p
  refine ⟨?named, ?renamed⟩
  case named =>
    intro n
    exact ⟨hwritten n, fun e he => qualifiedName_projectNamed hc.keyed hprovided he⟩
  case renamed =>
    intro n n'
    have hagree : Expr.AgreeBut
        (fun a b => ∃ e ∈ (p.projectNamed n d).registry.entries,
          a = n.nameIn c e ∧ b = n'.nameIn c e) (tree n) (tree n') := by
      apply p.agree_exprWith
      intro x hx hdeclared
      -- The entry of the type may be another instantiation, but it is of the same definition.
      have hcontains : (p.projectNamed n d).registry.contains x = true := by
        rw [projectNamed, project_registry, Registry.contains_registerAll, visited_withNaming]
        exact Or.inr ⟨x, List.mem_filter.2 ⟨hx, hdeclared⟩, rfl⟩
      obtain ⟨e, he, hkey⟩ := Registry.contains_iff.1 hcontains
      refine ⟨e, he, ?_, ?_⟩
      · rw [Naming.nameIn, Naming.nameIn, hkey]
      · rw [Naming.nameIn, Naming.nameIn, hkey]
    refine ⟨?_, ?_, ?_, hagree⟩
    · rw [entries_projectNamed, entries_projectNamed]
    · rw [warnings_projectNamed, warnings_projectNamed]
    · rw [hwritten, hwritten]
      exact hagree.isUnion_eq

/-- A box of arrays of boxes of items. -/
def nestedBoxes : Reference :=
  .generic "Shop.Box`1" [.array (.generic "Shop.Box`1" [.named "Shop.Item"])]

/-- One namespace for all names. -/
def globalNaming : Naming := ⟨some "Api", .empty⟩

/-- A module for one namespace. -/
def moduleNaming : Naming := ⟨none, .ofList [("Shop", "models")]⟩

/-- With null arms and the standard builtins. -/
def plainProjector : Projector := ⟨⟨true, none, .empty⟩, .standard⟩

theorem boxes_renamed :
    Catalog.pairCatalog.Built ∧ ∃ d, Catalog.pairCatalog.resolve nestedBoxes = .ok d ∧
      (plainProjector.projectNamed globalNaming d).projection.text =
        "Api.Box<(Api.Box<Api.Item | null> | null)[]> | null" ∧
      (plainProjector.projectNamed moduleNaming d).projection.text =
        "models.Box<(models.Box<models.Item | null> | null)[]> | null" ∧
      (plainProjector.projectNamed globalNaming d).registry.entries =
        (plainProjector.projectNamed moduleNaming d).registry.entries := by
  have hdefine : Catalog.empty.defineAll Catalog.pairDefinitions = .ok Catalog.pairCatalog := rfl
  have hbuilt : Catalog.pairCatalog.Built := Catalog.Built.empty.defineAll hdefine
  obtain ⟨d, hd, hglobal, hmodule⟩ :
      ∃ d, Catalog.pairCatalog.resolve nestedBoxes = .ok d ∧
        (plainProjector.exprWith (globalNaming.nameIn Catalog.pairCatalog) d).print =
          "Api.Box<(Api.Box<Api.Item | null> | null)[]> | null" ∧
        (plainProjector.exprWith (moduleNaming.nameIn Catalog.pairCatalog) d).print =
          "models.Box<(models.Box<models.Item | null> | null)[]> | null" :=
    ⟨_, rfl, by decide +kernel, by decide +kernel⟩
  obtain ⟨hnamed, hrenamed⟩ := project_renamed hbuilt hd plainProjector
  refine ⟨hbuilt, d, hd, ?_, ?_, (hrenamed globalNaming moduleNaming).1⟩
  · rw [(hnamed globalNaming).1]
    exact hglobal
  · rw [(hnamed moduleNaming).1]
    exact hmodule

end Projector

end TypeProjection
