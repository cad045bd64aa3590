import Mathlib.Data.List.Basic
import TypeProjection.Proofs.Names

/-!
# Overrides act locally

A projection is compared with the one under one more override. The override cuts the outline where a
type of its name is visited and puts its text there, and that is all it does (`project_override`): the
rest of the expression stays, and so do the registrations and the warnings of the types that are
visited outside the subtrees that were cut off.
-/

namespace TypeProjection

namespace Outline

mutual

/-- The types of an outline in preorder. -/
def types : Outline → List Descriptor
  | leaf type _ => [type]
  | map type key value => type :: (key.types ++ value.types)
  | array type element => type :: element.types
  | complex type _ args => type :: typesAll args

def typesAll : List Outline → List Descriptor
  | [] => []
  | o :: rest => o.types ++ typesAll rest

end

mutual

/-- An outline with a literal text in place of each subtree whose root has the given full name. -/
def override (fullName text : String) : Outline → Outline
  | leaf type rule => if type.fullName = fullName then leaf type (.override text) else leaf type rule
  | map type key value =>
    if type.fullName = fullName then leaf type (.override text)
    else map type (key.override fullName text) (value.override fullName text)
  | array type element =>
    if type.fullName = fullName then leaf type (.override text)
    else array type (element.override fullName text)
  | complex type nullable args =>
    if type.fullName = fullName then leaf type (.override text)
    else complex type nullable (overrideAll fullName text args)

def overrideAll (fullName text : String) : List Outline → List Outline
  | [] => []
  | o :: rest => o.override fullName text :: overrideAll fullName text rest

end

mutual

/-- The types outside the subtrees whose root has the given full name, in preorder. -/
def typesOutside (fullName : String) : Outline → List Descriptor
  | leaf type _ => if type.fullName = fullName then [] else [type]
  | map type key value =>
    if type.fullName = fullName then []
    else type :: (key.typesOutside fullName ++ value.typesOutside fullName)
  | array type element =>
    if type.fullName = fullName then [] else type :: element.typesOutside fullName
  | complex type _ args =>
    if type.fullName = fullName then [] else type :: typesOutsideAll fullName args

def typesOutsideAll (fullName : String) : List Outline → List Descriptor
  | [] => []
  | o :: rest => o.typesOutside fullName ++ typesOutsideAll fullName rest

end

theorem typesAll_eq (os : List Outline) : typesAll os = os.flatMap types := by
  induction os with
  | nil => rfl
  | cons o rest ih => rw [typesAll, ih, List.flatMap_cons]

theorem overrideAll_eq (fullName text : String) (os : List Outline) :
    overrideAll fullName text os = os.map (override fullName text) := by
  induction os with
  | nil => rfl
  | cons o rest ih => rw [overrideAll, ih, List.map_cons]

mutual

/-- Where no type has the name nothing is cut off. -/
theorem override_eq_self (fullName text : String) :
    ∀ o : Outline, (∀ x ∈ o.types, x.fullName ≠ fullName) → o.override fullName text = o
  | leaf type rule, h => by
      rw [override, if_neg (h type (by simp [types]))]
  | map type key value, h => by
      have hkey := override_eq_self fullName text key fun x hx => h x (by simp [types, hx])
      have hvalue := override_eq_self fullName text value fun x hx => h x (by simp [types, hx])
      rw [override, if_neg (h type (by simp [types])), hkey, hvalue]
  | array type element, h => by
      have helement := override_eq_self fullName text element fun x hx => h x (by simp [types, hx])
      rw [override, if_neg (h type (by simp [types])), helement]
  | complex type nullable args, h => by
      have hargs := overrideAll_eq_self fullName text args fun x hx => h x (by simp [types, hx])
      rw [override, if_neg (h type (by simp [types])), hargs]

theorem overrideAll_eq_self (fullName text : String) :
    ∀ os : List Outline, (∀ x ∈ typesAll os, x.fullName ≠ fullName) →
      overrideAll fullName text os = os
  | [], _ => rfl
  | o :: rest, h => by
      have hfirst := override_eq_self fullName text o fun x hx => h x (by simp [typesAll, hx])
      have hrest := overrideAll_eq_self fullName text rest fun x hx => h x (by simp [typesAll, hx])
      rw [overrideAll, hfirst, hrest]

end

mutual

/-- What an override leaves are the types outside the subtrees and the roots that were cut. -/
theorem filter_types_override (fullName text : String) :
    ∀ o : Outline, (o.override fullName text).types.filter (fun x => x.fullName != fullName) =
      o.typesOutside fullName
  | leaf type rule => by
      by_cases h : type.fullName = fullName <;> simp [override, typesOutside, types, h]
  | map type key value => by
      have hkey := filter_types_override fullName text key
      have hvalue := filter_types_override fullName text value
      by_cases h : type.fullName = fullName <;>
        simp [override, typesOutside, types, h, hkey, hvalue]
  | array type element => by
      have helement := filter_types_override fullName text element
      by_cases h : type.fullName = fullName <;> simp [override, typesOutside, types, h, helement]
  | complex type nullable args => by
      have hargs := filter_typesAll_override fullName text args
      by_cases h : type.fullName = fullName <;> simp [override, typesOutside, types, h, hargs]

theorem filter_typesAll_override (fullName text : String) :
    ∀ os : List Outline,
      (typesAll (overrideAll fullName text os)).filter (fun x => x.fullName != fullName) =
        typesOutsideAll fullName os
  | [] => rfl
  | o :: rest => by
      rw [overrideAll, typesAll, typesOutsideAll, List.filter_append,
        filter_types_override fullName text o, filter_typesAll_override fullName text rest]

end

end Outline

namespace Projector

variable {p : Projector} {d : Descriptor} {fullName text : String}

/-- The same projector with one more override. -/
def withOverride (p : Projector) (fullName text : String) : Projector :=
  { p with config := p.config.override fullName text }

/-! ## One type -/

/-- The rule of a type changes exactly if the type has the name of the override. -/
theorem rule_withOverride (p : Projector) (fullName text : String) (d : Descriptor)
    (nullable : Bool) :
    (p.withOverride fullName text).rule d nullable =
      if d.fullName = fullName then .leaf (.override text) else p.rule d nullable := by
  have hget : (p.withOverride fullName text).config.overrides.get? d.fullName =
      if fullName = d.fullName then some text else p.config.overrides.get? d.fullName :=
    Table.get?_insert p.config.overrides fullName d.fullName text
  have hliteral : (p.withOverride fullName text).literalRule? d nullable =
      if d.fullName = fullName then some (.leaf (.override text))
      else p.literalRule? d nullable := by
    unfold literalRule?
    rw [hget]
    by_cases h : d.fullName = fullName
    · rw [if_pos h.symm, if_pos h]
    · rw [if_neg (Ne.symm h), if_neg h]
      rfl
  rw [rule, hliteral]
  by_cases h : d.fullName = fullName
  · rw [if_pos h, if_pos h]
    rfl
  · rw [if_neg h, if_neg h]
    rfl

theorem hasFixedText_withOverride (p : Projector) (fullName text : String) (d : Descriptor) :
    (p.withOverride fullName text).hasFixedText d =
      (d.fullName == fullName || p.hasFixedText d) := by
  have hcontains : (p.withOverride fullName text).config.overrides.contains d.fullName =
      (d.fullName == fullName || p.config.overrides.contains d.fullName) := by
    rw [Table.contains, Table.contains]
    show ((p.config.overrides.insert fullName text).get? d.fullName).isSome = _
    rw [Table.get?_insert]
    by_cases h : d.fullName = fullName
    · rw [if_pos h.symm, h, beq_self_eq_true]
      rfl
    · rw [if_neg (Ne.symm h), beq_false_of_ne h]
      rfl
  rw [hasFixedText, hcontains, hasFixedText]
  simp only [Bool.or_assoc]
  rfl

theorem role_withOverride (p : Projector) (fullName text : String) (d : Descriptor) :
    (p.withOverride fullName text).role d =
      if d.fullName = fullName then .silent else p.role d := by
  rw [role, hasFixedText_withOverride]
  by_cases h : d.fullName = fullName
  · rw [if_pos h, h, beq_self_eq_true]
    rfl
  · rw [if_neg h, beq_false_of_ne h]
    rfl

/-- A type of the name of the override is neither declared nor warned of; nothing else changes. -/
theorem isDeclared_withOverride (p : Projector) (fullName text : String) (d : Descriptor) :
    (p.withOverride fullName text).isDeclared d = (d.fullName != fullName && p.isDeclared d) := by
  rw [isDeclared, role_withOverride]
  by_cases h : d.fullName = fullName
  · rw [if_pos h, h, bne_self_eq_false]
    rfl
  · rw [if_neg h, bne_iff_ne.2 h]
    rfl

theorem isUnknown_withOverride (p : Projector) (fullName text : String) (d : Descriptor) :
    (p.withOverride fullName text).isUnknown d = (d.fullName != fullName && p.isUnknown d) := by
  rw [isUnknown, role_withOverride]
  by_cases h : d.fullName = fullName
  · rw [if_pos h, h, bne_self_eq_false]
    rfl
  · rw [if_neg h, bne_iff_ne.2 h]
    rfl

/-! ## Outlines -/

/-- The types of the outline are the visited types. -/
theorem types_outline (p : Projector) (d : Descriptor) : (p.outline d).types = p.visited d := by
  induction d using p.rule_induction with
  | step d r hr hfits ih =>
    rw [outline_eq, visited_eq, hr, ← parts_fits hfits]
    cases r with
    | leaf leaf => rfl
    | map key value =>
      have hkey := ih key (by simp [Rule.parts])
      have hvalue := ih value (by simp [Rule.parts])
      show _ :: (_ ++ _) = _
      rw [hkey, hvalue]
      simp [Rule.parts]
    | array element =>
      have helement := ih element (by simp [Rule.parts])
      show _ :: _ = _
      rw [helement]
      simp [Rule.parts]
    | complex nullable args =>
      have hargs : args.map (fun a => (p.outline a).types) = args.map p.visited :=
        List.map_congr_left ih
      show _ :: Outline.typesAll _ = _ :: args.flatMap p.visited
      rw [Outline.typesAll_eq, List.flatMap_map, List.flatMap_def, List.flatMap_def, hargs]

/-- The outline under the override is the outline with the subtrees cut off. -/
theorem outline_withOverride (p : Projector) (fullName text : String) (d : Descriptor) :
    (p.withOverride fullName text).outline d = (p.outline d).override fullName text := by
  induction d using p.rule_induction with
  | step d r hr _ ih =>
    rw [outline_eq, outline_eq, rule_withOverride, hr]
    by_cases h : d.unwrap.type.fullName = fullName
    · rw [if_pos h]
      cases r <;> simp only [Outline.override, if_pos h]
    · rw [if_neg h]
      cases r with
      | leaf leaf => simp only [Outline.override, if_neg h]
      | map key value =>
        simp only [Outline.override, if_neg h]
        rw [ih key (by simp [Rule.parts]), ih value (by simp [Rule.parts])]
      | array element =>
        simp only [Outline.override, if_neg h]
        rw [ih element (by simp [Rule.parts])]
      | complex nullable args =>
        have hargs : args.map (p.withOverride fullName text).outline =
            (args.map p.outline).map (Outline.override fullName text) := by
          rw [List.map_map]
          exact List.map_congr_left ih
        simp only [Outline.override, if_neg h, Outline.overrideAll_eq]
        rw [hargs]

/-! ## Two projections -/

theorem visited_withOverride_of_ne (h : ∀ x ∈ p.visited d, x.fullName ≠ fullName) :
    (p.withOverride fullName text).visited d = p.visited d := by
  rw [← types_outline, outline_withOverride, Outline.override_eq_self, types_outline]
  rw [types_outline]
  exact h

theorem enter_withOverride_of_ne {x : Descriptor} (h : x.fullName ≠ fullName) (t : Trail) :
    (p.withOverride fullName text).enter t x = p.enter t x := by
  rw [enter, enter, role_withOverride, if_neg h]
  rfl

attribute [ext] Outcome

/-- An override of a name that no visited type has changes nothing. -/
theorem project_withOverride_of_ne (r : Registry) (h : ∀ x ∈ p.visited d, x.fullName ≠ fullName) :
    (p.withOverride fullName text).project r d = p.project r d := by
  have htrail : ((p.withOverride fullName text).visit ⟨r, []⟩ d).2 = (p.visit ⟨r, []⟩ d).2 := by
    rw [visit_trail, visit_trail, visited_withOverride_of_ne h]
    exact List.foldl_ext _ _ _ fun t x hx => enter_withOverride_of_ne (h x hx) t
  have houtline : (p.withOverride fullName text).outline d = p.outline d := by
    rw [outline_withOverride]
    refine Outline.override_eq_self fullName text _ ?_
    rw [types_outline]
    exact h
  have hregistry : ((p.withOverride fullName text).project r d).registry =
      (p.project r d).registry := congrArg Trail.registry htrail
  have hevents : ((p.withOverride fullName text).project r d).events = (p.project r d).events :=
    congrArg Trail.events htrail
  have hprojection : ((p.withOverride fullName text).project r d).projection =
      (p.project r d).projection := by
    rw [project_expr, project_expr, expr, exprWith, houtline, hregistry]
    rfl
  exact Outcome.ext hprojection hregistry hevents

/-- Under the override the declared types among those outside are the declared ones that are
visited. -/
theorem filter_visited_withOverride (p : Projector) (fullName text : String) (d : Descriptor)
    {chosen chosen' : Descriptor → Bool}
    (h : ∀ x, chosen' x = (x.fullName != fullName && chosen x)) :
    ((p.withOverride fullName text).visited d).filter chosen' =
      ((p.outline d).typesOutside fullName).filter chosen := by
  have hchosen : chosen' = fun x => chosen x && x.fullName != fullName := by
    funext x
    rw [h, Bool.and_comm]
  rw [← types_outline, outline_withOverride, hchosen, ← List.filter_filter,
    Outline.filter_types_override]

/-- **Overrides act locally.** Take a type that a catalog resolves, a registry of types of that
catalog, and one more override. If no visited type has its name nothing changes at all. In any case
both projections write an outline, with the same names of declared types: under the override the one
in which each type of that name, with all below it, has given way to the bare text. The types that
are registered and warned of are the same as before outside these subtrees, and none inside. -/
theorem project_override {c : Catalog} {r : Registry} {reference : Reference} (hc : c.Built)
    (hd : c.resolve reference = .ok d) (hr : r.DeclaredBy c) (p : Projector)
    (fullName text : String) :
    let p' := p.withOverride fullName text
    let write : Outline → Projection := fun o =>
      .ofExpr (o.toExpr p.config.strictNulls (r.declaredName p.config))
    ((∀ x ∈ p.visited d, x.fullName ≠ fullName) → p'.project r d = p.project r d) ∧
      (p.project r d).projection = write (p.outline d) ∧
      (p'.project r d).projection = write ((p.outline d).override fullName text) ∧
      (∀ x, write (.leaf x (.override text)) = .plain text) ∧
      (p.outline d).types = p.visited d ∧
      (p.project r d).registry = r.registerAll ((p.visited d).filter p.isDeclared) ∧
      (p'.project r d).registry =
        r.registerAll (((p.outline d).typesOutside fullName).filter p.isDeclared) ∧
      (p.project r d).warnings = ((p.visited d).filter p.isUnknown).map unknownTypeMessage ∧
      (p'.project r d).warnings =
        (((p.outline d).typesOutside fullName).filter p.isUnknown).map unknownTypeMessage := by
  intro p' write
  have hprovided := c.provides_resolve reference hd
  refine ⟨project_withOverride_of_ne r, ?_, ?_, fun _ => rfl, p.types_outline d,
    p.project_registry r d, ?_, p.project_warnings r d, ?_⟩
  · rw [projection_eq_ofExpr hc.keyed hr hprovided]
    rfl
  · rw [projection_eq_ofExpr hc.keyed hr hprovided, exprWith, outline_withOverride]
    rfl
  · rw [project_registry,
      filter_visited_withOverride p fullName text d (p.isDeclared_withOverride fullName text)]
  · rw [project_warnings,
      filter_visited_withOverride p fullName text d (p.isUnknown_withOverride fullName text)]

/-- Items, boxes and shelves. -/
def shelfDefinitions : List Definition :=
  [⟨some "Shop", "Item", .classType, [], []⟩, ⟨some "Shop", "Box", .classType, ["T"], []⟩,
    ⟨some "Shop", "Shelf", .classType, ["A", "B"], []⟩]

/-- A catalog of these definitions alone. -/
def shelfCatalog : Catalog :=
  shelfDefinitions.foldl (fun c definition => c.enter definition.toDescriptor) .empty

/-- A shelf of boxes of items and of items. -/
def shelf : Reference :=
  .generic "Shop.Shelf`2" [.generic "Shop.Box`1" [.named "Shop.Item"], .named "Shop.Item"]

/-- With null arms and the standard builtins. -/
def nullsProjector : Projector := ⟨⟨true, none, .empty⟩, .standard⟩

/-- Boxes of items are overridden. Items are still registered, as they are visited elsewhere. -/
theorem shelf_of_crates :
    shelfCatalog.Built ∧ (Registry.new .empty).DeclaredBy shelfCatalog ∧
      ∃ d, shelfCatalog.resolve shelf = .ok d ∧
        ((nullsProjector.withOverride "Shop.Box`1[[Shop.Item]]" "Crate").project (.new .empty)
          d).projection = ⟨"Shop.Shelf<Crate, Shop.Item | null> | null", true⟩ ∧
        ((nullsProjector.withOverride "Shop.Box`1[[Shop.Item]]" "Crate").project (.new .empty)
          d).registry = (Registry.new .empty).registerAll
            (((nullsProjector.outline d).typesOutside "Shop.Box`1[[Shop.Item]]").filter
              nullsProjector.isDeclared) := by
  have hdefine : Catalog.empty.defineAll shelfDefinitions = .ok shelfCatalog := rfl
  have hbuilt : shelfCatalog.Built := Catalog.Built.empty.defineAll hdefine
  have hdeclared := Registry.declaredBy_new .empty shelfCatalog
  obtain ⟨d, hd, htext⟩ : ∃ d, shelfCatalog.resolve shelf = .ok d ∧
      Projection.ofExpr (((nullsProjector.outline d).override "Shop.Box`1[[Shop.Item]]"
        "Crate").toExpr true ((Registry.new .empty).declaredName nullsProjector.config)) =
          ⟨"Shop.Shelf<Crate, Shop.Item | null> | null", true⟩ :=
    ⟨_, rfl, by decide +kernel⟩
  obtain ⟨-, -, hprojection, -, -, -, hregistry, -, -⟩ :=
    project_override hbuilt hd hdeclared nullsProjector "Shop.Box`1[[Shop.Item]]" "Crate"
  exact ⟨hbuilt, hdeclared, d, hd, hprojection.trans htext, hregistry⟩

end Projector

end TypeProjection
