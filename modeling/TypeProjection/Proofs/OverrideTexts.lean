import TypeProjection.Proofs.LiteralTexts

/-!
# Texts with overrides

The text of an override is taken as it is. This file says how a projected text is read where the
overrides are type expressions (`project_text_keeps_overrides`): an override stands as a whole
wherever it is used, unless it is a union that brackets follow. Those bind to its last alternative
(`brackets_split_union`).
-/

namespace TypeProjection

open UnionGrammar

/-- All overrides are type expressions, with the given alternatives. -/
def Config.OverridesRead (config : Config) (reading : String → List TypeExpr) : Prop :=
  ∀ entry ∈ config.overrides.entries, Alternatives entry.2 (reading entry.2)

namespace Projector

variable {p : Projector} {reading : String → List TypeExpr}

/-! ## Overridden elements -/

theorem rule_eq_array_iff {d element : Descriptor} {nullable : Bool} :
    p.rule d nullable = .array element ↔
      p.hasFixedText d = false ∧ collectionRule? d = some (.array element) := by
  rcases p.rule_cases d nullable with ⟨hfixed, leaf, _, hrule⟩ | ⟨hfixed, hrule⟩
  · rw [hrule, hfixed]
    simp
  · rw [hrule, hfixed]
    cases collectionRule? d with
    | some r => simp
    | none =>
      have hsingle : singleRule d nullable ≠ .array element := by
        unfold singleRule
        grind
      simpa using hsingle

theorem rule_of_override {d : Descriptor} {text : String}
    (h : p.config.overrides.get? d.fullName = some text) (nullable : Bool) :
    p.rule d nullable = .leaf (.override text) := by
  rw [rule, literalRule?, h]
  rfl

/-- The expression of a type is a literal text exactly if the type is overridden. -/
theorem exprWith_eq_verbatim_iff {nameOf : Descriptor → String} {d : Descriptor} {text : String} :
    p.exprWith nameOf d = .verbatim text ↔
      p.config.overrides.get? d.unwrap.type.fullName = some text := by
  have hnull : ∀ wanted e, Expr.orNullIf wanted e = .verbatim text → e = .verbatim text := by
    intro wanted e h
    cases wanted with
    | false => exact h
    | true => cases h
  constructor
  · intro h
    rw [exprWith_eq] at h
    cases hr : p.rule d.unwrap.type d.unwrap.nullable with
    | leaf leaf =>
      rw [hr] at h
      cases leaf with
      | override text' =>
        cases h
        exact override_of_rule hr
      | builtin | enumeration => cases hnull _ _ h
      | actionResult | formData | dynamicJson | untypedMap | untypedArray | runtime | unknown =>
        cases h
    | map | array =>
      rw [hr] at h
      cases h
    | complex nullable args =>
      rw [hr] at h
      have happlied := hnull _ _ h
      split at happlied <;> cases happlied
  · intro h
    rw [exprWith_eq, rule_of_override h]
    rfl

/-- Whether the elements of an array or a sequence, if they are overridden, have a text with one
alternative only. -/
def BracketsWhole (p : Projector) (reading : String → List TypeExpr) (d : Descriptor) : Prop :=
  ∀ nullable element text, p.rule d nullable = .array element →
    p.config.overrides.get? element.unwrap.type.fullName = some text → (reading text).length = 1

theorem bracketsWhole_of_ne {d : Descriptor} {nullable : Bool}
    (h : ∀ element, p.rule d nullable ≠ .array element) : p.BracketsWhole reading d := by
  intro nullable' element text hr
  exact absurd (rule_eq_array_iff.2 (rule_eq_array_iff.1 hr)) (h element)

theorem bracketsWhole_of_array {d element : Descriptor} {nullable : Bool}
    (h : p.rule d nullable = .array element) : p.BracketsWhole reading d ↔
      ∀ text, p.config.overrides.get? element.unwrap.type.fullName = some text →
        (reading text).length = 1 := by
  constructor
  · intro hwhole text
    exact hwhole nullable element text h
  · intro hwhole nullable' element' text hr
    rw [rule_eq_array_iff.2 (rule_eq_array_iff.1 hr)] at h
    cases h
    exact hwhole text

theorem isWhole_leaf (leaf : Leaf) (strict : Bool) (name : String) :
    (leaf.toExpr strict name).IsWhole reading := by
  cases leaf with
  | builtin | enumeration =>
    exact (Expr.isWhole_orNullIf (fun _ => Expr.noConfusion) _).2 rfl
  | override | actionResult | formData | dynamicJson | untypedMap | untypedArray | runtime
  | unknown => rfl

/-- The text of a type shows what its expression means exactly if no visited array or sequence has
brackets behind a union. -/
theorem isWhole_exprWith_iff {nameOf : Descriptor → String} (d : Descriptor) :
    (p.exprWith nameOf d).IsWhole reading ↔ ∀ x ∈ p.visited d, p.BracketsWhole reading x := by
  induction d using p.rule_induction with
  | step d r hr hfits ih =>
    rw [exprWith_eq, hr, visited_eq, ← parts_fits hfits, List.forall_mem_cons]
    have hparts : (∀ x ∈ r.parts.flatMap p.visited, p.BracketsWhole reading x) ↔
        ∀ a ∈ r.parts, (p.exprWith nameOf a).IsWhole reading := by
      rw [List.forall_mem_flatMap]
      exact forall₂_congr fun a ha => (ih a ha).symm
    have hbrackets : (∀ element, r ≠ .array element) → p.BracketsWhole reading d.unwrap.type := by
      intro h
      exact bracketsWhole_of_ne (by rw [hr]; exact h)
    rw [hparts]
    cases r with
    | leaf leaf =>
      rw [and_iff_right (hbrackets fun _ => Rule.noConfusion)]
      simp [Rule.parts, isWhole_leaf]
    | map key value =>
      rw [and_iff_right (hbrackets fun _ => Rule.noConfusion)]
      simp [Rule.parts, Expr.isWhole_map]
    | array element =>
      simp [bracketsWhole_of_array hr, Rule.parts, Expr.isWhole_array, exprWith_eq_verbatim_iff,
        and_comm]
    | complex nullable args =>
      rw [and_iff_right (hbrackets fun _ => Rule.noConfusion), Rule.parts]
      show (Expr.orNullIf _ _).IsWhole reading ↔ _
      rw [Expr.isWhole_orNullIf (by intro text; split <;> simp)]
      split
      · rename_i hempty
        rw [List.isEmpty_iff.1 hempty]
        simp [Expr.isWhole_named]
      · rw [Expr.isWhole_apply, List.forall_mem_map]

/-- What a type means is built from what its parts mean, by its rule. -/
theorem meaning_exprWith_eq (nameOf : Descriptor → String) (d : Descriptor) :
    (p.exprWith nameOf d).meaning reading =
      match p.rule d.unwrap.type d.unwrap.nullable with
      | .leaf leaf => (leaf.toExpr p.config.strictNulls (nameOf d.unwrap.type)).meaning reading
      | .map key value =>
        .map ((p.exprWith nameOf key).meaning reading) ((p.exprWith nameOf value).meaning reading)
      | .array element => .array ((p.exprWith nameOf element).meaning reading)
      | .complex nullable args =>
        .orNullIf (p.config.strictNulls && nullable) <|
          if args.isEmpty then .named (nameOf d.unwrap.type)
          else .apply (nameOf d.unwrap.type)
            (args.map fun a => (p.exprWith nameOf a).meaning reading) := by
  rw [exprWith_eq]
  cases p.rule d.unwrap.type d.unwrap.nullable with
  | leaf leaf => rfl
  | map key value => rfl
  | array element => rfl
  | complex nullable args =>
    show (Expr.orNullIf _ _).meaning reading = TypeExpr.orNullIf _ _
    rw [Expr.meaning_orNullIf, apply_ite (Expr.meaning reading), Expr.meaning, Expr.meaning,
      Expr.meanings_eq, List.map_map]
    rfl

/-- **Overrides stand as a whole.** Take a type that a catalog resolves, and let all namespaces,
modules, simple names and builtins be dotted paths and all overrides be type expressions. Then the
text of its projection is read in one way only. It is read as what the expression of the type means,
with each override as a whole in the place of its type, exactly if no brackets follow an override that
is a union. Those bind to the last alternative of the union. -/
theorem project_text_keeps_overrides {p : Projector} {c : Catalog} {r : Registry}
    {reference : Reference} {d : Descriptor} {reading : String → List TypeExpr} (hc : c.Built)
    (hresolve : c.resolve reference = .ok d) (hr : r.DeclaredBy c)
    (hbuiltins : p.builtins.hasPathNames = true) (hnames : c.hasPathNames = true)
    (hmodules : r.hasPathModules = true) (hqualifier : p.config.hasPathQualifier = true)
    (hoverrides : p.config.OverridesRead reading) :
    let expr := p.exprWith (r.declaredName p.config)
    let meaning := fun x => (expr x).meaning reading
    let text := (p.project r d).projection.text
    (∀ e, Derives text e ↔ e = .ofAlternatives ((expr d).alternatives reading)) ∧
      (Derives text (meaning d) ↔ ∀ x ∈ p.visited d, p.BracketsWhole reading x) ∧
      (∀ x literal, p.config.overrides.get? x.unwrap.type.fullName = some literal →
        Derives literal (meaning x)) ∧
      ∀ x, meaning x =
        match p.rule x.unwrap.type x.unwrap.nullable with
        | .leaf leaf =>
          (leaf.toExpr p.config.strictNulls (r.declaredName p.config x.unwrap.type)).meaning reading
        | .map key value => .map (meaning key) (meaning value)
        | .array element => .array (meaning element)
        | .complex nullable args =>
          .orNullIf (p.config.strictNulls && nullable) <|
            if args.isEmpty then .named (r.declaredName p.config x.unwrap.type)
            else .apply (r.declaredName p.config x.unwrap.type) (args.map meaning) := by
  intro expr meaning text
  have hd := Catalog.provides_resolve c reference hresolve
  have htext : text = (expr d).print :=
    congrArg Projection.text (projection_eq_ofExpr hc.keyed hr hd)
  have hshown : (expr d).Shown reading := by
    refine closed_exprWith Expr.pathClosed_shown hbuiltins hoverrides d fun x hx hdeclared => ?_
    have hx' := declares_of_visited hc.keyed p hd hx hdeclared
    exact Registry.isPath_declaredName hmodules hqualifier hnames hx'
  have hderives : ∀ e, Derives text e ↔ e = .ofAlternatives ((expr d).alternatives reading) := by
    intro e
    rw [htext]
    constructor
    · intro h
      exact h.unique ⟨_, hshown, rfl⟩
    · rintro rfl
      exact ⟨_, hshown, rfl⟩
  refine ⟨hderives, ?_, ?_, meaning_exprWith_eq _⟩
  · rw [hderives, ← isWhole_exprWith_iff d, Expr.IsWhole]
    exact eq_comm
  · intro x literal hliteral
    have hverbatim : expr x = .verbatim literal := exprWith_eq_verbatim_iff.2 hliteral
    refine ⟨reading literal, hoverrides _ (Table.mem_entries_of_get? hliteral), ?_⟩
    show _ = (expr x).meaning reading
    rw [hverbatim]
    rfl

/-- Texts, items and colours, with dictionaries. -/
def itemDefinitions : List Definition :=
  [⟨some "Shop", "Item", .classType, [], []⟩, ⟨some "Shop", "Colour", .enumType, [], []⟩,
    ⟨some "Shop", "Dictionary", .classType, ["TKey", "TValue"], [.mapping]⟩]

/-- A catalog of these definitions alone. -/
def itemCatalog : Catalog :=
  itemDefinitions.foldl (fun c definition => c.enter definition.toDescriptor) .empty

/-- A dictionary from colours to arrays of items. -/
def itemsByColour : Reference :=
  .generic "Shop.Dictionary`2" [.named "Shop.Colour", .named "Shop.Item[]"]

/-- With a union for colours and a union in parentheses for items. -/
def unionProjector : Projector :=
  ⟨⟨true, none, .ofList [("Shop.Colour", "A | B"), ("Shop.Item", "(A | B)")]⟩, .standard⟩

/-- With a bare union for items. -/
def bareProjector : Projector := ⟨⟨true, none, .ofList [("Shop.Item", "A | B")]⟩, .standard⟩

/-- The alternatives of these texts. -/
def readUnions (text : String) : List TypeExpr :=
  if text = "A | B" then [.named "A", .named "B"] else [.union [.named "A", .named "B"]]

def pathA : Grammar.Path := ⟨"A", by decide +kernel⟩

def pathB : Grammar.Path := ⟨"B", by decide +kernel⟩

/-- The derivation of a bare union. -/
def barePhrase : Phrase .type := .either (.atom (.name pathA)) (.single (.atom (.name pathB)))

theorem unionProjector_overridesRead : unionProjector.config.OverridesRead readUnions := by
  intro entry hentry
  have hentries : unionProjector.config.overrides.entries =
      [("Shop.Colour", "A | B"), ("Shop.Item", "(A | B)")] := rfl
  rw [hentries] at hentry
  rcases List.mem_cons.1 hentry with rfl | hentry
  · exact ⟨barePhrase, rfl, rfl⟩
  · rw [List.mem_singleton] at hentry
    subst hentry
    exact ⟨.single (.atom (.group barePhrase)), rfl, rfl⟩

/-- The union in parentheses is the element of an array, the bare one a key. -/
theorem itemsByColour_whole :
    itemCatalog.Built ∧ (Registry.new .empty).DeclaredBy itemCatalog ∧
      itemCatalog.hasPathNames = true ∧ unionProjector.builtins.hasPathNames = true ∧
      unionProjector.config.OverridesRead readUnions ∧
      ∃ d, itemCatalog.resolve itemsByColour = .ok d ∧
        (∀ x ∈ unionProjector.visited d, unionProjector.BracketsWhole readUnions x) ∧
        Derives (unionProjector.project (.new .empty) d).projection.text
          (.map (.union [.named "A", .named "B"]) (.array (.union [.named "A", .named "B"]))) := by
  have hdefine : Catalog.empty.defineAll itemDefinitions = .ok itemCatalog := rfl
  have hbuilt : itemCatalog.Built := Catalog.Built.empty.defineAll hdefine
  have hdeclared := Registry.declaredBy_new .empty itemCatalog
  have hpaths : itemCatalog.hasPathNames = true ∧ unionProjector.builtins.hasPathNames = true := by
    decide +kernel
  obtain ⟨hnames, hbuiltins⟩ := hpaths
  obtain ⟨d, key, value, item, hd, hmap, hkey, harray, hitem⟩ : ∃ d key value item,
      itemCatalog.resolve itemsByColour = .ok d ∧
        unionProjector.rule d.unwrap.type d.unwrap.nullable = .map key value ∧
        unionProjector.config.overrides.get? key.unwrap.type.fullName = some "A | B" ∧
        unionProjector.rule value.unwrap.type value.unwrap.nullable = .array item ∧
        unionProjector.config.overrides.get? item.unwrap.type.fullName = some "(A | B)" :=
    ⟨_, _, _, _, rfl, rfl, rfl, rfl, rfl⟩
  have hexpr : ∀ nameOf, unionProjector.exprWith nameOf d =
      .map (.verbatim "A | B") (.array (.verbatim "(A | B)")) := by
    intro nameOf
    have hvalue : unionProjector.exprWith nameOf value = .array (.verbatim "(A | B)") := by
      rw [exprWith_eq, harray, ← exprWith_eq_verbatim_iff.2 hitem]
    rw [exprWith_eq, hmap, ← hvalue, ← exprWith_eq_verbatim_iff.2 hkey]
  have hself : (unionProjector.exprWith Descriptor.fullName d).IsWhole readUnions := by
    rw [hexpr]
    rfl
  have hwhole := (isWhole_exprWith_iff d).1 hself
  obtain ⟨-, hiff, -, -⟩ := project_text_keeps_overrides hbuilt hd hdeclared hbuiltins hnames rfl rfl
    unionProjector_overridesRead
  have hderives := hiff.2 hwhole
  simp only [hexpr] at hderives
  exact ⟨hbuilt, hdeclared, hnames, hbuiltins, unionProjector_overridesRead, d, hd, hwhole, hderives⟩

/-- The brackets of an array bind to the last alternative of a bare union: the text of an array of
items is derived, but not as an array of the union that items are overridden by. -/
theorem brackets_split_union :
    itemCatalog.Built ∧ itemCatalog.hasPathNames = true ∧
      Derives "A | B" (.union [.named "A", .named "B"]) ∧
      ∃ d, itemCatalog.resolve (.named "Shop.Item[]") = .ok d ∧
        (bareProjector.project (.new .empty) d).projection.text = "A | B[]" ∧
        Derives "A | B[]" (.union [.named "A", .array (.named "B")]) ∧
        ¬ Derives "A | B[]" (.array (.union [.named "A", .named "B"])) := by
  have hdefine : Catalog.empty.defineAll itemDefinitions = .ok itemCatalog := rfl
  have hbuilt : itemCatalog.Built := Catalog.Built.empty.defineAll hdefine
  have hnames : itemCatalog.hasPathNames = true := by decide +kernel
  have hbare : Derives "A | B" (.union [.named "A", .named "B"]) := ⟨_, ⟨barePhrase, rfl, rfl⟩, rfl⟩
  have hsplit : Derives "A | B[]" (.union [.named "A", .array (.named "B")]) :=
    ⟨_, ⟨.either (.atom (.name pathA)) (.single (.array (.atom (.name pathB)))), rfl, rfl⟩, rfl⟩
  obtain ⟨d, hd, htext⟩ : ∃ d, itemCatalog.resolve (.named "Shop.Item[]") = .ok d ∧
      (bareProjector.project (.new .empty) d).projection.text = "A | B[]" :=
    ⟨_, rfl, by decide +kernel⟩
  refine ⟨hbuilt, hnames, hbare, d, hd, htext, hsplit, ?_⟩
  intro harray
  cases hsplit.unique harray

end Projector

end TypeProjection
