import TypeProjection.Proofs.ForeignCharacters

/-!
# Projected texts are lines

A projected text is meant to stand in a line of its own: it is never empty, and nothing but the name
of a declared type can bring a line break into it (`project_text_line`). The name of a definition in
order is not blank, yet a line break may stand in the middle of it, and then the text is two lines
(`line_break_reaches_text`).
-/

namespace TypeProjection

open Text

/-- A line feed or a carriage return. -/
def Text.isLineBreak (c : Char) : Bool := c == '\n' || c == '\r'

theorem Text.isForeign_isLineBreak : isForeign isLineBreak = true := by
  decide +kernel

/-- Whether no text of an override is empty. -/
def Config.hasNonemptyTexts (config : Config) : Bool :=
  config.overrides.entries.all fun entry => entry.2 != ""

/-! ## Texts are not empty -/

theorem append_ne_empty_left {a b : String} (h : a ≠ "") : a ++ b ≠ "" := by
  intro hempty
  exact h (String.append_eq_empty_iff.1 hempty).1

theorem append_ne_empty_right {a b : String} (h : b ≠ "") : a ++ b ≠ "" := by
  intro hempty
  exact h (String.append_eq_empty_iff.1 hempty).2

theorem Expr.print_orNullIf_ne_empty {e : Expr} (h : e.print ≠ "") (wanted : Bool) :
    (orNullIf wanted e).print ≠ "" := by
  cases wanted with
  | false => exact h
  | true => exact append_ne_empty_right (by decide)

theorem BuiltinTable.standard_name_ne_empty {key : String} {entry : Builtin}
    (h : BuiltinTable.standard.get? key = some entry) : entry.name ≠ "" := by
  have hall : ∀ entry ∈ BuiltinTable.standard.entries, entry.2.name ≠ "" := by
    decide +kernel
  exact hall _ (Table.mem_entries_of_get? h)

/-- A declared name is not empty. -/
theorem Registry.declaredName_ne_empty (r : Registry) (config : Config) {c : Catalog}
    {d : Descriptor} (hd : c.Declares d) : r.declaredName config d ≠ "" := by
  obtain ⟨definition, hvalid, _, _, hname⟩ := hd
  have hsimple : d.simpleName ≠ "" := by
    rw [Descriptor.simpleName, hname]
    exact Catalog.strip_markedName_ne_empty hvalid
  unfold declaredName Descriptor.qualify
  split
  · exact append_ne_empty_right hsimple
  · exact hsimple

namespace Projector

variable {p : Projector}

theorem print_silent_ne_empty (hbuiltins : p.builtins = .standard)
    (htexts : p.config.hasNonemptyTexts = true) {d : Descriptor} {nullable : Bool} {leaf : Leaf}
    (h : p.rule d nullable = .leaf leaf) (hsilent : leaf.isSilent = true) (strict : Bool)
    (name : String) : (leaf.toExpr strict name).print ≠ "" := by
  cases leaf with
  | override text =>
    have hentry := List.all_eq_true.1 htexts _ (Table.mem_entries_of_get? (override_of_rule h))
    show text ≠ ""
    simpa using hentry
  | builtin entry m =>
    have hentry := builtin_of_rule h
    rw [hbuiltins] at hentry
    exact Expr.print_orNullIf_ne_empty (e := .named entry.name)
      (BuiltinTable.standard_name_ne_empty hentry) _
  | actionResult | formData | dynamicJson | untypedMap | untypedArray | runtime =>
    simp only [Leaf.toExpr]
    decide +kernel
  | enumeration | unknown => cases hsilent

/-- The text of an expression is not empty if the names of the declared types in it are not. -/
theorem print_exprWith_ne_empty (hbuiltins : p.builtins = .standard)
    (htexts : p.config.hasNonemptyTexts = true) {nameOf : Descriptor → String} (d : Descriptor)
    (h : ∀ x ∈ p.visited d, p.isDeclared x = true → nameOf x ≠ "") :
    (p.exprWith nameOf d).print ≠ "" := by
  have hself := h d.unwrap.type (p.mem_visited_self d)
  have hfits := p.rule_fits d.unwrap.type d.unwrap.nullable
  rw [exprWith_eq]
  -- The outermost form alone decides: all but names and leaves write something of their own.
  generalize hr : p.rule d.unwrap.type d.unwrap.nullable = r at hfits
  cases hfits with
  | silent hs _ _ => exact print_silent_ne_empty hbuiltins htexts hr hs _ _
  | enumeration hrole _ =>
    exact Expr.print_orNullIf_ne_empty (e := .named _) (hself (by rw [isDeclared, hrole])) _
  | unknown _ _ => exact append_ne_empty_left (a := "any") (b := "") (by decide)
  | map _ _ => exact append_ne_empty_right (by decide)
  | array _ _ => exact append_ne_empty_right (by decide)
  | complex hrole _ =>
    have hname := hself (by rw [isDeclared, hrole])
    refine Expr.print_orNullIf_ne_empty ?_ _
    split
    · exact hname
    · exact append_ne_empty_right (by decide)

/-! ## Texts are free of line breaks -/

/-- **A projected text is a line, as far as names are.** Take a type that a catalog resolves, the
standard builtins and settings without line breaks in which no override is empty. Then the text of its
projection is not empty, and it has no line break exactly if each declared type among the visited ones
has none in its simple name and none in its namespace if that is kept. So it has none as soon as no
definition of the catalog has one in its name or its namespace. -/
theorem project_text_line {p : Projector} {c : Catalog} {r : Registry} {reference : Reference}
    {d : Descriptor} (hc : c.Built) (hd : c.resolve reference = .ok d) (hr : r.DeclaredBy c)
    (hbuiltins : p.builtins = .standard) (hnonempty : p.config.hasNonemptyTexts = true)
    (htexts : p.config.textsAvoid isLineBreak = true)
    (hmodules : r.modulesAvoid isLineBreak = true)
    (hqualifier : p.config.qualifierAvoids isLineBreak = true) :
    (p.project r d).projection.text ≠ "" ∧
      (hasAny isLineBreak (p.project r d).projection.text = false ↔
        ∀ x ∈ p.visited d, p.isDeclared x = true → hasAny isLineBreak x.simpleName = false ∧
          (r.keptNamespace? p.config x).any (hasAny isLineBreak) = false) ∧
      (c.namesAvoid isLineBreak = true →
        hasAny isLineBreak (p.project r d).projection.text = false) := by
  have hprovided := c.provides_resolve reference hd
  have htext := projection_eq_ofExpr (p := p) hc.keyed hr hprovided
  have hiff := hasAny_project_iff isForeign_isLineBreak hc.keyed hprovided hr hbuiltins htexts
    hmodules hqualifier
  refine ⟨?_, hiff, fun hnames => hiff.2 (avoids_of_visited hc.keyed hprovided hnames)⟩
  rw [htext]
  refine print_exprWith_ne_empty hbuiltins hnonempty d ?_
  intro x hx hdeclared
  exact r.declaredName_ne_empty p.config (declares_of_visited hc.keyed p hprovided hx hdeclared)

/-- A catalog of crates in a namespace of two lines. -/
def twoLineCatalog : Catalog :=
  Catalog.empty.enter (Definition.toDescriptor ⟨some "Old\nShop", "Crate", .classType, ["T"], []⟩)

/-- A registry that renames that namespace. -/
def oneLineRegistry : Registry := .new (.ofList [("Old\nShop", "Shop")])

def crateOfCrates : Reference := .generic "Old\nShop.Crate`1" [.named "Old\nShop.Crate`1"]

/-- The namespace of two lines does not show, for it is renamed. -/
theorem renamed_crates_line :
    twoLineCatalog.Built ∧ oneLineRegistry.DeclaredBy twoLineCatalog ∧
      Config.default.hasNonemptyTexts = true ∧ Config.default.textsAvoid isLineBreak = true ∧
      oneLineRegistry.modulesAvoid isLineBreak = true ∧
      Config.default.qualifierAvoids isLineBreak = true ∧
      ∃ d, twoLineCatalog.resolve crateOfCrates = .ok d ∧
        (Projector.project ⟨.default, .standard⟩ oneLineRegistry d).projection.text ≠ "" ∧
        hasAny isLineBreak
          (Projector.project ⟨.default, .standard⟩ oneLineRegistry d).projection.text = false := by
  have hdefine : Catalog.empty.defineAll [⟨some "Old\nShop", "Crate", .classType, ["T"], []⟩] =
      .ok twoLineCatalog := rfl
  have hbuilt : twoLineCatalog.Built := Catalog.Built.empty.defineAll hdefine
  have hdeclared := Registry.declaredBy_new (.ofList [("Old\nShop", "Shop")]) twoLineCatalog
  have hmodules : oneLineRegistry.modulesAvoid isLineBreak = true := by decide +kernel
  obtain ⟨d, hd, hnames⟩ : ∃ d, twoLineCatalog.resolve crateOfCrates = .ok d ∧
      ∀ x ∈ visited ⟨.default, .standard⟩ d, isDeclared ⟨.default, .standard⟩ x = true →
        hasAny isLineBreak x.simpleName = false ∧
          (oneLineRegistry.keptNamespace? .default x).any (hasAny isLineBreak) = false :=
    ⟨_, rfl, by decide +kernel⟩
  obtain ⟨hnonempty, hiff, _⟩ := project_text_line (p := ⟨.default, .standard⟩) hbuilt hd hdeclared
    rfl rfl rfl hmodules rfl
  exact ⟨hbuilt, hdeclared, rfl, rfl, hmodules, rfl, d, hd, hnonempty, hiff.2 hnames⟩

/-- A document with one type, whose name is two lines. -/
def twoLineText : String :=
  "\x7b \"types\": [\x7b \"namespace\": \"Shop\", \"name\": \"Wid\\nget\" \x7d] \x7d"

/-- Only a blank name is refused: the document is a catalog, and its type is written on two lines. -/
theorem line_break_reaches_text :
    ∃ c d, Catalog.ofText twoLineText = .ok c ∧ c.resolve (.named "Shop.Wid\nget") = .ok d ∧
      (Projector.project ⟨.default, .standard⟩ (.new .empty) d).projection.text = "Shop.Wid\nget" ∧
      hasAny isLineBreak "Shop.Wid\nget" = true := by
  obtain ⟨c, d, hc, hd, htext⟩ := exists_project_of_eval ⟨.default, .standard⟩ twoLineText
    (.named "Shop.Wid\nget") "Shop.Wid\nget" (by decide +kernel)
  exact ⟨c, d, hc, hd, htext, by decide⟩

end Projector

end TypeProjection
