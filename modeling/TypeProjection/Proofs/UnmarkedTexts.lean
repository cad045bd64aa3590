import TypeProjection.Proofs.ForeignCharacters

/-!
# Marks in projected texts

One arity marker is taken off the name of a declared type. Any other mark in it stays, and so does a
mark in its namespace. This file says when the text of a projection holds a mark: nothing but the
names of declared types can bring one in, so the text is free of marks exactly if those names are
(`project_text_unmarked_iff`). A definition whose name ends with two markers shows that the names of
definitions in order need not be (`marker_reaches_text`).
-/

namespace TypeProjection

open ArityMarker

/-! ## The mark as a foreign character -/

/-- The class of the mark alone. -/
def ArityMarker.isMark (c : Char) : Bool := mark == c

theorem ArityMarker.occursIn_eq : occursIn = Text.hasAny isMark := by
  funext name
  exact List.contains_eq_any_beq

theorem ArityMarker.isForeign_isMark : Text.isForeign isMark = true := by
  decide +kernel

namespace Projector

/-- **Marks in a text come from names.** Take a type that a catalog resolves, the standard builtins
and settings that hold no mark: no override, no module and no global namespace. The text of its
projection is free of marks exactly if each declared type among the visited ones has a simple name
without a mark, and no mark in its namespace if that is kept. So it is as soon as no definition of the
catalog has a mark in its namespace or its simple name. -/
theorem project_text_unmarked_iff {p : Projector} {c : Catalog} {r : Registry}
    {reference : Reference} {d : Descriptor} (hc : c.Built) (hd : c.resolve reference = .ok d)
    (hr : r.DeclaredBy c) (hbuiltins : p.builtins = .standard)
    (htexts : p.config.textsAvoid isMark = true) (hmodules : r.modulesAvoid isMark = true)
    (hqualifier : p.config.qualifierAvoids isMark = true) :
    (occursIn (p.project r d).projection.text = false ↔
      ∀ x ∈ p.visited d, p.isDeclared x = true →
        occursIn x.simpleName = false ∧ (r.keptNamespace? p.config x).any occursIn = false) ∧
      (c.namesAvoid isMark = true → occursIn (p.project r d).projection.text = false) := by
  have hprovided := c.provides_resolve reference hd
  have hiff := hasAny_project_iff isForeign_isMark hc.keyed hprovided hr hbuiltins htexts hmodules
    hqualifier
  rw [occursIn_eq]
  exact ⟨hiff, fun hnames => hiff.2 (avoids_of_visited hc.keyed hprovided hnames)⟩

/-- A catalog of boxes in a namespace that holds a mark. -/
def markedCatalog : Catalog :=
  Catalog.empty.enter (Definition.toDescriptor ⟨some "Old`Shop", "Box", .classType, ["T"], []⟩)

/-- A registry that renames that namespace. -/
def renamingRegistry : Registry := .new (.ofList [("Old`Shop", "Shop")])

def boxOfBoxes : Reference := .generic "Old`Shop.Box`1" [.named "Old`Shop.Box`1"]

/-- Without null arms, with the standard builtins. -/
def laxProjector : Projector := ⟨.default, .standard⟩

/-- The module is all that shows of the namespace. -/
theorem renamed_boxes_unmarked :
    markedCatalog.Built ∧ renamingRegistry.DeclaredBy markedCatalog ∧
      renamingRegistry.modulesAvoid isMark = true ∧
      ∃ d, markedCatalog.resolve boxOfBoxes = .ok d ∧
        (∀ x ∈ laxProjector.visited d, laxProjector.isDeclared x = true →
          occursIn x.simpleName = false ∧
            (renamingRegistry.keptNamespace? laxProjector.config x).any occursIn = false) ∧
        occursIn (laxProjector.project renamingRegistry d).projection.text = false := by
  have hdefine : Catalog.empty.defineAll [⟨some "Old`Shop", "Box", .classType, ["T"], []⟩] =
      .ok markedCatalog := rfl
  have hbuilt : markedCatalog.Built := Catalog.Built.empty.defineAll hdefine
  have hdeclared := Registry.declaredBy_new (.ofList [("Old`Shop", "Shop")]) markedCatalog
  have hmodules : renamingRegistry.modulesAvoid isMark = true := by decide +kernel
  obtain ⟨d, hd, hnames⟩ : ∃ d, markedCatalog.resolve boxOfBoxes = .ok d ∧
      ∀ x ∈ laxProjector.visited d, laxProjector.isDeclared x = true →
        occursIn x.simpleName = false ∧
          (renamingRegistry.keptNamespace? laxProjector.config x).any occursIn = false :=
    ⟨_, rfl, by decide +kernel⟩
  have hiff := project_text_unmarked_iff hbuilt hd hdeclared (p := laxProjector) rfl rfl hmodules rfl
  exact ⟨hbuilt, hdeclared, hmodules, d, hd, hnames, hiff.1.2 hnames⟩

/-- A document with one type, whose name ends with two markers. -/
def twoMarkersText : String :=
  "\x7b \"types\": [\x7b \"namespace\": \"Shop\", \"name\": \"Box`1`1\" \x7d] \x7d"

/-- One of two markers is left: the document is a catalog, and the type is written with a marker. -/
theorem marker_reaches_text :
    ∃ c d, Catalog.ofText twoMarkersText = .ok c ∧ c.resolve (.named "Shop.Box`1`1") = .ok d ∧
      (laxProjector.project (.new .empty) d).projection.text = "Shop.Box`1" ∧
      occursIn "Shop.Box`1" = true := by
  obtain ⟨c, d, hc, hd, htext⟩ :=
    exists_project_of_eval laxProjector twoMarkersText (.named "Shop.Box`1`1") "Shop.Box`1"
      (by decide +kernel)
  exact ⟨c, d, hc, hd, htext, by decide⟩

end Projector

end TypeProjection
