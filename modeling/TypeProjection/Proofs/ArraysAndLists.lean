import TypeProjection.Proofs.KnownNames
import TypeProjection.Proofs.Visits

/-!
# Arrays and lists

An array and a list of the same items take different rules: the array has an element, and the list is
a sequence with an argument. This file shows that both come to the same, but for one rule that stands
in front of both. An array lives where its element does, so an array of shapeless documents is taken
for such a document, while a list of them is a list (`project_arrayOf_listOf`).
-/

namespace TypeProjection

namespace Host

/-- The host's list, closed over the type of its items. -/
def listOf (item : Descriptor) : Descriptor :=
  .named (some "System.Collections.Generic") "List`1" .classType [item] false .iteration

/-- No wrapper of asynchronous results is named like an array. -/
theorem not_isAsyncWrapper_arrayOf (element : Descriptor) :
    isAsyncWrapper (.arrayOf element) = false := by
  have hnames : ∀ name ∈ asyncWrappers, ¬ ['[', ']'] <:+ name.toList := by decide
  rw [isAsyncWrapper, List.contains_eq_mem, decide_eq_false_iff_not]
  intro hmem
  exact hnames _ hmem (spellsArray_iff.1 ⟨element.definitionName, rfl⟩)

end Host

namespace Catalog

/-- The definition of lists in the host's library. -/
theorem get?_library_list :
    library.get? "System.Collections.Generic.List`1" =
      some (Definition.toDescriptor
        ⟨some "System.Collections.Generic", "List`1", .classType, ["T"], [.sequence]⟩) := by
  rw [get?_library]
  rfl

/-- What a reference to a list is resolved to, in any catalog that has grown from the library. -/
theorem resolve_list {c : Catalog} (hc : library.Extends c) {item : Reference} {d : Descriptor}
    (h : c.resolve item = .ok d) :
    c.resolve (.generic "System.Collections.Generic.List`1" [item]) = .ok (Host.listOf d) := by
  have hitems : c.resolveAll [item] = .ok [d] := by
    rw [resolveAll_cons_ok h]
    rfl
  rw [resolve_generic (hc _ _ get?_library_list) (List.cons_ne_nil item []) rfl, hitems]
  rfl

end Catalog

namespace Descriptor

theorem unwrap_arrayOf (element : Descriptor) :
    (arrayOf element).unwrap = ⟨arrayOf element, true⟩ := by
  have hasync : (arrayOf element).withoutAsync = arrayOf element := by
    rw [withoutAsync, Host.not_isAsyncWrapper_arrayOf]
    rfl
  have honly : ∀ definition, (arrayOf element).onlyArg? definition = none := by
    intro definition
    rw [onlyArg?]
    split <;> rfl
  rw [unwrap, hasync, withoutActionResult, honly, Option.getD_none, withoutNullable, honly]
  rfl

theorem unwrap_listOf (item : Descriptor) :
    (Host.listOf item).unwrap = ⟨Host.listOf item, true⟩ := by
  rfl

end Descriptor

namespace Projector

variable {p : Projector}

/-! ## Rules -/

/-- Whether the settings or the builtins have a text for a type. -/
def hasEntry (p : Projector) (d : Descriptor) : Bool :=
  p.config.overrides.contains d.fullName || p.builtins.hasType d

theorem literalRule?_of_not_hasEntry {d : Descriptor} (h : p.hasEntry d = false) (nullable : Bool) :
    p.literalRule? d nullable = none := by
  rcases p.literalRule?_cases d nullable with ⟨hnone, -, -⟩ | ⟨leaf, -, -, hentry⟩
  · exact hnone
  · rw [hasEntry, hentry] at h
    cases h

theorem rule_listOf {item : Descriptor} (h : p.hasEntry (Host.listOf item) = false)
    (nullable : Bool) : p.rule (Host.listOf item) nullable = .array item := by
  rw [rule, literalRule?_of_not_hasEntry h]
  rfl

theorem libraryRule?_arrayOf (element : Descriptor) :
    libraryRule? (.arrayOf element) =
      if element.namespaceName?.any Host.isDynamicJsonNamespace then some (.leaf .dynamicJson)
      else none := by
  -- Behind a pair of brackets no name is that of an interface with a meaning of its own.
  have hname : ∀ name, ¬ ['[', ']'] <:+ name.toList → (Descriptor.arrayOf element).name ≠ name := by
    rintro _ hplain rfl
    exact hplain (spellsArray_iff.1 ⟨element.name, rfl⟩)
  rw [libraryRule?, if_neg (hname _ (by decide)), if_neg (hname _ (by decide))]
  rfl

theorem rule_arrayOf {element : Descriptor} (h : p.hasEntry (.arrayOf element) = false)
    (nullable : Bool) :
    p.rule (.arrayOf element) nullable =
      if element.namespaceName?.any Host.isDynamicJsonNamespace then .leaf .dynamicJson
      else .array element := by
  rw [rule, literalRule?_of_not_hasEntry h, libraryRule?_arrayOf]
  split <;> rfl

/-! ## Projections -/

/-- By the rule for arrays a type is projected as its element is, but for the brackets. -/
theorem project_of_rule_array {d element : Descriptor}
    (h : p.rule d.unwrap.type d.unwrap.nullable = .array element) (r : Registry) :
    p.project r d =
      ⟨.array (p.project r element).projection, (p.project r element).registry,
        (p.project r element).events⟩ := by
  rw [project, visit_eq, h]
  rfl

theorem project_listOf {item : Descriptor} (h : p.hasEntry (Host.listOf item) = false)
    (r : Registry) :
    p.project r (Host.listOf item) =
      ⟨.array (p.project r item).projection, (p.project r item).registry,
        (p.project r item).events⟩ := by
  apply project_of_rule_array
  rw [Descriptor.unwrap_listOf]
  exact rule_listOf h true

theorem project_arrayOf_of_dynamicJson {element : Descriptor}
    (h : p.hasEntry (.arrayOf element) = false)
    (hdocuments : element.namespaceName?.any Host.isDynamicJsonNamespace = true) (r : Registry) :
    p.project r (.arrayOf element) = ⟨.plain "any", r, []⟩ := by
  rw [project, visit_eq, Descriptor.unwrap_arrayOf, rule_arrayOf h, if_pos hdocuments]
  rfl

/-- **An array and a list of the same items are projected alike.** If neither has a text in the
settings or in the builtins, both give the text, the registry and the events of the items, with
brackets behind the text, unless the items live among the shapeless documents. Then the list still
does, but the array is any value, and nothing is registered or warned of; so the two differ. -/
theorem project_arrayOf_listOf {item : Descriptor} (harray : p.hasEntry (.arrayOf item) = false)
    (hlist : p.hasEntry (Host.listOf item) = false) (r : Registry) :
    (p.project r (.arrayOf item) = p.project r (Host.listOf item) ↔
        item.namespaceName?.any Host.isDynamicJsonNamespace = false) ∧
      p.project r (Host.listOf item) =
        ⟨.array (p.project r item).projection, (p.project r item).registry,
          (p.project r item).events⟩ ∧
      (item.namespaceName?.any Host.isDynamicJsonNamespace = true →
        p.project r (.arrayOf item) = ⟨.plain "any", r, []⟩) := by
  refine ⟨⟨?_, ?_⟩, project_listOf hlist r, fun hdocuments =>
    project_arrayOf_of_dynamicJson harray hdocuments r⟩
  · intro hsame
    by_contra hdocuments
    rw [Bool.not_eq_false] at hdocuments
    rw [project_arrayOf_of_dynamicJson harray hdocuments, project_listOf hlist] at hsame
    -- A text that ends with brackets is no word.
    have htext : "any" = (p.project r item).projection.embedded ++ "[]" :=
      congrArg (fun outcome => outcome.projection.text) hsame
    have hword : ¬ ['[', ']'] <:+ "any".toList := by decide
    exact hword (spellsArray_iff.1 ⟨_, htext⟩)
  · intro hplain
    rw [project_listOf hlist]
    apply project_of_rule_array
    rw [Descriptor.unwrap_arrayOf, rule_arrayOf harray, if_neg (by rw [hplain]; exact nofun)]

/-- The default settings with the standard builtins. -/
def standardProjector : Projector := ⟨.default, .standard⟩

/-- An array of widgets and a list of widgets are projected alike. -/
theorem widgets_alike :
    let widget := Descriptor.named (some "Shop") "Widget" .classType [] false .none
    standardProjector.hasEntry (.arrayOf widget) = false ∧
      standardProjector.hasEntry (Host.listOf widget) = false ∧
      standardProjector.project (.new .empty) (.arrayOf widget) =
        standardProjector.project (.new .empty) (Host.listOf widget) := by
  intro widget
  have harray : standardProjector.hasEntry (.arrayOf widget) = false := by decide +kernel
  have hlist : standardProjector.hasEntry (Host.listOf widget) = false := by decide +kernel
  exact ⟨harray, hlist, (project_arrayOf_listOf harray hlist _).1.2 (by decide)⟩

/-- A shapeless document of the library, which is a mapping. -/
def documentType : Descriptor :=
  Definition.toDescriptor ⟨some "Newtonsoft.Json.Linq", "JObject", .classType, [], [.mapping]⟩

/-- A list of such documents is an array of any values, but an array of them is any value. -/
theorem documents_not_alike :
    Catalog.library.get? "Newtonsoft.Json.Linq.JObject" = some documentType ∧
      standardProjector.hasEntry (.arrayOf documentType) = false ∧
      standardProjector.hasEntry (Host.listOf documentType) = false ∧
      (standardProjector.project (.new .empty) (Host.listOf documentType)).projection =
        .plain "any[]" ∧
      (standardProjector.project (.new .empty) (.arrayOf documentType)).projection = .plain "any" := by
  have hknown : Catalog.library.get? "Newtonsoft.Json.Linq.JObject" = some documentType := by
    rw [Catalog.get?_library]
    rfl
  have harray : standardProjector.hasEntry (.arrayOf documentType) = false := by decide +kernel
  have hlist : standardProjector.hasEntry (Host.listOf documentType) = false := by decide +kernel
  refine ⟨hknown, harray, hlist, ?_, ?_⟩
  · rw [project_listOf hlist, project, visit_eq]
    rfl
  · rw [project_arrayOf_of_dynamicJson harray rfl]

end Projector

end TypeProjection
