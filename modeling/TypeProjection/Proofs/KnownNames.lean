import TypeProjection.Proofs.Resolution

/-!
# Known names

A catalog knows each of its types by one name. A reference may give that name by itself or as that of
a generic type without arguments. The second is looked up as it is, while a bare name is read from its
end, where a pair of brackets makes an array whatever is known. So the two agree unless a type has been
given a name that spells an array (`resolve_known`).
-/

namespace TypeProjection

/-- Whether a name ends with a pair of brackets. -/
def SpellsArray (name : String) : Prop := ∃ element : String, name = element ++ "[]"

theorem spellsArray_iff {name : String} : SpellsArray name ↔ ['[', ']'] <:+ name.toList := by
  constructor
  · rintro ⟨element, rfl⟩
    exact ⟨element.toList, by simp⟩
  · rintro ⟨front, hfront⟩
    refine ⟨String.ofList front, String.toList_injective ?_⟩
    simpa using hfront.symm

namespace Catalog

variable {c : Catalog}

/-! ## Entered definitions -/

/-- Definitions are entered in the table one after the other, under their names. -/
theorem types_foldl_enter (definitions : List Definition) (c : Catalog) :
    (definitions.foldl (fun c d => c.enter d.toDescriptor) c).types =
      c.types.insertAll
        (definitions.map fun d => (d.toDescriptor.definitionName, d.toDescriptor)) := by
  induction definitions generalizing c with
  | nil => rfl
  | cons d rest ih => exact ih (c.enter d.toDescriptor)

/-- The library knows the last definition with a name by the name. -/
theorem get?_library (name : String) :
    library.get? name =
      (Library.definitions.map fun d =>
        (d.toDescriptor.definitionName, d.toDescriptor)).reverse.lookup name := by
  rw [get?, library, types_foldl_enter, Table.get?_insertAll]
  exact Option.or_none

/-! ## Bare names -/

/-- A name without brackets at its end is looked up as it is. -/
theorem resolveName_of_not_spellsArray {name : String} (h : ¬ SpellsArray name) :
    c.resolveName name = c.lookup name := by
  have hbare : Bracketed name name 0 := ⟨by simp, mt spellsArray_iff.2 h⟩
  rw [resolveName_of_bracketed hbare]
  cases c.lookup name <;> rfl

/-- A pair of brackets makes an array of what stands in front of it. -/
theorem resolveName_brackets (c : Catalog) (element : String) :
    c.resolveName (element ++ "[]") = (c.resolveName element).map .arrayOf := by
  have hreverse : (element ++ "[]").toList.reverse = ']' :: '[' :: element.toList.reverse := by
    simp
  rw [resolveName, hreverse, resolveReversed, resolveName]
  cases c.resolveReversed element.toList.reverse <;> rfl

/-- What a catalog knows is no array. -/
theorem ne_arrayOf_of_known (hc : c.Keyed) {name : String} {d : Descriptor}
    (known : c.get? name = some d) (element : Descriptor) : d ≠ .arrayOf element := by
  obtain ⟨definition, _, rfl, _⟩ := hc _ _ known
  intro harray
  cases harray

theorem resolveName_known_iff (hc : c.Keyed) {name : String} {d : Descriptor}
    (known : c.get? name = some d) : c.resolveName name = .ok d ↔ ¬ SpellsArray name := by
  constructor
  · rintro hresolve ⟨element, rfl⟩
    rw [resolveName_brackets] at hresolve
    cases helement : c.resolveName element with
    | error e =>
      rw [helement] at hresolve
      cases hresolve
    | ok a =>
      rw [helement] at hresolve
      exact ne_arrayOf_of_known hc known a (Except.ok.inj hresolve).symm
  · intro hbare
    rw [resolveName_of_not_spellsArray hbare, lookup_eq_ok known]

/-! ## Names of generic references -/

/-- Without arguments, a generic reference is to a type that is not generic. -/
theorem resolve_generic_known_iff (hc : c.Keyed) {name : String} {d : Descriptor}
    (known : c.get? name = some d) :
    c.resolve (.generic name []) = .ok d ↔ d.isGeneric = false := by
  obtain ⟨definition, _, rfl, _⟩ := hc _ _ known
  have hgeneric : definition.toDescriptor.isGeneric = false ↔ definition.params = [] := by
    simp [Descriptor.isGeneric, Definition.toDescriptor, Descriptor.args]
  rw [hgeneric]
  constructor
  · intro hresolve
    by_contra hparams
    have harity : ([] : List Reference).length ≠ definition.params.length := by
      simpa [eq_comm] using hparams
    rw [(Faults.arity known harity).resolve_eq] at hresolve
    cases hresolve
  · exact resolve_generic_nil known

/-! ## All ways to refer to a known type -/

/-- **A known type is referred to by its name.** A bare name and the reference that consists of it
resolve alike. They give the type that is known by the name exactly if the name spells no array, and
a name that does gives the array of what stands in front of its brackets. As that of a generic
reference without arguments, any name gives the type that is known by it, exactly if that is not
generic. -/
theorem resolve_known (hc : c.Built) {name : String} {d : Descriptor}
    (known : c.get? name = some d) :
    c.resolve (.named name) = c.resolveName name ∧
      (c.resolveName name = .ok d ↔ ¬ SpellsArray name) ∧
      (∀ element, name = element ++ "[]" →
        c.resolveName name = (c.resolveName element).map .arrayOf) ∧
      (c.resolve (.generic name []) = .ok d ↔ d.isGeneric = false) := by
  refine ⟨?_, resolveName_known_iff hc.keyed known, ?_, resolve_generic_known_iff hc.keyed known⟩
  · rw [resolve]
  · rintro element rfl
    exact c.resolveName_brackets element

/-- An enumeration that is named like an array of crates. -/
def crateArrayDefinition : Definition := ⟨some "Shop", "Crate[]", .enumType, [], []⟩

/-- The host's library with that enumeration, and without crates. -/
def crateCatalog : Catalog := library.enter crateArrayDefinition.toDescriptor

theorem get?_crateCatalog (name : String) :
    crateCatalog.get? name =
      if name = "Shop.Crate[]" then some crateArrayDefinition.toDescriptor
      else library.get? name := by
  rw [crateCatalog, get?_enter]
  exact if_congr eq_comm rfl rfl

theorem built_crateCatalog : crateCatalog.Built := by
  have hvalid : blankPart? crateArrayDefinition = none := by decide +kernel
  have hnew : library.get? "Shop.Crate[]" = none := by
    rw [get?_library]
    decide +kernel
  have hdefine : library.define crateArrayDefinition =
      (.ok crateArrayDefinition.toDescriptor, crateCatalog) := by
    rw [define, hvalid]
    exact if_neg (by rw [Table.contains]; exact Option.not_isSome_iff_eq_none.2 hnew)
  have hbuilt := Built.library.define crateArrayDefinition
  rwa [hdefine] at hbuilt

/-- Texts are found by their name in either way. The enumeration is found by its name in a generic
reference, but not by the bare name, for which it would have to be an array. -/
theorem texts_found_by_bare_name :
    crateCatalog.Built ∧
      ∃ text crates, crateCatalog.get? "System.String" = some text ∧
        crateCatalog.get? "Shop.Crate[]" = some crates ∧
        crateCatalog.resolve (.named "System.String") = .ok text ∧
        crateCatalog.resolve (.generic "System.String" []) = .ok text ∧
        crateCatalog.resolve (.named "Shop.Crate[]") ≠ .ok crates ∧
        crateCatalog.resolve (.generic "Shop.Crate[]" []) = .ok crates := by
  obtain ⟨text, htext, hplain⟩ :
      ∃ text, crateCatalog.get? "System.String" = some text ∧ text.isGeneric = false := by
    rw [get?_crateCatalog, if_neg (by decide), get?_library]
    exact ⟨_, rfl, rfl⟩
  have hcrates : crateCatalog.get? "Shop.Crate[]" = some crateArrayDefinition.toDescriptor := by
    rw [get?_crateCatalog, if_pos rfl]
  obtain ⟨hbare, htextIff, -, htextGeneric⟩ := resolve_known built_crateCatalog htext
  obtain ⟨hbare', hcratesIff, -, hcratesGeneric⟩ := resolve_known built_crateCatalog hcrates
  refine ⟨built_crateCatalog, text, _, htext, hcrates, ?_, htextGeneric.2 hplain, ?_,
    hcratesGeneric.2 rfl⟩
  · rw [hbare, htextIff, spellsArray_iff]
    decide
  · rw [hbare', Ne, hcratesIff]
    exact not_not_intro ⟨"Shop.Crate", rfl⟩

/-- The enumeration is known, but its bare name is refused, since crates are not known. -/
theorem bracketed_name_not_found :
    crateCatalog.Built ∧
      crateCatalog.get? "Shop.Crate[]" = some crateArrayDefinition.toDescriptor ∧
      crateCatalog.resolveName "Shop.Crate[]" = .error (.unknownType "Shop.Crate") ∧
      crateCatalog.resolve (.named "Shop.Crate[]") = .error (.unknownType "Shop.Crate") := by
  have hunknown : crateCatalog.get? "Shop.Crate" = none := by
    rw [get?_crateCatalog, if_neg (by decide), get?_library]
    decide +kernel
  have hname : crateCatalog.resolveName ("Shop.Crate" ++ "[]") =
      .error (.unknownType "Shop.Crate") := by
    rw [resolveName_brackets, resolveName_of_not_spellsArray, lookup_eq_error hunknown]
    · rfl
    · rw [spellsArray_iff]
      decide
  refine ⟨built_crateCatalog, ?_, hname, ?_⟩
  · rw [get?_crateCatalog, if_pos rfl]
  · rw [resolve]
    exact hname

end Catalog

end TypeProjection
