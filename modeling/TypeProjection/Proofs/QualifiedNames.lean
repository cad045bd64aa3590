import TypeProjection.Proofs.DistinctNames
import TypeProjection.Proofs.GrowingCatalogs
import TypeProjection.Proofs.KnownNames
import TypeProjection.Proofs.Placements

/-!
# Qualified names of defined types

A qualified name is joined from a qualifier and the name of a type, and only then is the marker taken
off its end. For a type that a catalog defines this is the qualifier with the simple name behind it,
whatever characters the qualifier is made of (`qualifiedName_defined`). The registry has to be filled
from the same catalog, and may have any history. What counts is the first registration of the type's
definition, with the module that its namespace was renamed to at that time (`entry_decides_name`). Even
an array may have been registered then: it has its element's namespace, and its definition name may be
that of a type which is declared elsewhere.
-/

namespace TypeProjection

/-! ## Markers and brackets behind a qualifier -/

theorem ArityMarker.strip_qualify {name : String} (h : startsName name = false)
    (ns? : Option String) :
    strip (Descriptor.qualify ns? name) = Descriptor.qualify ns? (strip name) := by
  cases ns? with
  | none => rfl
  | some ns => exact strip_qualified ns h

/-- A name with brackets at its end has no marker there. -/
theorem ArityMarker.strip_of_spellsArray {name : String} (h : SpellsArray name) :
    strip name = name := by
  obtain ⟨element, rfl⟩ := h
  exact strip_append_of_not_digits element (by decide) (by decide)

/-- Brackets at the end of a qualified name belong to the name, since a dot is no bracket. -/
theorem spellsArray_qualify {ns? : Option String} {name : String} :
    SpellsArray (Descriptor.qualify ns? name) ↔ SpellsArray name := by
  cases ns? with
  | none => exact Iff.rfl
  | some ns =>
    rw [spellsArray_iff, spellsArray_iff, ← List.reverse_prefix, ← List.reverse_prefix]
    have hreverse : (Descriptor.qualify (some ns) name).toList.reverse =
        name.toList.reverse ++ '.' :: ns.toList.reverse := by
      simp [Descriptor.qualify]
    rw [hreverse]
    constructor
    · intro h
      rcases hname : name.toList.reverse with _ | ⟨c, _ | ⟨d, rest⟩⟩
      · simp [hname] at h
      · simp [hname] at h
      · simpa [hname] using h
    · intro h
      exact h.trans (List.prefix_append _ _)

theorem Descriptor.spellsArray_name_arrayOf (element : Descriptor) :
    SpellsArray (arrayOf element).name :=
  ⟨element.name, rfl⟩

theorem Descriptor.definitionName_congr {a b : Descriptor} (hkey : a.definitionName = b.definitionName)
    (hns : a.namespaceName? = b.namespaceName?) : a.name = b.name := by
  rw [← a.qualify_name, ← b.qualify_name, hns] at hkey
  cases hb : b.namespaceName? with
  | none => simpa [hb, qualify] using hkey
  | some ns => simpa [hb, qualify] using hkey

/-! ## Defined types -/

namespace Catalog

variable {c : Catalog}

/-- A type is defined by a catalog if it is one of the entries, or an entry closed over arguments. -/
def Defines (c : Catalog) (d : Descriptor) : Prop :=
  ∃ key definition, c.get? key = some definition ∧
    (d = definition ∨ ∃ args, d = definition.close args)

theorem Defines.declares (hc : c.Keyed) {d : Descriptor} (h : c.Defines d) : c.Declares d := by
  obtain ⟨key, entry, known, hd⟩ := h
  obtain ⟨definition, hvalid, rfl, rfl⟩ := hc _ _ known
  rcases hd with rfl | ⟨args, rfl⟩
  · exact ⟨definition, hvalid, known, rfl, rfl⟩
  · exact ⟨definition, hvalid, known, rfl, rfl⟩

/-- The types that come from a catalog: those that it defines, closed over any arguments, and arrays of
types that come from it. -/
inductive Yields (c : Catalog) : Descriptor → Prop where
  | defined {d : Descriptor} (defines : c.Defines d) : Yields c d
  | arrayOf {element : Descriptor} (yields : Yields c element) : Yields c (.arrayOf element)

/-- What a reference is resolved to comes from the catalog. -/
theorem yields_resolve (reference : Reference) {d : Descriptor}
    (h : c.resolve reference = .ok d) : c.Yields d := by
  have hdenotes := c.denotes_resolve reference h
  clear h
  induction hdenotes with
  | entry known => exact .defined ⟨_, _, known, Or.inl rfl⟩
  | close known _ _ _ => exact .defined ⟨_, _, known, Or.inr ⟨_, rfl⟩⟩
  | arrayOf _ ih => exact .arrayOf ih

end Catalog

namespace Registry

variable {c : Catalog} {r : Registry} {d : Descriptor}

/-- Every entry comes from the catalog. -/
def FilledFrom (r : Registry) (c : Catalog) : Prop := ∀ e ∈ r.entries, c.Yields e

/-- The entry for a defined type is in the namespace of the type, unless it is an array. -/
theorem FilledFrom.entry_cases (hc : c.Keyed) (hr : r.FilledFrom c) (hd : c.Defines d)
    {e : Descriptor} (he : r.find? d = some e) :
    e.namespaceName? = d.namespaceName? ∨ ∃ element, e = .arrayOf element := by
  obtain ⟨hmem, hkey⟩ := find?_some he
  cases hr e hmem with
  | defined hdefines => exact Or.inl ((hdefines.declares hc).congr (hd.declares hc) hkey).1
  | arrayOf _ => exact Or.inr ⟨_, rfl⟩

/-- Whatever text is put in front of it, the name of a defined type loses its own marker. -/
theorem strip_qualify_name (hc : c.Keyed) (hd : c.Defines d) (ns? : Option String) :
    ArityMarker.strip (Descriptor.qualify ns? d.name) = Descriptor.qualify ns? d.simpleName := by
  obtain ⟨definition, hvalid, _, _, hname⟩ := hd.declares hc
  apply ArityMarker.strip_qualify
  rw [hname]
  exact Catalog.startsName_markedName hvalid

theorem qualifiedName_of_qualifier {config : Config} {ns : String} (h : config.qualifier? = some ns)
    (r : Registry) (d : Descriptor) :
    r.qualifiedName config d = ArityMarker.strip (Descriptor.qualify (some ns) d.name) := by
  unfold qualifiedName Config.qualifiedName
  rw [h]
  rfl

theorem qualifiedName_of_unregistered {config : Config} (h : config.qualifier? = none)
    (hnew : r.contains d = false) :
    r.qualifiedName config d = ArityMarker.strip (Descriptor.qualify d.namespaceName? d.name) := by
  unfold qualifiedName Config.qualifiedName
  rw [h, moduleOf?_eq_none hnew, d.qualify_name]

variable {changes before : List Change} {e : Descriptor}

/-- A registered type is named after its entry, in the module that the entry was placed in. -/
theorem qualifiedName_of_first {config : Config} (h : config.qualifier? = none)
    (hfirst : FirstRegistration changes d before e) :
    (ofChanges changes).qualifiedName config d = ArityMarker.strip
      (Descriptor.qualify (e.namespaceName?.map (Change.moduleAfter before)) e.name) := by
  unfold qualifiedName Config.qualifiedName
  rw [h, moduleOf?_of_first hfirst]
  cases hns : e.namespaceName? with
  | some ns => rfl
  | none =>
    -- Without a namespace there is no module, and the definition name is the name alone.
    have hname := e.qualify_name
    rw [hns, hfirst.definitionName] at hname
    show ArityMarker.strip d.definitionName = _
    rw [← hname]
    rfl

/-- **Stripping after joining equals joining the stripped name.** A type that a catalog defines, as it
is or closed over any arguments, has its simple name behind the global namespace, if that is set and
not empty. Otherwise the simple name stands behind the namespace itself if the type is not registered.
If it is, the simple name stands behind the module that the namespace had been renamed to when the
definition was registered first, whatever was registered or renamed later. None of these has to be free
of marks. The registry may hold whatever comes from the catalog. Its entry for the type is then in the
namespace of the type, or is an array: an array in another namespace lends the type its own name. -/
theorem qualifiedName_defined (hc : c.Built) (hr : (ofChanges changes).FilledFrom c)
    (hd : c.Defines d) (config : Config) :
    let r := ofChanges changes
    (∀ ns, config.globalNamespace? = some ns → ns ≠ "" →
      r.qualifiedName config d = ns ++ "." ++ d.simpleName) ∧
    (config.globalNamespace? = none ∨ config.globalNamespace? = some "" →
      (r.contains d = false →
        r.qualifiedName config d = Descriptor.qualify d.namespaceName? d.simpleName) ∧
      (r.contains d = true → ∃ before e, FirstRegistration changes d before e) ∧
      ∀ before e, FirstRegistration changes d before e →
        r.find? d = some e ∧
        (e.namespaceName? = d.namespaceName? → r.qualifiedName config d =
          Descriptor.qualify (d.namespaceName?.map (Change.moduleAfter before)) d.simpleName) ∧
        (e.namespaceName? ≠ d.namespaceName? →
          (∃ element, e = .arrayOf element) ∧ SpellsArray d.name ∧ r.qualifiedName config d =
            Descriptor.qualify (e.namespaceName?.map (Change.moduleAfter before)) e.name)) := by
  intro r
  refine ⟨?global, fun hlocal => ?_⟩
  case global =>
    intro ns hns hne
    have hqualifier : config.qualifier? = some ns := by simp [Config.qualifier?, hns, hne]
    rw [qualifiedName_of_qualifier hqualifier, strip_qualify_name hc.keyed hd]
    rfl
  have hqualifier : config.qualifier? = none := by
    rcases hlocal with h | h <;> simp [Config.qualifier?, h]
  refine ⟨?unregistered, exists_firstRegistration, fun before e hfirst =>
    ⟨find?_of_first hfirst, ?same, ?array⟩⟩
  case unregistered =>
    intro hnew
    rw [qualifiedName_of_unregistered hqualifier hnew, strip_qualify_name hc.keyed hd]
  case same =>
    intro hns
    have hname := Descriptor.definitionName_congr hfirst.definitionName hns
    rw [qualifiedName_of_first hqualifier hfirst, hns, hname, strip_qualify_name hc.keyed hd]
  case array =>
    intro hns
    obtain ⟨element, rfl⟩ :=
      (hr.entry_cases hc.keyed hd (find?_of_first hfirst)).resolve_left hns
    have hbrackets := element.spellsArray_name_arrayOf
    refine ⟨⟨element, rfl⟩, ?_, ?_⟩
    · -- The two types have one definition name, so both their names end with it.
      have hkey := hfirst.definitionName
      rw [← Descriptor.qualify_name, ← d.qualify_name] at hkey
      rw [← spellsArray_qualify, ← hkey, spellsArray_qualify]
      exact hbrackets
    · rw [qualifiedName_of_first hqualifier hfirst,
        ArityMarker.strip_of_spellsArray (spellsArray_qualify.2 hbrackets)]

/-- Definitions of crates, of a type without a namespace that is named like an array of crates, and of
boxes in a namespace that ends with a marker. -/
def crateDefinitions : List Definition :=
  [⟨some "Shop", "Crate", .classType, [], []⟩, ⟨none, "Shop.Crate[]", .classType, [], []⟩,
    ⟨some "Shop`1", "Box", .classType, ["T"], []⟩]

def crateShop : Catalog := Catalog.empty.attemptAll crateDefinitions

def crate : Descriptor := .named (some "Shop") "Crate" .classType [] false .none

def boxOfCrate : Descriptor := .named (some "Shop`1") "Box`1" .classType [crate] false .none

/-- The type that is named like an array of crates. -/
def crateLookalike : Descriptor := .named none "Shop.Crate[]" .classType [] false .none

/-- Modules for both namespaces, one of which ends with a marker as well. -/
def crateModules : List Change := [.withModule "Shop" "Models", .withModule "Shop`1" "Old`2"]

/-- Boxes of crates and arrays of crates are registered in these modules. Then the namespace of the
boxes is renamed once more, and other boxes are registered. -/
def crateChanges : List Change :=
  crateModules ++ [.register boxOfCrate, .register (.arrayOf crate), .withModule "Shop`1" "New",
    .register (boxOfCrate.close [.arrayOf crate])]

theorem filledFrom_crateChanges : (ofChanges crateChanges).FilledFrom crateShop := by
  intro e he
  have hentries : (ofChanges crateChanges).entries = [boxOfCrate, .arrayOf crate] := rfl
  rw [hentries, List.mem_cons, List.mem_singleton] at he
  rcases he with rfl | rfl
  · exact Catalog.yields_resolve (.generic "Shop`1.Box`1" [.named "Shop.Crate"]) rfl
  · exact Catalog.yields_resolve (.named "Shop.Crate[]") rfl

/-- Boxes of crates lose their own marker, and the module and a global namespace keep theirs. They stay
in the module that they were registered in. -/
theorem boxes_of_crates_named :
    crateShop.Built ∧ (ofChanges crateChanges).FilledFrom crateShop ∧
      crateShop.Defines boxOfCrate ∧
      FirstRegistration crateChanges boxOfCrate crateModules boxOfCrate ∧
      (ofChanges crateChanges).qualifiedName .default boxOfCrate = "Old`2.Box" ∧
      (ofChanges crateChanges).qualifiedName (Config.default.setGlobalNamespace "Api`3") boxOfCrate =
        "Api`3.Box" := by
  have hbuilt : crateShop.Built := .attemptAll .empty crateDefinitions
  have hdefines : crateShop.Defines boxOfCrate := ⟨"Shop`1.Box`1", _, rfl, Or.inr ⟨[crate], rfl⟩⟩
  have hname := qualifiedName_defined hbuilt filledFrom_crateChanges hdefines
  have hfirst : FirstRegistration crateChanges boxOfCrate crateModules boxOfCrate :=
    ⟨⟨_, rfl⟩, rfl, by simp [crateModules]⟩
  refine ⟨hbuilt, filledFrom_crateChanges, hdefines, hfirst, ?_, ?_⟩
  · obtain ⟨-, -, hregistered⟩ := (hname .default).2 (Or.inl rfl)
    obtain ⟨-, hsame, -⟩ := hregistered crateModules boxOfCrate hfirst
    exact (hsame rfl).trans (by decide)
  · exact ((hname _).1 "Api`3" rfl (by decide)).trans (by decide)

/-- The entry of a type decides on its name, and not what is known of the type now. With arrays of crates
registered, the type that is named like them is named in their module, although it has no namespace. And
boxes are not named in the module that their namespace has been renamed to since. -/
theorem entry_decides_name :
    crateShop.Built ∧ (ofChanges crateChanges).FilledFrom crateShop ∧
      (crateShop.Defines crateLookalike ∧ (ofChanges crateChanges).contains crateLookalike = true ∧
        crateLookalike.namespaceName? = none ∧
        (ofChanges crateChanges).qualifiedName .default crateLookalike = "Models.Crate[]" ∧
        (ofChanges crateChanges).qualifiedName .default crateLookalike ≠
          crateLookalike.simpleName) ∧
      crateShop.Defines boxOfCrate ∧ (ofChanges crateChanges).contains boxOfCrate = true ∧
        boxOfCrate.namespaceName? = some "Shop`1" ∧
        (ofChanges crateChanges).moduleName "Shop`1" = "New" ∧
        (ofChanges crateChanges).qualifiedName .default boxOfCrate = "Old`2.Box" ∧
        (ofChanges crateChanges).qualifiedName .default boxOfCrate ≠
          "New" ++ "." ++ boxOfCrate.simpleName := by
  have hlookalike : (ofChanges crateChanges).qualifiedName .default crateLookalike =
      "Models.Crate[]" := by
    decide +kernel
  have hbox : (ofChanges crateChanges).qualifiedName .default boxOfCrate = "Old`2.Box" := by
    decide +kernel
  refine ⟨.attemptAll .empty crateDefinitions, filledFrom_crateChanges,
    ⟨⟨"Shop.Crate[]", _, rfl, Or.inl rfl⟩, by decide +kernel, rfl, hlookalike, ?_⟩,
    ⟨"Shop`1.Box`1", _, rfl, Or.inr ⟨[crate], rfl⟩⟩, by decide +kernel, rfl, by decide +kernel,
    hbox, ?_⟩
  · rw [hlookalike]
    decide
  · rw [hbox]
    decide

end Registry

end TypeProjection
