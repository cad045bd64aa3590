import TypeProjection.Proofs.GrowingCatalogs

/-!
# Loading documents

The definitions of a document are added to the host's library from first to last, and the first that
cannot be added ends the loading. This file says what comes of it without that order: a document can
be loaded exactly if all its definitions are valid and known by names of their own (`Loadable`), and
then any order of the definitions gives the same catalog. Main statement: `ofDocument_exact`, with the
error of the first definition that is refused, if there is one.
-/

namespace TypeProjection

/-! ## One definition by itself -/

namespace Definition

/-- Some text is left of the name without its marker, and the name does not begin with the mark. -/
def HasName (d : Definition) : Prop :=
  (∃ c ∈ (ArityMarker.strip d.name).toList, Text.isBlankChar c = false) ∧
    d.name.toList.head? ≠ some ArityMarker.mark

/-- The namespace, if there is one, holds some text. -/
def HasNamespace (d : Definition) : Prop :=
  ∀ ns, d.namespaceName? = some ns → ∃ c ∈ ns.toList, Text.isBlankChar c = false

/-- The name that a definition is known by. With parameters, and without any mark of its own, it ends
with the mark and their number. -/
def key (d : Definition) : String :=
  let name :=
    if d.params = [] ∨ ArityMarker.mark ∈ d.name.toList then d.name
    else d.name ++ "`" ++ toString d.params.length
  match d.namespaceName? with
  | some ns => ns ++ "." ++ name
  | none => name

theorem not_isBlank_iff (text : String) :
    Text.isBlank text = false ↔ ∃ c ∈ text.toList, Text.isBlankChar c = false := by
  simp [Text.isBlank]

theorem hasBlankName_eq_false_iff {d : Definition} : d.hasBlankName = false ↔ d.HasName := by
  rw [hasBlankName, Bool.or_eq_false_iff, not_isBlank_iff, HasName, ArityMarker.startsName]
  simp

theorem hasBlankNamespace_eq_false_iff {d : Definition} :
    d.hasBlankNamespace = false ↔ d.HasNamespace := by
  rw [hasBlankNamespace, HasNamespace]
  cases d.namespaceName? with
  | none => simp
  | some ns => simp [not_isBlank_iff]

/-- The entry of a definition stands under its key. -/
theorem definitionName_toDescriptor (d : Definition) : d.toDescriptor.definitionName = d.key := by
  have hname : d.markedName = if d.params = [] ∨ ArityMarker.mark ∈ d.name.toList then d.name
      else d.name ++ "`" ++ toString d.params.length := by
    have hcondition : (d.params.isEmpty || ArityMarker.occursIn d.name) = true ↔
        d.params = [] ∨ ArityMarker.mark ∈ d.name.toList := by
      simp [ArityMarker.occursIn]
    rw [markedName]
    by_cases h : d.params = [] ∨ ArityMarker.mark ∈ d.name.toList
    · rw [if_pos h, if_pos (hcondition.2 h)]
    · rw [if_neg h, if_neg (mt hcondition.1 h), String.append_assoc]
      rfl
  rw [key, ← hname]
  show Descriptor.qualify d.namespaceName? d.markedName = _
  cases d.namespaceName? <;> rfl

end Definition

namespace Catalog

variable {c : Catalog} {d : Definition}

/-! ## One definition and a catalog -/

/-- All definitions can be added to a catalog, in any order: each is valid, and no two have one key,
nor is a key known already. -/
structure Loadable (c : Catalog) (definitions : List Definition) : Prop where
  name : ∀ d ∈ definitions, d.HasName
  namespaceName : ∀ d ∈ definitions, d.HasNamespace
  distinct : (definitions.map Definition.key).Nodup
  unknown : ∀ d ∈ definitions, ¬ c.Knows d.key

/-- Why a definition cannot be added behind others. The name is looked at first, then the namespace,
and then whether the key is taken. -/
inductive Refuses (c : Catalog) (before : List Definition) (d : Definition) : CatalogError → Prop where
  | name (hname : ¬ d.HasName) : Refuses c before d (.invalidDefinition d.name .typeName)
  | namespaceName (hname : d.HasName) (hnamespace : ¬ d.HasNamespace) :
      Refuses c before d (.invalidDefinition d.name .namespaceName)
  | taken (hname : d.HasName) (hnamespace : d.HasNamespace)
      (htaken : c.Knows d.key ∨ ∃ b ∈ before, b.key = d.key) :
      Refuses c before d (.duplicateDefinition d.key)

theorem contains_definitionName (c : Catalog) (d : Definition) :
    c.types.contains d.toDescriptor.definitionName = true ↔ c.Knows d.key := by
  rw [Definition.definitionName_toDescriptor, Table.contains, Option.isSome_iff_exists]
  rfl

theorem blankPart?_of_valid (hname : d.HasName) (hnamespace : d.HasNamespace) :
    blankPart? d = none := by
  rw [blankPart?, Definition.hasBlankName_eq_false_iff.2 hname,
    Definition.hasBlankNamespace_eq_false_iff.2 hnamespace]
  rfl

theorem define_of_unknown (hname : d.HasName) (hnamespace : d.HasNamespace)
    (hunknown : ¬ c.Knows d.key) :
    c.define d = (.ok d.toDescriptor, c.enter d.toDescriptor) := by
  rw [define, blankPart?_of_valid hname hnamespace]
  exact if_neg (mt (c.contains_definitionName d).1 hunknown)

theorem Refuses.define_eq {e : CatalogError} (h : c.Refuses [] d e) :
    c.define d = (.error e, c) := by
  cases h with
  | name hname =>
    have hblank : d.hasBlankName = true := by
      rw [← Bool.not_eq_false, Definition.hasBlankName_eq_false_iff]
      exact hname
    rw [define, blankPart?, if_pos hblank]
  | namespaceName hname hnamespace =>
    have hblank : d.hasBlankNamespace = true := by
      rw [← Bool.not_eq_false, Definition.hasBlankNamespace_eq_false_iff]
      exact hnamespace
    rw [define, blankPart?, Definition.hasBlankName_eq_false_iff.2 hname, if_neg Bool.false_ne_true,
      if_pos hblank]
  | taken hname hnamespace htaken =>
    have hknown : c.Knows d.key := by
      rcases htaken with hknown | ⟨b, hb, -⟩
      · exact hknown
      · cases hb
    rw [← d.definitionName_toDescriptor]
    exact define_of_contains (blankPart?_of_valid hname hnamespace)
      ((c.contains_definitionName d).2 hknown)

/-- A definition can be added or is refused. -/
theorem unknown_or_refuses (c : Catalog) (d : Definition) :
    (d.HasName ∧ d.HasNamespace ∧ ¬ c.Knows d.key) ∨ ∃ e, c.Refuses [] d e := by
  by_cases hname : d.HasName
  · by_cases hnamespace : d.HasNamespace
    · by_cases hknown : c.Knows d.key
      · exact Or.inr ⟨_, .taken hname hnamespace (Or.inl hknown)⟩
      · exact Or.inl ⟨hname, hnamespace, hknown⟩
    · exact Or.inr ⟨_, .namespaceName hname hnamespace⟩
  · exact Or.inr ⟨_, .name hname⟩

/-! ## The definitions in order -/

theorem knows_enter {name : String} :
    (c.enter d.toDescriptor).Knows name ↔ c.Knows name ∨ d.key = name := by
  rw [Knows, get?_enter, d.definitionName_toDescriptor]
  by_cases h : d.key = name
  · simp [h]
  · simp [h, Knows]

theorem loadable_nil (c : Catalog) : c.Loadable [] := ⟨nofun, nofun, List.nodup_nil, nofun⟩

/-- Definitions can be added if the first can, and the others behind it. -/
theorem loadable_cons {rest : List Definition} :
    c.Loadable (d :: rest) ↔ (d.HasName ∧ d.HasNamespace ∧ ¬ c.Knows d.key) ∧
      (c.enter d.toDescriptor).Loadable rest := by
  constructor
  · intro h
    obtain ⟨hfirst, hdistinct⟩ := List.nodup_cons.1 h.distinct
    refine ⟨⟨h.name d List.mem_cons_self, h.namespaceName d List.mem_cons_self,
      h.unknown d List.mem_cons_self⟩, ?_, ?_, hdistinct, ?_⟩
    · intro a ha
      exact h.name a (List.mem_cons_of_mem d ha)
    · intro a ha
      exact h.namespaceName a (List.mem_cons_of_mem d ha)
    · intro a ha
      rw [knows_enter]
      rintro (hknown | hkey)
      · exact h.unknown a (List.mem_cons_of_mem d ha) hknown
      · exact hfirst (hkey ▸ List.mem_map_of_mem ha)
  · rintro ⟨⟨hname, hnamespace, hunknown⟩, h⟩
    have hrest : ∀ a ∈ rest, ¬ c.Knows a.key ∧ d.key ≠ a.key := by
      intro a ha
      have hnew := h.unknown a ha
      rw [knows_enter, not_or] at hnew
      exact hnew
    refine ⟨List.forall_mem_cons.2 ⟨hname, h.name⟩,
      List.forall_mem_cons.2 ⟨hnamespace, h.namespaceName⟩, ?_,
      List.forall_mem_cons.2 ⟨hunknown, fun a ha => (hrest a ha).1⟩⟩
    rw [List.map_cons, List.nodup_cons]
    refine ⟨?_, h.distinct⟩
    intro hmem
    obtain ⟨a, ha, hkey⟩ := List.mem_map.1 hmem
    exact (hrest a ha).2 hkey.symm

/-- What has been added takes its key, just as what stands in front of a definition does. -/
theorem refuses_enter {before : List Definition} {x : Definition} {e : CatalogError} :
    (c.enter d.toDescriptor).Refuses before x e ↔ c.Refuses (d :: before) x e := by
  have htaken : ((c.enter d.toDescriptor).Knows x.key ∨ ∃ b ∈ before, b.key = x.key) ↔
      (c.Knows x.key ∨ ∃ b ∈ d :: before, b.key = x.key) := by
    rw [knows_enter, List.exists_mem_cons_iff, or_assoc]
  constructor
  · rintro (hname | ⟨hname, hnamespace⟩ | ⟨hname, hnamespace, h⟩)
    · exact .name hname
    · exact .namespaceName hname hnamespace
    · exact .taken hname hnamespace (htaken.1 h)
  · rintro (hname | ⟨hname, hnamespace⟩ | ⟨hname, hnamespace, h⟩)
    · exact .name hname
    · exact .namespaceName hname hnamespace
    · exact .taken hname hnamespace (htaken.2 h)

/-- The catalog with the entries of all definitions. -/
def enterAll (c : Catalog) (definitions : List Definition) : Catalog :=
  definitions.foldl (fun c d => c.enter d.toDescriptor) c

theorem defineAll_of_loadable {definitions : List Definition} (h : c.Loadable definitions) :
    c.defineAll definitions = .ok (c.enterAll definitions) := by
  induction definitions generalizing c with
  | nil => rfl
  | cons d rest ih =>
    obtain ⟨⟨hname, hnamespace, hunknown⟩, hrest⟩ := loadable_cons.1 h
    rw [defineAll, define_of_unknown hname hnamespace hunknown]
    exact ih hrest

/-- The first definition that is refused ends the loading, whatever stands behind it. -/
theorem defineAll_of_refuses {before after : List Definition} {e : CatalogError}
    (hbefore : c.Loadable before) (h : c.Refuses before d e) :
    c.defineAll (before ++ d :: after) = .error e := by
  induction before generalizing c with
  | nil => rw [List.nil_append, defineAll, h.define_eq]
  | cons b before ih =>
    obtain ⟨⟨hname, hnamespace, hunknown⟩, hrest⟩ := loadable_cons.1 hbefore
    rw [List.cons_append, defineAll, define_of_unknown hname hnamespace hunknown]
    exact ih hrest (refuses_enter.2 h)

/-- All definitions can be added, or there is a first one that is refused. -/
theorem loadable_or_refuses (c : Catalog) (definitions : List Definition) :
    c.Loadable definitions ∨ ∃ before d after e, definitions = before ++ d :: after ∧
      c.Loadable before ∧ c.Refuses before d e := by
  induction definitions generalizing c with
  | nil => exact Or.inl c.loadable_nil
  | cons d rest ih =>
    rcases c.unknown_or_refuses d with hd | ⟨e, hrefuses⟩
    · rcases ih (c.enter d.toDescriptor) with hrest | ⟨before, x, after, e, rfl, hbefore, hrefuses⟩
      · exact Or.inl (loadable_cons.2 ⟨hd, hrest⟩)
      · exact Or.inr ⟨d :: before, x, after, e, rfl, loadable_cons.2 ⟨hd, hbefore⟩,
          refuses_enter.1 hrefuses⟩
    · exact Or.inr ⟨[], d, rest, e, rfl, c.loadable_nil, hrefuses⟩

theorem defineAll_eq_ok_iff {c' : Catalog} {definitions : List Definition} :
    c.defineAll definitions = .ok c' ↔ c.Loadable definitions ∧ c' = c.enterAll definitions := by
  constructor
  · intro h
    rcases c.loadable_or_refuses definitions with hloadable | ⟨_, _, _, _, rfl, hbefore, hrefuses⟩
    · rw [defineAll_of_loadable hloadable] at h
      exact ⟨hloadable, (Except.ok.inj h).symm⟩
    · rw [defineAll_of_refuses hbefore hrefuses] at h
      cases h
  · rintro ⟨hloadable, rfl⟩
    exact defineAll_of_loadable hloadable

theorem defineAll_eq_error_iff {definitions : List Definition} {e : CatalogError} :
    c.defineAll definitions = .error e ↔ ∃ before d after, definitions = before ++ d :: after ∧
      c.Loadable before ∧ c.Refuses before d e := by
  constructor
  · intro h
    rcases c.loadable_or_refuses definitions with
      hloadable | ⟨before, d, after, e', rfl, hbefore, hrefuses⟩
    · rw [defineAll_of_loadable hloadable] at h
      cases h
    · rw [defineAll_of_refuses hbefore hrefuses] at h
      obtain rfl := Except.error.inj h
      exact ⟨before, d, after, rfl, hbefore, hrefuses⟩
  · rintro ⟨before, d, after, rfl, hbefore, hrefuses⟩
    exact defineAll_of_refuses hbefore hrefuses

/-! ## The definitions in any order -/

theorem Loadable.perm {definitions definitions' : List Definition} (h : c.Loadable definitions)
    (hperm : definitions.Perm definitions') : c.Loadable definitions' where
  name d hd := h.name d (hperm.mem_iff.2 hd)
  namespaceName d hd := h.namespaceName d (hperm.mem_iff.2 hd)
  distinct := (hperm.map Definition.key).nodup_iff.1 h.distinct
  unknown d hd := h.unknown d (hperm.mem_iff.2 hd)

/-- The entries that were there and those of the definitions, each under its key. -/
theorem get?_enterAll {definitions : List Definition} (h : c.Loadable definitions) {name : String}
    {type : Descriptor} :
    (c.enterAll definitions).get? name = some type ↔
      c.get? name = some type ∨ ∃ d ∈ definitions, d.key = name ∧ d.toDescriptor = type := by
  induction definitions generalizing c with
  | nil => simp [enterAll]
  | cons d rest ih =>
    obtain ⟨⟨_, _, hunknown⟩, hrest⟩ := loadable_cons.1 h
    show ((c.enter d.toDescriptor).enterAll rest).get? name = some type ↔ _
    rw [ih hrest, get?_enter, d.definitionName_toDescriptor, List.exists_mem_cons_iff, ← or_assoc]
    apply or_congr_left
    by_cases hkey : d.key = name
    · -- The key was not taken, so nothing that was there is lost.
      have hfresh : c.get? name ≠ some type := by
        intro hknown
        exact hunknown ⟨type, hkey ▸ hknown⟩
      simp [hkey, hfresh]
    · simp [hkey]

theorem size_enterAll {definitions : List Definition} (h : c.Loadable definitions) :
    (c.enterAll definitions).size = c.size + definitions.length := by
  induction definitions generalizing c with
  | nil => rfl
  | cons d rest ih =>
    obtain ⟨⟨_, _, hunknown⟩, hrest⟩ := loadable_cons.1 h
    have hfresh : c.types.get? d.toDescriptor.definitionName = none := by
      rw [d.definitionName_toDescriptor, Option.eq_none_iff_forall_ne_some]
      intro type hknown
      exact hunknown ⟨type, hknown⟩
    have hsize : (c.enter d.toDescriptor).size = c.size + 1 := Table.size_insert hfresh _
    show ((c.enter d.toDescriptor).enterAll rest).size = _
    rw [ih hrest, hsize, List.length_cons]
    omega

theorem ofDocument_eq (doc : Document) :
    ofDocument doc = (library.defineAll doc.types).map fun c => { c with roots := doc.roots } := by
  rw [ofDocument]
  cases library.defineAll doc.types <;> rfl

theorem ofDocument_eq_ok_iff {doc : Document} {c : Catalog} :
    ofDocument doc = .ok c ↔
      library.Loadable doc.types ∧ c = { library.enterAll doc.types with roots := doc.roots } := by
  rw [ofDocument_eq]
  constructor
  · intro h
    cases hdefine : library.defineAll doc.types with
    | error e =>
      rw [hdefine] at h
      cases h
    | ok loaded =>
      rw [hdefine] at h
      obtain ⟨hloadable, rfl⟩ := defineAll_eq_ok_iff.1 hdefine
      exact ⟨hloadable, (Except.ok.inj h).symm⟩
  · rintro ⟨hloadable, rfl⟩
    rw [defineAll_of_loadable hloadable]
    rfl

theorem ofDocument_eq_error_iff {doc : Document} {e : CatalogError} :
    ofDocument doc = .error e ↔ library.defineAll doc.types = .error e := by
  rw [ofDocument_eq]
  cases library.defineAll doc.types with
  | ok loaded =>
    constructor <;> intro h <;> cases h
  | error e' => rfl

theorem exists_ofDocument_iff (doc : Document) :
    (∃ c, ofDocument doc = .ok c) ↔ library.Loadable doc.types := by
  simp only [ofDocument_eq_ok_iff]
  exact ⟨fun ⟨_, h, _⟩ => h, fun h => ⟨_, h, rfl⟩⟩

/-- A loaded catalog has the entries of the library and those of the definitions, each under its
key. -/
theorem get?_ofDocument {doc : Document} {c : Catalog} (h : ofDocument doc = .ok c) {name : String}
    {type : Descriptor} :
    c.get? name = some type ↔
      library.get? name = some type ∨ ∃ d ∈ doc.types, d.key = name ∧ d.toDescriptor = type := by
  obtain ⟨hloadable, rfl⟩ := ofDocument_eq_ok_iff.1 h
  exact get?_enterAll hloadable

theorem size_ofDocument {doc : Document} {c : Catalog} (h : ofDocument doc = .ok c) :
    c.size = library.size + doc.types.length := by
  obtain ⟨hloadable, rfl⟩ := ofDocument_eq_ok_iff.1 h
  exact size_enterAll hloadable

theorem get?_ofDocument_perm {doc doc' : Document} (hperm : doc.types.Perm doc'.types)
    {c c' : Catalog} (hc : ofDocument doc = .ok c) (hc' : ofDocument doc' = .ok c') (name : String) :
    c.get? name = c'.get? name := by
  apply Option.ext
  intro type
  rw [get?_ofDocument hc, get?_ofDocument hc']
  simp only [hperm.mem_iff]

/-- **Loading is exact and does not depend on the order.** A document can be loaded if and only if
every definition has a name and a namespace that are in order and no key is taken, by the library or
by another definition. The catalog then holds the library and all definitions, each under its key, and
nothing else. Any other order of the definitions can be loaded just as well, to a catalog with the same
entries that resolves every reference alike. If a document cannot be loaded, the error is that of the
first definition that is refused behind those in front of it. -/
theorem ofDocument_exact (doc : Document) :
    ((∃ c, ofDocument doc = .ok c) ↔ library.Loadable doc.types) ∧
      (∀ c, ofDocument doc = .ok c →
        c.roots = doc.roots ∧ c.size = library.size + doc.types.length ∧
          ∀ name type, c.get? name = some type ↔
            library.get? name = some type ∨
              ∃ d ∈ doc.types, d.key = name ∧ d.toDescriptor = type) ∧
      (∀ e, ofDocument doc = .error e ↔
        ∃ before d after, doc.types = before ++ d :: after ∧
          library.Loadable before ∧ library.Refuses before d e) ∧
      ∀ doc' : Document, doc.types.Perm doc'.types →
        ((∃ c, ofDocument doc = .ok c) ↔ ∃ c', ofDocument doc' = .ok c') ∧
          ∀ c c', ofDocument doc = .ok c → ofDocument doc' = .ok c' →
            (∀ name, c.get? name = c'.get? name) ∧ c.size = c'.size ∧
              ∀ r, c.resolve r = c'.resolve r := by
  refine ⟨exists_ofDocument_iff doc, ?loaded, ?refused, ?reordered⟩
  case loaded =>
    intro c hc
    refine ⟨?_, size_ofDocument hc, fun name type => get?_ofDocument hc⟩
    obtain ⟨_, rfl⟩ := ofDocument_eq_ok_iff.1 hc
    rfl
  case refused =>
    intro e
    exact ofDocument_eq_error_iff.trans defineAll_eq_error_iff
  case reordered =>
    intro doc' hperm
    constructor
    · rw [exists_ofDocument_iff, exists_ofDocument_iff]
      constructor
      · intro h
        exact h.perm hperm
      · intro h
        exact h.perm hperm.symm
    · intro c c' hc hc'
      have hentries := get?_ofDocument_perm hperm hc hc'
      refine ⟨hentries, ?_, resolve_congr hentries⟩
      rw [size_ofDocument hc, size_ofDocument hc', hperm.length_eq]

/-- Boxes with one parameter. -/
def boxDefinition : Definition := ⟨some "Shop", "Box", .classType, ["T"], []⟩

/-- The same boxes, with the marker written out. -/
def markedBoxDefinition : Definition := ⟨some "Shop", "Box`1", .classType, ["T"], []⟩

def itemDefinition : Definition := ⟨some "Shop", "Item", .structType, [], []⟩

/-- Boxes and items can be loaded in either order. Both spellings of boxes cannot be loaded together:
the second of them is refused in either order, under the key that they share. -/
theorem boxes_take_one_key :
    (∃ c c', ofDocument ⟨[boxDefinition, itemDefinition], []⟩ = .ok c ∧
      ofDocument ⟨[itemDefinition, boxDefinition], []⟩ = .ok c' ∧
      ∀ r, c.resolve r = c'.resolve r) ∧
    ofDocument ⟨[boxDefinition, markedBoxDefinition], []⟩ =
      .error (.duplicateDefinition "Shop.Box`1") ∧
    ofDocument ⟨[markedBoxDefinition, boxDefinition], []⟩ =
      .error (.duplicateDefinition "Shop.Box`1") := by
  have hvalid : ∀ d ∈ [boxDefinition, markedBoxDefinition, itemDefinition],
      d.hasBlankName = false ∧ d.hasBlankNamespace = false ∧ library.get? d.key = none := by
    decide +kernel
  have hkeys : boxDefinition.key = "Shop.Box`1" ∧ markedBoxDefinition.key = "Shop.Box`1" ∧
      itemDefinition.key = "Shop.Item" := by decide +kernel
  have hone : ∀ d ∈ [boxDefinition, markedBoxDefinition, itemDefinition],
      d.HasName ∧ d.HasNamespace ∧ ¬ library.Knows d.key := by
    intro d hd
    obtain ⟨hname, hnamespace, hkey⟩ := hvalid d hd
    refine ⟨Definition.hasBlankName_eq_false_iff.1 hname,
      Definition.hasBlankNamespace_eq_false_iff.1 hnamespace, ?_⟩
    rintro ⟨type, hknown⟩
    rw [hkey] at hknown
    cases hknown
  have hloadable : ∀ ds ⊆ [boxDefinition, markedBoxDefinition, itemDefinition],
      (ds.map Definition.key).Nodup → library.Loadable ds := by
    intro ds hds hdistinct
    exact ⟨fun d hd => (hone d (hds hd)).1, fun d hd => (hone d (hds hd)).2.1, hdistinct,
      fun d hd => (hone d (hds hd)).2.2⟩
  have htwice : ∀ a ∈ [boxDefinition, markedBoxDefinition, itemDefinition],
      ∀ b ∈ [boxDefinition, markedBoxDefinition, itemDefinition], a.key = b.key →
        ofDocument ⟨[a, b], []⟩ = .error (.duplicateDefinition b.key) := by
    intro a ha b hb hkey
    obtain ⟨-, -, hrefused, -⟩ := ofDocument_exact ⟨[a, b], []⟩
    obtain ⟨hname, hnamespace, -⟩ := hone b hb
    have htaken : library.Refuses [a] b (.duplicateDefinition b.key) :=
      .taken hname hnamespace (Or.inr ⟨a, List.mem_singleton_self a, hkey⟩)
    have hfirst : library.Loadable [a] :=
      hloadable [a] (List.cons_subset.2 ⟨ha, List.nil_subset _⟩) (List.pairwise_singleton _ _)
    exact (hrefused _).2 ⟨[a], b, [], rfl, hfirst, htaken⟩
  obtain ⟨hbox, hmarked, hitem⟩ := hkeys
  refine ⟨?_, ?_, ?_⟩
  · obtain ⟨hexists, -, -, hreordered⟩ := ofDocument_exact ⟨[boxDefinition, itemDefinition], []⟩
    obtain ⟨hiff, hsame⟩ := hreordered ⟨[itemDefinition, boxDefinition], []⟩ (.swap _ _ [])
    obtain ⟨c, hc⟩ := hexists.2 (hloadable _ (by simp) (by simp [hbox, hitem]))
    obtain ⟨c', hc'⟩ := hiff.1 ⟨c, hc⟩
    exact ⟨c, c', hc, hc', (hsame c c' hc hc').2.2⟩
  · have herror := htwice boxDefinition (by simp) markedBoxDefinition (by simp)
      (hbox.trans hmarked.symm)
    rwa [hmarked] at herror
  · have herror := htwice markedBoxDefinition (by simp) boxDefinition (by simp)
      (hmarked.trans hbox.symm)
    rwa [hbox] at herror

end Catalog

end TypeProjection
