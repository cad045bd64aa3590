import TypeProjection.Proofs.Loading
import TypeProjection.Proofs.Markers

/-!
# Entries of a catalog

What a catalog knows is checked once, when it is defined. This file says what can be relied on from
then on: every entry stands under its own name and is in order (`InOrder`), after any attempts to define
types, accepted or refused. A definition that is refused changes nothing, and one that is accepted
makes one new entry and touches no other (`Adds`). Main statement: `attemptAll_inOrder`.
-/

namespace TypeProjection

/-! ## Contracts of a definition -/

/-- In whatever order and however often contracts are named, a type can be iterated if there is any, and
it maps keys if there is a mapping among them. -/
theorem Contracts.foldl_add (contracts : List Contract) (c : Contracts) :
    contracts.foldl Contracts.add c =
      ⟨c.sequence || !contracts.isEmpty, c.mapping || contracts.contains .mapping⟩ := by
  induction contracts generalizing c with
  | nil => simp
  | cons contract rest ih =>
    rw [List.foldl_cons, ih]
    cases contract with
    | sequence => simp [add]
    | mapping => simp [add, dictionary]

theorem Contracts.ofList_eq (contracts : List Contract) :
    Contracts.ofList contracts = ⟨!contracts.isEmpty, contracts.contains .mapping⟩ := by
  rw [ofList, foldl_add]
  simp [Contracts.none]

/-- A mapping is a sequence, wherever it stands in the list. -/
theorem Contracts.sequence_of_mapping {contracts : List Contract}
    (h : (Contracts.ofList contracts).mapping = true) :
    (Contracts.ofList contracts).sequence = true := by
  rw [ofList_eq] at h ⊢
  have hmem : Contract.mapping ∈ contracts := by simpa using h
  simpa using List.ne_nil_of_mem hmem

/-! ## Entries -/

/-- What is left of a text without its marker is a part of the text. -/
theorem ArityMarker.isBlank_of_strip {name : String} (h : Text.isBlank (strip name) = false) :
    Text.isBlank name = false := by
  rcases marks_strip name with hname | ⟨digits, _, _, hname⟩
  · rw [hname]
    exact h
  · rw [Text.isBlank] at h ⊢
    rw [hname, List.all_append, h, Bool.false_and]

namespace Catalog

/-- What a type is like that a catalog knows by a name. -/
structure InOrder (key : String) (d : Descriptor) : Prop where
  definitionName : d.definitionName = key
  fullName : d.fullName = key
  isOpen_iff : d.isOpen = true ↔ d.args ≠ []
  /-- The arguments are generic parameters, which have no namespace. -/
  parameters : ∀ a ∈ d.args, a.namespaceName? = none ∧ a.kind = .parameter
  ne_array : ∀ element, d.kind ≠ .array element
  ne_parameter : d.kind ≠ .parameter
  sequence_of_mapping : d.contracts.mapping = true → d.contracts.sequence = true
  simpleName : Text.isBlank d.simpleName = false
  namespaceName : ∀ ns, d.namespaceName? = some ns → Text.isBlank ns = false

theorem isBlank_strip_markedName {definition : Definition} (h : blankPart? definition = none) :
    Text.isBlank (ArityMarker.strip definition.markedName) = false := by
  have hblank := (blankPart?_eq_none h).1
  rw [Definition.hasBlankName, Bool.or_eq_false_iff] at hblank
  unfold Definition.markedName
  split
  · exact hblank.1
  · have hne : definition.name ≠ "" := by
      intro hempty
      exact name_ne_empty h (by rw [hempty]; rfl)
    rw [ArityMarker.strip_append_text hne]
    exact ArityMarker.isBlank_of_strip hblank.1

theorem fullName_toDescriptor (definition : Definition) :
    definition.toDescriptor.fullName = definition.toDescriptor.definitionName := by
  have hplain : (!definition.params.isEmpty || (definition.params.map Descriptor.parameter).isEmpty)
      = true := by
    cases definition.params <;> rfl
  show (if _ then _ else _) = _
  exact if_pos hplain

/-- The type of a definition that is in order can be entered under its name. -/
theorem inOrder_toDescriptor {definition : Definition} (h : blankPart? definition = none) :
    InOrder definition.toDescriptor.definitionName definition.toDescriptor where
  definitionName := rfl
  fullName := fullName_toDescriptor definition
  isOpen_iff := by
    show (!definition.params.isEmpty) = true ↔ definition.params.map Descriptor.parameter ≠ []
    simp
  parameters := by
    intro a ha
    obtain ⟨name, _, rfl⟩ := List.mem_map.1 ha
    exact ⟨rfl, rfl⟩
  ne_array := by
    intro element
    show definition.kind.toKind ≠ .array element
    cases definition.kind <;> exact nofun
  ne_parameter := by
    show definition.kind.toKind ≠ .parameter
    cases definition.kind <;> exact nofun
  sequence_of_mapping := Contracts.sequence_of_mapping
  simpleName := isBlank_strip_markedName h
  namespaceName := by
    intro ns hns
    have hblank := (blankPart?_eq_none h).2
    have hname : definition.namespaceName? = some ns := hns
    simpa [Definition.hasBlankNamespace, hname] using hblank

variable {c : Catalog}

theorem Keyed.inOrder (hc : c.Keyed) {key : String} {d : Descriptor} (known : c.get? key = some d) :
    InOrder key d := by
  obtain ⟨definition, hvalid, rfl, rfl⟩ := hc _ _ known
  exact inOrder_toDescriptor hvalid

/-! ## One more entry -/

/-- The second catalog has one more entry than the first one, and nothing else is different. -/
structure Adds (c c' : Catalog) (d : Descriptor) : Prop where
  unknown : c.get? d.definitionName = none
  known : c'.get? d.definitionName = some d
  others : ∀ key, key ≠ d.definitionName → c'.get? key = c.get? key
  keys : c'.types.keys = c.types.keys ++ [d.definitionName]
  roots : c'.roots = c.roots

theorem adds_enter {d : Descriptor} (hnew : c.get? d.definitionName = none) :
    c.Adds (c.enter d) d where
  unknown := hnew
  known := by rw [get?_enter, if_pos rfl]
  others := by
    intro key hkey
    rw [get?_enter, if_neg hkey.symm]
  keys := Table.keys_insert hnew d
  roots := rfl

theorem adds_define {definition : Definition} {d : Descriptor}
    (h : (c.define definition).1 = .ok d) : c.Adds (c.define definition).2 d := by
  obtain ⟨_, hnew, rfl, hnext⟩ := define_ok h
  rw [hnext]
  exact adds_enter hnew

/-- A definition is accepted if it is in order and its key is not known yet. -/
theorem exists_define_iff (c : Catalog) (definition : Definition) :
    (∃ d, (c.define definition).1 = .ok d) ↔
      definition.HasName ∧ definition.HasNamespace ∧ ¬ c.Knows definition.key := by
  constructor
  · rintro ⟨d, h⟩
    refine (c.unknown_or_refuses definition).resolve_right ?_
    rintro ⟨e, hrefuses⟩
    rw [hrefuses.define_eq] at h
    cases h
  · rintro ⟨hname, hnamespace, hunknown⟩
    exact ⟨_, congrArg Prod.fst (define_of_unknown hname hnamespace hunknown)⟩

theorem roots_define (c : Catalog) (definition : Definition) :
    (c.define definition).2.roots = c.roots := by
  cases h : (c.define definition).1 with
  | error e => rw [define_error h]
  | ok d => exact (adds_define h).roots

theorem roots_attemptAll (c : Catalog) (definitions : List Definition) :
    (c.attemptAll definitions).roots = c.roots := by
  induction definitions generalizing c with
  | nil => rfl
  | cons definition rest ih => rw [attemptAll_cons, ih, roots_define]

/-- **A catalog is in order after any definitions, and a definition is added as a whole or not at all.**
Whatever has been attempted, each entry stands under its definition name, which is its full name; it is
open exactly if it has parameters; it is of a kind that can be declared; a mapping is a sequence; and
neither its simple name nor its namespace is blank. The next definition is accepted exactly if it is in
order and its key is not known. If it is refused the catalog that is left behind is the one that was
there, its entries and its roots, and if it is accepted it makes one entry. -/
theorem attemptAll_inOrder (hc : c.Built) (definitions : List Definition) :
    let c' := c.attemptAll definitions
    c'.roots = c.roots ∧ (∀ key d, c'.get? key = some d → InOrder key d) ∧
      ∀ definition,
        ((∃ d, (c'.define definition).1 = .ok d) ↔
          definition.HasName ∧ definition.HasNamespace ∧ ¬ c'.Knows definition.key) ∧
        (∀ e, (c'.define definition).1 = .error e → (c'.define definition).2 = c') ∧
        ∀ d, (c'.define definition).1 = .ok d → c'.Adds (c'.define definition).2 d := by
  intro c'
  have hkeyed : c'.Keyed := (hc.attemptAll definitions).keyed
  refine ⟨c.roots_attemptAll definitions, fun _ _ => hkeyed.inOrder, fun definition => ?_⟩
  exact ⟨c'.exists_define_iff definition, fun _ => define_error, fun _ => adds_define⟩

/-- A generic map, with its contracts in an unusual order. -/
def indexDefinition : Definition :=
  ⟨some "Shop", "Index", .classType, ["K", "V"], [.mapping, .sequence, .mapping]⟩

/-- The map and three definitions that are refused behind it: one takes its key, one has no name and one
has a blank namespace. -/
def oddDefinitions : List Definition :=
  [indexDefinition, ⟨some "Shop", "Index`2", .enumType, [], []⟩,
    ⟨some "Shop", " `1", .structType, ["T"], []⟩, ⟨some "\t", "Item", .other, [], []⟩]

/-- Only the map is known afterwards. Defining it once more changes nothing, and items can be added. -/
theorem odd_definitions_refused :
    empty.Built ∧ (empty.attemptAll oddDefinitions).types.keys = ["Shop.Index`2"] ∧
      (∃ index, (empty.attemptAll oddDefinitions).get? "Shop.Index`2" = some index ∧
        index.contracts.mapping = true ∧ InOrder "Shop.Index`2" index) ∧
      ((empty.attemptAll oddDefinitions).define indexDefinition).2 =
        empty.attemptAll oddDefinitions ∧
      ∃ item, ((empty.attemptAll oddDefinitions).define itemDefinition).1 = .ok item ∧
        (empty.attemptAll oddDefinitions).Adds
          ((empty.attemptAll oddDefinitions).define itemDefinition).2 item := by
  obtain ⟨-, hentries, hnext⟩ := attemptAll_inOrder .empty oddDefinitions
  obtain ⟨index, known, hmapping⟩ : ∃ index,
      (empty.attemptAll oddDefinitions).get? "Shop.Index`2" = some index ∧
        index.contracts.mapping = true := ⟨_, rfl, rfl⟩
  obtain ⟨-, hrefused, -⟩ := hnext indexDefinition
  obtain ⟨-, -, hadded⟩ := hnext itemDefinition
  exact ⟨.empty, by decide +kernel, ⟨index, known, hmapping, hentries _ _ known⟩,
    hrefused (.duplicateDefinition "Shop.Index`2") rfl, _, rfl, hadded _ rfl⟩

end Catalog

end TypeProjection
