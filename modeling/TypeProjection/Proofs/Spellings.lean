import TypeProjection.Catalog.Document
import TypeProjection.Proofs.Layouts
import TypeProjection.Proofs.Resolution

/-!
# Spellings of catalog documents

The format leaves the writer of a document some freedom. The fields of an object stand in any order
and among fields of other names, a field that holds its default may be left out, and a definition or a
document may be the list of its fields. This file says which values are written for a reference, a
definition and a document, each by the layout of its fields. Main statement: every value that is
written for a document is read as that document (`Document.decoding_exact`).
-/

namespace TypeProjection

/-! ## References -/

namespace Reference

/-- An object with the element of an array. A reference is read as a whole, so whatever stands beside
the element must be readable as well. -/
def arrayLayout (element : Json → Prop) : Json.Layout where
  fields := [⟨"array", element, False⟩]
  reserved := ["type", "args"]
  Allows := fun v => v.isReadable = true
  nodup_names := by simp

/-- An object with the name of a definition and a list of arguments. -/
def genericLayout (name : String) (args : List Json → Prop) (noArgs : Prop) : Json.Layout where
  fields := [.exactly "type" (.string name) False,
    ⟨"args", fun v => ∃ items, v = .list items ∧ args items, noArgs⟩]
  reserved := ["array"]
  Allows := fun v => v.isReadable = true
  nodup_names := by simp [Json.Field.exactly]

mutual

/-- The values that are written for a reference. -/
def WrittenAs : Reference → Json → Prop
  | named name, v => v = .string name
  | array element, v => ∃ fields, v = .object fields ∧
      (arrayLayout fun e => element.WrittenAs e).IsObject fields
  | generic name args, v => ∃ fields, v = .object fields ∧
      (genericLayout name (fun items => AllWrittenAs args items) (args = [])).IsObject fields

def AllWrittenAs : List Reference → List Json → Prop
  | [], items => items = []
  | r :: rest, items => ∃ v others, items = v :: others ∧ r.WrittenAs v ∧ AllWrittenAs rest others

end

mutual

def toJson : Reference → Json
  | named name => .string name
  | array element => .object [("array", element.toJson)]
  | generic name args => .object [("type", .string name), ("args", .list (allToJson args))]

def allToJson : List Reference → List Json
  | [] => []
  | r :: rest => r.toJson :: allToJson rest

end

theorem allWrittenAs_iff {args : List Reference} {items : List Json} :
    AllWrittenAs args items ↔ List.Forall₂ WrittenAs args items := by
  induction args generalizing items with
  | nil => rw [AllWrittenAs, List.forall₂_nil_left_iff]
  | cons r rest ih =>
    rw [AllWrittenAs, List.forall₂_cons_left_iff]
    constructor
    · rintro ⟨v, others, rfl, hv, hothers⟩
      exact ⟨v, others, hv, ih.1 hothers, rfl⟩
    · rintro ⟨v, others, hv, hothers, rfl⟩
      exact ⟨v, others, rfl, hv, ih.2 hothers⟩

theorem allToJson_eq (args : List Reference) : allToJson args = args.map toJson := by
  induction args with
  | nil => rfl
  | cons r rest ih => rw [allToJson, ih, List.map_cons]

/-- All of what is written for a reference can be read. -/
theorem WrittenAs.isReadable (r : Reference) :
    ∀ {v : Json}, r.WrittenAs v → v.isReadable = true := by
  induction r using Reference.induction with
  | named name =>
    rintro v rfl
    rfl
  | array element ih =>
    rintro v ⟨fields, rfl, hfields⟩
    rw [Json.isReadable, Json.allFieldsReadable_iff]
    refine hfields.forall_values ?_ fun v h => h
    intro f hf v hv
    obtain rfl := List.mem_singleton.1 hf
    exact ih hv
  | generic name args ih =>
    rintro v ⟨fields, rfl, hfields⟩
    rw [Json.isReadable, Json.allFieldsReadable_iff]
    refine hfields.forall_values ?_ fun v h => h
    intro f hf v hv
    rcases List.mem_pair.1 hf with rfl | rfl
    · obtain rfl := hv
      rfl
    · obtain ⟨items, rfl, hitems⟩ := hv
      show Json.isReadable (.list items) = true
      rw [Json.isReadable, Json.allReadable_iff]
      intro item hitem
      obtain ⟨a, ha, hwritten⟩ := Json.exists_of_forall₂_mem (allWrittenAs_iff.1 hitems) hitem
      exact ih a ha hwritten

theorem decodeAll?_eq (items : List Json) : decodeAll? items = items.mapM decode? := by
  induction items with
  | nil => rfl
  | cons v rest ih =>
    rw [decodeAll?, ih, List.mapM_cons]
    cases decode? v with
    | none => rfl
    | some r => cases rest.mapM decode? <;> rfl

/-- An object without an element is read in the generic form. -/
theorem decode?_generic {fields : List (String × Json)} {name : String} {args : List Reference}
    (harray : Json.valuesOf "array" fields = [])
    (htype : Json.field? Json.text? none "type" fields = some name)
    (hargs : argLists fields = [] ∧ args = [] ∨ argLists fields = [some args]) :
    decode? (.object fields) = some (.generic name args) := by
  have helements : elements fields = [] := by rw [elements_eq, harray, List.map_nil]
  rw [decode?, helements, htype]
  rcases hargs with ⟨hnone, rfl⟩ | hsome
  · rw [hnone]
  · rw [hsome]

theorem WrittenAs.decode?_eq (r : Reference) :
    ∀ {v : Json}, r.WrittenAs v → decode? v = some r := by
  induction r using Reference.induction with
  | named name =>
    rintro v rfl
    rfl
  | array element ih =>
    rintro v ⟨fields, rfl, hfields⟩
    obtain ⟨v?, hvalue, hfits⟩ := hfields.exists_fits List.mem_cons_self
    cases v? with
    | none => exact hfits.elim
    | some v =>
      have helements : elements fields = [some element] := by
        rw [elements_eq, hvalue]
        exact congrArg (fun e => [e]) (ih hfits)
      rw [decode?, helements]
  | generic name args ih =>
    rintro v ⟨fields, rfl, hfields⟩
    have harray : Json.valuesOf "array" fields = [] :=
      hfields.valuesOf_reserved List.mem_cons_self
    have htype : Json.field? Json.text? none "type" fields = some name :=
      hfields.field?_eq List.mem_cons_self (Json.Field.readBy_exactly rfl False.elim)
    refine decode?_generic harray htype ?_
    obtain ⟨v?, hvalue, hfits⟩ := hfields.exists_fits (List.mem_cons_of_mem _ List.mem_cons_self)
    rw [argLists_eq, hvalue]
    cases v? with
    | none => exact Or.inl ⟨rfl, hfits⟩
    | some v =>
      obtain ⟨items, rfl, hitems⟩ := hfits
      have hdecoded : decodeAll? items = some args := by
        rw [decodeAll?_eq]
        exact Json.mapM_eq_of_forall₂ (allWrittenAs_iff.1 hitems) fun a ha v hv => ih a ha hv
      exact Or.inr (congrArg (fun args? => [args?]) hdecoded)

/-- What is written for a reference is read as that reference and as no other. -/
theorem WrittenAs.ofJson?_eq {r : Reference} {v : Json} (h : r.WrittenAs v) :
    ofJson? v = some r := by
  rw [ofJson?, if_pos (WrittenAs.isReadable r h), WrittenAs.decode?_eq r h]

theorem writtenAs_toJson (r : Reference) : r.WrittenAs r.toJson := by
  induction r using Reference.induction with
  | named name => rfl
  | array element ih => exact ⟨_, rfl, .inOrder (.cons ⟨rfl, ih⟩ .nil)⟩
  | generic name args ih =>
    have hargs : AllWrittenAs args (allToJson args) := by
      rw [allWrittenAs_iff, allToJson_eq, List.forall₂_map_right_iff, List.forall₂_same]
      exact ih
    exact ⟨_, rfl, .inOrder (.cons ⟨rfl, rfl⟩ (.cons ⟨rfl, _, rfl, hargs⟩ .nil))⟩

end Reference

/-! ## Definitions -/

def DefinitionKind.word : DefinitionKind → String
  | classType => "class"
  | interfaceType => "interface"
  | structType => "struct"
  | enumType => "enum"
  | other => "other"

def Contract.word : Contract → String
  | sequence => "sequence"
  | mapping => "mapping"

theorem DefinitionKind.ofJson?_word (kind : DefinitionKind) :
    ofJson? (.string kind.word) = some kind := by
  cases kind <;> rfl

theorem Contract.ofJson?_word (contract : Contract) :
    ofJson? (.string contract.word) = some contract := by
  cases contract <;> rfl

/-- A text, or null for none. -/
def Json.ofTextOrNull : Option String → Json
  | none => .null
  | some text => .string text

theorem Json.textOrNull?_ofTextOrNull (text? : Option String) :
    textOrNull? (ofTextOrNull text?) = some text? := by
  cases text? <;> rfl

namespace Definition

section
variable (d : Definition)

def namespaceField : Json.Field :=
  .exactly "namespace" (.ofTextOrNull d.namespaceName?) (d.namespaceName? = none)

def nameField : Json.Field := .exactly "name" (.string d.name) False

def kindField : Json.Field := .exactly "kind" (.string d.kind.word) (d.kind = .classType)

def paramsField : Json.Field := .listOf "generic_params" (fun param v => v = .string param) d.params

def implementsField : Json.Field :=
  .listOf "implements" (fun contract v => v = .string contract.word) d.implements

def layout : Json.Layout where
  fields := [d.namespaceField, d.nameField, d.kindField, d.paramsField, d.implementsField]
  reserved := []
  Allows := fun _ => True
  nodup_names := by
    show ["namespace", "name", "kind", "generic_params", "implements"].Nodup
    decide

/-- The values that are written for a definition. -/
def WrittenAs (v : Json) : Prop := d.layout.IsValue v

def toJson : Json :=
  .object [("namespace", .ofTextOrNull d.namespaceName?), ("name", .string d.name),
    ("kind", .string d.kind.word), ("generic_params", .list (d.params.map .string)),
    ("implements", .list (d.implements.map fun contract => .string contract.word))]

theorem namespaceField_readBy :
    d.namespaceField.ReadBy Json.textOrNull? (some none) d.namespaceName? :=
  Json.Field.readBy_exactly (Json.textOrNull?_ofTextOrNull _) fun h => congrArg some h.symm

theorem nameField_readBy : d.nameField.ReadBy Json.text? none d.name :=
  Json.Field.readBy_exactly rfl False.elim

theorem kindField_readBy : d.kindField.ReadBy DefinitionKind.ofJson? (some .classType) d.kind :=
  Json.Field.readBy_exactly (DefinitionKind.ofJson?_word _) fun h => congrArg some h.symm

theorem paramsField_readBy : d.paramsField.ReadBy (Json.listOf? Json.text?) (some []) d.params := by
  apply Json.Field.readBy_listOf
  rintro param _ v rfl
  rfl

theorem implementsField_readBy :
    d.implementsField.ReadBy (Json.listOf? Contract.ofJson?) (some []) d.implements := by
  apply Json.Field.readBy_listOf
  rintro contract _ v rfl
  exact contract.ofJson?_word

end

variable {d : Definition}

theorem ofFields?_of_isObject {fields : List (String × Json)} (h : d.layout.IsObject fields) :
    ofFields? fields = some d := by
  have hnamespace : Json.field? Json.textOrNull? (some none) "namespace" fields =
      some d.namespaceName? := h.field?_eq (by simp [layout]) d.namespaceField_readBy
  have hname : Json.field? Json.text? none "name" fields = some d.name :=
    h.field?_eq (by simp [layout]) d.nameField_readBy
  have hkind : Json.field? DefinitionKind.ofJson? (some .classType) "kind" fields =
      some d.kind := h.field?_eq (by simp [layout]) d.kindField_readBy
  have hparams : Json.field? (Json.listOf? Json.text?) (some []) "generic_params" fields =
      some d.params := h.field?_eq (by simp [layout]) d.paramsField_readBy
  have himplements : Json.field? (Json.listOf? Contract.ofJson?) (some []) "implements" fields =
      some d.implements := h.field?_eq (by simp [layout]) d.implementsField_readBy
  rw [ofFields?, hnamespace, hname, hkind, hparams, himplements]
  rfl

/-- In a list the namespace is never left out, since the name behind it is required. -/
theorem ofItems?_of_areItems {items : List Json} (h : Json.Layout.AreItems d.layout.fields items) :
    ofItems? items = some d := by
  have hnamespace : Json.item? Json.textOrNull? none items[0]? = some d.namespaceName? := by
    obtain ⟨v, hitem, hholds⟩ : ∃ v, items[0]? = some v ∧ d.namespaceField.Holds v :=
      h.exists_holds (g := d.nameField) (j := 1) rfl id (Nat.zero_le 1) rfl
    rw [hitem]
    exact d.namespaceField_readBy.value v hholds
  have hname : Json.item? Json.text? none items[1]? = some d.name :=
    h.item?_eq rfl d.nameField_readBy
  have hkind : Json.item? DefinitionKind.ofJson? (some .classType) items[2]? = some d.kind :=
    h.item?_eq rfl d.kindField_readBy
  have hparams : Json.item? (Json.listOf? Json.text?) (some []) items[3]? = some d.params :=
    h.item?_eq rfl d.paramsField_readBy
  have himplements : Json.item? (Json.listOf? Contract.ofJson?) (some []) items[4]? =
      some d.implements := h.item?_eq rfl d.implementsField_readBy
  have hlength : items.length ≤ 5 := h.length_le
  rw [ofItems?, hnamespace, hname, hkind, hparams, himplements]
  exact if_pos hlength

theorem WrittenAs.ofJson?_eq {v : Json} (h : d.WrittenAs v) : ofJson? v = some d := by
  cases h with
  | object h => exact ofFields?_of_isObject h
  | list h => exact ofItems?_of_areItems h

theorem writtenAs_toJson (d : Definition) : d.WrittenAs d.toJson := by
  have hparams : d.paramsField.Holds (.list (d.params.map .string)) :=
    Json.Field.holds_listOf fun _ _ => rfl
  have himplements : d.implementsField.Holds
      (.list (d.implements.map fun contract => .string contract.word)) :=
    Json.Field.holds_listOf fun _ _ => rfl
  refine .object (.inOrder ?_)
  exact .cons ⟨rfl, rfl⟩ (.cons ⟨rfl, rfl⟩ (.cons ⟨rfl, rfl⟩
    (.cons ⟨rfl, hparams⟩ (.cons ⟨rfl, himplements⟩ .nil))))

end Definition

/-! ## Documents -/

namespace Document

section
variable (doc : Document)

def typesField : Json.Field := .listOf "types" Definition.WrittenAs doc.types

def rootsField : Json.Field := .listOf "roots" Reference.WrittenAs doc.roots

def layout : Json.Layout where
  fields := [doc.typesField, doc.rootsField]
  reserved := []
  Allows := fun _ => True
  nodup_names := by
    show ["types", "roots"].Nodup
    decide

/-- The values that are written for a document. -/
def WrittenAs (v : Json) : Prop := doc.layout.IsValue v

def toJson : Json :=
  .object [("types", .list (doc.types.map Definition.toJson)),
    ("roots", .list (doc.roots.map Reference.toJson))]

theorem typesField_readBy :
    doc.typesField.ReadBy (Json.listOf? Definition.ofJson?) (some []) doc.types := by
  apply Json.Field.readBy_listOf
  intro definition _ v hv
  exact hv.ofJson?_eq

theorem rootsField_readBy :
    doc.rootsField.ReadBy (Json.listOf? Reference.ofJson?) (some []) doc.roots := by
  apply Json.Field.readBy_listOf
  intro root _ v hv
  exact hv.ofJson?_eq

end

variable {doc : Document}

theorem ofFields?_of_isObject {fields : List (String × Json)} (h : doc.layout.IsObject fields) :
    ofFields? fields = some doc := by
  have htypes : Json.field? (Json.listOf? Definition.ofJson?) (some []) "types" fields =
      some doc.types := h.field?_eq (by simp [layout]) doc.typesField_readBy
  have hroots : Json.field? (Json.listOf? Reference.ofJson?) (some []) "roots" fields =
      some doc.roots := h.field?_eq (by simp [layout]) doc.rootsField_readBy
  rw [ofFields?, htypes, hroots]
  rfl

theorem ofItems?_of_areItems {items : List Json}
    (h : Json.Layout.AreItems doc.layout.fields items) : ofItems? items = some doc := by
  have htypes : Json.item? (Json.listOf? Definition.ofJson?) (some []) items[0]? =
      some doc.types := h.item?_eq rfl doc.typesField_readBy
  have hroots : Json.item? (Json.listOf? Reference.ofJson?) (some []) items[1]? =
      some doc.roots := h.item?_eq rfl doc.rootsField_readBy
  have hlength : items.length ≤ 2 := h.length_le
  rw [ofItems?, htypes, hroots]
  exact if_pos hlength

theorem WrittenAs.ofJson?_eq {v : Json} (h : doc.WrittenAs v) : ofJson? v = some doc := by
  cases h with
  | object h => exact ofFields?_of_isObject h
  | list h => exact ofItems?_of_areItems h

theorem writtenAs_toJson (doc : Document) : doc.WrittenAs doc.toJson := by
  have htypes : doc.typesField.Holds (.list (doc.types.map Definition.toJson)) :=
    Json.Field.holds_listOf fun definition _ => definition.writtenAs_toJson
  have hroots : doc.rootsField.Holds (.list (doc.roots.map Reference.toJson)) :=
    Json.Field.holds_listOf fun root _ => root.writtenAs_toJson
  exact .object (.inOrder (.cons ⟨rfl, htypes⟩ (.cons ⟨rfl, hroots⟩ .nil)))

/-- **The format is read as what it says.** A document has a plain JSON value, with all fields in
order. It is read as that document, and so is every value that comes of it by changing the order of
fields, adding fields of other names, leaving out fields that hold their default, and writing
definitions or the document itself as lists of fields, at any levels. The same goes for every
reference: an array is never read as a generic type, nor the reverse. -/
theorem decoding_exact (doc : Document) :
    (doc.WrittenAs doc.toJson ∧ ∀ v, doc.WrittenAs v → ofJson? v = some doc) ∧
      ∀ reference : Reference, reference.WrittenAs reference.toJson ∧
        ∀ v, reference.WrittenAs v → Reference.ofJson? v = some reference := by
  constructor
  · exact ⟨doc.writtenAs_toJson, fun v h => h.ofJson?_eq⟩
  · intro reference
    exact ⟨reference.writtenAs_toJson, fun v h => h.ofJson?_eq⟩

/-- An item, a collection of some type, and an array of items to project. -/
def shelfDocument : Document where
  types := [⟨some "Shop", "Item", .classType, [], []⟩,
    ⟨none, "Box", .interfaceType, ["T"], [.sequence]⟩]
  roots := [.array (.generic "Shop.Item" [])]

def itemValue : Json := .list [.string "Shop", .string "Item"]

def boxValue : Json :=
  .object [("kind", .string "interface"), ("name", .string "Box"),
    ("generic_params", .list [.string "T"]), ("implements", .list [.string "sequence"])]

/-- An array with a field that is none of the format and looks like another array. -/
def itemsValue : Json :=
  .object [("note", .object [("array", .string "Shop.Box")]),
    ("array", .object [("type", .string "Shop.Item")])]

def shelfValue : Json :=
  .object [("version", .number "2"), ("roots", .list [itemsValue]),
    ("types", .list [itemValue, boxValue])]

theorem shelf_decoded :
    shelfDocument.WrittenAs shelfValue ∧ ofJson? shelfValue = some shelfDocument := by
  have hitem : (⟨some "Shop", "Item", .classType, [], []⟩ : Definition).WrittenAs itemValue := by
    refine .list (.next rfl (.next rfl (.stop ?_)))
    simp only [List.forall_mem_cons]
    exact ⟨rfl, rfl, rfl, List.forall_mem_nil _⟩
  have hbox : (⟨none, "Box", .interfaceType, ["T"], [.sequence]⟩ : Definition).WrittenAs
      boxValue := by
    refine .object (.permuted (.leftOut (v := .null) ?_ List.mem_cons_self rfl) (.swap _ _ _))
    exact .inOrder (.cons ⟨rfl, rfl⟩ (.cons ⟨rfl, rfl⟩ (.cons ⟨rfl, rfl⟩
      (.cons ⟨rfl, _, rfl, .cons rfl .nil⟩ (.cons ⟨rfl, _, rfl, .cons rfl .nil⟩ .nil)))))
  have hitems : (Reference.array (.generic "Shop.Item" [])).WrittenAs itemsValue := by
    have hgeneric : (Reference.generic "Shop.Item" []).WrittenAs
        (.object [("type", .string "Shop.Item")]) := by
      refine ⟨_, rfl, .leftOut (v := .list []) ?_ (List.mem_cons_of_mem _ List.mem_cons_self) rfl⟩
      refine .permuted (.inOrder ?_) (.swap _ _ _)
      exact .cons ⟨rfl, rfl⟩ (.cons ⟨rfl, [], rfl, rfl⟩ .nil)
    refine ⟨_, rfl, .extended (.inOrder (.cons ⟨rfl, hgeneric⟩ .nil)) ?_ rfl⟩
    simp [Json.Layout.names, Reference.arrayLayout]
  have hshelf : shelfDocument.WrittenAs shelfValue := by
    refine .object (.extended (.permuted (.inOrder ?_) (.swap _ _ _)) ?_ trivial)
    · exact .cons ⟨rfl, _, rfl, .cons hitem (.cons hbox .nil)⟩
        (.cons ⟨rfl, _, rfl, .cons hitems .nil⟩ .nil)
    · simp [Json.Layout.names, shelfDocument, layout, typesField, rootsField, Json.Field.listOf]
  exact ⟨hshelf, (decoding_exact shelfDocument).1.2 shelfValue hshelf⟩

end Document

end TypeProjection
