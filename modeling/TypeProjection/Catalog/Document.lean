import TypeProjection.Catalog
import TypeProjection.Json.Text

/-!
# Catalog documents

Decodes catalog documents from JSON values. Documents and definitions are objects, or lists of their
fields in order; fields of other names are passed over, whatever they hold. A reference is a text or
an object, and all of it has to be readable, the fields of other names too.
-/

namespace TypeProjection

def DefinitionKind.ofWord? : String → Option DefinitionKind
  | "class" => some classType
  | "interface" => some interfaceType
  | "struct" => some structType
  | "enum" => some enumType
  | "other" => some other
  | _ => none

def Contract.ofWord? : String → Option Contract
  | "sequence" => some sequence
  | "mapping" => some mapping
  | _ => none

def DefinitionKind.ofJson? (v : Json) : Option DefinitionKind := v.word?.bind ofWord?

def Contract.ofJson? (v : Json) : Option Contract := v.word?.bind ofWord?

namespace Definition

/-- A definition with the given fields. Only the name is required. -/
def ofFields? (fields : List (String × Json)) : Option Definition := do
  let namespaceName? ← Json.field? Json.textOrNull? (some none) "namespace" fields
  let name ← Json.field? Json.text? none "name" fields
  let kind ← Json.field? DefinitionKind.ofJson? (some .classType) "kind" fields
  let params ← Json.field? (Json.listOf? Json.text?) (some []) "generic_params" fields
  let implements ← Json.field? (Json.listOf? Contract.ofJson?) (some []) "implements" fields
  return ⟨namespaceName?, name, kind, params, implements⟩

/-- A definition with the given items, of which the first two are required. -/
def ofItems? (items : List Json) : Option Definition := do
  let namespaceName? ← Json.item? Json.textOrNull? none items[0]?
  let name ← Json.item? Json.text? none items[1]?
  let kind ← Json.item? DefinitionKind.ofJson? (some .classType) items[2]?
  let params ← Json.item? (Json.listOf? Json.text?) (some []) items[3]?
  let implements ← Json.item? (Json.listOf? Contract.ofJson?) (some []) items[4]?
  if items.length ≤ 5 then return ⟨namespaceName?, name, kind, params, implements⟩ else none

/-- A definition is an object, or a list of its fields in order. -/
def ofJson? : Json → Option Definition
  | .object fields => ofFields? fields
  | .list items => ofItems? items
  | _ => none

end Definition

namespace Reference

mutual

/-- Decodes a reference. The array form is tried before the generic form, which has no arguments
unless they are given. -/
def decode? : Json → Option Reference
  | .string name => some (.named name)
  | .object fields =>
    match elements fields with
    | [some element] => some (.array element)
    | _ =>
      match Json.field? Json.text? none "type" fields, argLists fields with
      | some name, [] => some (.generic name [])
      | some name, [some args] => some (.generic name args)
      | _, _ => none
  | .null | .bool _ | .number _ | .list _ | .unreadable => none

def decodeAll? : List Json → Option (List Reference)
  | [] => some []
  | v :: rest =>
    match decode? v, decodeAll? rest with
    | some reference, some references => some (reference :: references)
    | _, _ => none

def decodeArgs? : Json → Option (List Reference)
  | .list items => decodeAll? items
  | .null | .bool _ | .number _ | .string _ | .object _ | .unreadable => none

def elements : List (String × Json) → List (Option Reference)
  | [] => []
  | (key, v) :: rest => if key = "array" then decode? v :: elements rest else elements rest

def argLists : List (String × Json) → List (Option (List Reference))
  | [] => []
  | (key, v) :: rest => if key = "args" then decodeArgs? v :: argLists rest else argLists rest

end

theorem elements_eq (fields : List (String × Json)) :
    elements fields = (Json.valuesOf "array" fields).map decode? := by
  induction fields with
  | nil => rfl
  | cons field rest ih =>
    obtain ⟨key, v⟩ := field
    by_cases h : key = "array" <;> simp [elements, Json.valuesOf_cons, h, ih]

theorem argLists_eq (fields : List (String × Json)) :
    argLists fields = (Json.valuesOf "args" fields).map decodeArgs? := by
  induction fields with
  | nil => rfl
  | cons field rest ih =>
    obtain ⟨key, v⟩ := field
    by_cases h : key = "args" <;> simp [argLists, Json.valuesOf_cons, h, ih]

/-- A reference of which every part can be read. -/
def ofJson? (v : Json) : Option Reference := if v.isReadable then decode? v else none

end Reference

namespace Document

/-- A document with the given fields, none of which is required. -/
def ofFields? (fields : List (String × Json)) : Option Document := do
  let types ← Json.field? (Json.listOf? Definition.ofJson?) (some []) "types" fields
  let roots ← Json.field? (Json.listOf? Reference.ofJson?) (some []) "roots" fields
  return ⟨types, roots⟩

/-- A document with the given items, none of which is required. -/
def ofItems? (items : List Json) : Option Document := do
  let types ← Json.item? (Json.listOf? Definition.ofJson?) (some []) items[0]?
  let roots ← Json.item? (Json.listOf? Reference.ofJson?) (some []) items[1]?
  if items.length ≤ 2 then return ⟨types, roots⟩ else none

/-- A document is an object, or a list of its fields in order. -/
def ofJson? : Json → Option Document
  | .object fields => ofFields? fields
  | .list items => ofItems? items
  | _ => none

end Document

def Catalog.ofText (text : String) : Except CatalogError Catalog :=
  match (Json.ofText? text).bind Document.ofJson? with
  | some doc => Catalog.ofDocument doc
  | none => .error .malformed

end TypeProjection
