/-!
# JSON values

Values in the data format of catalogs. The fields of an object keep their order, and a key may
stand there more than once.
-/

namespace TypeProjection

inductive Json where
  | null
  | bool (value : Bool)
  /-- A number, as it is written. -/
  | number (literal : String)
  | string (text : String)
  | list (items : List Json)
  | object (fields : List (String × Json))
  /-- A value that can be written but not held: a string or a key with half a surrogate pair, a
  number out of range, or a list or object that is nested too deep. -/
  | unreadable

namespace Json

instance : Inhabited Json := ⟨null⟩

mutual

/-- Whether a value holds nothing unreadable. -/
def isReadable : Json → Bool
  | null | bool _ | number _ | string _ => true
  | list items => allReadable items
  | object fields => allFieldsReadable fields
  | unreadable => false

def allReadable : List Json → Bool
  | [] => true
  | v :: rest => v.isReadable && allReadable rest

def allFieldsReadable : List (String × Json) → Bool
  | [] => true
  | (_, v) :: rest => v.isReadable && allFieldsReadable rest

end

def valuesOf (key : String) (fields : List (String × Json)) : List Json :=
  fields.filterMap fun field => if field.1 = key then some field.2 else none

theorem valuesOf_cons (key k : String) (v : Json) (fields : List (String × Json)) :
    valuesOf key ((k, v) :: fields) =
      if k = key then v :: valuesOf key fields else valuesOf key fields := by
  by_cases h : k = key <;> simp [valuesOf, h]

/-- The value of a field that stands at most once. Without the field there is a default, unless it
is required. -/
def field? {α : Type} (decode : Json → Option α) (default? : Option α) (key : String)
    (fields : List (String × Json)) : Option α :=
  match valuesOf key fields with
  | [] => default?
  | [v] => decode v
  | _ :: _ :: _ => none

def item? {α : Type} (decode : Json → Option α) (default? : Option α) : Option Json → Option α
  | none => default?
  | some v => decode v

def text? : Json → Option String
  | string text => some text
  | _ => none

def textOrNull? : Json → Option (Option String)
  | null => some none
  | string text => some (some text)
  | _ => none

def listOf? {α : Type} (decode : Json → Option α) : Json → Option (List α)
  | list items => items.mapM decode
  | _ => none

/-- The word for one of a fixed set of choices: a text, or an object with that one key and null. -/
def word? : Json → Option String
  | string text => some text
  | object [(key, null)] => some key
  | _ => none

end Json

end TypeProjection
