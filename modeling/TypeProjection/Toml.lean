/-!
# TOML values

Values of a settings file, and how its statements build one table. A table can be extended only by
statements of the kind that made it: once it has a header of its own, or is written in one piece, it
is closed to dotted keys, and no key is given twice.
-/

namespace TypeProjection

/-- How a table came to be. -/
inductive Toml.Origin where
  /-- It has a header of its own. -/
  | header
  /-- It was passed through by the header of another table. -/
  | implied
  /-- It was made by a dotted key. -/
  | dotted
  /-- It is written in one piece, between braces. -/
  | inline
deriving DecidableEq, Repr

inductive Toml where
  | string (text : String)
  /-- An integer or a float. -/
  | number
  | boolean (value : Bool)
  | dateTime (text : String)
  | array (items : List Toml)
  | table (origin : Toml.Origin) (entries : List (String × Toml))
  /-- An array of tables, each with a header of its own. -/
  | tables (items : List (List (String × Toml)))

namespace Toml

abbrev Entries := List (String × Toml)

def find? (key : String) : Entries → Option Toml
  | [] => none
  | (k, v) :: rest => if k = key then some v else find? key rest

/-- Replaces the value of a key, or adds one, unless the change is refused. -/
def change (key : String) (f : Option Toml → Option Toml) : Entries → Option Entries
  | [] => (f none).map fun v => [(key, v)]
  | (k, v) :: rest =>
    if k = key then (f (some v)).map fun v => (key, v) :: rest
    else (change key f rest).map ((k, v) :: ·)

/-- Changes the last table of an array of tables. -/
def changeLast (f : Entries → Option Entries) : List Entries → Option (List Entries)
  | [] => none
  | [entries] => (f entries).map ([·])
  | entries :: rest => (changeLast f rest).map (entries :: ·)

def addKey (key : String) (v : Toml) : Entries → Option Entries :=
  change key fun
    | none => some v
    | some _ => none

/-- Gives a dotted key a value. Tables on the way are made where they are missing. The last one must
be made by dotted keys; one that a header passed through may only lie on the way. -/
def assign (key : String) (v : Toml) : List String → Entries → Option Entries
  | [], entries => addKey key v entries
  | segment :: path, entries =>
    change segment (fun
      | none => (assign key v path []).map (table .dotted)
      | some (table .dotted inner) => (assign key v path inner).map (table .dotted)
      | some (table .implied inner) =>
        if path.isEmpty then none else (assign key v path inner).map (table .implied)
      | some (tables items) =>
        if path.isEmpty then none else (changeLast (assign key v path) items).map tables
      | some _ => none) entries

/-- Changes the value at the end of a header's path. Tables on the way are made where they are
missing, and of an array of tables the last one is meant. -/
def changeAt (key : String) (f : Option Toml → Option Toml) :
    List String → Entries → Option Entries
  | [], entries => change key f entries
  | segment :: path, entries =>
    change segment (fun
      | none => (changeAt key f path []).map (table .implied)
      | some (table .inline _) => none
      | some (table origin inner) => (changeAt key f path inner).map (table origin)
      | some (tables items) => (changeLast (changeAt key f path) items).map tables
      | some _ => none) entries

/-! ## Statements -/

/-- A statement of a settings file. A key is a path and a last segment. -/
inductive Statement where
  | assign (path : List String) (key : String) (value : Toml)
  | header (path : List String) (key : String)
  /-- Adds a table to an array of tables and starts it. -/
  | arrayHeader (path : List String) (key : String)

/-- The root table and the header that assignments belong to. -/
structure Building where
  root : Entries
  header? : Option (List String × String)

namespace Building

def start : Building := ⟨[], none⟩

/-- Carries out a statement, unless it is refused. -/
def run (b : Building) : Statement → Option Building
  | .assign path key v =>
    match b.header? with
    | none => (Toml.assign key v path b.root).map fun root => { b with root }
    | some (headerPath, headerKey) =>
      (changeAt headerKey (fun
        | some (table origin inner) => (Toml.assign key v path inner).map (table origin)
        | some (tables items) => (changeLast (Toml.assign key v path) items).map tables
        | _ => none) headerPath b.root).map fun root => { b with root }
  | .header path key =>
    (changeAt key (fun
      | none => some (table .header [])
      | some (table .implied inner) => some (table .header inner)
      | some _ => none) path b.root).map fun root => ⟨root, some (path, key)⟩
  | .arrayHeader path key =>
    (changeAt key (fun
      | none => some (tables [[]])
      | some (tables items) => some (tables (items ++ [[]]))
      | some _ => none) path b.root).map fun root => ⟨root, some (path, key)⟩

def runAll (b : Building) (statements : List Statement) : Option Building :=
  statements.foldlM run b

end Building

/-- The table that is written in one piece, from its keys and values. -/
def inlineTable? (pairs : List (List String × String × Toml)) : Option Toml :=
  (pairs.foldlM (fun entries (path, key, v) => assign key v path entries) []).map (table .inline)

/-! ## Reading values -/

/-- The entries of a table of texts. A date counts as a table with one entry. -/
def textTable? : Toml → Option (List (String × String))
  | table _ entries =>
    entries.mapM fun
      | (key, string text) => some (key, text)
      | _ => none
  | dateTime text => some [("$__toml_private_datetime", text)]
  | _ => none

def text? : Toml → Option String
  | string text => some text
  | _ => none

def boolean? : Toml → Option Bool
  | boolean value => some value
  | _ => none

/-- The value of a key, or a default where there is none. -/
def field? {α : Type} (decode : Toml → Option α) (default : α) (key : String)
    (entries : Entries) : Option α :=
  match find? key entries with
  | none => some default
  | some v => decode v

end Toml

end TypeProjection
