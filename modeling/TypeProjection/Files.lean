/-!
# Files

Reading a file gives its text or a reason why there is none. A directory tree is known by its files;
paths are followed in it one name at a time.
-/

namespace TypeProjection

inductive ReadError where
  | notFound
  /-- A file stands where the path goes on. -/
  | notDirectory
  | isDirectory
  | notText
  /-- Any other reason, in the words of the system. -/
  | other (reason : String)
deriving DecidableEq, Repr

def ReadError.message : ReadError → String
  | notFound => "No such file or directory (os error 2)"
  | notDirectory => "Not a directory (os error 20)"
  | isDirectory => "Is a directory (os error 21)"
  | notText => "stream did not contain valid UTF-8"
  | other reason => reason

/-- How files are read, by path. -/
abbrev FileSystem := String → Except ReadError String

def FileSystem.decode (bytes : ByteArray) : Except ReadError String :=
  match String.fromUTF8? bytes with
  | some text => .ok text
  | none => .error .notText

/-- The files of a directory, by the names on their path. -/
structure FileTree where
  files : List (List String × ByteArray)

namespace FileTree

/-- The names on a path. Empty names and the name of the directory itself lead nowhere. -/
def namesOf (path : String) : List String :=
  (path.splitOn "/").filter fun name => name != "" && name != "."

def ofList (files : List (String × ByteArray)) : FileTree :=
  ⟨files.map fun (path, bytes) => (namesOf path, bytes)⟩

inductive Place where
  | file (bytes : ByteArray)
  /-- A directory of the tree, by the names that lead to it. -/
  | directory (names : List String)
  /-- A directory that holds the tree. Nothing else is known of it. -/
  | outside

def at? (t : FileTree) (names : List String) : Option Place :=
  match t.files.find? fun file => file.1 == names with
  | some (_, bytes) => some (.file bytes)
  | none =>
    if names.isEmpty || t.files.any fun file => names.isPrefixOf file.1 then
      some (.directory names)
    else none

def step (t : FileTree) (place : Place) (name : String) : Except ReadError Place :=
  match place with
  | .file _ => .error .notDirectory
  | .outside => if ["", ".", ".."].contains name then .ok .outside else .error .notFound
  | .directory names =>
    if name == "" || name == "." then .ok place
    else if name == ".." then .ok (if names.isEmpty then .outside else .directory names.dropLast)
    else
      match t.at? (names ++ [name]) with
      | some next => .ok next
      | none => .error .notFound

/-- Follows a path from the root of the tree. A path that begins with a slash leaves the tree. -/
def follow (t : FileTree) (path : String) : Except ReadError Place :=
  match path.splitOn "/" with
  | [""] => .error .notFound
  | "" :: names => names.foldlM t.step .outside
  | names => names.foldlM t.step (.directory [])

def fileSystem (t : FileTree) : FileSystem := fun path =>
  match t.follow path with
  | .error e => .error e
  | .ok (.file bytes) => FileSystem.decode bytes
  | .ok (.directory _) | .ok .outside => .error .isDirectory

end FileTree

end TypeProjection
