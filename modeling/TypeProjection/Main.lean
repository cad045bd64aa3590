import TypeProjection.CommandLine

/-!
# The program

Reads the files that the arguments name, runs the command and prints what it gives.
-/

namespace TypeProjection.Main

/-- The reason that the system gives when a file cannot be read. -/
def readErrorOf (e : IO.Error) : ReadError :=
  match e with
  | .noFileOrDirectory _ _ _ => .notFound
  | .inappropriateType _ code _ => if code == 21 then .isDirectory else .notDirectory
  | _ => .other (toString e)

def readText (path : String) : IO (Except ReadError String) := do
  try
    return FileSystem.decode (← IO.FS.readBinFile path)
  catch e =>
    return .error (readErrorOf e)

def pathsOf : Invocation → List String
  | .project options => options.config?.toList ++ [options.catalog]
  | .builtins _ | .help | .version | .usageError => []

/-- The files at the given paths, as far as they have been read. -/
def fileSystemOf (files : List (String × Except ReadError String)) : FileSystem := fun path =>
  ((files.find? fun file => file.1 == path).map Prod.snd).getD (.error .notFound)

end TypeProjection.Main

open TypeProjection in
/-- Runs the program. -/
def main (args : List String) : IO UInt32 := do
  let filter? := match ← IO.getEnv "TYPEGAP_LOG" with
    | some spec => LogFilter.ofSpec? spec
    | none => some .default
  let some filter := filter?
    | IO.eprintln DirectiveError.insideCharacter.message
      return CommandLine.aborted.code.toUInt32
  for line in filter.complaints do
    IO.eprintln line
  let invocation := Invocation.ofArgs args
  let files ← (Main.pathsOf invocation).mapM fun path => return (path, ← Main.readText path)
  let result := CommandLine.run (Main.fileSystemOf files) filter invocation
  for entry in result.log do
    IO.eprintln entry.line
  IO.print result.output
  if let some error := result.error? then
    IO.eprintln error.message
  if invocation matches .usageError then
    IO.eprintln "For more information, try '--help'."
  return result.code.toUInt32
