import TypeProjection.Log.Filter

/-!
# The command line

The program has two commands: one makes a report, the other lists the builtin types. Arguments are
looked at from left to right, and the first that asks for help or is wrong decides.
-/

namespace TypeProjection

inductive Invocation where
  | project (options : ReportOptions)
  | builtins (nullableOnly : Bool)
  | help
  | version
  | usageError
deriving DecidableEq, Repr

namespace Invocation

/-- An argument with two dashes in front: its name, and what follows an equals sign. -/
def longOption? (arg : String) : Option (String × Option String) :=
  match arg.toList with
  | '-' :: '-' :: rest =>
    let name := String.ofList (rest.takeWhile (· != '='))
    match rest.dropWhile (· != '=') with
    | _ :: value => some (name, some (String.ofList value))
    | [] => some (name, none)
  | _ => none

/-- An argument with one dash in front and something behind it: the first letter. -/
def shortOption? (arg : String) : Option Char :=
  match arg.toList with
  | '-' :: '-' :: _ => none
  | '-' :: c :: _ => some c
  | _ => none

/-- Whether an argument cannot be the value of an option. -/
def looksLikeOption (arg : String) : Bool :=
  (longOption? arg).isSome || (shortOption? arg).isSome

/-! ## Making a report -/

/-- The arguments of a report that have been seen. -/
structure Seen where
  catalog? : Option String
  /-- Last first. -/
  types : List String
  config? : Option String
  strictNulls : Bool
  globalNamespace? : Option String
  showRegistered : Bool

namespace Seen

def start : Seen := ⟨none, [], none, false, none, false⟩

/-- Takes an argument that is not an option. A path is not empty. -/
def positional? (s : Seen) (arg : String) : Option Seen :=
  match s.catalog? with
  | none => if arg == "" then none else some { s with catalog? := some arg }
  | some _ => some { s with types := arg :: s.types }

/-- Takes an option with a value. No option is given twice, and a path is not empty. -/
def valued? (s : Seen) (name value : String) : Option Seen :=
  match name with
  | "config" =>
    if s.config?.isSome || value == "" then none else some { s with config? := some value }
  | "namespace" =>
    if s.globalNamespace?.isSome then none else some { s with globalNamespace? := some value }
  | _ => none

def flag? (s : Seen) (name : String) : Option Seen :=
  match name with
  | "strict-nulls" => if s.strictNulls then none else some { s with strictNulls := true }
  | "show-registered" =>
    if s.showRegistered then none else some { s with showRegistered := true }
  | _ => none

/-- The report that is asked for. A catalog is needed. -/
def toInvocation (s : Seen) : Invocation :=
  match s.catalog? with
  | none => .usageError
  | some catalog =>
    .project ⟨catalog, s.types.reverse, s.config?, s.strictNulls, s.globalNamespace?,
      s.showRegistered⟩

end Seen

def takesValue (name : String) : Bool := name == "config" || name == "namespace"

/-- Reads arguments behind the mark after which there are no options. -/
def readPositionals (s : Seen) : List String → Invocation
  | [] => s.toInvocation
  | arg :: rest =>
    match s.positional? arg with
    | some s => readPositionals s rest
    | none => usageError

def readReport (s : Seen) : List String → Invocation
  | [] => s.toInvocation
  | "--" :: rest => readPositionals s rest
  | [arg] =>
    match longOption? arg, shortOption? arg with
    | some ("help", none), _ | _, some 'h' => help
    | some (name, some value), _ => (s.valued? name value).elim usageError Seen.toInvocation
    | some (name, none), _ => (s.flag? name).elim usageError Seen.toInvocation
    | none, some _ => usageError
    | none, none => (s.positional? arg).elim usageError Seen.toInvocation
  | arg :: next :: rest =>
    match longOption? arg, shortOption? arg with
    | some ("help", none), _ | _, some 'h' => help
    | some (name, some value), _ =>
      match s.valued? name value with
      | some s => readReport s (next :: rest)
      | none => usageError
    | some (name, none), _ =>
      if takesValue name then
        if looksLikeOption next then usageError
        else
          match s.valued? name next with
          | some s => readReport s rest
          | none => usageError
      else
        match s.flag? name with
        | some s => readReport s (next :: rest)
        | none => usageError
    | none, some _ => usageError
    | none, none =>
      match s.positional? arg with
      | some s => readReport s (next :: rest)
      | none => usageError

/-! ## Other commands -/

def readBuiltins (nullableOnly : Bool) : List String → Invocation
  | [] => builtins nullableOnly
  | arg :: rest =>
    match longOption? arg, shortOption? arg with
    | some ("help", none), _ | _, some 'h' => help
    | some ("nullable", none), _ => if nullableOnly then usageError else readBuiltins true rest
    | some ("", none), _ => if rest.isEmpty then builtins nullableOnly else usageError
    | _, _ => usageError

/-- Help is given for one of the commands, or for the program. -/
def readHelp : List String → Invocation
  | [] | ["project"] | ["builtins"] | ["help"] => help
  | _ => usageError

/-- Reads the arguments of the program. Without any, it gives help. -/
def ofArgs : List String → Invocation
  | [] | ["--"] => help
  | arg :: rest =>
    match arg with
    | "project" => readReport .start rest
    | "builtins" => readBuiltins false rest
    | "help" => readHelp rest
    | "--help" => help
    | "--version" => version
    | _ =>
      match shortOption? arg with
      | some 'h' => help
      | some 'V' => version
      | _ => usageError

end Invocation

structure RunResult where
  code : Nat
  output : String
  log : List LogEntry
  error? : Option ReportError

namespace CommandLine

def versionText : String := "typegap 0.2.7\n"

def helpText : String :=
  Report.unlines
    ["Project host runtime types into TypeScript type expressions", "",
      "Usage: typegap [COMMAND]", "",
      "Commands:",
      "  project [OPTIONS] <CATALOG> [TYPE]...  Project the types of a catalog",
      "  builtins [--nullable]                  List the builtin type mappings",
      "  help [COMMAND]                         Print this message", "",
      "Options of project:",
      "  --config <FILE>          Path to a TOML projection config",
      "  --strict-nulls           Add a null arm to nullable types",
      "  --namespace <NAMESPACE>  Qualify every complex type with this namespace",
      "  --show-registered        List the complex types that need a declaration", "",
      "Options:",
      "  -h, --help     Print help",
      "  -V, --version  Print version"]

/-- Carries out what the arguments ask for. Wrong arguments have a code of their own. -/
def run (fs : FileSystem) (filter : LogFilter) : Invocation → RunResult
  | .project options =>
    let log := (reportLog fs options).filter filter.shows
    match report fs options with
    | .ok text => ⟨0, text, log, none⟩
    | .error e => ⟨1, "", log, some e⟩
  | .builtins nullableOnly =>
    ⟨0, Report.unlines (BuiltinTable.standard.listing nullableOnly), [], none⟩
  | .help => ⟨0, helpText, [], none⟩
  | .version => ⟨0, versionText, [], none⟩
  | .usageError => ⟨2, "", [], none⟩

/-- Without a log filter the program stops before it looks at its arguments. -/
def aborted : RunResult := ⟨101, "", [], none⟩

end CommandLine

end TypeProjection
