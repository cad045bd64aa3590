import TypeProjection.Report
import TypeProjection.Text.Terminal

/-!
# The log

While a report is made, entries are logged at several levels and for several targets. An entry has a
text and named fields. The text of a warning may hold what a catalog's author wrote, so it is made
safe for a terminal.
-/

namespace TypeProjection

inductive LogLevel where
  | error
  | warn
  | info
  | debug
  | trace
deriving DecidableEq, Repr

namespace LogLevel

/-- How much is shown at a level: the level itself and those of lower rank. -/
def rank : LogLevel → Nat
  | error => 1
  | warn => 2
  | info => 3
  | debug => 4
  | trace => 5

def label : LogLevel → String
  | error => "ERROR"
  | warn => "WARN"
  | info => "INFO"
  | debug => "DEBUG"
  | trace => "TRACE"

def all : List LogLevel := [error, warn, info, debug, trace]

/-- The level with a name, in any case of its letters. -/
def ofName? (name : String) : Option LogLevel :=
  all.find? fun level => level.label.toList.map Char.toLower == name.toList.map Char.toLower

end LogLevel

/-- What is logged while a report is made. -/
inductive LogEntry where
  | catalogLoaded (definitions roots : Nat)
  | typesResolved (types : Nat)
  | projecting (event : Event)
deriving DecidableEq, Repr

namespace LogEntry

/-- Warnings are logged as such, and all else is for debugging. -/
def level : LogEntry → LogLevel
  | projecting (.warned _) => .warn
  | catalogLoaded _ _ | typesResolved _ | projecting _ => .debug

def target : LogEntry → String
  | catalogLoaded _ _ => "typegap_core::catalog"
  | typesResolved _ => "typegap::cli::project"
  | projecting (.registered _) => "typegap_core::registry"
  | projecting (.enumNamed _ _) => "typegap_core::projection::cascade"
  | projecting (.warned _) => "typegap_core::diagnostics"

def text : LogEntry → String
  | catalogLoaded _ _ => "Loaded type catalog."
  | typesResolved _ => "Projecting catalog roots."
  | projecting (.registered _) => "Registered complex type."
  | projecting (.enumNamed _ _) => "Projected enum."
  | projecting (.warned message) => message

def fields : LogEntry → List (String × String)
  | catalogLoaded definitions roots =>
    [("definitions", toString definitions), ("roots", toString roots)]
  | typesResolved types => [("roots", toString types)]
  | projecting (.registered definitionName) => [("ty", definitionName)]
  | projecting (.enumNamed prettyName qualifiedName) =>
    [("ty", prettyName), ("name", qualifiedName)]
  | projecting (.warned _) => []

/-- The name under which the text of an entry counts as a field. -/
def textField : String := "message"

def hasField (e : LogEntry) (name : String) : Bool :=
  name == textField || e.fields.any fun field => field.1 == name

/-- The line of an entry. Only its text is made safe for a terminal. -/
def line (e : LogEntry) : String :=
  e.level.label ++ " " ++ e.target ++ ": " ++ Text.terminalSafe e.text ++
    String.join (e.fields.map fun (name, value) => " " ++ name ++ "=" ++ value)

end LogEntry

/-- What is logged while the report for the given options is made. -/
def reportLog (fs : FileSystem) (o : ReportOptions) : List LogEntry :=
  match Report.load fs o with
  | .error _ => []
  | .ok s =>
    .catalogLoaded s.catalog.size s.catalog.roots.length ::
      match s.types o.types with
      | .error _ => []
      | .ok ds =>
        .typesResolved ds.length ::
          (Report.events s.projector (.new s.modules) ds).map .projecting

end TypeProjection
