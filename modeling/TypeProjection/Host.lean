import TypeProjection.Descriptor

/-!
# Well-known host types

The projection recognises some types of the host by name: the empty result, the wrappers of
asynchronous results, of web results and of nullable values, and the namespaces of the host's own
library and of shapeless documents.
-/

namespace TypeProjection.Host

def runtimeNamespace : String := "System"

/-- The type of a call that returns nothing. -/
def void : Descriptor := .named (some runtimeNamespace) "Void" .structType [] false .none

/-- The wrappers of asynchronous results. Those without a parameter complete with no result. -/
def asyncWrappers : List String :=
  ["System.Threading.Tasks.Task", "System.Threading.Tasks.Task`1",
    "System.Threading.Tasks.ValueTask", "System.Threading.Tasks.ValueTask`1"]

def actionResult : String := "Microsoft.AspNetCore.Mvc.ActionResult`1"

def nullable : String := "System.Nullable`1"

/-- The simple name of the interface of any web result. -/
def actionResultInterface : String := "IActionResult"

def formCollectionInterface : String := "IFormCollection"

def dynamicJsonNamespaces : List String := ["Newtonsoft.Json.Linq", "System.Text.Json.Nodes"]

def isAsyncWrapper (d : Descriptor) : Bool := asyncWrappers.contains d.definitionName

def isDynamicJsonNamespace (ns : String) : Bool := dynamicJsonNamespaces.contains ns

/-- Whether a namespace is the root namespace of the host's library or lies below it. -/
def isRuntimeNamespace (ns : String) : Bool :=
  ns == runtimeNamespace || (runtimeNamespace ++ ".").toList.isPrefixOf ns.toList

end TypeProjection.Host
