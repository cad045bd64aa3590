import TypeProjection.Catalog.Definition

/-!
# The host's library

The types that every catalog knows without declaring them.
-/

namespace TypeProjection.Library

def plain (ns : String) (kind : DefinitionKind) (names : List String) : List Definition :=
  names.map fun name => ⟨some ns, name, kind, [], []⟩

/-- Collections of one namespace and kind that share their parameters and their contract. -/
def collections (ns : String) (kind : DefinitionKind) (params : List String) (contract : Contract)
    (names : List String) : List Definition :=
  names.map fun name => ⟨some ns, name, kind, params, [contract]⟩

def core : List Definition :=
  plain "System" .classType ["Object", "Uri", "Exception"] ++
  plain "System" .structType
    ["Boolean", "Byte", "SByte", "Int16", "UInt16", "Int32", "UInt32", "Int64", "UInt64", "Single",
      "Double", "Decimal", "Char", "DateTime", "DateTimeOffset", "TimeSpan", "Guid", "Void"] ++
  collections "System" .classType [] .sequence ["String"] ++
  [⟨some "System", "Nullable`1", .structType, ["T"], []⟩]

def asynchronous : List Definition :=
  [⟨some "System.Threading.Tasks", "Task", .classType, [], []⟩,
    ⟨some "System.Threading.Tasks", "Task`1", .classType, ["TResult"], []⟩,
    ⟨some "System.Threading.Tasks", "ValueTask", .structType, [], []⟩,
    ⟨some "System.Threading.Tasks", "ValueTask`1", .structType, ["TResult"], []⟩]

def collectionTypes : List Definition :=
  collections "System.Collections" .interfaceType [] .sequence ["IEnumerable"] ++
  collections "System.Collections" .interfaceType [] .mapping ["IDictionary"] ++
  collections "System.Collections" .classType [] .sequence ["ArrayList"] ++
  collections "System.Collections" .classType [] .mapping ["Hashtable"] ++
  collections "System.Collections.Generic" .interfaceType ["T"] .sequence
    ["IEnumerable`1", "ICollection`1", "IList`1", "IReadOnlyCollection`1", "IReadOnlyList`1",
      "ISet`1"] ++
  collections "System.Collections.Generic" .classType ["T"] .sequence ["List`1", "HashSet`1"] ++
  collections "System.Collections.Generic" .interfaceType ["TKey", "TValue"] .mapping
    ["IDictionary`2", "IReadOnlyDictionary`2"] ++
  collections "System.Collections.Generic" .classType ["TKey", "TValue"] .mapping
    ["Dictionary`2"] ++
  [⟨some "System.Collections.Generic", "KeyValuePair`2", .structType, ["TKey", "TValue"], []⟩]

def web : List Definition :=
  plain "Microsoft.AspNetCore.Mvc" .interfaceType ["IActionResult"] ++
  [⟨some "Microsoft.AspNetCore.Mvc", "ActionResult`1", .classType, ["TValue"], []⟩] ++
  collections "Microsoft.AspNetCore.Http" .interfaceType [] .mapping ["IFormCollection"]

def documents : List Definition :=
  collections "Newtonsoft.Json.Linq" .classType [] .sequence ["JToken", "JArray"] ++
  collections "Newtonsoft.Json.Linq" .classType [] .mapping ["JObject"] ++
  plain "System.Text.Json.Nodes" .classType ["JsonNode"] ++
  collections "System.Text.Json.Nodes" .classType [] .mapping ["JsonObject"] ++
  collections "System.Text.Json.Nodes" .classType [] .sequence ["JsonArray"]

def definitions : List Definition := core ++ asynchronous ++ collectionTypes ++ web ++ documents

end TypeProjection.Library
