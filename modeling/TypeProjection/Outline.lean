import TypeProjection.Builtin
import TypeProjection.Config
import TypeProjection.Expr
import TypeProjection.Unwrap

/-!
# Rules and outlines

A rule decides what an unwrapped type becomes; the first rule that matches counts. The outline of a
type is the tree of the types that are visited when it is projected, each with its rule. It depends
on overrides and builtins only: null arms and names are put in when it is turned into an expression.
-/

namespace TypeProjection

/-- A rule for a type of which no part is visited. -/
inductive Leaf where
  /-- A literal text from the settings. -/
  | override (text : String)
  | builtin (entry : Builtin) (nullable : Bool)
  | actionResult
  | formData
  | dynamicJson
  /-- A mapping that does not have exactly two arguments. -/
  | untypedMap
  /-- A sequence without arguments. -/
  | untypedArray
  | enumeration (nullable : Bool)
  /-- A type of the host's own library. -/
  | runtime
  /-- A type that no rule understands. -/
  | unknown

/-- What an unwrapped type becomes. -/
inductive Rule where
  | leaf (leaf : Leaf)
  | map (key value : Descriptor)
  | array (element : Descriptor)
  /-- A class or an interface. -/
  | complex (nullable : Bool) (args : List Descriptor)

/-- The types that a rule goes on to. -/
def Rule.parts : Rule → List Descriptor
  | leaf _ => []
  | map key value => [key, value]
  | array element => [element]
  | complex _ args => args

/-- What projects types: settings and builtins. -/
structure Projector where
  config : Config
  builtins : BuiltinTable

namespace Projector

/-- Whether a type needs a declaration of its own. -/
def isComplex (p : Projector) (d : Descriptor) : Bool := !p.builtins.hasType d

/-- The rule for collections, as far as a type is one. -/
def collectionRule? (d : Descriptor) : Option Rule :=
  if d.contracts.mapping then
    match d.args with
    | [key, value] => some (.map key value)
    | _ => some (.leaf .untypedMap)
  else
    match d.element? with
    | some element => some (.array element)
    | none =>
      if d.contracts.sequence then
        match d.args with
        | item :: _ => some (.array item)
        | [] => some (.leaf .untypedArray)
      else none

def singleRule (d : Descriptor) (nullable : Bool) : Rule :=
  if d.isEnum then .leaf (.enumeration nullable)
  else if d.namespaceName?.any Host.isRuntimeNamespace then .leaf .runtime
  else if d.isClass || d.isInterface then .complex nullable d.args
  else .leaf .unknown

/-- The rule for types that the host's libraries give a meaning of its own. -/
def libraryRule? (d : Descriptor) : Option Rule :=
  if d.name = Host.actionResultInterface then some (.leaf .actionResult)
  else if d.name = Host.formCollectionInterface then some (.leaf .formData)
  else if d.namespaceName?.any Host.isDynamicJsonNamespace then some (.leaf .dynamicJson)
  else none

/-- The rule for types with an entry in the overrides or in the builtins. -/
def literalRule? (p : Projector) (d : Descriptor) (nullable : Bool) : Option Rule :=
  match p.config.overrides.get? d.fullName with
  | some text => some (.leaf (.override text))
  | none =>
    (p.builtins.of? d).map fun entry => .leaf (.builtin entry (entry.nullable || nullable))

/-- The first rule that matches an unwrapped type. -/
def rule (p : Projector) (d : Descriptor) (nullable : Bool) : Rule :=
  ((p.literalRule? d nullable).or (libraryRule? d) |>.or (collectionRule? d)).getD
    (singleRule d nullable)

/-! ## Parts are smaller -/

theorem listSize_parts_collectionRule? {d : Descriptor} {r : Rule}
    (hr : collectionRule? d = some r) : Descriptor.listSize r.parts < d.size := by
  have hargs := d.listSize_args_lt
  unfold collectionRule? at hr
  split at hr
  · split at hr
    · rename_i h
      obtain rfl := Option.some.inj hr
      simpa [h, Rule.parts] using hargs
    · obtain rfl := Option.some.inj hr
      exact d.size_pos
  · split at hr
    · rename_i h
      obtain rfl := Option.some.inj hr
      simpa [Rule.parts, Descriptor.listSize] using Descriptor.size_lt_of_element h
    · split at hr
      · split at hr
        · rename_i h
          obtain rfl := Option.some.inj hr
          simp only [h, Descriptor.listSize] at hargs
          simp only [Rule.parts, Descriptor.listSize]
          omega
        · obtain rfl := Option.some.inj hr
          exact d.size_pos
      · cases hr

theorem listSize_parts_singleRule (d : Descriptor) (nullable : Bool) :
    Descriptor.listSize (singleRule d nullable).parts < d.size := by
  unfold singleRule
  split
  · exact d.size_pos
  · split
    · exact d.size_pos
    · split
      · exact d.listSize_args_lt
      · exact d.size_pos

theorem parts_libraryRule? {d : Descriptor} {r : Rule} (hr : libraryRule? d = some r) :
    r.parts = [] := by
  unfold libraryRule? at hr
  grind [Rule.parts]

theorem parts_literalRule? {p : Projector} {d : Descriptor} {nullable : Bool} {r : Rule}
    (hr : p.literalRule? d nullable = some r) : r.parts = [] := by
  unfold literalRule? at hr
  split at hr
  · obtain rfl := Option.some.inj hr; rfl
  · obtain ⟨entry, _, rfl⟩ := Option.map_eq_some_iff.1 hr; rfl

theorem listSize_parts_rule (p : Projector) (d : Descriptor) (nullable : Bool) :
    Descriptor.listSize (p.rule d nullable).parts < d.size := by
  unfold rule
  cases hl : p.literalRule? d nullable with
  | some r => simpa [parts_literalRule? hl, Descriptor.listSize] using d.size_pos
  | none =>
    cases hb : libraryRule? d with
    | some r => simpa [parts_libraryRule? hb, Descriptor.listSize] using d.size_pos
    | none =>
      cases hc : collectionRule? d with
      | some r => simpa using listSize_parts_collectionRule? hc
      | none => simpa using listSize_parts_singleRule d nullable

/-- A rule goes on only to types that are smaller than the one it is for, wrappers included. -/
theorem listSize_parts_lt (p : Projector) (d : Descriptor) :
    Descriptor.listSize (p.rule d.unwrap.type d.unwrap.nullable).parts < d.size :=
  Nat.lt_of_lt_of_le (p.listSize_parts_rule _ _) d.size_unwrap_le

theorem size_lt_of_mem_parts {p : Projector} {a d : Descriptor}
    (h : a ∈ (p.rule d.unwrap.type d.unwrap.nullable).parts) : a.size < d.size :=
  Nat.lt_of_le_of_lt (Descriptor.size_le_listSize h) (p.listSize_parts_lt d)

end Projector

/-! ## Outlines -/

/-- The tree of visited types. -/
inductive Outline where
  | leaf (type : Descriptor) (leaf : Leaf)
  | map (type : Descriptor) (key value : Outline)
  | array (type : Descriptor) (element : Outline)
  | complex (type : Descriptor) (nullable : Bool) (args : List Outline)

namespace Projector

/-- The outline of a type. Every part is unwrapped before its rule is chosen. -/
def outline (p : Projector) (d : Descriptor) : Outline :=
  match _h : p.rule d.unwrap.type d.unwrap.nullable with
  | .leaf leaf => .leaf d.unwrap.type leaf
  | .map key value => .map d.unwrap.type (p.outline key) (p.outline value)
  | .array element => .array d.unwrap.type (p.outline element)
  | .complex nullable args =>
    .complex d.unwrap.type nullable (args.attach.map fun a => p.outline a.1)
termination_by d.size
decreasing_by
  all_goals
    refine @size_lt_of_mem_parts p _ d ?_
    simp [_h, Rule.parts]
  exact a.2

theorem outline_eq (p : Projector) (d : Descriptor) :
    p.outline d =
      match p.rule d.unwrap.type d.unwrap.nullable with
      | .leaf leaf => .leaf d.unwrap.type leaf
      | .map key value => .map d.unwrap.type (p.outline key) (p.outline value)
      | .array element => .array d.unwrap.type (p.outline element)
      | .complex nullable args => .complex d.unwrap.type nullable (args.map p.outline) := by
  rw [outline]
  split <;> simp_all

end Projector

def Leaf.toExpr (strict : Bool) (name : String) : Leaf → Expr
  | override text => .verbatim text
  | builtin entry nullable => .orNullIf (strict && nullable) (.named entry.name)
  | actionResult => .actionResult
  | formData => .named "FormData"
  | untypedMap => .map (.named "string") (.named "any")
  | untypedArray => .array (.named "any")
  | enumeration nullable => .orNullIf (strict && nullable) (.named name)
  | dynamicJson | runtime | unknown => .named "any"

namespace Outline

mutual

/-- The expression of an outline, for given names of complex types. -/
def toExpr (strict : Bool) (nameOf : Descriptor → String) : Outline → Expr
  | leaf type rule => rule.toExpr strict (nameOf type)
  | map _ key value => .map (key.toExpr strict nameOf) (value.toExpr strict nameOf)
  | array _ element => .array (element.toExpr strict nameOf)
  | complex type nullable args =>
    .orNullIf (strict && nullable) <|
      if args.isEmpty then .named (nameOf type)
      else .apply (nameOf type) (toExprs strict nameOf args)

def toExprs (strict : Bool) (nameOf : Descriptor → String) : List Outline → List Expr
  | [] => []
  | o :: rest => o.toExpr strict nameOf :: toExprs strict nameOf rest

end

end Outline

end TypeProjection
