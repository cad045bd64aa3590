import TypeProjection.Naming
import TypeProjection.Outline

/-!
# Projections

Projecting a type gives a text and leaves a trail: complex types that are named are registered, and a
type that no rule understands is warned of. Types are visited one after another, each before its
parts, and the trail is handed on from one to the next. The expression of a type is the tree that its
text is written from.
-/

namespace TypeProjection

/-- The text of a type expression. -/
structure Projection where
  text : String
  /-- Whether the text is a union at its top. -/
  isUnion : Bool
deriving DecidableEq, Repr

namespace Projection

/-- The text as a part of another expression: a union stands in parentheses. -/
def embedded (p : Projection) : String := Expr.parenthesize p.isUnion p.text

def plain (text : String) : Projection := ⟨text, false⟩

def orNull (p : Projection) : Projection := ⟨p.embedded ++ " | null", true⟩

def orNullIf (wanted : Bool) (p : Projection) : Projection := if wanted then p.orNull else p

def array (element : Projection) : Projection := plain (element.embedded ++ "[]")

/-- A map. Its key is written as it is. -/
def map (key value : Projection) : Projection :=
  plain ("\x7b [key: " ++ key.text ++ "]: " ++ value.embedded ++ " \x7d")

/-- A name, applied to arguments if there are any. -/
def apply (name : String) (args : List Projection) : Projection :=
  plain <| if args.isEmpty then name else name ++ "<" ++ ", ".intercalate (args.map text) ++ ">"

/-- The projection that writes an expression. -/
def ofExpr (e : Expr) : Projection := ⟨e.print, e.isUnion⟩

end Projection

/-- What can be observed while types are projected. -/
inductive Event where
  /-- A type was registered that was not registered before. -/
  | registered (definitionName : String)
  | enumNamed (prettyName qualifiedName : String)
  | warned (message : String)
deriving DecidableEq, Repr

def Event.warning? : Event → Option String
  | warned message => some message
  | registered _ | enumNamed _ _ => none

/-- The warning of a type that no rule understands. -/
def unknownTypeMessage (d : Descriptor) : String :=
  "Unknown conversion for type: " ++ d.prettyName

/-- What projecting has left behind so far. -/
structure Trail where
  registry : Registry
  /-- Oldest first. -/
  events : List Event

namespace Trail

def log (t : Trail) (e : Event) : Trail := { t with events := t.events ++ [e] }

/-- Registers a type, which is an event if the type was not registered before. -/
def register (t : Trail) (d : Descriptor) : Trail :=
  if t.registry.contains d then t
  else { t with registry := t.registry.register d }.log (.registered d.definitionName)

end Trail

namespace Projector

/-- Adds a null arm to what admits null, if the settings ask for it. -/
def orNull (p : Projector) (nullable : Bool) (projection : Projection) : Projection :=
  projection.orNullIf (p.config.strictNulls && nullable)

def visitLeaf (p : Projector) (t : Trail) (d : Descriptor) : Leaf → Projection × Trail
  | .override text => (.plain text, t)
  | .builtin entry nullable => (p.orNull nullable (.plain entry.name), t)
  | .actionResult => (.plain "any /* IActionResult */", t)
  | .formData => (.plain "FormData", t)
  | .dynamicJson | .runtime => (.plain "any", t)
  | .untypedMap => (.plain "\x7b [key: string]: any \x7d", t)
  | .untypedArray => (.plain "any[]", t)
  | .enumeration nullable =>
    let t := t.register d
    let name := t.registry.qualifiedName p.config d
    (p.orNull nullable (.plain name), t.log (.enumNamed d.prettyName name))
  | .unknown => (.plain "any", t.log (.warned (unknownTypeMessage d)))

mutual

/-- Projects a type. A complex type is registered and named before its arguments are visited. -/
def visit (p : Projector) (t : Trail) (d : Descriptor) : Projection × Trail :=
  match _h : p.rule d.unwrap.type d.unwrap.nullable with
  | .leaf leaf => p.visitLeaf t d.unwrap.type leaf
  | .map key value =>
    let (key, t) := p.visit t key
    let (value, t) := p.visit t value
    (.map key value, t)
  | .array element =>
    let (element, t) := p.visit t element
    (.array element, t)
  | .complex nullable args =>
    let t := t.register d.unwrap.type
    let name := t.registry.qualifiedName p.config d.unwrap.type
    let (args, t) := p.visitAll t args
    (p.orNull nullable (.apply name args), t)
termination_by 2 * d.size
decreasing_by
  all_goals
    have := p.listSize_parts_lt d
    simp only [_h, Rule.parts, Descriptor.listSize] at this
    omega

def visitAll (p : Projector) (t : Trail) : List Descriptor → List Projection × Trail
  | [] => ([], t)
  | d :: rest =>
    let (projection, t) := p.visit t d
    let (projections, t) := p.visitAll t rest
    (projection :: projections, t)
termination_by ds => 2 * Descriptor.listSize ds + 1
decreasing_by
  all_goals
    have := d.size_pos
    simp only [Descriptor.listSize]
    omega

end

end Projector

/-- A projection, the registry that it leaves and the events on the way. -/
structure Outcome where
  projection : Projection
  registry : Registry
  events : List Event

def Outcome.warnings (o : Outcome) : List String := o.events.filterMap Event.warning?

namespace Projector

def project (p : Projector) (r : Registry) (d : Descriptor) : Outcome :=
  let (projection, t) := p.visit ⟨r, []⟩ d
  ⟨projection, t.registry, t.events⟩

/-- The expression of a type, for given names of complex types. -/
def exprWith (p : Projector) (nameOf : Descriptor → String) (d : Descriptor) : Expr :=
  (p.outline d).toExpr p.config.strictNulls nameOf

/-- The expression of a type. An entry of the registry never changes, so names may be read from the
registry that the projection leaves. -/
def expr (p : Projector) (r : Registry) (d : Descriptor) : Expr :=
  p.exprWith ((p.project r d).registry.qualifiedName p.config) d

end Projector

end TypeProjection
