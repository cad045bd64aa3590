import TypeProjection.Proofs.Visits

/-!
# Wrappers

A value that may be missing can stand in a web result, and that in an asynchronous result. This file
says what is left when such wrappers are taken off (`Wrapping.unwrap_eq`), and that the projection does
not see them: a wrapped type is projected as the type itself, but for the null arm that a nullable value
may get at its root (`project_wrapping`).
-/

namespace TypeProjection

namespace Host

/-- The wrappers of asynchronous computations that have a result. -/
def asyncResults : List String :=
  ["System.Threading.Tasks.Task`1", "System.Threading.Tasks.ValueTask`1"]

/-- All definitions that may be taken off a type. -/
def wrappers : List String := asyncWrappers ++ [actionResult, nullable]

end Host

namespace Descriptor

/-! ## Layers -/

/-- A type with or without one wrapper around it. The wrapper has one of the given definitions and is
closed over the type; nothing else matters of it. -/
inductive Layer (definitions : List String) (inner : Descriptor) : Bool → Descriptor → Prop where
  | absent : Layer definitions inner false inner
  | present {outer : Descriptor} (definition : outer.definitionName ∈ definitions)
      (closed : outer.args = [inner]) : Layer definitions inner true outer

/-- A type in up to three wrappers, from the inside out: a nullable value, a web result and an
asynchronous result. Whether the first is there is told. -/
inductive Wrapping (type : Descriptor) (nullable : Bool) : Descriptor → Prop where
  | layers {value result outer : Descriptor} {hasResult isAsync : Bool}
      (nullableLayer : Layer [Host.nullable] type nullable value)
      (resultLayer : Layer [Host.actionResult] value hasResult result)
      (asyncLayer : Layer Host.asyncResults result isAsync outer) : Wrapping type nullable outer

namespace Layer

variable {definitions names : List String} {inner outer : Descriptor} {present : Bool}

/-- A layer has no other name than those of its wrappers and that of the type inside. -/
theorem definitionName_not_mem (h : Layer definitions inner present outer)
    (hinner : inner.definitionName ∉ names) (hdefinitions : ∀ d ∈ definitions, d ∉ names) :
    outer.definitionName ∉ names := by
  cases h with
  | absent => exact hinner
  | present definition _ => exact hdefinitions _ definition

theorem withoutAsync_eq (h : Layer Host.asyncResults inner present outer)
    (hinner : inner.definitionName ∉ Host.asyncWrappers) : outer.withoutAsync = inner := by
  cases h with
  | absent => exact if_neg (by simpa [Host.isAsyncWrapper] using hinner)
  | present definition closed =>
    have hasync : Host.isAsyncWrapper outer = true := by
      have hsub : ∀ name ∈ Host.asyncResults, Host.asyncWrappers.contains name = true := by decide
      exact hsub _ definition
    rw [withoutAsync, if_pos hasync, closed]
    rfl

theorem withoutActionResult_eq (h : Layer [Host.actionResult] inner present outer)
    (hinner : inner.definitionName ∉ [Host.actionResult]) : outer.withoutActionResult = inner := by
  cases h with
  | absent => rw [withoutActionResult, onlyArg?, if_neg (by simpa using hinner)]; rfl
  | present definition closed =>
    rw [withoutActionResult, onlyArg?, if_pos (List.mem_singleton.1 definition), closed]
    rfl

theorem withoutNullable_eq (h : Layer [Host.nullable] inner present outer)
    (hinner : inner.definitionName ∉ [Host.nullable]) :
    outer.withoutNullable = ⟨inner, present || inner.isReferenceType⟩ := by
  cases h with
  | absent => rw [withoutNullable, onlyArg?, if_neg (by simpa using hinner)]; rfl
  | present definition closed =>
    rw [withoutNullable, onlyArg?, if_pos (List.mem_singleton.1 definition), closed]
    rfl

end Layer

namespace Wrapping

variable {type outer : Descriptor} {nullable : Bool}

theorem none (type : Descriptor) : type.Wrapping false type := .layers .absent .absent .absent

/-- What is left without the wrappers is the type inside. It admits null if a nullable value was among
them or if it is a reference type. -/
theorem unwrap_eq (h : type.Wrapping nullable outer) (htype : type.definitionName ∉ Host.wrappers) :
    outer.unwrap = ⟨type, nullable || type.isReferenceType⟩ := by
  cases h with
  | @layers value result _ _ _ nullableLayer resultLayer asyncLayer =>
    rw [Host.wrappers, List.mem_append, not_or] at htype
    obtain ⟨hasync, hrest⟩ := htype
    simp only [List.mem_cons, List.not_mem_nil, or_false, not_or] at hrest
    -- No layer has the name of a wrapper that is taken off outside of it.
    have hvalue := nullableLayer.definitionName_not_mem hasync (by decide)
    have hresult := resultLayer.definitionName_not_mem hvalue (by decide)
    have hvalue' : value.definitionName ∉ [Host.actionResult] :=
      nullableLayer.definitionName_not_mem (by simpa using hrest.1) (by decide)
    rw [unwrap, asyncLayer.withoutAsync_eq hresult, resultLayer.withoutActionResult_eq hvalue',
      nullableLayer.withoutNullable_eq (by simpa using hrest.2)]

end Wrapping

end Descriptor

/-! ## Rules for types that admit null -/

/-- A rule for a type that admits null. -/
def Rule.admitNull : Rule → Rule
  | leaf (.builtin entry _) => leaf (.builtin entry true)
  | leaf (.enumeration _) => leaf (.enumeration true)
  | complex _ args => complex true args
  | rule => rule

namespace Projector

variable {p : Projector}

theorem admitNull_literalRule? (p : Projector) (d : Descriptor) (nullable : Bool) :
    (p.literalRule? d nullable).map Rule.admitNull = p.literalRule? d true := by
  unfold literalRule?
  cases p.config.overrides.get? d.fullName with
  | some text => rfl
  | none =>
    cases p.builtins.of? d with
    | none => rfl
    | some entry => simp [Rule.admitNull]

theorem admitNull_libraryRule? (d : Descriptor) :
    (libraryRule? d).map Rule.admitNull = libraryRule? d := by
  unfold libraryRule?
  split
  · rfl
  · split
    · rfl
    · split <;> rfl

theorem admitNull_collectionRule? (d : Descriptor) :
    (collectionRule? d).map Rule.admitNull = collectionRule? d := by
  unfold collectionRule?
  split
  · split <;> rfl
  · split
    · rfl
    · split
      · split <;> rfl
      · rfl

theorem admitNull_singleRule (d : Descriptor) (nullable : Bool) :
    (singleRule d nullable).admitNull = singleRule d true := by
  unfold singleRule
  split
  · rfl
  · split
    · rfl
    · split <;> rfl

/-- Whether a type admits null changes nothing about which rule is for it. -/
theorem admitNull_rule (p : Projector) (d : Descriptor) (nullable : Bool) :
    (p.rule d nullable).admitNull = p.rule d true := by
  rw [rule, rule, ← p.admitNull_literalRule? d nullable, ← admitNull_singleRule d nullable]
  conv_rhs => rw [← admitNull_libraryRule? d, ← admitNull_collectionRule? d]
  rw [← Option.map_or, ← Option.map_or, Option.getD_map]

end Projector

/-! ## Visits of types with one type inside -/

/-- The first projection is the second, or that with a null arm at its root. -/
def Projection.IsUpToNull (wrapped bare : Projection) : Prop :=
  wrapped = bare ∨ bare.isUnion = false ∧ wrapped = ⟨bare.text ++ " | null", true⟩

namespace Projector

variable {p : Projector}

/-- Visits look at a type without its wrappers only. -/
theorem visit_congr {a b : Descriptor} (h : a.unwrap = b.unwrap) (t : Trail) :
    p.visit t a = p.visit t b := by
  rw [visit_eq, visit_eq, h]

/-- Types with one type inside leave the same trail, whether or not they admit null. -/
theorem visit_trail_congr {a b : Descriptor} (h : a.unwrap.type = b.unwrap.type) (t : Trail) :
    (p.visit t a).2 = (p.visit t b).2 := by
  rw [visit_trail, visit_trail, visited_eq, visited_eq, h]

theorem orNull_of_lax (hlax : p.config.strictNulls = false) (nullable : Bool) (q : Projection) :
    p.orNull nullable q = q := by
  rw [orNull, hlax]
  rfl

/-- A text that is no union has at most a null arm more if its type admits null. -/
theorem orNull_isUpToNull (p : Projector) (nullable : Bool) (text : String) :
    (p.orNull true (.plain text)).IsUpToNull (p.orNull nullable (.plain text)) := by
  unfold orNull
  cases p.config.strictNulls with
  | false => exact Or.inl rfl
  | true =>
    cases nullable with
    | true => exact Or.inl rfl
    | false => exact Or.inr ⟨rfl, rfl⟩

/-- Of two types with one type inside, the one that admits null has at most a null arm more, and none
if no null arms are written. -/
theorem visit_admitNull (p : Projector) {a b : Descriptor} (htype : a.unwrap.type = b.unwrap.type)
    (hnull : a.unwrap.nullable = true) (t : Trail) :
    (p.visit t a).1.IsUpToNull (p.visit t b).1 ∧
      (p.config.strictNulls = false → (p.visit t a).1 = (p.visit t b).1) := by
  rw [visit_eq, visit_eq, htype, hnull, ← p.admitNull_rule _ b.unwrap.nullable]
  cases p.rule b.unwrap.type b.unwrap.nullable with
  | leaf leaf =>
    cases leaf with
    | builtin entry nullable =>
      refine ⟨p.orNull_isUpToNull nullable entry.name, fun hlax => ?_⟩
      exact (orNull_of_lax hlax true _).trans (orNull_of_lax hlax nullable _).symm
    | enumeration nullable =>
      refine ⟨p.orNull_isUpToNull nullable _, fun hlax => ?_⟩
      exact (orNull_of_lax hlax true _).trans (orNull_of_lax hlax nullable _).symm
    | override | actionResult | formData | dynamicJson | untypedMap | untypedArray | runtime
    | unknown => exact ⟨Or.inl rfl, fun _ => rfl⟩
  | map key value => exact ⟨Or.inl rfl, fun _ => rfl⟩
  | array element => exact ⟨Or.inl rfl, fun _ => rfl⟩
  | complex nullable args =>
    refine ⟨p.orNull_isUpToNull nullable _, fun hlax => ?_⟩
    exact (orNull_of_lax hlax true _).trans (orNull_of_lax hlax nullable _).symm

/-! ## Wrapped types -/

/-- **Wrappers are transparent.** A type that is not a wrapper itself, in any of the wrappers, is left
when they are taken off, and admits null exactly if a nullable value was among them or if it is a
reference type. So in any state the wrapped type leaves the registry and the events that the type
leaves. It has the same projection unless it is a nullable value, no reference type, and null arms are
written; and then at most a null arm more at the root. -/
theorem project_wrapping {type outer : Descriptor} {nullable : Bool}
    (htype : type.definitionName ∉ Host.wrappers) (h : type.Wrapping nullable outer) :
    outer.unwrap = ⟨type, nullable || type.isReferenceType⟩ ∧
      ∀ (p : Projector) (r : Registry),
        (p.project r outer).registry = (p.project r type).registry ∧
        (p.project r outer).events = (p.project r type).events ∧
        (nullable = false ∨ type.isReferenceType = true ∨ p.config.strictNulls = false →
          (p.project r outer).projection = (p.project r type).projection) ∧
        (p.project r outer).projection.IsUpToNull (p.project r type).projection := by
  have houter := h.unwrap_eq htype
  have hself : type.unwrap = ⟨type, type.isReferenceType⟩ :=
    (Descriptor.Wrapping.none type).unwrap_eq htype
  refine ⟨houter, ?_⟩
  intro p r
  have hinside : outer.unwrap.type = type.unwrap.type := by rw [houter, hself]
  have htrail : (p.visit ⟨r, []⟩ outer).2 = (p.visit ⟨r, []⟩ type).2 :=
    visit_trail_congr hinside ⟨r, []⟩
  -- Unless a value became nullable by its wrapper, both admit null or neither does.
  by_cases hsame : nullable = false ∨ type.isReferenceType = true
  · have hunwrap : outer.unwrap = type.unwrap := by
      rw [houter, hself]
      rcases hsame with rfl | hreference
      · rfl
      · rw [hreference, Bool.or_true]
    have hprojection : (p.project r outer).projection = (p.project r type).projection :=
      congrArg Prod.fst (visit_congr hunwrap ⟨r, []⟩)
    exact ⟨congrArg Trail.registry htrail, congrArg Trail.events htrail, fun _ => hprojection,
      Or.inl hprojection⟩
  · rw [not_or, Bool.not_eq_false] at hsame
    obtain ⟨rfl, hvalue⟩ := hsame
    have hnull : outer.unwrap.nullable = true := by rw [houter, Bool.true_or]
    obtain ⟨hupTo, hlax⟩ := p.visit_admitNull hinside hnull ⟨r, []⟩
    refine ⟨congrArg Trail.registry htrail, congrArg Trail.events htrail, ?_, hupTo⟩
    rintro (hnullable | hreference | hoff)
    · cases hnullable
    · exact absurd hreference hvalue
    · exact hlax hoff

/-- Colours, which are values. -/
def colour : Descriptor := .named (some "Shop") "Colour" .enumType [] false .none

/-- A colour that may be missing, in a web result, in an asynchronous result. -/
def wrappedColour : Descriptor :=
  let value := .named (some "System") "Nullable`1" .structType [colour] false .none
  let result := .named (some "Microsoft.AspNetCore.Mvc") "ActionResult`1" .classType [value] false .none
  .named (some "System.Threading.Tasks") "Task`1" .classType [result] false .none

/-- In all three wrappers a colour admits null. It is registered as a colour, and the text of the
colour gets at most a null arm, or none if null arms are not written. -/
theorem wrapped_colour_registered :
    colour.definitionName ∉ Host.wrappers ∧ colour.Wrapping true wrappedColour ∧
      wrappedColour.unwrap = ⟨colour, true⟩ ∧
      ∀ (p : Projector) (r : Registry),
        (p.project r wrappedColour).registry = (p.project r colour).registry ∧
          (p.project r wrappedColour).events = (p.project r colour).events ∧
          (p.config.strictNulls = false →
            (p.project r wrappedColour).projection = (p.project r colour).projection) ∧
          (p.project r wrappedColour).projection.IsUpToNull (p.project r colour).projection := by
  have hname : colour.definitionName ∉ Host.wrappers := by decide
  have hwrapping : colour.Wrapping true wrappedColour :=
    .layers (.present (by decide) rfl) (.present (by decide) rfl) (.present (by decide) rfl)
  obtain ⟨hunwrap, hproject⟩ := project_wrapping hname hwrapping
  refine ⟨hname, hwrapping, hunwrap, ?_⟩
  intro p r
  obtain ⟨hregistry, hevents, hsame, hupTo⟩ := hproject p r
  exact ⟨hregistry, hevents, fun hlax => hsame (Or.inr (Or.inr hlax)), hupTo⟩

end Projector

end TypeProjection
