import TypeProjection.Projection
import TypeProjection.Proofs.Registration

/-!
# Visited types

Projecting a type visits the type and its components, each without its wrappers. This file says which
types are visited (`visited`) and what each of them leaves behind (`role`), without a word about
texts. Main statement: the effects of a projection are exactly those of its visited types, in
preorder (`project_effects`).
-/

namespace TypeProjection

/-- What a visited type is to the registry and to the warnings. -/
inductive Role where
  /-- Nothing is registered or warned of. -/
  | silent
  | enumeration
  /-- A class or an interface that gets a declaration. -/
  | complex
  /-- Warned of. -/
  | unknown
deriving DecidableEq, Repr

namespace Projector

variable (p : Projector)

/-! ## The visited types -/

/-- Whether the text of a type is fixed, so that nothing about its shape is looked at. -/
def hasFixedText (d : Descriptor) : Bool :=
  p.config.overrides.contains d.fullName || p.builtins.hasType d ||
    d.name == Host.actionResultInterface || d.name == Host.formCollectionInterface ||
    d.namespaceName?.any Host.isDynamicJsonNamespace

/-- Whether a type is a mapping, an array or a sequence. -/
def isCollection (d : Descriptor) : Bool :=
  d.contracts.mapping || d.element?.isSome || d.contracts.sequence

def role (d : Descriptor) : Role :=
  if p.hasFixedText d || isCollection d then .silent
  else if d.isEnum then .enumeration
  else if d.namespaceName?.any Host.isRuntimeNamespace then .silent
  else if d.isClass || d.isInterface then .complex
  else .unknown

/-- The types that are visited next, after an unwrapped type. -/
def components (d : Descriptor) : List Descriptor :=
  if p.hasFixedText d then []
  else if d.contracts.mapping then
    match d.args with
    | [key, value] => [key, value]
    | _ => []
  else
    match d.element? with
    | some element => [element]
    | none =>
      if d.contracts.sequence then d.args.head?.toList
      else if p.role d = .complex then d.args
      else []

def isDeclared (d : Descriptor) : Bool := p.role d matches .enumeration | .complex

def isUnknown (d : Descriptor) : Bool := p.role d matches .unknown

/-! ## Rules and roles -/

end Projector

/-- A leaf rule that registers nothing and warns of nothing. -/
def Leaf.isSilent : Leaf → Bool
  | enumeration _ | unknown => false
  | override _ | builtin _ _ | actionResult | formData | dynamicJson | untypedMap | untypedArray
  | runtime => true

/-- What a rule for a type has to do with the type's role and its components. -/
inductive Rule.Fits (p : Projector) (d : Descriptor) (nullable : Bool) : Rule → Prop where
  | silent {leaf : Leaf} (silent : leaf.isSilent = true) (role : p.role d = .silent)
      (components : p.components d = []) : Fits p d nullable (.leaf leaf)
  | enumeration (role : p.role d = .enumeration) (components : p.components d = []) :
      Fits p d nullable (.leaf (.enumeration nullable))
  | unknown (role : p.role d = .unknown) (components : p.components d = []) :
      Fits p d nullable (.leaf .unknown)
  | map {key value : Descriptor} (role : p.role d = .silent)
      (components : p.components d = [key, value]) : Fits p d nullable (.map key value)
  | array {element : Descriptor} (role : p.role d = .silent)
      (components : p.components d = [element]) : Fits p d nullable (.array element)
  | complex (role : p.role d = .complex) (components : p.components d = d.args) :
      Fits p d nullable (.complex nullable d.args)

namespace Projector

variable {p : Projector} {d : Descriptor} {nullable : Bool}

theorem literalRule?_cases (p : Projector) (d : Descriptor) (nullable : Bool) :
    (p.literalRule? d nullable = none ∧ p.config.overrides.contains d.fullName = false ∧
      p.builtins.hasType d = false) ∨
    (∃ leaf : Leaf, p.literalRule? d nullable = some (.leaf leaf) ∧ leaf.isSilent = true ∧
      (p.config.overrides.contains d.fullName || p.builtins.hasType d) = true) := by
  unfold literalRule?
  cases ho : p.config.overrides.get? d.fullName with
  | some text =>
    exact Or.inr ⟨.override text, rfl, rfl, by simp [Table.contains, ho]⟩
  | none =>
    cases hb : p.builtins.of? d with
    | some entry =>
      refine Or.inr ⟨_, rfl, rfl, ?_⟩
      rw [BuiltinTable.of?] at hb
      simp [BuiltinTable.hasType, Table.contains, hb]
    | none =>
      rw [BuiltinTable.of?] at hb
      exact Or.inl ⟨rfl, by simp [Table.contains, ho],
        by simp [BuiltinTable.hasType, Table.contains, hb]⟩

theorem libraryRule?_cases (d : Descriptor) :
    (libraryRule? d = none ∧ d.name ≠ Host.actionResultInterface ∧
      d.name ≠ Host.formCollectionInterface ∧
      d.namespaceName?.any Host.isDynamicJsonNamespace = false) ∨
    (∃ leaf : Leaf, libraryRule? d = some (.leaf leaf) ∧ leaf.isSilent = true ∧
      (d.name == Host.actionResultInterface || d.name == Host.formCollectionInterface ||
        d.namespaceName?.any Host.isDynamicJsonNamespace) = true) := by
  unfold libraryRule?
  by_cases ha : d.name = Host.actionResultInterface
  · exact Or.inr ⟨.actionResult, by rw [if_pos ha], rfl, by simp [ha]⟩
  by_cases hf : d.name = Host.formCollectionInterface
  · exact Or.inr ⟨.formData, by rw [if_neg ha, if_pos hf], rfl, by simp [hf]⟩
  by_cases hj : d.namespaceName?.any Host.isDynamicJsonNamespace = true
  · exact Or.inr ⟨.dynamicJson, by rw [if_neg ha, if_neg hf, if_pos hj], rfl, by simp [hj]⟩
  · exact Or.inl ⟨by rw [if_neg ha, if_neg hf, if_neg hj], ha, hf, by simpa using hj⟩

/-- A type with a fixed text has a leaf rule. For all others shape and kind decide. -/
theorem rule_cases (p : Projector) (d : Descriptor) (nullable : Bool) :
    (p.hasFixedText d = true ∧
      ∃ leaf : Leaf, leaf.isSilent = true ∧ p.rule d nullable = .leaf leaf) ∨
    (p.hasFixedText d = false ∧
      p.rule d nullable = (collectionRule? d).getD (singleRule d nullable)) := by
  unfold rule
  rcases p.literalRule?_cases d nullable with ⟨hl, ho, hb⟩ | ⟨leaf, hl, hs, htext⟩
  · rcases libraryRule?_cases d with ⟨hr, ha, hf, hj⟩ | ⟨leaf, hr, hs, htext⟩
    · refine Or.inr ⟨?_, by rw [hl, hr]; rfl⟩
      simp [hasFixedText, ho, hb, ha, hf, hj]
    · refine Or.inl ⟨?_, leaf, hs, by rw [hl, hr]; rfl⟩
      simp only [hasFixedText, ho, hb, Bool.false_or]
      exact htext
  · refine Or.inl ⟨?_, leaf, hs, by rw [hl]; rfl⟩
    simp only [hasFixedText, htext, Bool.true_or]

theorem fits_singleRule (hfixed : p.hasFixedText d = false) (hshape : isCollection d = false) :
    Rule.Fits p d nullable (singleRule d nullable) := by
  have hcomponents : p.components d = if p.role d = .complex then d.args else [] := by
    simp only [isCollection, Bool.or_eq_false_iff, Option.isSome_eq_false_iff,
      Option.isNone_iff_eq_none] at hshape
    obtain ⟨⟨hm, he⟩, hs⟩ := hshape
    simp [components, hfixed, hm, he, hs]
  unfold singleRule
  by_cases henum : d.isEnum = true
  · have hrole : p.role d = .enumeration := by simp [role, hfixed, hshape, henum]
    rw [if_pos henum]
    exact .enumeration hrole (by simp [hcomponents, hrole])
  by_cases hruntime : d.namespaceName?.any Host.isRuntimeNamespace = true
  · have hrole : p.role d = .silent := by simp [role, hfixed, hshape, henum, hruntime]
    rw [if_neg henum, if_pos hruntime]
    exact .silent rfl hrole (by simp [hcomponents, hrole])
  by_cases hclass : (d.isClass || d.isInterface) = true
  · have hrole : p.role d = .complex := by
      simp [role, hfixed, hshape, henum, hruntime, hclass]
    rw [if_neg henum, if_neg hruntime, if_pos hclass]
    exact .complex hrole (by simp [hcomponents, hrole])
  · have hrole : p.role d = .unknown := by
      simp [role, hfixed, hshape, henum, hruntime, hclass]
    rw [if_neg henum, if_neg hruntime, if_neg hclass]
    exact .unknown hrole (by simp [hcomponents, hrole])

theorem fits_collectionRule? {r : Rule} (hfixed : p.hasFixedText d = false)
    (hr : collectionRule? d = some r) : Rule.Fits p d nullable r := by
  unfold collectionRule? at hr
  split at hr
  · rename_i hm
    have hrole : p.role d = .silent := by simp [role, isCollection, hm]
    split at hr
    · rename_i key value hargs
      obtain rfl := Option.some.inj hr
      exact .map hrole (by simp [components, hfixed, hm, hargs])
    · rename_i hargs
      obtain rfl := Option.some.inj hr
      refine .silent rfl hrole ?_
      rw [components, if_neg (by simp [hfixed]), if_pos hm]
      split
      · rename_i h; exact absurd h (hargs _ _)
      · rfl
  · rename_i hm
    split at hr
    · rename_i element he
      have hrole : p.role d = .silent := by simp [role, isCollection, he]
      obtain rfl := Option.some.inj hr
      exact .array hrole (by simp [components, hfixed, hm, he])
    · rename_i he
      split at hr
      · rename_i hs
        have hrole : p.role d = .silent := by simp [role, isCollection, hs]
        have hcomponents : p.components d = d.args.head?.toList := by
          simp [components, hfixed, hm, he, hs]
        split at hr
        · rename_i hargs
          obtain rfl := Option.some.inj hr
          exact .array hrole (by simp [hcomponents, hargs])
        · rename_i hargs
          obtain rfl := Option.some.inj hr
          exact .silent rfl hrole (by simp [hcomponents, hargs])
      · cases hr

theorem collectionRule?_eq_none (h : collectionRule? d = none) : isCollection d = false := by
  unfold collectionRule? at h
  split at h
  · split at h <;> cases h
  · rename_i hm
    split at h
    · cases h
    · rename_i he
      split at h
      · split at h <;> cases h
      · rename_i hs
        simp [isCollection, hm, he, hs]

/-- The rule of a type fits its role and goes on to its components. -/
theorem rule_fits (p : Projector) (d : Descriptor) (nullable : Bool) :
    Rule.Fits p d nullable (p.rule d nullable) := by
  rcases p.rule_cases d nullable with ⟨hfixed, leaf, hs, hrule⟩ | ⟨hfixed, hrule⟩
  · rw [hrule]
    exact .silent hs (by simp [role, hfixed]) (by simp [components, hfixed])
  · rw [hrule]
    cases hc : collectionRule? d with
    | some r => exact fits_collectionRule? hfixed hc
    | none => exact fits_singleRule hfixed (collectionRule?_eq_none hc)

theorem parts_fits {r : Rule} (h : Rule.Fits p d nullable r) : r.parts = p.components d := by
  cases h with
  | silent _ _ h => exact h.symm
  | enumeration _ h => exact h.symm
  | unknown _ h => exact h.symm
  | map _ h => exact h.symm
  | array _ h => exact h.symm
  | complex _ h => exact h.symm

theorem parts_rule (p : Projector) (d : Descriptor) (nullable : Bool) :
    (p.rule d nullable).parts = p.components d :=
  parts_fits (p.rule_fits d nullable)

theorem size_lt_of_mem_components {a : Descriptor} (h : a ∈ p.components d.unwrap.type) :
    a.size < d.size := by
  rw [← p.parts_rule d.unwrap.type d.unwrap.nullable] at h
  exact size_lt_of_mem_parts h

/-! ## Preorder -/

/-- The visited types of a type: the type without its wrappers, then what its components visit. -/
def visited (p : Projector) (d : Descriptor) : List Descriptor :=
  d.unwrap.type :: (p.components d.unwrap.type).attach.flatMap fun a => p.visited a.1
termination_by d.size
decreasing_by exact size_lt_of_mem_components a.2

theorem visited_eq (p : Projector) (d : Descriptor) :
    p.visited d = d.unwrap.type :: (p.components d.unwrap.type).flatMap p.visited := by
  rw [visited, List.flatMap_subtype (g := p.visited) (fun _ _ => rfl), List.unattach_attach]

/-- What holds of a type as soon as it holds of its components holds of all types. -/
theorem components_induction (p : Projector) {motive : Descriptor → Prop}
    (step : ∀ d, (∀ a ∈ p.components d.unwrap.type, motive a) → motive d) (d : Descriptor) :
    motive d := by
  induction hn : d.size using Nat.strongRecOn generalizing d with
  | ind n ih =>
    subst hn
    exact step d fun a ha => ih a.size (size_lt_of_mem_components ha) a rfl

theorem mem_visited_self (p : Projector) (d : Descriptor) : d.unwrap.type ∈ p.visited d := by
  rw [visited_eq]
  exact List.mem_cons_self

theorem mem_visited_of_part {a x : Descriptor}
    (ha : a ∈ (p.rule d.unwrap.type d.unwrap.nullable).parts) (hx : x ∈ p.visited a) :
    x ∈ p.visited d := by
  rw [parts_rule] at ha
  rw [visited_eq]
  exact List.mem_cons_of_mem _ (List.mem_flatMap.2 ⟨a, ha, hx⟩)

/-- Induction along the rules: what holds of a type as soon as it holds of the parts of its rule holds
of all types. The rule is given with what it has to do with the type. -/
theorem rule_induction (p : Projector) {motive : Descriptor → Prop}
    (step : ∀ d r, p.rule d.unwrap.type d.unwrap.nullable = r →
      Rule.Fits p d.unwrap.type d.unwrap.nullable r → (∀ a ∈ r.parts, motive a) → motive d)
    (d : Descriptor) : motive d := by
  induction d using p.components_induction with
  | step d ih =>
    rw [← p.parts_rule d.unwrap.type d.unwrap.nullable] at ih
    exact step d _ rfl (p.rule_fits _ _) ih

/-- Projectors with the same components visit the same types. -/
theorem visited_congr {p p' : Projector} (h : p'.components = p.components) (d : Descriptor) :
    p'.visited d = p.visited d := by
  induction d using p.components_induction with
  | step d ih =>
    rw [visited_eq, visited_eq, h, List.flatMap_def, List.flatMap_def, List.map_congr_left ih]

/-- Projectors with the same rules give every type the same outline. -/
theorem outline_congr {p p' : Projector} (h : p'.rule = p.rule) (d : Descriptor) :
    p'.outline d = p.outline d := by
  induction d using p.rule_induction with
  | step d r hr _ ih =>
    rw [outline_eq, outline_eq, h, hr]
    cases r with
    | leaf leaf => rfl
    | map key value =>
      show Outline.map _ _ _ = Outline.map _ _ _
      rw [ih key (by simp [Rule.parts]), ih value (by simp [Rule.parts])]
    | array element =>
      show Outline.array _ _ = Outline.array _ _
      rw [ih element (by simp [Rule.parts])]
    | complex nullable args =>
      have hargs : args.map p'.outline = args.map p.outline := List.map_congr_left ih
      show Outline.complex _ _ _ = Outline.complex _ _ _
      rw [hargs]

/-! ## What a visit leaves behind -/

/-- The trail after an unwrapped type is entered, before its components are visited. -/
def enter (p : Projector) (t : Trail) (d : Descriptor) : Trail :=
  match p.role d with
  | .silent => t
  | .enumeration =>
    let t := t.register d
    t.log (.enumNamed d.prettyName (t.registry.qualifiedName p.config d))
  | .complex => t.register d
  | .unknown => t.log (.warned (unknownTypeMessage d))

/-- The projection of a type by its rule. -/
theorem visit_eq (p : Projector) (t : Trail) (d : Descriptor) :
    p.visit t d =
      match p.rule d.unwrap.type d.unwrap.nullable with
      | .leaf leaf => p.visitLeaf t d.unwrap.type leaf
      | .map key value =>
        let (key, t) := p.visit t key
        let (value, t) := p.visit t value
        (.map key value, t)
      | .array element =>
        let (element, t) := p.visit t element
        (.array element, t)
      | .complex nullable args =>
        let t := t.register d.unwrap.type
        let name := t.registry.qualifiedName p.config d.unwrap.type
        let (args, t) := p.visitAll t args
        (p.orNull nullable (.apply name args), t) := by
  rw [visit]
  split <;> simp_all

theorem visitLeaf_silent {leaf : Leaf} (h : leaf.isSilent = true) (t : Trail) :
    (p.visitLeaf t d leaf).2 = t := by
  cases leaf <;> first | rfl | cases h

/-- Visiting types in order enters what they visit, in order. -/
theorem visitAll_trail {ds : List Descriptor}
    (ih : ∀ d ∈ ds, ∀ t, (p.visit t d).2 = (p.visited d).foldl p.enter t) (t : Trail) :
    (p.visitAll t ds).2 = (ds.flatMap p.visited).foldl p.enter t := by
  induction ds generalizing t with
  | nil => rw [visitAll]; rfl
  | cons d rest ihrest =>
    rw [visitAll, List.flatMap_cons, List.foldl_append, ← ih d List.mem_cons_self t]
    exact ihrest (fun a ha => ih a (List.mem_cons_of_mem d ha)) _

/-- Visiting a type enters its visited types in preorder. -/
theorem visit_trail (p : Projector) (d : Descriptor) (t : Trail) :
    (p.visit t d).2 = (p.visited d).foldl p.enter t := by
  induction d using p.rule_induction generalizing t with
  | step d r hr hfits ih =>
    rw [visit_eq, hr, visited_eq, List.foldl_cons]
    cases hfits with
    | silent hs hrole hcomponents =>
      rw [hcomponents, enter, hrole]
      exact visitLeaf_silent hs t
    | enumeration hrole hcomponents =>
      rw [hcomponents, enter, hrole]
      rfl
    | unknown hrole hcomponents =>
      rw [hcomponents, enter, hrole]
      rfl
    | @map key value hrole hcomponents =>
      rw [hcomponents, enter, hrole]
      -- The value is visited on the trail that the key has left.
      have hkey := ih key (by simp [Rule.parts]) t
      have hvalue := ih value (by simp [Rule.parts]) (p.visit t key).2
      show (p.visit (p.visit t key).2 value).2 = _
      rw [hvalue, hkey, List.flatMap_cons, List.flatMap_singleton, List.foldl_append]
    | @array element hrole hcomponents =>
      rw [hcomponents, enter, hrole, List.flatMap_singleton]
      exact ih element (by simp [Rule.parts]) t
    | complex hrole hcomponents =>
      rw [hcomponents, enter, hrole]
      exact visitAll_trail ih (t.register d.unwrap.type)

end Projector

end TypeProjection
