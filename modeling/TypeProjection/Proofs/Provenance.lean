import TypeProjection.Catalog.Document
import TypeProjection.Proofs.Visits

/-!
# Where types come from

A catalog is built by entering definitions, each under its own definition name. This file follows
what comes out of it: the types that references denote, and all that is visited when one of them is
projected. Main statement: a class, an interface or an enumeration among them has the namespace and
the name of the one definition that the catalog knows by its definition name (`Provides.declares`),
however it is closed over arguments.
-/

namespace TypeProjection

namespace Catalog

/-! ## Catalogs that can be built -/

/-- The catalogs that can be built: nothing or the host's library to start from, then one definition
after another, whether they are accepted or not. -/
inductive Built : Catalog → Prop where
  | empty : Built .empty
  | library : Built .library
  | define {c : Catalog} (built : Built c) (definition : Definition) : Built (c.define definition).2
  | withRoots {c : Catalog} (built : Built c) (roots : List Reference) :
      Built { c with roots := roots }

/-- A definition that is accepted is in order and has a new name, under which its type is entered. -/
theorem define_ok {c : Catalog} {definition : Definition} {d : Descriptor}
    (h : (c.define definition).1 = .ok d) :
    blankPart? definition = none ∧ c.get? definition.toDescriptor.definitionName = none ∧
      d = definition.toDescriptor ∧
      (c.define definition).2 = c.enter definition.toDescriptor := by
  unfold define at h ⊢
  split at h
  · cases h
  · rename_i hvalid
    split at h
    · cases h
    · rename_i hnew
      refine ⟨hvalid, ?_, (Except.ok.inj h).symm, congrArg Prod.snd (if_neg hnew)⟩
      simpa [Table.contains, get?] using hnew

/-- A definition whose name is taken is refused, and the catalog is left as it was. -/
theorem define_of_contains {c : Catalog} {definition : Definition}
    (hvalid : blankPart? definition = none)
    (htaken : c.types.contains definition.toDescriptor.definitionName = true) :
    c.define definition =
      (.error (.duplicateDefinition definition.toDescriptor.definitionName), c) := by
  rw [define, hvalid]
  exact if_pos htaken

/-- A definition that is refused leaves the catalog as it was. -/
theorem define_error {c : Catalog} {definition : Definition} {e : CatalogError}
    (h : (c.define definition).1 = .error e) : (c.define definition).2 = c := by
  unfold define at h ⊢
  split at h
  · rfl
  · split at h
    · rename_i htaken
      exact congrArg Prod.snd (if_pos htaken)
    · cases h

theorem Built.defineAll {c c' : Catalog} {definitions : List Definition} (hc : c.Built)
    (h : c.defineAll definitions = .ok c') : c'.Built := by
  induction definitions generalizing c with
  | nil =>
    obtain rfl := Except.ok.inj h
    exact hc
  | cons definition rest ih =>
    have hnext := hc.define definition
    rw [Catalog.defineAll] at h
    split at h
    · cases h
    · rename_i hdefine
      rw [hdefine] at hnext
      exact ih hnext h

/-- The catalog of a text is built. -/
theorem built_ofText {text : String} {c : Catalog} (h : ofText text = .ok c) : c.Built := by
  unfold ofText at h
  split at h
  · unfold ofDocument at h
    split at h
    · cases h
    · rename_i hdefine
      obtain rfl := Except.ok.inj h
      exact (Built.library.defineAll hdefine).withRoots _
  · cases h

/-! ## Entries are definitions under their own names -/

/-- The entry at a definition name is the type of a definition that has the name. -/
def Keyed (c : Catalog) : Prop :=
  ∀ key d, c.get? key = some d →
    ∃ definition, blankPart? definition = none ∧ d = definition.toDescriptor ∧
      d.definitionName = key

theorem get?_enter (c : Catalog) (d : Descriptor) (key : String) :
    (c.enter d).get? key = if d.definitionName = key then some d else c.get? key :=
  Table.get?_insert c.types d.definitionName key d

theorem Keyed.enter {c : Catalog} (hc : c.Keyed) {definition : Definition}
    (hvalid : blankPart? definition = none) : (c.enter definition.toDescriptor).Keyed := by
  intro key d h
  rw [get?_enter] at h
  split at h
  · rename_i hkey
    obtain rfl := Option.some.inj h
    exact ⟨definition, hvalid, rfl, hkey⟩
  · exact hc key d h

theorem Keyed.enterAll {definitions : List Definition} {c : Catalog} (hc : c.Keyed)
    (hvalid : ∀ definition ∈ definitions, blankPart? definition = none) :
    (definitions.foldl (fun c d => c.enter d.toDescriptor) c).Keyed := by
  induction definitions generalizing c with
  | nil => exact hc
  | cons definition rest ih =>
    have hc' := hc.enter (hvalid definition List.mem_cons_self)
    exact ih hc' fun d hd => hvalid d (List.mem_cons_of_mem _ hd)

theorem blankPart?_library :
    ∀ definition ∈ Library.definitions, blankPart? definition = none := by
  decide +kernel

theorem Keyed.define {c : Catalog} (hc : c.Keyed) (definition : Definition) :
    (c.define definition).2.Keyed := by
  cases hresult : (c.define definition).1 with
  | error e =>
    rw [define_error hresult]
    exact hc
  | ok d =>
    obtain ⟨hvalid, _, _, hnext⟩ := define_ok hresult
    rw [hnext]
    exact hc.enter hvalid

/-- A type that was defined is known by its definition name. -/
theorem get?_define {c : Catalog} {definition : Definition} {d : Descriptor}
    (h : (c.define definition).1 = .ok d) :
    (c.define definition).2.get? d.definitionName = some d := by
  obtain ⟨_, _, rfl, hnext⟩ := define_ok h
  rw [hnext, get?_enter, if_pos rfl]

/-- What is entered in a catalog is a definition that is in order, under its own name. -/
theorem Built.keyed {c : Catalog} (hc : c.Built) : c.Keyed := by
  induction hc with
  | empty =>
    intro key d h
    cases h
  | library =>
    refine Keyed.enterAll ?_ blankPart?_library
    intro key d h
    cases h
  | define _ definition ih => exact ih.define definition
  | withRoots _ _ ih => exact ih

/-! ## Growth -/

/-- The second catalog knows all that the first one knows, by the same names. -/
def Extends (c c' : Catalog) : Prop := ∀ key d, c.get? key = some d → c'.get? key = some d

theorem Extends.refl (c : Catalog) : c.Extends c := fun _ _ h => h

theorem Extends.trans {c c' c'' : Catalog} (h : c.Extends c') (h' : c'.Extends c'') :
    c.Extends c'' :=
  fun key d hd => h' key d (h key d hd)

theorem define_extends (c : Catalog) (definition : Definition) :
    c.Extends (c.define definition).2 := by
  cases hresult : (c.define definition).1 with
  | error e =>
    rw [define_error hresult]
    exact .refl c
  | ok d =>
    obtain ⟨_, hnew, _, hnext⟩ := define_ok hresult
    intro key e he
    rw [hnext, get?_enter, if_neg, he]
    -- The new name is not taken, so it is not the name of an entry.
    rintro rfl
    rw [hnew] at he
    cases he

/-! ## Provided types -/

/-- The types that a catalog provides: the entries, the entries closed over provided types, arrays
of provided types, and what comes to light inside them, which are the parameters of open definitions
and the empty result of a bare asynchronous wrapper. -/
inductive Provides (c : Catalog) : Descriptor → Prop where
  | entry {key : String} {d : Descriptor} (known : c.get? key = some d) : Provides c d
  | close {key : String} {d : Descriptor} {args : List Descriptor} (known : c.get? key = some d)
      (provided : ∀ a ∈ args, Provides c a) : Provides c (d.close args)
  | arrayOf {element : Descriptor} (provided : Provides c element) : Provides c (.arrayOf element)
  | parameter (name : String) : Provides c (.parameter name)
  | void : Provides c Host.void

theorem Provides.mono {c c' : Catalog} (hext : c.Extends c') {d : Descriptor}
    (h : c.Provides d) : c'.Provides d := by
  induction h with
  | entry known => exact .entry (hext _ _ known)
  | close known _ ih => exact .close (hext _ _ known) ih
  | arrayOf _ ih => exact .arrayOf ih
  | parameter name => exact .parameter name
  | void => exact .void

theorem provides_args {c : Catalog} (hc : c.Keyed) {d a : Descriptor} (h : c.Provides d)
    (ha : a ∈ d.args) : c.Provides a := by
  cases h with
  | entry known =>
    -- The arguments of an entry are its own parameters.
    obtain ⟨definition, _, rfl, _⟩ := hc _ _ known
    obtain ⟨name, _, rfl⟩ := List.mem_map.1 ha
    exact .parameter name
  | close known provided => exact provided a ha
  | arrayOf _ => cases ha
  | parameter name => cases ha
  | void => cases ha

theorem element?_toDescriptor (definition : Definition) :
    definition.toDescriptor.element? = none := by
  cases hkind : definition.kind <;>
    simp [Definition.toDescriptor, Descriptor.element?, Descriptor.kind, hkind,
      DefinitionKind.toKind]

theorem provides_element {c : Catalog} (hc : c.Keyed) {d e : Descriptor} (h : c.Provides d)
    (he : d.element? = some e) : c.Provides e := by
  cases h with
  | entry known =>
    obtain ⟨definition, _, rfl, _⟩ := hc _ _ known
    rw [element?_toDescriptor] at he
    cases he
  | @close _ _ args known _ =>
    obtain ⟨definition, _, rfl, _⟩ := hc _ _ known
    have hnone : (definition.toDescriptor.close args).element? = none :=
      element?_toDescriptor definition
    rw [hnone] at he
    cases he
  | arrayOf provided =>
    obtain rfl := Option.some.inj he
    exact provided
  | parameter name => cases he
  | void => cases he

theorem onlyArg?_mem {d inner : Descriptor} {definition : String}
    (h : d.onlyArg? definition = some inner) : inner ∈ d.args := by
  unfold Descriptor.onlyArg? at h
  split at h
  · split at h
    · rename_i hargs
      obtain rfl := Option.some.inj h
      rw [hargs]
      exact List.mem_singleton_self _
    · cases h
  · cases h

/-- Taking wrappers off a provided type leaves a provided type. -/
theorem provides_unwrap {c : Catalog} (hc : c.Keyed) {d : Descriptor} (h : c.Provides d) :
    c.Provides d.unwrap.type := by
  have hasync : c.Provides d.withoutAsync := by
    unfold Descriptor.withoutAsync
    split
    · cases hargs : d.args with
      | nil => exact .void
      | cons a rest => exact provides_args hc h (by simp [hargs])
    · exact h
  have hresult : c.Provides d.withoutAsync.withoutActionResult := by
    unfold Descriptor.withoutActionResult
    cases hinner : d.withoutAsync.onlyArg? Host.actionResult with
    | none => exact hasync
    | some inner => exact provides_args hc hasync (onlyArg?_mem hinner)
  unfold Descriptor.unwrap Descriptor.withoutNullable
  split
  · rename_i hinner
    exact provides_args hc hresult (onlyArg?_mem hinner)
  · exact hresult

theorem components_cases {p : Projector} {d a : Descriptor} (h : a ∈ p.components d) :
    a ∈ d.args ∨ d.element? = some a := by
  unfold Projector.components at h
  split at h
  · cases h
  · split at h
    · split at h
      · rename_i hargs
        exact Or.inl (hargs ▸ h)
      · cases h
    · split at h
      · rename_i he
        exact Or.inr (by rw [he, List.mem_singleton.1 h])
      · split at h
        · exact Or.inl (List.mem_of_mem_head? (Option.mem_toList.1 h))
        · split at h
          · exact Or.inl h
          · cases h

/-- All that is visited in a provided type is provided. -/
theorem provides_visited {c : Catalog} (hc : c.Keyed) (p : Projector) {d : Descriptor}
    (h : c.Provides d) : ∀ x ∈ p.visited d, c.Provides x := by
  induction d using p.components_induction with
  | step d ih =>
    have hself := provides_unwrap hc h
    intro x hx
    rw [Projector.visited_eq, List.mem_cons] at hx
    rcases hx with rfl | hx
    · exact hself
    obtain ⟨a, ha, hxa⟩ := List.mem_flatMap.1 hx
    refine ih a ha ?_ x hxa
    rcases components_cases ha with hargs | helement
    · exact provides_args hc hself hargs
    · exact provides_element hc hself helement

/-! ## What references denote -/

/-- The types that references denote: the entries, the entries closed over at least one such type,
and arrays of such types. -/
inductive Denotes (c : Catalog) : Descriptor → Prop where
  | entry {key : String} {d : Descriptor} (known : c.get? key = some d) : Denotes c d
  | close {key : String} {d : Descriptor} {args : List Descriptor} (known : c.get? key = some d)
      (nonempty : args ≠ []) (denoted : ∀ a ∈ args, Denotes c a) : Denotes c (d.close args)
  | arrayOf {element : Descriptor} (denoted : Denotes c element) : Denotes c (.arrayOf element)

theorem Denotes.provides {c : Catalog} {d : Descriptor} (h : c.Denotes d) : c.Provides d := by
  induction h with
  | entry known => exact .entry known
  | close known _ _ ih => exact .close known ih
  | arrayOf _ ih => exact .arrayOf ih

theorem lookup_ok {c : Catalog} {name : String} {d : Descriptor}
    (h : c.lookup name = .ok d) : c.get? name = some d := by
  unfold lookup at h
  split at h
  · rename_i known
    rw [known, Except.ok.inj h]
  · cases h

theorem denotes_resolveReversed (c : Catalog) :
    ∀ (name : List Char) {d : Descriptor}, c.resolveReversed name = .ok d → c.Denotes d := by
  intro name
  induction name using resolveReversed.induct c with
  | case1 before e herror _ =>
    intro d h
    rw [resolveReversed, herror] at h
    cases h
  | case2 before element helement ih =>
    intro d h
    rw [resolveReversed, helement] at h
    obtain rfl := Except.ok.inj h
    exact .arrayOf (ih helement)
  | case3 name hname =>
    intro d h
    rw [resolveReversed] at h
    · exact .entry (lookup_ok h)
    · exact hname

theorem resolveAll_ne_nil {c : Catalog} {references : List Reference} {ds : List Descriptor}
    (hne : references ≠ []) (h : c.resolveAll references = .ok ds) : ds ≠ [] := by
  cases references with
  | nil => exact absurd rfl hne
  | cons reference rest =>
    rw [resolveAll] at h
    split at h
    · cases h
    · split at h
      · cases h
      · rw [← Except.ok.inj h]
        exact List.cons_ne_nil _ _

mutual

/-- What a reference is resolved to is a type that references denote. -/
theorem denotes_resolve (c : Catalog) :
    ∀ (reference : Reference) {d : Descriptor}, c.resolve reference = .ok d → c.Denotes d
  | .named name, d, h => by
      rw [resolve] at h
      exact c.denotes_resolveReversed _ h
  | .array element, d, h => by
      rw [resolve] at h
      split at h
      · cases h
      · rename_i e helement
        obtain rfl := Except.ok.inj h
        exact .arrayOf (c.denotes_resolve element helement)
  | .generic name args, d, h => by
      rw [resolve] at h
      split at h
      · cases h
      · rename_i definition hlookup
        have known := lookup_ok hlookup
        split at h
        · cases h
        · split at h
          · obtain rfl := Except.ok.inj h
            exact .entry known
          · rename_i hargs
            split at h
            · cases h
            · rename_i ds hds
              obtain rfl := Except.ok.inj h
              have hne : args ≠ [] := by simpa using hargs
              exact .close known (resolveAll_ne_nil hne hds) (c.denotes_resolveAll args hds)

theorem denotes_resolveAll (c : Catalog) :
    ∀ (references : List Reference) {ds : List Descriptor},
      c.resolveAll references = .ok ds → ∀ d ∈ ds, c.Denotes d
  | [], ds, h => by
      obtain rfl := Except.ok.inj h
      intro d hd
      cases hd
  | reference :: rest, ds, h => by
      rw [resolveAll] at h
      split at h
      · cases h
      · rename_i d hd
        split at h
        · cases h
        · rename_i ds' hds
          obtain rfl := Except.ok.inj h
          intro a ha
          rcases List.mem_cons.1 ha with rfl | ha
          · exact c.denotes_resolve reference hd
          · exact c.denotes_resolveAll rest hds a ha

end

/-- What a reference is resolved to is provided. -/
theorem provides_resolve (c : Catalog) (reference : Reference) {d : Descriptor}
    (h : c.resolve reference = .ok d) : c.Provides d :=
  (c.denotes_resolve reference h).provides

/-! ## Declared types -/

/-- A type is declared if the catalog knows its definition name, and the entry is the type of a
definition with the same namespace and the same name. -/
def Declares (c : Catalog) (d : Descriptor) : Prop :=
  ∃ definition : Definition,
    blankPart? definition = none ∧
      c.get? d.definitionName = some definition.toDescriptor ∧
      d.namespaceName? = definition.namespaceName? ∧ d.name = definition.markedName

theorem Declares.mono {c c' : Catalog} (hext : c.Extends c') {d : Descriptor}
    (h : c.Declares d) : c'.Declares d := by
  obtain ⟨definition, hvalid, known, hns, hname⟩ := h
  exact ⟨definition, hvalid, hext _ _ known, hns, hname⟩

/-- A provided class, interface or enumeration is declared. -/
theorem Provides.declares {c : Catalog} (hc : c.Keyed) {d : Descriptor} (h : c.Provides d)
    (hkind : (d.isClass || d.isInterface || d.isEnum) = true) : c.Declares d := by
  cases h with
  | entry known =>
    obtain ⟨definition, hvalid, rfl, rfl⟩ := hc _ _ known
    exact ⟨definition, hvalid, known, rfl, rfl⟩
  | close known _ =>
    obtain ⟨definition, hvalid, rfl, rfl⟩ := hc _ _ known
    exact ⟨definition, hvalid, known, rfl, rfl⟩
  | arrayOf _ => cases hkind
  | parameter name => cases hkind
  | void => cases hkind

/-- Declared types with one definition name have one namespace and one name. -/
theorem Declares.congr {c : Catalog} {a b : Descriptor} (ha : c.Declares a) (hb : c.Declares b)
    (h : a.definitionName = b.definitionName) :
    a.namespaceName? = b.namespaceName? ∧ a.name = b.name := by
  obtain ⟨A, _, hA, hans, haname⟩ := ha
  obtain ⟨B, _, hB, hbns, hbname⟩ := hb
  rw [h, hB] at hA
  have heq : B.toDescriptor = A.toDescriptor := Option.some.inj hA
  have hns : B.namespaceName? = A.namespaceName? := congrArg Descriptor.namespaceName? heq
  have hname : B.markedName = A.markedName := congrArg Descriptor.name heq
  exact ⟨by rw [hans, hbns, hns], by rw [haname, hbname, hname]⟩

end Catalog

namespace Projector

theorem kind_of_isDeclared {p : Projector} {d : Descriptor} (h : p.isDeclared d = true) :
    (d.isClass || d.isInterface || d.isEnum) = true := by
  by_cases hkind : (d.isClass || d.isInterface || d.isEnum) = true
  · exact hkind
  exfalso
  rw [Bool.not_eq_true, Bool.or_eq_false_iff] at hkind
  obtain ⟨hclass, henum⟩ := hkind
  have hrole : p.role d = .silent ∨ p.role d = .unknown := by
    simp only [role, hclass, henum]
    split
    · exact Or.inl rfl
    · split
      · rename_i h; cases h
      · split
        · exact Or.inl rfl
        · exact Or.inr rfl
  rcases hrole with hrole | hrole
  · rw [isDeclared, hrole] at h
    cases h
  · rw [isDeclared, hrole] at h
    cases h

/-- What a projection of a provided type registers is declared in the catalog. -/
theorem declares_of_visited {c : Catalog} (hc : c.Keyed) (p : Projector) {d x : Descriptor}
    (h : c.Provides d) (hx : x ∈ p.visited d) (hdeclared : p.isDeclared x = true) :
    c.Declares x :=
  (Catalog.provides_visited hc p h x hx).declares hc (kind_of_isDeclared hdeclared)

end Projector

end TypeProjection
