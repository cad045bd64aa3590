import TypeProjection.Proofs.Registration

/-!
# Where entries are placed

The clients of a registry register types and rename namespaces to modules, in any order. An entry is
placed once, in the module that its namespace is renamed to at that time. This file reads the place of
a type off the history of the registry (`moduleOf?_of_first`): it is the place of the first type that
was registered for its definition, and neither later registrations nor later renamings count.
-/

namespace TypeProjection

/-! ## Histories -/

/-- What is done to a registry. -/
inductive Change where
  | register (d : Descriptor)
  | withModule (ns module : String)

/-- The namespace that a change renames, and the module that it is renamed to. -/
def Change.renaming? : Change → Option (String × String)
  | register _ => none
  | withModule ns module => some (ns, module)

/-- The module that a namespace has been renamed to in the end, or the namespace itself. -/
def Change.moduleAfter (changes : List Change) (ns : String) : String :=
  ((changes.filterMap renaming?).reverse.lookup ns).getD ns

/-- The first registration of a type's definition: what was done before, and the type that was
registered, which may be another instantiation. -/
structure FirstRegistration (changes : List Change) (d : Descriptor) (before : List Change)
    (e : Descriptor) : Prop where
  cut : ∃ after, changes = before ++ .register e :: after
  definitionName : e.definitionName = d.definitionName
  first : ∀ x, .register x ∈ before → x.definitionName ≠ d.definitionName

namespace Registry

def change (r : Registry) : Change → Registry
  | .register d => r.register d
  | .withModule ns module => r.withModule ns module

def changeAll (r : Registry) (changes : List Change) : Registry := changes.foldl change r

/-- The registry with a history. -/
def ofChanges (changes : List Change) : Registry := (new .empty).changeAll changes

theorem changeAll_cons (r : Registry) (c : Change) (rest : List Change) :
    r.changeAll (c :: rest) = (r.change c).changeAll rest := by
  rw [changeAll, changeAll, List.foldl_cons]

theorem changeAll_append (r : Registry) (changes later : List Change) :
    r.changeAll (changes ++ later) = (r.changeAll changes).changeAll later := by
  rw [changeAll, changeAll, changeAll, List.foldl_append]

/-- A new registry with a table of modules is one whose namespaces were renamed one after another. -/
theorem changeAll_withModule (modules : Table String) (pairs : List (String × String)) :
    (new modules).changeAll (pairs.map fun pair => .withModule pair.1 pair.2) =
      new (modules.insertAll pairs) := by
  induction pairs generalizing modules with
  | nil => rfl
  | cons pair rest ih =>
    rw [List.map_cons, changeAll_cons]
    exact ih (modules.insert pair.1 pair.2)

/-! ## One change and many -/

theorem change_extends (r : Registry) (c : Change) : Extends r (r.change c) := by
  cases c with
  | register d => exact r.register_extends d
  | withModule ns module => exact ⟨List.prefix_rfl, fun _ _ h => h⟩

theorem changeAll_extends (r : Registry) (changes : List Change) :
    Extends r (r.changeAll changes) := by
  induction changes generalizing r with
  | nil => exact .refl r
  | cons c rest ih =>
    rw [changeAll_cons]
    exact (r.change_extends c).trans (ih (r.change c))

/-- Nothing but a registration makes a type registered. -/
theorem contains_changeAll {r : Registry} {changes : List Change} {d : Descriptor} :
    (r.changeAll changes).contains d = true ↔
      r.contains d = true ∨ ∃ x, .register x ∈ changes ∧ x.definitionName = d.definitionName := by
  induction changes generalizing r with
  | nil => simp [changeAll]
  | cons c rest ih =>
    rw [changeAll_cons, ih]
    cases c with
    | register e =>
      rw [change, contains_register, or_assoc, eq_comm (a := d.definitionName)]
      simp [or_and_right, exists_or]
    | withModule ns module =>
      have hsame : (r.withModule ns module).contains d = r.contains d := rfl
      simp [change, hsame]

theorem modules_changeAll (r : Registry) (changes : List Change) :
    (r.changeAll changes).modules = r.modules.insertAll (changes.filterMap Change.renaming?) := by
  induction changes generalizing r with
  | nil => rfl
  | cons c rest ih =>
    rw [changeAll_cons, ih]
    cases c with
    | register d => rw [change, modules_register]; rfl
    | withModule ns module => rfl

theorem moduleName_ofChanges (changes : List Change) :
    (ofChanges changes).moduleName = Change.moduleAfter changes := by
  funext ns
  rw [moduleName, ofChanges, modules_changeAll, Table.get?_insertAll]
  exact congrArg (fun module? => Option.getD module? ns) (Option.or_none)

/-! ## The first registration -/

/-- What is registered has been registered for a first time. -/
theorem exists_firstRegistration {changes : List Change} {d : Descriptor}
    (h : (ofChanges changes).contains d = true) :
    ∃ before e, FirstRegistration changes d before e := by
  induction changes using List.reverseRecOn with
  | nil => cases h
  | append_singleton changes c ih =>
    by_cases hold : (ofChanges changes).contains d = true
    · obtain ⟨before, e, ⟨after, rfl⟩, hname, hfirst⟩ := ih hold
      exact ⟨before, e, ⟨after ++ [c], by simp⟩, hname, hfirst⟩
    · -- The last change has registered the type, and none has before.
      rw [ofChanges, contains_changeAll] at h hold
      rw [not_or] at hold
      obtain ⟨x, hx, hname⟩ := h.resolve_left hold.1
      have hunregistered : ∀ y, .register y ∈ changes → y.definitionName ≠ d.definitionName :=
        fun y hy hsame => hold.2 ⟨y, hy, hsame⟩
      rcases List.mem_append.1 hx with hx | hx
      · exact absurd hname (hunregistered x hx)
      · exact ⟨changes, x, ⟨[], by rw [List.mem_singleton.1 hx]⟩, hname, hunregistered⟩

variable {changes before : List Change} {d e : Descriptor}

/-- A definition is not registered before its first registration, and its entry is kept behind it. -/
theorem extends_of_first (h : FirstRegistration changes d before e) :
    (ofChanges before).contains e = false ∧
      Extends ((ofChanges before).register e) (ofChanges changes) := by
  obtain ⟨⟨after, rfl⟩, hname, hfirst⟩ := h
  constructor
  · rw [← Bool.not_eq_true, ofChanges, contains_changeAll, not_or]
    refine ⟨Bool.false_ne_true, ?_⟩
    rintro ⟨x, hx, hsame⟩
    exact hfirst x hx (hsame.trans hname)
  · rw [ofChanges, ofChanges, changeAll_append, changeAll_cons]
    exact changeAll_extends _ after

theorem find?_of_first (h : FirstRegistration changes d before e) :
    (ofChanges changes).find? d = some e := by
  obtain ⟨hnew, hextends⟩ := extends_of_first h
  have hentry : (ofChanges changes).find? e = some e :=
    (hextends.find?_eq (contains_register_self _ e)).trans (find?_register_self hnew)
  rw [find?, ← h.definitionName]
  exact hentry

/-- An entry is in the module that its namespace had been renamed to when it was registered. -/
theorem moduleOf?_of_first (h : FirstRegistration changes d before e) :
    (ofChanges changes).moduleOf? d =
      e.namespaceName?.map fun ns => ⟨Change.moduleAfter before ns, e.name⟩ := by
  obtain ⟨hnew, hextends⟩ := extends_of_first h
  have hentry : (ofChanges changes).moduleOf? e = (ofChanges before).memberFor? e :=
    (hextends.moduleOf?_eq (contains_register_self _ e)).trans (moduleOf?_register_self hnew)
  rw [memberFor?, moduleName_ofChanges] at hentry
  rw [moduleOf?, ← h.definitionName]
  exact hentry

end Registry

end TypeProjection
