import Mathlib.Data.List.Induction
import TypeProjection.Registry

/-!
# Registering types in order

A registry only grows: entries are added at the end, and an entry is never changed or moved. So what
is read of a registered type stays the same for ever (`Extends.moduleOf?_eq`), and registering a list
of types adds the first occurrence of each definition that was not there (`entries_registerAll`).
While no namespace is renamed, where a type is declared can just as well be worked out from its entry
(`Current.moduleOf?_eq`).
-/

namespace TypeProjection

namespace Registry

/-! ## Look-up -/

/-- The table has the definition names of the entries. -/
theorem contains_iff {r : Registry} {d : Descriptor} :
    r.contains d = true ↔ ∃ e ∈ r.entries, e.definitionName = d.definitionName := by
  rw [contains, Table.contains_iff, r.in_step, List.mem_map]

/-- Whether a type is registered depends on its definition name alone. -/
theorem contains_congr {r : Registry} {a b : Descriptor} (h : a.definitionName = b.definitionName) :
    r.contains a = r.contains b := by
  rw [contains, contains, h]

/-- No two entries are of one definition. -/
theorem nodup_definitionNames (r : Registry) :
    (r.entries.map Descriptor.definitionName).Nodup := by
  rw [← r.in_step]
  exact r.members.nodup_keys

/-- The list has an entry for a type exactly if the table has one. -/
theorem contains_eq_isSome (r : Registry) (d : Descriptor) :
    r.contains d = (r.find? d).isSome := by
  rw [Bool.eq_iff_iff, contains_iff, find?, List.find?_isSome]
  simp only [beq_iff_eq]

theorem find?_eq_none {r : Registry} {d : Descriptor} (h : r.contains d = false) :
    r.find? d = none := by
  rwa [contains_eq_isSome, Option.isSome_eq_false_iff, Option.isNone_iff_eq_none] at h

theorem moduleOf?_eq_none {r : Registry} {d : Descriptor} (h : r.contains d = false) :
    r.moduleOf? d = none := by
  rw [moduleOf?, get?_of_new h]
  rfl

theorem find?_some {r : Registry} {d e : Descriptor} (h : r.find? d = some e) :
    e ∈ r.entries ∧ e.definitionName = d.definitionName := by
  rw [find?] at h
  exact ⟨List.mem_of_find?_eq_some h, by simpa using List.find?_some h⟩

/-! ## One registration -/

@[simp] theorem modules_register (r : Registry) (d : Descriptor) :
    (r.register d).modules = r.modules := by
  unfold register
  split <;> rfl

theorem register_of_contains {r : Registry} {d : Descriptor} (h : r.contains d = true) :
    r.register d = r :=
  dif_pos h

theorem entries_register (r : Registry) (d : Descriptor) :
    (r.register d).entries = if r.contains d then r.entries else r.entries ++ [d] := by
  unfold register
  split <;> rfl

/-- What is stored stays, and a name that is new is entered with the member that its type has now. -/
theorem get?_register (r : Registry) (d : Descriptor) (name : String) :
    (r.register d).members.get? name =
      (r.members.get? name).or
        (if d.definitionName = name then some (r.memberFor? d) else none) := by
  unfold register
  split
  · rename_i h
    by_cases hname : d.definitionName = name
    · obtain ⟨m?, hm⟩ := Option.isSome_iff_exists.1 h
      rw [← hname, hm, Option.some_or]
    · rw [if_neg hname, Option.or_none]
  · rename_i h
    show (r.members.insert _ _).get? name = _
    rw [Table.get?_insert]
    by_cases hname : d.definitionName = name
    · have hnew := get?_of_new (eq_false_of_ne_true h)
      rw [if_pos hname, if_pos hname, ← hname, hnew, Option.none_or]
    · rw [if_neg hname, if_neg hname, Option.or_none]

theorem contains_register {r : Registry} {d e : Descriptor} :
    (r.register d).contains e = true ↔
      r.contains e = true ∨ e.definitionName = d.definitionName := by
  rw [contains, Table.contains, get?_register, Option.isSome_or, Bool.or_eq_true]
  refine or_congr Iff.rfl ?_
  by_cases hname : d.definitionName = e.definitionName
  · simp [hname]
  · simp [hname, Ne.symm hname]

theorem contains_register_self (r : Registry) (d : Descriptor) :
    (r.register d).contains d = true :=
  contains_register.2 (Or.inr rfl)

theorem find?_register_self {r : Registry} {d : Descriptor} (h : r.contains d = false) :
    (r.register d).find? d = some d := by
  have hold := find?_eq_none h
  rw [find?] at hold ⊢
  rw [entries_register, h, if_neg Bool.false_ne_true, List.find?_append, hold]
  simp

theorem moduleOf?_register_self {r : Registry} {d : Descriptor} (h : r.contains d = false) :
    (r.register d).moduleOf? d = r.memberFor? d := by
  rw [moduleOf?, get?_register, get?_of_new h, if_pos rfl]
  rfl

/-! ## Growth -/

/-- The second registry has the entries of the first in front, and stores the same for them. -/
structure Extends (r r' : Registry) : Prop where
  entries : r.entries <+: r'.entries
  members : ∀ name m?, r.members.get? name = some m? → r'.members.get? name = some m?

namespace Extends

theorem refl (r : Registry) : Extends r r := ⟨List.prefix_rfl, fun _ _ h => h⟩

theorem trans {r r' r'' : Registry} (h : Extends r r') (h' : Extends r' r'') : Extends r r'' :=
  ⟨h.entries.trans h'.entries, fun name m? hm => h'.members name m? (h.members name m? hm)⟩

/-- The entry of a registered type stays the entry of that type. -/
theorem find?_eq {r r' : Registry} (h : Extends r r') {d : Descriptor}
    (hd : r.contains d = true) : r'.find? d = r.find? d := by
  obtain ⟨added, hadded⟩ := h.entries
  rw [contains_eq_isSome] at hd
  obtain ⟨e, he⟩ := Option.isSome_iff_exists.1 hd
  rw [he]
  rw [find?] at he ⊢
  rw [← hadded, List.find?_append, he]
  rfl

/-- A registered type stays where it is. -/
theorem moduleOf?_eq {r r' : Registry} (h : Extends r r') {d : Descriptor}
    (hd : r.contains d = true) : r'.moduleOf? d = r.moduleOf? d := by
  obtain ⟨m?, hm⟩ := Option.isSome_iff_exists.1 hd
  rw [moduleOf?, moduleOf?, hm, h.members _ _ hm]

end Extends

theorem register_extends (r : Registry) (d : Descriptor) : Extends r (r.register d) := by
  refine ⟨?_, fun name m? hm => ?_⟩
  · rw [entries_register]
    split
    · exact List.prefix_rfl
    · exact List.prefix_append _ _
  · rw [get?_register, hm, Option.some_or]

/-! ## Many registrations -/

theorem registerAll_cons (r : Registry) (d : Descriptor) (rest : List Descriptor) :
    r.registerAll (d :: rest) = (r.register d).registerAll rest := by
  rw [registerAll, registerAll, List.foldl_cons]

theorem registerAll_append (r : Registry) (ds later : List Descriptor) :
    r.registerAll (ds ++ later) = (r.registerAll ds).registerAll later := by
  rw [registerAll, registerAll, registerAll, List.foldl_append]

theorem registerAll_concat (r : Registry) (ds : List Descriptor) (d : Descriptor) :
    r.registerAll (ds ++ [d]) = (r.registerAll ds).register d := by
  rw [registerAll_append, registerAll_cons]
  rfl

theorem registerAll_extends (r : Registry) (ds : List Descriptor) :
    Extends r (r.registerAll ds) := by
  induction ds generalizing r with
  | nil => exact Extends.refl r
  | cons d rest ih =>
    rw [registerAll_cons]
    exact (r.register_extends d).trans (ih (r.register d))

/-- Whether two types share an entry. -/
def sameDefinition (a b : Descriptor) : Bool := a.definitionName == b.definitionName

/-- The types of a list that are not registered, each definition at its first occurrence. -/
def unregistered (r : Registry) (ds : List Descriptor) : List Descriptor :=
  (ds.filter fun d => !r.contains d).eraseDupsBy sameDefinition

theorem contains_register_eq (r : Registry) (d e : Descriptor) :
    (r.register d).contains e = (r.contains e || sameDefinition e d) := by
  rw [Bool.eq_iff_iff, contains_register, Bool.or_eq_true, sameDefinition, beq_iff_eq]

/-- Types that are registered already add no entry. -/
theorem registerAll_of_contains {r : Registry} {ds : List Descriptor}
    (h : ∀ d ∈ ds, r.contains d = true) : r.registerAll ds = r := by
  induction ds with
  | nil => rfl
  | cons d rest ih =>
    rw [registerAll_cons, register_of_contains (h d List.mem_cons_self)]
    exact ih fun d hd => h d (List.mem_cons_of_mem _ hd)

/-- The entries after a list of registrations: the old ones, then those that are new. -/
theorem entries_registerAll (r : Registry) (ds : List Descriptor) :
    (r.registerAll ds).entries = r.entries ++ r.unregistered ds := by
  induction ds generalizing r with
  | nil => simp [registerAll, unregistered]
  | cons d rest ih =>
    rw [registerAll_cons, ih]
    by_cases h : r.contains d = true
    · rw [register_of_contains h, unregistered, unregistered, List.filter_cons_of_neg (by simp [h])]
    · have hr : (r.register d).entries = r.entries ++ [d] := by rw [entries_register, if_neg h]
      have hnew : r.unregistered (d :: rest) = d :: (r.register d).unregistered rest := by
        rw [unregistered, List.filter_cons_of_pos (by simp [h]), List.eraseDupsBy_cons,
          List.filter_filter, unregistered]
        congr 3
        funext e
        rw [contains_register_eq]
        cases r.contains e <;> cases sameDefinition e d <;> rfl
      rw [hr, hnew, List.append_assoc]
      rfl

theorem modules_registerAll (r : Registry) (ds : List Descriptor) :
    (r.registerAll ds).modules = r.modules := by
  induction ds generalizing r with
  | nil => rfl
  | cons d rest ih => rw [registerAll_cons, ih, modules_register]

theorem contains_registerAll {r : Registry} {ds : List Descriptor} {e : Descriptor} :
    (r.registerAll ds).contains e = true ↔
      r.contains e = true ∨ ∃ d ∈ ds, d.definitionName = e.definitionName := by
  induction ds generalizing r with
  | nil => simp [registerAll]
  | cons d rest ih =>
    rw [registerAll_cons, ih, contains_register]
    simp only [List.mem_cons, exists_eq_or_imp]
    rw [or_assoc, eq_comm (a := e.definitionName)]

theorem mem_entries_register {r : Registry} {d e : Descriptor}
    (h : e ∈ (r.register d).entries) : e ∈ r.entries ∨ e = d := by
  rw [entries_register] at h
  split at h
  · exact Or.inl h
  · simpa using h

/-- An entry was there before, or it is one of the types that are registered. -/
theorem mem_entries_registerAll {r : Registry} {ds : List Descriptor} {e : Descriptor}
    (h : e ∈ (r.registerAll ds).entries) : e ∈ r.entries ∨ e ∈ ds := by
  induction ds generalizing r with
  | nil => exact Or.inl h
  | cons d rest ih =>
    rcases ih h with h | h
    · rcases mem_entries_register h with h | rfl
      · exact Or.inl h
      · exact Or.inr List.mem_cons_self
    · exact Or.inr (List.mem_cons_of_mem d h)

/-- What a list of registrations adds is what it leaves in a fresh registry, but for the entries that
were there before. -/
theorem entries_registerAll_eq_filter (r : Registry) (ds : List Descriptor) :
    (r.registerAll ds).entries =
      r.entries ++ ((new r.modules).registerAll ds).entries.filter fun e => !r.contains e := by
  induction ds using List.reverseRecOn with
  | nil => exact (List.append_nil _).symm
  | append_singleton ds d ih =>
    rw [registerAll_concat, registerAll_concat]
    generalize hfresh : (new r.modules).registerAll ds = fresh at ih
    generalize hgrown : r.registerAll ds = grown at ih
    -- A type is registered if it was there or if it is registered afresh.
    have hcontains : grown.contains d = (r.contains d || fresh.contains d) := by
      rw [Bool.eq_iff_iff, Bool.or_eq_true, ← hgrown, ← hfresh, contains_registerAll,
        contains_registerAll]
      have hnew : (new r.modules).contains d = false := rfl
      simp [hnew]
    rw [entries_register, entries_register, hcontains]
    cases hold : r.contains d with
    | true =>
      cases hnew : fresh.contains d with
      | true => exact ih
      | false => simpa [hold] using ih
    | false =>
      cases hnew : fresh.contains d with
      | true => exact ih
      | false => simp [hold, ih]

/-! ## Members -/

/-- Each entry is declared where it would be if it were registered now. -/
def Current (r : Registry) : Prop :=
  ∀ e ∈ r.entries, r.members.get? e.definitionName = some (r.memberFor? e)

theorem current_new (modules : Table String) : (new modules).Current := by
  intro e he
  cases he

theorem memberFor?_congr {r r' : Registry} (h : r'.modules = r.modules) :
    r'.memberFor? = r.memberFor? := by
  funext e
  rw [memberFor?, memberFor?]
  simp only [moduleName, h]

theorem Current.register {r : Registry} (h : r.Current) (d : Descriptor) :
    (r.register d).Current := by
  intro e he
  rw [memberFor?_congr (r.modules_register d)]
  rw [entries_register] at he
  split at he
  · exact (r.register_extends d).members _ _ (h e he)
  · rename_i hnew
    rcases List.mem_append.1 he with he | he
    · exact (r.register_extends d).members _ _ (h e he)
    · have hmissing := get?_of_new (eq_false_of_ne_true hnew)
      rw [List.mem_singleton.1 he, get?_register, hmissing, if_pos rfl, Option.none_or]

theorem Current.registerAll {r : Registry} (h : r.Current) (ds : List Descriptor) :
    (r.registerAll ds).Current := by
  induction ds generalizing r with
  | nil => exact h
  | cons d rest ih =>
    rw [registerAll_cons]
    exact ih (h.register d)

/-- Where a type is declared is said by its entry and by the modules. -/
theorem Current.moduleOf?_eq {r : Registry} (h : r.Current) (d : Descriptor) :
    r.moduleOf? d = (r.find? d).bind r.memberFor? := by
  cases hfind : r.find? d with
  | some e =>
    obtain ⟨hmem, hkey⟩ := find?_some hfind
    rw [moduleOf?, ← hkey, h e hmem]
    rfl
  | none =>
    have hcontains : r.contains d = false := by rw [contains_eq_isSome, hfind]; rfl
    rw [moduleOf?_eq_none hcontains]
    rfl

end Registry

end TypeProjection
