import Mathlib.Data.Finset.Card
import TypeProjection.Proofs.Registration

/-!
# Runs of a registry

The clients of a registry register types and look types up, in any order. What they read hangs only on
the log of the registrations, which keeps descriptors that share an entry apart: instantiations of one
generic definition, and one qualified name that is split in two ways. This file reads every answer off
that log (`afterAll_reads_log`).

A registry looks types up in a table that it keeps beside the list of its entries, and in which it
stores where they are declared. `Roster` does without that table and works everything out from the
list. It gives the same answers, so the table says what the list says.
-/

namespace TypeProjection

namespace Registry

/-! ## Operations -/

/-- What a client asks of a registry. -/
inductive Operation where
  | register (d : Descriptor)
  | registered
  | size
  | isEmpty
  | contains (d : Descriptor)
  | moduleOf (d : Descriptor)

/-- The type that an operation registers. -/
def Operation.registers? : Operation → Option Descriptor
  | register d => some d
  | _ => none

/-- What a client is told. -/
inductive Answer where
  | done
  | types (ds : List Descriptor)
  | count (n : Nat)
  | truth (b : Bool)
  | member (m? : Option Member)

def answer (r : Registry) : Operation → Answer
  | .register _ => .done
  | .registered => .types r.entries
  | .size => .count r.size
  | .isEmpty => .truth r.isEmpty
  | .contains d => .truth (r.contains d)
  | .moduleOf d => .member (r.moduleOf? d)

/-- The registry after an operation. Only a registration changes it. -/
def after (r : Registry) : Operation → Registry
  | .register d => r.register d
  | _ => r

def afterAll (r : Registry) (operations : List Operation) : Registry := operations.foldl after r

/-- The types that a run registers, in order and with repetitions. -/
def registrations (operations : List Operation) : List Descriptor :=
  operations.filterMap Operation.registers?

theorem afterAll_cons (r : Registry) (operation : Operation) (rest : List Operation) :
    r.afterAll (operation :: rest) = (r.after operation).afterAll rest := by
  rw [afterAll, afterAll, List.foldl_cons]

/-- Look-ups between the registrations change nothing. -/
theorem afterAll_eq_registerAll (r : Registry) (operations : List Operation) :
    r.afterAll operations = r.registerAll (registrations operations) := by
  induction operations generalizing r with
  | nil => rfl
  | cons operation rest ih =>
    rw [afterAll_cons, ih]
    cases operation <;> rfl

/-! ## The log of the registrations -/

/-- The first type of a log for the definition of a type. -/
def firstOf? (log : List Descriptor) (d : Descriptor) : Option Descriptor :=
  log.find? fun e => sameDefinition e d

/-- The log with each definition at its first occurrence alone. -/
def firstOccurrences (log : List Descriptor) : List Descriptor := log.eraseDupsBy sameDefinition

theorem find?_register (r : Registry) (d e : Descriptor) :
    (r.register d).find? e = (r.find? e).or (firstOf? [d] e) := by
  rw [find?, entries_register]
  split
  · rename_i hold
    by_cases hsame : d.definitionName = e.definitionName
    · -- The type is registered already, so the one that is looked up has an entry.
      rw [contains_congr hsame, contains_eq_isSome] at hold
      obtain ⟨x, hx⟩ := Option.isSome_iff_exists.1 hold
      rw [hx, Option.some_or]
      exact hx
    · have hother : firstOf? [d] e = none := by simp [firstOf?, sameDefinition, hsame]
      rw [hother, Option.or_none]
      rfl
  · rw [List.find?_append]
    rfl

/-- The entry for a type is the old one, or the first of the registered types that fits. -/
theorem find?_registerAll (r : Registry) (ds : List Descriptor) (e : Descriptor) :
    (r.registerAll ds).find? e = (r.find? e).or (firstOf? ds e) := by
  induction ds generalizing r with
  | nil => exact Option.or_none.symm
  | cons d rest ih =>
    have hfirst : firstOf? (d :: rest) e = (firstOf? [d] e).or (firstOf? rest e) := by
      rw [firstOf?, ← List.singleton_append, List.find?_append]
      rfl
    rw [registerAll_cons, ih, find?_register, hfirst, Option.or_assoc]

theorem entries_register_sublist (r : Registry) (d : Descriptor) :
    List.Sublist (r.register d).entries (r.entries ++ [d]) := by
  rw [entries_register]
  split
  · exact List.sublist_append_left _ _
  · exact List.Sublist.refl _

theorem entries_registerAll_sublist (r : Registry) (ds : List Descriptor) :
    List.Sublist (r.registerAll ds).entries (r.entries ++ ds) := by
  induction ds generalizing r with
  | nil => rw [List.append_nil]; exact List.Sublist.refl _
  | cons d rest ih =>
    have hstep := (r.entries_register_sublist d).append (List.Sublist.refl rest)
    rw [List.append_assoc] at hstep
    exact (ih (r.register d)).trans hstep

/-- A fresh registry is left with the first occurrences. -/
theorem entries_registerAll_new (modules : Table String) (log : List Descriptor) :
    ((new modules).registerAll log).entries = firstOccurrences log := by
  have hall : (log.filter fun d => !(new modules).contains d) = log :=
    List.filter_eq_self.2 fun _ _ => rfl
  rw [entries_registerAll, unregistered, hall]
  exact List.nil_append _

/-- The size is the number of definitions. -/
theorem size_eq_card (r : Registry) :
    r.size = (r.entries.map Descriptor.definitionName).toFinset.card := by
  rw [List.toFinset_card_of_nodup r.nodup_definitionNames, List.length_map]
  rfl

/-- A fresh registry is left with the definitions of the log. -/
theorem toFinset_definitionNames (modules : Table String) (log : List Descriptor) :
    (((new modules).registerAll log).entries.map Descriptor.definitionName).toFinset =
      (log.map Descriptor.definitionName).toFinset := by
  ext name
  simp only [List.mem_toFinset, List.mem_map]
  constructor
  · rintro ⟨e, he, rfl⟩
    exact ⟨e, (mem_entries_registerAll he).resolve_left (by simp [new]), rfl⟩
  · rintro ⟨e, he, rfl⟩
    exact contains_iff.1 (contains_registerAll.2 (Or.inr ⟨e, he, rfl⟩))

end Registry

/-! ## Working answers out -/

/-- A registry that keeps its entries alone. It goes through them to look a type up, and works out where
the type is declared when it is asked. -/
structure Roster where
  modules : Table String
  entries : List Descriptor

namespace Roster

open Registry (Operation Answer)

def new (modules : Table String) : Roster := ⟨modules, []⟩

def find? (l : Roster) (d : Descriptor) : Option Descriptor :=
  l.entries.find? fun e => e.definitionName == d.definitionName

def register (l : Roster) (d : Descriptor) : Roster :=
  if (l.find? d).isSome then l else { l with entries := l.entries ++ [d] }

def moduleOf? (l : Roster) (d : Descriptor) : Option Member :=
  (l.find? d).bind fun e => e.namespaceName?.map fun ns => ⟨(l.modules.get? ns).getD ns, e.name⟩

def answer (l : Roster) : Operation → Answer
  | .register _ => .done
  | .registered => .types l.entries
  | .size => .count l.entries.length
  | .isEmpty => .truth l.entries.isEmpty
  | .contains d => .truth (l.find? d).isSome
  | .moduleOf d => .member (l.moduleOf? d)

def after (l : Roster) : Operation → Roster
  | .register d => l.register d
  | _ => l

def afterAll (l : Roster) (operations : List Operation) : Roster := operations.foldl after l

end Roster

namespace Registry

/-- What is left of a registry without its table. -/
def roster (r : Registry) : Roster := ⟨r.modules, r.entries⟩

theorem roster_register (r : Registry) (d : Descriptor) :
    (r.register d).roster = r.roster.register d := by
  have hcontains : r.contains d = (r.roster.find? d).isSome := r.contains_eq_isSome d
  rw [roster, modules_register, entries_register, Roster.register, hcontains]
  split <;> rfl

theorem roster_after (r : Registry) (operation : Operation) :
    (r.after operation).roster = r.roster.after operation := by
  cases operation with
  | register d => exact r.roster_register d
  | _ => rfl

/-- The list does not need the table: without it, a run leaves the same entries. -/
theorem roster_afterAll (r : Registry) (operations : List Operation) :
    (r.afterAll operations).roster = r.roster.afterAll operations := by
  induction operations generalizing r with
  | nil => rfl
  | cons operation rest ih =>
    rw [afterAll_cons, ih, roster_after]
    rfl

/-- As long as no namespace is renamed, what is stored is what can be worked out. -/
theorem Current.answer_roster {r : Registry} (h : r.Current) (operation : Operation) :
    r.roster.answer operation = r.answer operation := by
  cases operation with
  | contains d => exact congrArg Answer.truth (r.contains_eq_isSome d).symm
  | moduleOf d => exact congrArg Answer.member (h.moduleOf?_eq d).symm
  | _ => rfl

/-! ## Answers -/

/-- Where a type is declared is said by its first registration and by the last pair of its namespace. -/
theorem moduleOf?_registerAll_new (pairs : List (String × String)) (log : List Descriptor)
    (d : Descriptor) :
    ((new (.ofList pairs)).registerAll log).moduleOf? d =
      (firstOf? log d).bind fun e => e.namespaceName?.map fun ns =>
        ⟨(pairs.reverse.lookup ns).getD ns, e.name⟩ := by
  have hfind : ((new (.ofList pairs)).registerAll log).find? d = firstOf? log d :=
    find?_registerAll _ log d
  have hcurrent := (current_new (.ofList pairs)).registerAll log
  rw [hcurrent.moduleOf?_eq, hfind]
  congr 1
  funext e
  simp only [memberFor?, moduleName, modules_registerAll, new, Table.get?_ofList]

/-- **What a registry answers is read off the log of the registrations.** Its entries are the first
occurrences of the definitions in the log, so its size is the number of the definitions. It contains a
type if the log has a type with the same definition name, and the first such type says where the type
is declared. Later operations add entries at the end, and do not change where a type is declared. A
registry without a table, which goes through its entries, gives the same answers. -/
theorem afterAll_reads_log (pairs : List (String × String)) (operations : List Operation) :
    let r := (new (.ofList pairs)).afterAll operations
    let log := registrations operations
    r.entries = firstOccurrences log ∧
    List.Sublist r.entries log ∧
    (r.entries.map Descriptor.definitionName).Nodup ∧
    r.size = (log.map Descriptor.definitionName).toFinset.card ∧
    (∀ d, r.contains d = true ↔ ∃ e ∈ log, e.definitionName = d.definitionName) ∧
    (∀ d, r.find? d = firstOf? log d) ∧
    (∀ d, r.moduleOf? d = (firstOf? log d).bind fun e => e.namespaceName?.map fun ns =>
      ⟨(pairs.reverse.lookup ns).getD ns, e.name⟩) ∧
    (∀ later, r.entries <+: (r.afterAll later).entries ∧
      ∀ d, r.contains d = true → (r.afterAll later).moduleOf? d = r.moduleOf? d) ∧
    ∀ next, ((Roster.new (.ofList pairs)).afterAll operations).answer next = r.answer next := by
  intro r log
  have hr : r = (new (.ofList pairs)).registerAll log := afterAll_eq_registerAll _ operations
  refine ⟨?entries, ?sublist, r.nodup_definitionNames, ?size, ?contains, ?find, ?moduleOf, ?later,
    ?roster⟩
  case entries =>
    rw [hr]
    exact entries_registerAll_new _ log
  case sublist =>
    rw [hr]
    exact entries_registerAll_sublist _ log
  case size =>
    rw [size_eq_card, hr, toFinset_definitionNames]
  case contains =>
    intro d
    rw [hr, contains_registerAll]
    exact or_iff_right Bool.false_ne_true
  case find =>
    intro d
    rw [hr]
    exact find?_registerAll _ log d
  case moduleOf =>
    intro d
    rw [hr]
    exact moduleOf?_registerAll_new pairs log d
  case later =>
    intro later
    have hextends : Extends r (r.afterAll later) := by
      rw [afterAll_eq_registerAll]
      exact r.registerAll_extends _
    exact ⟨hextends.entries, fun d hd => hextends.moduleOf?_eq hd⟩
  case roster =>
    intro next
    have hroster : (Roster.new (.ofList pairs)).afterAll operations = r.roster :=
      (roster_afterAll (new (.ofList pairs)) operations).symm
    have hcurrent : r.Current := by
      rw [hr]
      exact (current_new _).registerAll log
    rw [hroster, hcurrent.answer_roster]

/-! A generic box is registered twice and looked up by a qualified name that is not split. -/

def shopItem : Descriptor := .named (some "Shop") "Item" .classType [] false .none

def boxOf (content : Descriptor) : Descriptor :=
  .named (some "Shop") "Box`1" .classType [content] false .none

def unsplitBox : Descriptor := .named none "Shop.Box`1" .classType [] false .none

theorem boxes_share_an_entry :
    let r := (new (.ofList [("Shop", "Old"), ("Shop", "Models")])).afterAll
      [.register (boxOf shopItem), .size, .register (boxOf (boxOf shopItem)), .register shopItem]
    r.entries = [boxOf shopItem, shopItem] ∧ r.contains unsplitBox = true ∧
      ∀ later, (r.afterAll later).moduleOf? unsplitBox = some ⟨"Models", "Box`1"⟩ := by
  intro r
  obtain ⟨hentries, -, -, -, hcontains, -, hmodule, hlater, -⟩ := afterAll_reads_log
    [("Shop", "Old"), ("Shop", "Models")]
    [.register (boxOf shopItem), .size, .register (boxOf (boxOf shopItem)), .register shopItem]
  have hbox : r.contains unsplitBox = true :=
    (hcontains _).2 ⟨boxOf shopItem, List.mem_cons_self, by decide⟩
  refine ⟨hentries.trans rfl, hbox, fun later => ?_⟩
  exact ((hlater later).2 _ hbox).trans ((hmodule _).trans (by decide))

end Registry

end TypeProjection
