import TypeProjection.Proofs.ArraysAndLists
import TypeProjection.Proofs.Markers

/-!
# Pretty names and arrays

An array has no generic arguments, so the name shown to people is its full name, whatever its element
is. This file compares the pretty name with the name that has angle brackets throughout. They are the
same unless an array of a generic type is shown: from there on the text holds the element's full name,
and it leaves the readable name right behind the bare name of that type (`prettyName_arrayOf_exact`).
-/

namespace TypeProjection

/-! ## Texts that part -/

/-- Two texts begin alike and then have different characters. -/
def Diverge (a b : List Char) : Prop :=
  ∃ front x y, x ≠ y ∧ front ++ [x] <+: a ∧ front ++ [y] <+: b

namespace Diverge

variable {a b : List Char}

theorem ne (h : Diverge a b) : a ≠ b := by
  rintro rfl
  obtain ⟨front, x, y, hxy, ha, hb⟩ := h
  have hprefix : front ++ [x] <+: front ++ [y] := List.prefix_of_prefix_length_le ha hb (by simp)
  have hlast := hprefix.eq_of_length (by simp)
  simp only [List.append_cancel_left_eq, List.cons.injEq, and_true] at hlast
  exact hxy hlast

theorem append (h : Diverge a b) (s t : List Char) : Diverge (a ++ s) (b ++ t) := by
  obtain ⟨front, x, y, hxy, ha, hb⟩ := h
  exact ⟨front, x, y, hxy, ha.trans (List.prefix_append a s), hb.trans (List.prefix_append b t)⟩

theorem behind (h : Diverge a b) (front : List Char) : Diverge (front ++ a) (front ++ b) := by
  obtain ⟨before, x, y, hxy, ha, hb⟩ := h
  refine ⟨front ++ before, x, y, hxy, ?_, ?_⟩
  · rw [List.append_assoc, List.prefix_append_right_inj]
    exact ha
  · rw [List.append_assoc, List.prefix_append_right_inj]
    exact hb

theorem of_cons {x y : Char} (h : x ≠ y) (s t : List Char) : Diverge (x :: s) (y :: t) :=
  ⟨[], x, y, h, ⟨s, rfl⟩, ⟨t, rfl⟩⟩

end Diverge

namespace Descriptor

/-! ## Readable names -/

mutual

/-- The name in which every generic type shows its arguments in angle brackets, that of an array's
element included. -/
def readableName : Descriptor → String
  | named ns name _ args _ _ =>
    if args.isEmpty then qualify ns name
    else qualify ns (ArityMarker.strip name) ++ "<" ++ ", ".intercalate (readableNames args) ++ ">"
  | arrayOf element => element.readableName ++ "[]"

def readableNames : List Descriptor → List String
  | [] => []
  | d :: rest => d.readableName :: readableNames rest

end

/-- What is left of a type when every array around it is taken off. -/
def innermost : Descriptor → Descriptor
  | named ns name kind args isOpen contracts => named ns name kind args isOpen contracts
  | arrayOf element => element.innermost

mutual

/-- Whether the type is an array of a generic type, through any number of arrays, or an argument of
it hides arguments. -/
def hidesArguments : Descriptor → Bool
  | named _ _ _ args _ _ => anyHides args
  | arrayOf element => element.innermost.isGeneric

def anyHides : List Descriptor → Bool
  | [] => false
  | d :: rest => d.hidesArguments || anyHides rest

end

variable {ns : Option String} {name : String} {kind : Kind} {args : List Descriptor} {isOpen : Bool}
  {contracts : Contracts}

/-! ## Names of generic types -/

theorem readableName_arrayOf (element : Descriptor) :
    (arrayOf element).readableName.toList = element.readableName.toList ++ ['[', ']'] := by
  rw [readableName, String.toList_append]
  rfl

theorem readableName_named (h : args ≠ []) :
    (named ns name kind args isOpen contracts).readableName.toList =
      (qualify ns (ArityMarker.strip name)).toList ++
        '<' :: ((", ".intercalate (readableNames args)).toList ++ ['>']) := by
  have hne : args.isEmpty ≠ true := by simpa using h
  rw [readableName, if_neg hne]
  simp

theorem prettyName_arrayOf (element : Descriptor) :
    (arrayOf element).prettyName = (arrayOf element).fullName := by
  rw [prettyName]

theorem prettyName_named (h : args ≠ []) :
    (named ns name kind args isOpen contracts).prettyName.toList =
      (qualify ns (ArityMarker.strip name)).toList ++
        '<' :: ((", ".intercalate (prettyNames args)).toList ++ ['>']) := by
  have hne : args.isEmpty ≠ true := by simpa using h
  rw [prettyName, if_neg hne]
  simp

theorem exists_qualify_eq_append (ns : Option String) :
    ∃ front : List Char, ∀ name, (qualify ns name).toList = front ++ name.toList := by
  cases ns with
  | none => exact ⟨[], fun _ => rfl⟩
  | some text => exact ⟨(text ++ ".").toList, fun name => by simp [qualify]⟩

/-- Before a bracket, a full name is a definition name before a bracket. -/
theorem exists_fullName_eq_append (s : List Char) :
    ∃ rest, (named ns name kind args isOpen contracts).fullName.toList ++ '[' :: s =
      (qualify ns name).toList ++ '[' :: rest := by
  rw [fullName]
  split
  · exact ⟨s, rfl⟩
  · exact ⟨(",".intercalate (bracketedNames args)).toList ++ ']' :: '[' :: s, by simp⟩

/-- Behind the bare name of a generic type its full name goes on with the arity marker or a bracket,
and its readable name with an angle bracket. -/
theorem diverge_named (s t : List Char) :
    Diverge ((named ns name kind args isOpen contracts).fullName.toList ++ '[' :: s)
      ((qualify ns (ArityMarker.strip name)).toList ++ '<' :: t) := by
  obtain ⟨rest, hfull⟩ := exists_fullName_eq_append s
  obtain ⟨front, hfront⟩ := exists_qualify_eq_append ns
  rw [hfull, hfront, hfront]
  rcases ArityMarker.marks_strip name with hplain | ⟨digits, -, -, hmarked⟩
  · rw [← hplain]
    exact (Diverge.of_cons (by decide) rest t).behind _
  · rw [hmarked, List.append_assoc, List.append_assoc, List.append_assoc]
    exact ((Diverge.of_cons (by decide) _ t).behind _).behind _

/-- Arrays put the same brackets behind both names, so these part inside the element. -/
theorem diverge_of_innermost : ∀ {d : Descriptor}, d.innermost.isGeneric = true → ∀ s t,
    Diverge (d.fullName.toList ++ '[' :: s) (d.readableName.toList ++ t)
  | named ns name kind args isOpen contracts, h, s, t => by
    have hargs : args ≠ [] := by simpa [innermost, isGeneric, Descriptor.args] using h
    rw [readableName_named hargs, List.append_assoc]
    exact diverge_named s _
  | arrayOf element, h, s, t => by
    rw [fullName_arrayOf, readableName_arrayOf, List.append_assoc, List.append_assoc]
    exact diverge_of_innermost (d := element) h _ _

theorem fullName_eq_readableName : ∀ {d : Descriptor}, d.innermost.isGeneric = false →
    d.fullName = d.readableName
  | named ns name kind args isOpen contracts, h => by
    obtain rfl : args = [] := by simpa [innermost, isGeneric, Descriptor.args] using h
    simp [fullName, readableName]
  | arrayOf element, h => by
    rw [fullName, readableName, fullName_eq_readableName (d := element) h]

/-! ## Pretty names -/

mutual

theorem prettyName_eq_readableName :
    ∀ {d : Descriptor}, d.hidesArguments = false → d.prettyName = d.readableName
  | named ns name kind args isOpen contracts, h => by
    rw [prettyName, readableName, prettyNames_eq_readableNames h]
    split
    · rename_i hargs
      simp [fullName, hargs]
    · rfl
  | arrayOf element, h => fullName_eq_readableName (d := arrayOf element) h

theorem prettyNames_eq_readableNames :
    ∀ {ds : List Descriptor}, anyHides ds = false → prettyNames ds = readableNames ds
  | [], _ => rfl
  | d :: rest, h => by
    rw [anyHides, Bool.or_eq_false_iff] at h
    rw [prettyNames, readableNames, prettyName_eq_readableName h.1,
      prettyNames_eq_readableNames h.2]

end

mutual

theorem diverge_of_hidesArguments : ∀ {d : Descriptor}, d.hidesArguments = true →
    Diverge d.prettyName.toList d.readableName.toList
  | named ns name kind args isOpen contracts, h => by
    have hargs : args ≠ [] := by
      rintro rfl
      cases h
    rw [prettyName_named hargs, readableName_named hargs]
    exact (((diverge_of_anyHides h).append _ _).behind ['<']).behind _
  | arrayOf element, h => by
    rw [prettyName_arrayOf, fullName_arrayOf, readableName_arrayOf]
    exact diverge_of_innermost h _ _

/-- The texts of a list part in the first item that hides arguments. -/
theorem diverge_of_anyHides : ∀ {ds : List Descriptor}, anyHides ds = true →
    Diverge (", ".intercalate (prettyNames ds)).toList
      (", ".intercalate (readableNames ds)).toList
  | [d], h => by
    have hd : d.hidesArguments = true := by simpa [anyHides] using h
    simpa [prettyNames, readableNames] using diverge_of_hidesArguments hd
  | d :: next :: rest, h => by
    rw [prettyNames, readableNames, prettyNames, readableNames, String.intercalate_cons_cons,
      String.intercalate_cons_cons, ← prettyNames, ← readableNames]
    simp only [String.toList_append, List.append_assoc]
    cases hd : d.hidesArguments with
    | true => exact (diverge_of_hidesArguments hd).append _ _
    | false =>
      have hrest : anyHides (next :: rest) = true := by
        rw [anyHides, hd, Bool.false_or] at h
        exact h
      rw [prettyName_eq_readableName hd]
      exact ((diverge_of_anyHides hrest).behind _).behind _

end

theorem prettyName_eq_fullName {d : Descriptor} (h : d.isGeneric = false) :
    d.prettyName = d.fullName := by
  cases d with
  | named ns name kind args isOpen contracts =>
    obtain rfl : args = [] := by simpa [isGeneric, Descriptor.args] using h
    simp [prettyName]
  | arrayOf element => exact prettyName_arrayOf element

/-- The pretty name of an array of a generic type is not that of the generic type with brackets. -/
theorem prettyName_arrayOf_ne {d : Descriptor} (h : d.isGeneric = true) :
    (arrayOf d).prettyName ≠ d.prettyName ++ "[]" := by
  cases d with
  | arrayOf element => cases h
  | named ns name kind args isOpen contracts =>
    have hargs : args ≠ [] := by simpa [isGeneric, Descriptor.args] using h
    intro heq
    have hchars := congrArg String.toList heq
    rw [String.toList_append, prettyName_named hargs, List.append_assoc, prettyName_arrayOf,
      fullName_arrayOf] at hchars
    exact (diverge_named [']'] _).ne hchars

/-- The pretty name of an array is its element's full name and a pair of brackets. That is the
element's pretty name and the brackets exactly if the element is not generic. The pretty name of any
type has angle brackets throughout exactly if no array of a generic type is shown in it. -/
theorem prettyName_arrayOf_exact (d : Descriptor) :
    (arrayOf d).prettyName = d.fullName ++ "[]" ∧
      ((arrayOf d).prettyName = d.prettyName ++ "[]" ↔ d.isGeneric = false) ∧
      (d.prettyName = d.readableName ↔ d.hidesArguments = false) := by
  have harray : (arrayOf d).prettyName = d.fullName ++ "[]" := by
    rw [prettyName_arrayOf, fullName]
  refine ⟨harray, ⟨?_, ?_⟩, ⟨?_, prettyName_eq_readableName⟩⟩
  · intro heq
    rw [Bool.eq_false_iff]
    exact fun hgeneric => prettyName_arrayOf_ne hgeneric heq
  · intro hplain
    rw [harray, prettyName_eq_fullName hplain]
  · intro heq
    rw [Bool.eq_false_iff]
    exact fun hhides => (diverge_of_hidesArguments hhides).ne (congrArg String.toList heq)

end Descriptor

namespace Catalog

/-- A list that a reference resolves to has a readable name, and an array of such lists has not. -/
theorem lists_shown_encoded :
    ∃ lists, library.resolve
        (.generic "System.Collections.Generic.List`1" [.named "System.Int32"]) = .ok lists ∧
      lists.prettyName = "System.Collections.Generic.List<System.Int32>" ∧
      (Descriptor.arrayOf lists).prettyName =
        "System.Collections.Generic.List`1[[System.Int32]][]" ∧
      (Descriptor.arrayOf lists).prettyName ≠ lists.prettyName ++ "[]" := by
  have hnumber : library.get? "System.Int32" =
      some (Definition.toDescriptor ⟨some "System", "Int32", .structType, [], []⟩) := by
    rw [get?_library]
    rfl
  have hname : ¬ SpellsArray "System.Int32" := by
    rw [spellsArray_iff]
    decide
  have hresolve : library.resolve (.named "System.Int32") =
      .ok (Definition.toDescriptor ⟨some "System", "Int32", .structType, [], []⟩) := by
    rw [resolve, resolveName_of_not_spellsArray hname, lookup_eq_ok hnumber]
  exact ⟨_, resolve_list (fun _ _ known => known) hresolve, by decide, by decide, by decide⟩

end Catalog

end TypeProjection
