import TypeProjection.Proofs.Parsing

/-!
# A grammar with unions

Literal texts from the settings may hold unions of any types, not only of a type with null. This
grammar has them. Brackets bind tighter than a union, and a union in parentheses is an atom. The
reader beside it goes over a text once, from the left, and reads every phrase back (`isRead`), so a
text has one tree at most (`Derives.unique`).

    type ::= item | item " | " type
    item ::= atom | item "[]"
    atom ::= path | path "<" args ">" | "{ [key: " type "]: " type " }" | "(" type ")"
           | "any /* IActionResult */"
    args ::= type | type ", " args
-/

namespace TypeProjection

/-- A type expression of the target, unions of any alternatives included. -/
inductive TypeExpr where
  | named (text : String)
  | apply (name : String) (args : List TypeExpr)
  | array (element : TypeExpr)
  | map (key value : TypeExpr)
  | union (alternatives : List TypeExpr)
  | actionResult

/-- The only alternative, or the union of several. -/
def TypeExpr.ofAlternatives : List TypeExpr → TypeExpr
  | [e] => e
  | es => union es

namespace UnionGrammar

open Grammar

/-! ## Phrases -/

/-- What a phrase of a level stands for. A type is given by its alternatives. -/
abbrev Meaning : Level → Type
  | .atom | .item => TypeExpr
  | .type | .args => List TypeExpr

/-- The derivations of the grammar, one constructor for each production. -/
inductive Phrase : Level → Type where
  | name (path : Path) : Phrase .atom
  | apply (path : Path) (args : Phrase .args) : Phrase .atom
  | map (key value : Phrase .type) : Phrase .atom
  | group (inner : Phrase .type) : Phrase .atom
  | actionResult : Phrase .atom
  | atom (phrase : Phrase .atom) : Phrase .item
  | array (element : Phrase .item) : Phrase .item
  | single (item : Phrase .item) : Phrase .type
  | either (item : Phrase .item) (rest : Phrase .type) : Phrase .type
  | last (arg : Phrase .type) : Phrase .args
  | more (arg : Phrase .type) (rest : Phrase .args) : Phrase .args

/-- What stands between the alternatives of a union. -/
def bar : List Char := [' ', '|', ' ']

namespace Phrase

@[simp] def chars : {level : Level} → Phrase level → List Char
  | _, name path => path.text.toList
  | _, apply path args => path.text.toList ++ '<' :: (args.chars ++ ['>'])
  | _, map key value => mapOpen ++ (key.chars ++ (mapMiddle ++ (value.chars ++ mapClose)))
  | _, group inner => '(' :: (inner.chars ++ [')'])
  | _, actionResult => 'a' :: 'n' :: 'y' :: note
  | _, atom phrase => phrase.chars
  | _, array element => element.chars ++ ['[', ']']
  | _, single item => item.chars
  | _, either item rest => item.chars ++ (bar ++ rest.chars)
  | _, last arg => arg.chars
  | _, more arg rest => arg.chars ++ (comma ++ rest.chars)

/-- The tree of a phrase. A union in parentheses is one alternative of the union around it. -/
def tree : {level : Level} → Phrase level → Meaning level
  | _, name path => TypeExpr.named path.text
  | _, apply path args => TypeExpr.apply path.text args.tree
  | _, map key value => TypeExpr.map (.ofAlternatives key.tree) (.ofAlternatives value.tree)
  | _, group inner => TypeExpr.ofAlternatives inner.tree
  | _, actionResult => TypeExpr.actionResult
  | _, atom phrase => phrase.tree
  | _, array element => TypeExpr.array element.tree
  | _, single item => [item.tree]
  | _, either item rest => item.tree :: rest.tree
  | _, last arg => [TypeExpr.ofAlternatives arg.tree]
  | _, more arg rest => TypeExpr.ofAlternatives arg.tree :: rest.tree

/-- How deep the reader has to go for a phrase. It reads brackets in a loop, so they take nothing. -/
def depth : {level : Level} → Phrase level → Nat
  | _, name _ => 1
  | _, apply _ args => args.depth + 1
  | _, map key value => max key.depth value.depth + 1
  | _, group inner => inner.depth + 1
  | _, actionResult => 1
  | _, atom phrase => phrase.depth + 1
  | _, array element => element.depth
  | _, single item => item.depth + 1
  | _, either item rest => max item.depth rest.depth + 1
  | _, last arg => arg.depth + 1
  | _, more arg rest => max arg.depth rest.depth + 1

end Phrase

/-- The grammar derives a text as a union of the given alternatives, or as the only one. -/
def Alternatives (text : String) (es : List TypeExpr) : Prop :=
  ∃ phrase : Phrase .type, phrase.chars = text.toList ∧ phrase.tree = es

/-- The grammar derives a text as the given type expression. -/
def Derives (text : String) (e : TypeExpr) : Prop :=
  ∃ es, Alternatives text es ∧ TypeExpr.ofAlternatives es = e

/-! ## A reader -/

/-- Reads something from the beginning of a text and gives the rest. -/
abbrev Reader (α : Type) := List Char → Option (α × List Char)

def readNamed (args : Reader (List TypeExpr)) : Reader TypeExpr := fun cs => do
  let (path, cs) ← readPath cs
  match after? ['<'] cs with
  | some cs =>
    let (es, cs) ← args cs
    let cs ← after? ['>'] cs
    return (.apply path.text es, cs)
  | none =>
    match after? note cs with
    | some rest =>
      if path.text = "any" then return (.actionResult, rest) else return (.named path.text, cs)
    | none => return (.named path.text, cs)

def readMap (type : Reader (List TypeExpr)) : Reader TypeExpr := fun cs => do
  let cs ← after? mapOpen cs
  let (key, cs) ← type cs
  let cs ← after? mapMiddle cs
  let (value, cs) ← type cs
  let cs ← after? mapClose cs
  return (.map (.ofAlternatives key) (.ofAlternatives value), cs)

def readGroup (type : Reader (List TypeExpr)) : Reader TypeExpr := fun cs => do
  let cs ← after? ['('] cs
  let (es, cs) ← type cs
  let cs ← after? [')'] cs
  return (.ofAlternatives es, cs)

/-- Reads an atom. Its first character says which one. -/
def readAtom (type args : Reader (List TypeExpr)) : Reader TypeExpr := fun cs =>
  if cs.head? = some '(' then readGroup type cs
  else if cs.head? = some '\x7b' then readMap type cs
  else readNamed args cs

def readBrackets (e : TypeExpr) : List Char → TypeExpr × List Char
  | '[' :: ']' :: rest => readBrackets (.array e) rest
  | rest => (e, rest)

/-- Reads the first of a list and, behind a separator, what follows it. -/
def readList (separator : List Char) (first : Reader TypeExpr) (more : Reader (List TypeExpr)) :
    Reader (List TypeExpr) := fun cs => do
  let (e, cs) ← first cs
  match after? separator cs with
  | none => return ([e], cs)
  | some cs =>
    let (es, cs) ← more cs
    return (e :: es, cs)

/-- Reads a type as one expression. -/
def readWhole (type : Reader (List TypeExpr)) : Reader TypeExpr := fun cs =>
  (type cs).map fun (es, rest) => (.ofAlternatives es, rest)

/-- Reads a phrase of a level in which phrases are nested at most so deep. -/
def read : Nat → (level : Level) → Reader (Meaning level)
  | 0, _ => fun _ => none
  | depth + 1, .atom => readAtom (read depth .type) (read depth .args)
  | depth + 1, .item => fun cs => (read depth .atom cs).map fun (e, rest) => readBrackets e rest
  | depth + 1, .type => readList bar (read depth .item) (read depth .type)
  | depth + 1, .args => readList comma (readWhole (read depth .type)) (read depth .args)

/-! ## What each reader needs -/

section Readers

variable {type args more : Reader (List TypeExpr)} {cs cs' rest : List Char} {e : TypeExpr}
  {es : List TypeExpr}

theorem readGroup_eq (h : type cs = some (es, ')' :: rest)) :
    readGroup type ('(' :: cs) = some (.ofAlternatives es, rest) := by
  have hopen : after? ['('] ('(' :: cs) = some cs := after?_append ['('] cs
  have hclose : after? [')'] (')' :: rest) = some rest := after?_append [')'] rest
  simp [readGroup, hopen, h, hclose]

theorem readMap_eq {key value : List TypeExpr} (hkey : type cs = some (key, mapMiddle ++ cs'))
    (hvalue : type cs' = some (value, mapClose ++ rest)) :
    readMap type (mapOpen ++ cs) =
      some (.map (.ofAlternatives key) (.ofAlternatives value), rest) := by
  simp [readMap, after?_append, hkey, hvalue]

theorem readList_last {separator : List Char} {first : Reader TypeExpr}
    (hfirst : first cs = some (e, rest)) (hrest : after? separator rest = none) :
    readList separator first more cs = some ([e], rest) := by
  simp [readList, hfirst, hrest]

theorem readList_more {separator : List Char} {first : Reader TypeExpr}
    (hfirst : first cs = some (e, separator ++ cs')) (hmore : more cs' = some (es, rest)) :
    readList separator first more cs = some (e :: es, rest) := by
  simp [readList, hfirst, after?_append, hmore]

theorem readNamed_name (path : Path) (hends : Ends rest) :
    readNamed args (path.text.toList ++ rest) = some (.named path.text, rest) := by
  simp [readNamed, readPath_append path hends.name, after?_singleton_eq_none hends.args,
    hends.note]

theorem readNamed_apply (path : Path) (hargs : args cs = some (es, '>' :: rest)) :
    readNamed args (path.text.toList ++ '<' :: cs) = some (.apply path.text es, rest) := by
  have hname := isPathChar_head?_delimiter (c := '<') (by simp [delimiters]) cs
  have hopen : after? ['<'] ('<' :: cs) = some cs := after?_append ['<'] cs
  have hclose : after? ['>'] ('>' :: rest) = some rest := after?_append ['>'] rest
  simp [readNamed, readPath_append path hname, hopen, hargs, hclose]

theorem readNamed_note (path : Path) (hpath : path.text = "any") :
    readNamed args (path.text.toList ++ (note ++ rest)) = some (.actionResult, rest) := by
  have hname : ∀ c, (note ++ rest).head? = some c → isPathChar c = false :=
    isPathChar_head?_delimiter (by simp [delimiters]) _
  have hopen : after? ['<'] (note ++ rest) = none := after?_singleton_eq_none (by simp [note])
  rw [readNamed, readPath_append path hname]
  simp [hopen, after?_append, hpath]

theorem readAtom_path (path : Path) :
    readAtom type args (path.text.toList ++ rest) = readNamed args (path.text.toList ++ rest) := by
  have hgroup : (path.text.toList ++ rest).head? ≠ some '(' :=
    head?_path_ne path rest (by simp [delimiters])
  have hmap : (path.text.toList ++ rest).head? ≠ some '\x7b' :=
    head?_path_ne path rest (by simp [delimiters])
  rw [readAtom, if_neg hgroup, if_neg hmap]

theorem readBrackets_eq (h : rest.head? ≠ some '[') (e : TypeExpr) :
    readBrackets e rest = (e, rest) := by
  unfold readBrackets
  split
  · exact absurd rfl h
  · rfl

end Readers

/-! ## Phrases are read -/

/-- A rest that does not go on with a type: no brackets and no further alternative. -/
structure Stops (rest : List Char) : Prop extends Closes rest where
  bar : after? UnionGrammar.bar rest = none

theorem stops_nil : Stops [] := ⟨closes_nil, rfl⟩

theorem stops_of_mem {c : Char} (hc : c ∈ [')', ']', '>', ',']) (rest : List Char) :
    Stops (c :: rest) := by
  refine ⟨closes_of_mem hc rest, ?_⟩
  have hspace : c ≠ ' ' := by
    rintro rfl
    simp at hc
  simp [after?, bar, Ne.symm hspace]

theorem stops_mapClose (rest : List Char) : Stops (mapClose ++ rest) := ⟨closes_mapClose rest, rfl⟩

theorem ends_bar (rest : List Char) : Ends (bar ++ rest) := ends_space rfl

namespace Phrase

/-- What it means that a phrase is read. An atom ends where it ends, behind an item brackets are read
on, and a type ends where nothing goes on with it. -/
def IsRead : {level : Level} → Phrase level → Prop
  | .atom, phrase => ∀ depth rest, phrase.depth ≤ depth → Ends rest →
      read depth .atom (phrase.chars ++ rest) = some (phrase.tree, rest)
  | .item, phrase => ∀ depth rest, phrase.depth ≤ depth → Ends rest →
      read depth .item (phrase.chars ++ rest) = some (readBrackets phrase.tree rest)
  | .type, phrase => ∀ depth rest, phrase.depth ≤ depth → Stops rest →
      read depth .type (phrase.chars ++ rest) = some (phrase.tree, rest)
  | .args, phrase => ∀ depth rest, phrase.depth ≤ depth →
      read depth .args (phrase.chars ++ '>' :: rest) = some (phrase.tree, '>' :: rest)

theorem IsRead.item {phrase : Phrase .item} (h : phrase.IsRead) {depth : Nat} {rest : List Char}
    (hdepth : phrase.depth ≤ depth) (hends : Ends rest) (hbrackets : rest.head? ≠ some '[') :
    read depth .item (phrase.chars ++ rest) = some (phrase.tree, rest) := by
  rw [h depth rest hdepth hends, readBrackets_eq hbrackets]

theorem IsRead.whole {phrase : Phrase .type} (h : phrase.IsRead) {depth : Nat} {rest : List Char}
    (hdepth : phrase.depth ≤ depth) (hstops : Stops rest) :
    readWhole (read depth .type) (phrase.chars ++ rest) =
      some (.ofAlternatives phrase.tree, rest) := by
  rw [readWhole, h depth rest hdepth hstops]
  rfl

/-- The reader reads every phrase. The induction is on the derivation; the brackets of an array are
read in the loop of its element, so what is said of an item leaves open how the loop goes on. -/
theorem isRead {level : Level} (phrase : Phrase level) : phrase.IsRead := by
  induction phrase with
  | name path =>
    rintro (_ | depth) rest hdepth hends
    · cases hdepth
    · exact (readAtom_path path).trans (readNamed_name path hends)
  | apply path args ihargs =>
    rintro (_ | depth) rest hdepth _
    · cases hdepth
    have hargs := ihargs depth rest (Nat.le_of_succ_le_succ hdepth)
    have hchars : (apply path args).chars ++ rest =
        path.text.toList ++ '<' :: (args.chars ++ '>' :: rest) := by simp
    rw [hchars]
    exact (readAtom_path path).trans (readNamed_apply path hargs)
  | map key value ihkey ihvalue =>
    rintro (_ | depth) rest hdepth _
    · cases hdepth
    obtain ⟨hkeyDepth, hvalueDepth⟩ := Nat.max_le.1 (Nat.le_of_succ_le_succ hdepth)
    have hkey := ihkey depth _ hkeyDepth
      (stops_of_mem (c := ']') (by simp) (':' :: ' ' :: (value.chars ++ (mapClose ++ rest))))
    have hvalue := ihvalue depth _ hvalueDepth (stops_mapClose rest)
    have hchars : (map key value).chars ++ rest =
        mapOpen ++ (key.chars ++ (mapMiddle ++ (value.chars ++ (mapClose ++ rest)))) := by simp
    rw [hchars]
    exact readMap_eq hkey hvalue
  | group inner ih =>
    rintro (_ | depth) rest hdepth _
    · cases hdepth
    have hinner := ih depth _ (Nat.le_of_succ_le_succ hdepth)
      (stops_of_mem (c := ')') (by simp) rest)
    have hchars : (group inner).chars ++ rest = '(' :: (inner.chars ++ ')' :: rest) := by simp
    rw [hchars]
    exact readGroup_eq hinner
  | actionResult =>
    rintro (_ | depth) rest hdepth _
    · cases hdepth
    have hchars : actionResult.chars ++ rest = "any".toList ++ (note ++ rest) := rfl
    rw [hchars]
    exact (readAtom_path ⟨"any", isPath_any⟩).trans (readNamed_note ⟨"any", isPath_any⟩ rfl)
  | atom phrase ih =>
    rintro (_ | depth) rest hdepth hends
    · cases hdepth
    have hatom := ih depth rest (Nat.le_of_succ_le_succ hdepth) hends
    show (read depth .atom (phrase.chars ++ rest)).map _ = _
    rw [hatom]
    rfl
  | array element ih =>
    intro depth rest hdepth _
    have helement := ih depth ('[' :: ']' :: rest) hdepth (ends_brackets _)
    have hchars : (array element).chars ++ rest = element.chars ++ '[' :: ']' :: rest := by simp
    rw [hchars, helement]
    rfl
  | single item ih =>
    rintro (_ | depth) rest hdepth hstops
    · cases hdepth
    have hitem := ih.item (Nat.le_of_succ_le_succ hdepth) hstops.toEnds hstops.brackets
    exact readList_last hitem hstops.bar
  | either item others ihitem ihothers =>
    rintro (_ | depth) rest hdepth hstops
    · cases hdepth
    obtain ⟨hitemDepth, hothersDepth⟩ := Nat.max_le.1 (Nat.le_of_succ_le_succ hdepth)
    have hitem := ihitem.item hitemDepth (ends_bar (others.chars ++ rest)) (by simp [bar])
    have hothers := ihothers depth rest hothersDepth hstops
    have hchars : (either item others).chars ++ rest =
        item.chars ++ (bar ++ (others.chars ++ rest)) := by simp
    rw [hchars]
    exact readList_more hitem hothers
  | last arg ih =>
    rintro (_ | depth) rest hdepth
    · cases hdepth
    have harg := ih.whole (Nat.le_of_succ_le_succ hdepth) (stops_of_mem (c := '>') (by simp) rest)
    exact readList_last harg (by simp [after?, comma])
  | more arg others iharg ihothers =>
    rintro (_ | depth) rest hdepth
    · cases hdepth
    obtain ⟨hargDepth, hothersDepth⟩ := Nat.max_le.1 (Nat.le_of_succ_le_succ hdepth)
    have harg := iharg.whole hargDepth
      (stops_of_mem (c := ',') (by simp) (' ' :: (others.chars ++ '>' :: rest)))
    have hothers := ihothers depth rest hothersDepth
    have hchars : (more arg others).chars ++ '>' :: rest =
        arg.chars ++ (comma ++ (others.chars ++ '>' :: rest)) := by simp
    rw [hchars]
    exact readList_more harg hothers

end Phrase

/-- Two derivations of one text have the same tree. -/
theorem Alternatives.unique {text : String} {es es' : List TypeExpr} (h : Alternatives text es)
    (h' : Alternatives text es') : es = es' := by
  obtain ⟨phrase, hchars, rfl⟩ := h
  obtain ⟨phrase', hchars', rfl⟩ := h'
  have hread := phrase.isRead (max phrase.depth phrase'.depth) [] (Nat.le_max_left _ _) stops_nil
  have hread' := phrase'.isRead (max phrase.depth phrase'.depth) [] (Nat.le_max_right _ _) stops_nil
  rw [hchars, ← hchars', hread'] at hread
  exact (congrArg Prod.fst (Option.some.inj hread)).symm

/-- **The grammar is unambiguous.** A text is derived as one type expression at most. -/
theorem Derives.unique {text : String} {e e' : TypeExpr} (h : Derives text e)
    (h' : Derives text e') : e = e' := by
  obtain ⟨es, hes, rfl⟩ := h
  obtain ⟨es', hes', rfl⟩ := h'
  rw [hes.unique hes']

end UnionGrammar

end TypeProjection
