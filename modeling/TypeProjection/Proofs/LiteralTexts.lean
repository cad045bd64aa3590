import TypeProjection.Proofs.Texts
import TypeProjection.Proofs.UnionGrammar

/-!
# Expressions with literal texts

A literal text in an expression may be a union, and whether it is one is not looked at when the text
around it is written. So an expression may be read as something else than it means. This file says
what the text of an expression shows (`alternatives`), what the expression means (`meaning`), and when
the two agree.
-/

namespace TypeProjection

open UnionGrammar

namespace TypeExpr

/-- Adds null as an alternative, if wanted. -/
def orNullIf (wanted : Bool) (e : TypeExpr) : TypeExpr :=
  if wanted then union [e, named "null"] else e

/-! ## Brackets behind a union -/

/-- Brackets behind a union bind to its last alternative. -/
def bracketLast : List TypeExpr → List TypeExpr
  | [] => []
  | [e] => [array e]
  | e :: next :: rest => e :: bracketLast (next :: rest)

theorem bracketLast_cons (e : TypeExpr) {es : List TypeExpr} (h : es ≠ []) :
    bracketLast (e :: es) = e :: bracketLast es := by
  cases es with
  | nil => exact absurd rfl h
  | cons next rest => rfl

theorem ofAlternatives_singleton (e : TypeExpr) : ofAlternatives [e] = e := rfl

theorem ofAlternatives_of_length_ne {es : List TypeExpr} (h : es.length ≠ 1) :
    ofAlternatives es = union es := by
  cases es with
  | nil => rfl
  | cons e rest =>
    cases rest with
    | nil => exact absurd rfl h
    | cons next rest => rfl

theorem ofAlternatives_eq_iff {es : List TypeExpr} {e : TypeExpr} (h : ∀ es, e ≠ union es) :
    ofAlternatives es = e ↔ es = [e] := by
  constructor
  · intro heq
    by_cases hlength : es.length = 1
    · obtain ⟨e', rfl⟩ := List.length_eq_one_iff.1 hlength
      rw [← heq, ofAlternatives_singleton]
    · rw [ofAlternatives_of_length_ne hlength] at heq
      exact absurd heq.symm (h es)
  · rintro rfl
    rfl

theorem bracketLast_eq_singleton_iff {es : List TypeExpr} {e : TypeExpr} :
    bracketLast es = [array e] ↔ es = [e] := by
  constructor
  · intro h
    cases es with
    | nil => cases h
    | cons e' rest =>
      cases rest with
      | nil =>
        cases h
        rfl
      | cons next rest =>
        have hlength := congrArg List.length h
        cases rest <;> simp [bracketLast] at hlength
  · rintro rfl
    rfl

theorem ofAlternatives_concat_eq_iff {es : List TypeExpr} {e last : TypeExpr}
    (h : ∀ es, last ≠ union es) : ofAlternatives (es ++ [last]) = union [e, last] ↔ es = [e] := by
  cases es with
  | nil =>
    constructor
    · intro heq
      exact absurd heq (h _)
    · intro heq
      cases heq
  | cons e' rest =>
    have hlength : (e' :: rest ++ [last]).length ≠ 1 := by simp
    rw [ofAlternatives_of_length_ne hlength, union.injEq]
    show e' :: rest ++ [last] = [e] ++ [last] ↔ _
    exact List.append_left_inj [last]

end TypeExpr

/-! ## Expressions as they are read and as they are meant -/

namespace Expr

open TypeExpr (ofAlternatives bracketLast)

/-- The alternatives of an expression as a part of another. What is known to be a union stands in
parentheses. -/
def embed (isUnion : Bool) (es : List TypeExpr) : List TypeExpr :=
  if isUnion then [ofAlternatives es] else es

theorem ofAlternatives_embed (isUnion : Bool) (es : List TypeExpr) :
    ofAlternatives (embed isUnion es) = ofAlternatives es := by
  cases isUnion <;> rfl

section

variable (reading : String → List TypeExpr)

mutual

/-- The alternatives that the text of an expression shows, for given ones of literal texts. -/
def alternatives : Expr → List TypeExpr
  | named text => [.named text]
  | apply name args => [.apply name (readAll args)]
  | array element => bracketLast (embed element.isUnion element.alternatives)
  | map key value => [.map (ofAlternatives key.alternatives) (ofAlternatives value.alternatives)]
  | orNull type => embed type.isUnion type.alternatives ++ [.named "null"]
  | actionResult => [.actionResult]
  | verbatim text => reading text

def readAll : List Expr → List TypeExpr
  | [] => []
  | e :: rest => ofAlternatives e.alternatives :: readAll rest

end

mutual

/-- What an expression means, each literal text in it as a whole. -/
def meaning : Expr → TypeExpr
  | named text => .named text
  | apply name args => .apply name (meanings args)
  | array element => .array element.meaning
  | map key value => .map key.meaning value.meaning
  | orNull type => .union [type.meaning, .named "null"]
  | actionResult => .actionResult
  | verbatim text => ofAlternatives (reading text)

def meanings : List Expr → List TypeExpr
  | [] => []
  | e :: rest => e.meaning :: meanings rest

end

end

theorem meaning_orNullIf (reading : String → List TypeExpr) (wanted : Bool) (e : Expr) :
    (orNullIf wanted e).meaning reading = .orNullIf wanted (e.meaning reading) := by
  cases wanted <;> rfl

theorem meanings_eq (reading : String → List TypeExpr) (es : List Expr) :
    meanings reading es = es.map (meaning reading) := by
  induction es with
  | nil => rfl
  | cons e rest ih => rw [meanings, ih, List.map_cons]

/-! ### When the two agree -/

/-- The text of an expression shows what the expression means. -/
def IsWhole (reading : String → List TypeExpr) (e : Expr) : Prop :=
  ofAlternatives (e.alternatives reading) = e.meaning reading

variable {reading : String → List TypeExpr}

theorem meaning_ne_union {e : Expr} (hunion : e.isUnion = false)
    (hliteral : ∀ text, e ≠ verbatim text) (es : List TypeExpr) : e.meaning reading ≠ .union es := by
  cases e with
  | named | apply | array | map | actionResult => exact TypeExpr.noConfusion
  | orNull => cases hunion
  | verbatim text => exact absurd rfl (hliteral text)

/-- As a part, an expression has its meaning as its only alternative exactly if it is whole and no
literal text with several alternatives. -/
theorem embed_eq_iff {e : Expr} :
    embed e.isUnion (e.alternatives reading) = [e.meaning reading] ↔
      e.IsWhole reading ∧ ∀ text, e = verbatim text → (reading text).length = 1 := by
  by_cases hliteral : ∃ text, e = verbatim text
  · obtain ⟨text, rfl⟩ := hliteral
    show reading text = [ofAlternatives (reading text)] ↔ _
    constructor
    · intro h
      refine ⟨rfl, ?_⟩
      rintro _ ⟨⟩
      exact congrArg List.length h
    · rintro ⟨-, h⟩
      obtain ⟨e, he⟩ := List.length_eq_one_iff.1 (h text rfl)
      rw [he]
      rfl
  have hne : ∀ text, e ≠ verbatim text := fun text h => hliteral ⟨text, h⟩
  have hvacuous : ∀ text, e = verbatim text → (reading text).length = 1 :=
    fun text h => absurd h (hne text)
  rw [and_iff_left hvacuous, IsWhole]
  cases hunion : e.isUnion with
  | true =>
    -- A union with null is put into parentheses.
    rw [embed, if_pos rfl, List.cons.injEq, and_iff_left rfl]
  | false =>
    rw [embed, if_neg Bool.false_ne_true,
      TypeExpr.ofAlternatives_eq_iff (meaning_ne_union hunion hne)]

theorem isWhole_named (text : String) : (named text).IsWhole reading := rfl

theorem isWhole_array {e : Expr} : (array e).IsWhole reading ↔
    e.IsWhole reading ∧ ∀ text, e = verbatim text → (reading text).length = 1 := by
  rw [IsWhole, alternatives, meaning,
    TypeExpr.ofAlternatives_eq_iff (fun _ => TypeExpr.noConfusion),
    TypeExpr.bracketLast_eq_singleton_iff, embed_eq_iff]

theorem isWhole_orNullIf {e : Expr} (hne : ∀ text, e ≠ verbatim text) (wanted : Bool) :
    (orNullIf wanted e).IsWhole reading ↔ e.IsWhole reading := by
  cases wanted with
  | false => exact Iff.rfl
  | true =>
    have hvacuous : ∀ text, e = verbatim text → (reading text).length = 1 :=
      fun text h => absurd h (hne text)
    show (orNull e).IsWhole reading ↔ _
    rw [IsWhole, alternatives, meaning,
      TypeExpr.ofAlternatives_concat_eq_iff (fun _ => TypeExpr.noConfusion), embed_eq_iff,
      and_iff_left hvacuous]

theorem isWhole_map {key value : Expr} :
    (map key value).IsWhole reading ↔ key.IsWhole reading ∧ value.IsWhole reading := by
  rw [IsWhole, alternatives, meaning, TypeExpr.ofAlternatives_singleton, TypeExpr.map.injEq]
  exact Iff.rfl

theorem readAll_eq_meanings_iff {es : List Expr} :
    readAll reading es = meanings reading es ↔ ∀ e ∈ es, e.IsWhole reading := by
  induction es with
  | nil => simp [readAll, meanings]
  | cons e rest ih =>
    rw [readAll, meanings, List.cons.injEq, ih, List.forall_mem_cons]
    exact Iff.rfl

theorem isWhole_apply {name : String} {args : List Expr} :
    (apply name args).IsWhole reading ↔ ∀ e ∈ args, e.IsWhole reading := by
  rw [IsWhole, alternatives, meaning, TypeExpr.ofAlternatives_singleton, TypeExpr.apply.injEq,
    and_iff_right rfl, readAll_eq_meanings_iff]

end Expr

/-! ## Texts of expressions are derived -/

namespace UnionGrammar.Phrase

theorem tree_ne_nil : ∀ phrase : Phrase .type, phrase.tree ≠ []
  | single _ => List.cons_ne_nil _ _
  | either _ _ => List.cons_ne_nil _ _

/-- Brackets behind a type are brackets behind its last item. -/
theorem exists_bracketed : ∀ phrase : Phrase .type, ∃ bracketed : Phrase .type,
    bracketed.chars = phrase.chars ++ ['[', ']'] ∧
      bracketed.tree = TypeExpr.bracketLast phrase.tree
  | single item => ⟨single (array item), rfl, rfl⟩
  | either item rest => by
      obtain ⟨bracketed, hchars, htree⟩ := exists_bracketed rest
      refine ⟨either item bracketed, by simp [hchars], ?_⟩
      rw [tree, tree, htree, TypeExpr.bracketLast_cons _ rest.tree_ne_nil]

/-- A type may be continued by one more alternative. -/
theorem exists_continued (alternative : Phrase .item) : ∀ phrase : Phrase .type,
    ∃ continued : Phrase .type,
      continued.chars = phrase.chars ++ (bar ++ alternative.chars) ∧
        continued.tree = phrase.tree ++ [alternative.tree]
  | single item => ⟨either item (single alternative), rfl, rfl⟩
  | either item rest => by
      obtain ⟨continued, hchars, htree⟩ := exists_continued alternative rest
      refine ⟨either item continued, by simp [hchars], ?_⟩
      rw [tree, tree, htree, List.cons_append]

end UnionGrammar.Phrase

namespace Expr

open Grammar (Path isPath comma)
open TypeExpr (ofAlternatives)

variable {reading : String → List TypeExpr}

/-- The text of an expression is derived with its alternatives. -/
def Shown (reading : String → List TypeExpr) (e : Expr) : Prop :=
  Alternatives e.print (e.alternatives reading)

theorem shown_named {text : String} (h : isPath text = true) : (named text).Shown reading :=
  ⟨.single (.atom (.name ⟨text, h⟩)), rfl, rfl⟩

theorem shown_actionResult : actionResult.Shown reading :=
  ⟨.single (.atom .actionResult), rfl, rfl⟩

/-- Where an expression is a part, its text, maybe in parentheses, is derived with the alternatives
of the part. -/
theorem Shown.embed {e : Expr} (h : e.Shown reading) :
    Alternatives (parenthesize e.isUnion e.print)
      (Expr.embed e.isUnion (e.alternatives reading)) := by
  obtain ⟨phrase, hchars, htree⟩ := h
  cases e.isUnion with
  | false => exact ⟨phrase, hchars, htree⟩
  | true =>
    refine ⟨.single (.atom (.group phrase)), ?_, congrArg (fun es => [ofAlternatives es]) htree⟩
    simp [parenthesize, hchars]

theorem Shown.array {e : Expr} (h : e.Shown reading) : (array e).Shown reading := by
  obtain ⟨phrase, hchars, htree⟩ := h.embed
  obtain ⟨bracketed, hbracketed, htree'⟩ := phrase.exists_bracketed
  refine ⟨bracketed, ?_, by rw [htree', htree, alternatives]⟩
  rw [hbracketed, hchars, print, String.toList_append]
  rfl

theorem Shown.orNull {e : Expr} (h : e.Shown reading) : (orNull e).Shown reading := by
  have hnull : isPath "null" = true := by decide +kernel
  obtain ⟨phrase, hchars, htree⟩ := h.embed
  obtain ⟨continued, hcontinued, htree'⟩ :=
    Phrase.exists_continued (.atom (.name ⟨"null", hnull⟩)) phrase
  refine ⟨continued, ?_, by rw [htree', htree, alternatives]; rfl⟩
  rw [hcontinued, hchars, print, String.toList_append]
  simp [bar]

theorem Shown.map {key value : Expr} (hkey : key.Shown reading)
    (hvalue : value.Shown reading) : (map key value).Shown reading := by
  obtain ⟨keyPhrase, hkeyChars, hkeyTree⟩ := hkey
  obtain ⟨valuePhrase, hvalueChars, hvalueTree⟩ := hvalue.embed
  refine ⟨.single (.atom (.map keyPhrase valuePhrase)), ?_, ?_⟩
  · show Grammar.mapOpen ++ (keyPhrase.chars ++ (Grammar.mapMiddle ++
      (valuePhrase.chars ++ Grammar.mapClose))) = _
    rw [print, hkeyChars, hvalueChars]
    simp only [String.toList_append, List.append_assoc]
    rfl
  · show [TypeExpr.map (ofAlternatives keyPhrase.tree) (ofAlternatives valuePhrase.tree)] = _
    rw [hkeyTree, hvalueTree, ofAlternatives_embed, alternatives]

/-- The texts of arguments, with commas between them, are derived as those arguments. -/
theorem exists_unionArgs {es : List Expr} (h : ∀ e ∈ es, e.Shown reading) (hne : es ≠ []) :
    ∃ phrase : Phrase .args, phrase.chars = (", ".intercalate (printAll es)).toList ∧
      phrase.tree = readAll reading es := by
  induction es with
  | nil => exact absurd rfl hne
  | cons e rest ih =>
    obtain ⟨phrase, hchars, htree⟩ := h e List.mem_cons_self
    cases rest with
    | nil =>
      refine ⟨.last phrase, ?_, congrArg (fun es => [ofAlternatives es]) htree⟩
      simpa [printAll] using hchars
    | cons next rest =>
      obtain ⟨phrases, hargs, hargsTree⟩ :=
        ih (fun e he => h e (List.mem_cons_of_mem _ he)) (List.cons_ne_nil _ _)
      refine ⟨.more phrase phrases, ?_, ?_⟩
      · rw [Phrase.chars, hchars, hargs]
        simp [printAll, comma]
      · rw [Phrase.tree, htree, hargsTree]
        rfl

theorem shown_apply {name : String} {args : List Expr} (hname : isPath name = true)
    (hne : args ≠ []) (hargs : ∀ e ∈ args, e.Shown reading) : (apply name args).Shown reading := by
  obtain ⟨phrase, hchars, htree⟩ := exists_unionArgs hargs hne
  refine ⟨.single (.atom (.apply ⟨name, hname⟩ phrase)), ?_, ?_⟩
  · show name.toList ++ '<' :: (phrase.chars ++ ['>']) = _
    rw [hchars, print]
    simp only [String.toList_append, List.append_assoc]
    rfl
  · show [TypeExpr.apply name phrase.tree] = _
    rw [htree, alternatives]

theorem pathClosed_shown : PathClosed (Shown reading) where
  named := shown_named
  apply := shown_apply
  array := Shown.array
  map := Shown.map
  orNull := Shown.orNull
  actionResult := shown_actionResult

end Expr

end TypeProjection
