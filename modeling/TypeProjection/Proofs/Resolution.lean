import Mathlib.Data.List.Forall2
import Mathlib.Logic.Function.Iterate
import TypeProjection.Proofs.Identity

/-!
# What references resolve to

A reference is a tree of names, and a name may have pairs of brackets behind it. This file says which
references a catalog resolves, to which types, and with which error it refuses the others, each read
off the tree without a word about how it is walked. Main statement: exactly the references whose nodes
are all in order are resolved, to the type that mirrors them; of any other the first faulty node in
preorder decides the error (`resolve_exact`).
-/

namespace TypeProjection

/-! ## Names with brackets -/

/-- A name is its base followed by pairs of brackets, and the base does not end with such a pair. -/
structure Bracketed (name base : String) (pairs : Nat) : Prop where
  spelled : name.toList = base.toList ++ (List.replicate pairs ['[', ']']).flatten
  maximal : ¬ ['[', ']'] <:+ base.toList

theorem exists_bracketed_chars (chars : List Char) :
    ∃ base pairs, chars = base ++ (List.replicate pairs ['[', ']']).flatten ∧
      ¬ ['[', ']'] <:+ base := by
  induction hn : chars.length using Nat.strongRecOn generalizing chars with
  | ind n ih =>
    by_cases hpair : ['[', ']'] <:+ chars
    · obtain ⟨front, rfl⟩ := hpair
      obtain ⟨base, pairs, hfront, hbase⟩ := ih front.length (by simp at hn; omega) front rfl
      refine ⟨base, pairs + 1, ?_, hbase⟩
      rw [hfront, List.replicate_succ', List.flatten_append]
      simp
    · exact ⟨chars, 0, by simp, hpair⟩

/-- Every name can be read as a base with brackets. -/
theorem exists_bracketed_name (name : String) : ∃ base pairs, Bracketed name base pairs := by
  obtain ⟨base, pairs, hname, hbase⟩ := exists_bracketed_chars name.toList
  refine ⟨String.ofList base, pairs, ?_, ?_⟩
  · simpa using hname
  · simpa using hbase

/-! ## Nodes of a reference -/

namespace Reference

mutual

/-- The references that a reference is made of, in preorder. -/
def nodes : Reference → List Reference
  | named name => [named name]
  | array element => array element :: element.nodes
  | generic name args => generic name args :: nodesOfAll args

def nodesOfAll : List Reference → List Reference
  | [] => []
  | r :: rest => r.nodes ++ nodesOfAll rest

end

theorem nodesOfAll_eq (rs : List Reference) : nodesOfAll rs = rs.flatMap nodes := by
  induction rs with
  | nil => rfl
  | cons r rest ih => rw [nodesOfAll, ih, List.flatMap_cons]

/-- Induction over references, with the hypothesis for every argument of a generic one. -/
theorem induction {motive : Reference → Prop} (named : ∀ name, motive (.named name))
    (array : ∀ element, motive element → motive (.array element))
    (generic : ∀ name args, (∀ a ∈ args, motive a) → motive (.generic name args)) :
    ∀ r, motive r
  | .named name => named name
  | .array element => array element (induction named array generic element)
  | .generic name args =>
    generic name args fun a _ => induction named array generic a

end Reference

namespace Catalog

variable {c : Catalog}

/-! ## Lists of references -/

theorem resolveAll_cons_ok {r : Reference} {rest : List Reference} {d : Descriptor}
    (h : c.resolve r = .ok d) : c.resolveAll (r :: rest) = (c.resolveAll rest).map (d :: ·) := by
  rw [resolveAll, h]
  cases c.resolveAll rest <;> rfl

theorem resolveAll_cons_error {r : Reference} {rest : List Reference} {e : CatalogError}
    (h : c.resolve r = .error e) : c.resolveAll (r :: rest) = .error e := by
  rw [resolveAll, h]

/-- A list of references is resolved one by one. -/
theorem resolveAll_eq_ok_iff {rs : List Reference} {ds : List Descriptor} :
    c.resolveAll rs = .ok ds ↔ List.Forall₂ (fun r d => c.resolve r = .ok d) rs ds := by
  induction rs generalizing ds with
  | nil => simp [resolveAll, eq_comm]
  | cons r rest ih =>
    constructor
    · intro h
      cases hr : c.resolve r with
      | error e =>
        rw [resolveAll_cons_error hr] at h
        cases h
      | ok d =>
        rw [resolveAll_cons_ok hr] at h
        cases hrest : c.resolveAll rest with
        | error e =>
          rw [hrest] at h
          cases h
        | ok tail =>
          rw [hrest] at h
          obtain rfl := Except.ok.inj h
          exact .cons hr (ih.1 hrest)
    · intro h
      obtain ⟨d, tail, hd, htail, rfl⟩ := List.forall₂_cons_left_iff.1 h
      rw [resolveAll_cons_ok hd, ih.2 htail]
      rfl

/-- A list of references fails with the error of the first that does not resolve. -/
theorem resolveAll_eq_error_iff {rs : List Reference} {e : CatalogError} :
    c.resolveAll rs = .error e ↔ ∃ before r after, rs = before ++ r :: after ∧
      (∀ b ∈ before, ∃ d, c.resolve b = .ok d) ∧ c.resolve r = .error e := by
  constructor
  · intro h
    induction rs with
    | nil => cases h
    | cons r rest ih =>
      cases hr : c.resolve r with
      | error e' =>
        rw [resolveAll_cons_error hr] at h
        obtain rfl := Except.error.inj h
        exact ⟨[], r, rest, rfl, nofun, hr⟩
      | ok d =>
        rw [resolveAll_cons_ok hr] at h
        cases hrest : c.resolveAll rest with
        | ok ds =>
          rw [hrest] at h
          cases h
        | error e' =>
          rw [hrest] at h
          obtain rfl := Except.error.inj h
          obtain ⟨before, r', after, rfl, hbefore, hr'⟩ := ih hrest
          refine ⟨r :: before, r', after, rfl, ?_, hr'⟩
          intro b hb
          rcases List.mem_cons.1 hb with rfl | hb
          · exact ⟨d, hr⟩
          · exact hbefore b hb
  · rintro ⟨before, r, after, rfl, hbefore, hr⟩
    induction before with
    | nil => exact resolveAll_cons_error hr
    | cons b before ih =>
      obtain ⟨d, hd⟩ := hbefore b List.mem_cons_self
      rw [List.cons_append, resolveAll_cons_ok hd,
        ih fun a ha => hbefore a (List.mem_cons_of_mem b ha)]
      rfl

/-! ## Nodes in order and faulty nodes -/

/-- Whether a node is in order by itself, whatever its parts are: a bare name has a known base, and a
generic reference is to a known definition with as many arguments as that has parameters. -/
def Accepts (c : Catalog) : Reference → Prop
  | .named name => ∃ base pairs d, Bracketed name base pairs ∧ c.get? base = some d
  | .array _ => True
  | .generic name args => ∃ definition : Definition,
      c.get? name = some definition.toDescriptor ∧ args.length = definition.params.length

/-- What is wrong with a node by itself. -/
inductive Faults (c : Catalog) : Reference → CatalogError → Prop where
  | unknownBase {name base : String} {pairs : Nat} (bracketed : Bracketed name base pairs)
      (unknown : c.get? base = none) : Faults c (.named name) (.unknownType base)
  | unknownDefinition {name : String} {args : List Reference} (unknown : c.get? name = none) :
      Faults c (.generic name args) (.unknownType name)
  | arity {name : String} {args : List Reference} {definition : Definition}
      (known : c.get? name = some definition.toDescriptor)
      (mismatch : args.length ≠ definition.params.length) :
      Faults c (.generic name args)
        (.arityMismatch name definition.params.length args.length)

/-- The error of the first node that is not in order. -/
inductive FirstFault (c : Catalog) : List Reference → CatalogError → Prop where
  | here {node : Reference} {rest : List Reference} {e : CatalogError}
      (faults : c.Faults node e) : FirstFault c (node :: rest) e
  | later {node : Reference} {rest : List Reference} {e : CatalogError}
      (accepts : c.Accepts node) (first : FirstFault c rest e) : FirstFault c (node :: rest) e

/-- The type that a reference spells out: as many arrays around an entry as there are pairs of
brackets, an array for an array, and an entry closed over what the arguments spell out, in order. -/
inductive Mirrors (c : Catalog) : Reference → Descriptor → Prop where
  | named {name base : String} {pairs : Nat} {d : Descriptor}
      (bracketed : Bracketed name base pairs) (known : c.get? base = some d) :
      Mirrors c (.named name) (Descriptor.arrayOf^[pairs] d)
  | array {element : Reference} {d : Descriptor} (mirrored : Mirrors c element d) :
      Mirrors c (.array element) (.arrayOf d)
  | definition {name : String} {definition : Definition}
      (known : c.get? name = some definition.toDescriptor) (plain : definition.params = []) :
      Mirrors c (.generic name []) definition.toDescriptor
  | closed {name : String} {definition : Definition} {args : List Reference}
      {ds : List Descriptor} (known : c.get? name = some definition.toDescriptor)
      (nonempty : args ≠ []) (arity : args.length = definition.params.length)
      (mirrored : List.Forall₂ (Mirrors c) args ds) :
      Mirrors c (.generic name args)
        (.named definition.namespaceName? definition.markedName definition.kind.toKind ds false
          (.ofList definition.implements))

/-! ## One node -/

/-- A bare name gives as many arrays around the entry of its base as it has pairs of brackets. -/
theorem resolveName_of_bracketed {name base : String} {pairs : Nat}
    (h : Bracketed name base pairs) :
    c.resolveName name = (c.lookup base).map Descriptor.arrayOf^[pairs] := by
  have hchars : ∀ n, c.resolveReversed
      (base.toList ++ (List.replicate n ['[', ']']).flatten).reverse =
        (c.lookup base).map Descriptor.arrayOf^[n] := by
    intro n
    induction n with
    | zero =>
      rw [List.replicate_zero, List.flatten_nil, List.append_nil, resolveReversed]
      · rw [List.reverse_reverse, String.ofList_toList]
        cases c.lookup base <;> rfl
      · -- A name from its last character on begins with a pair if it ends with one.
        intro before hbefore
        refine h.maximal ⟨before.reverse, ?_⟩
        have hreverse := congrArg List.reverse hbefore
        simpa using hreverse.symm
    | succ n ih =>
      have hlast : (base.toList ++ (List.replicate (n + 1) ['[', ']']).flatten).reverse =
          ']' :: '[' :: (base.toList ++ (List.replicate n ['[', ']']).flatten).reverse := by
        rw [List.replicate_succ', List.flatten_append]
        simp
      rw [hlast, resolveReversed, ih]
      cases c.lookup base with
      | error e => rfl
      | ok d =>
        exact congrArg Except.ok (Function.iterate_succ_apply' Descriptor.arrayOf n d).symm
  rw [resolveName, h.spelled]
  exact hchars pairs

theorem lookup_eq_error {name : String} (h : c.get? name = none) :
    c.lookup name = .error (.unknownType name) := by
  rw [lookup, h]

theorem lookup_eq_ok {name : String} {d : Descriptor} (h : c.get? name = some d) :
    c.lookup name = .ok d := by
  rw [lookup, h]

theorem arity_toDescriptor (definition : Definition) :
    arity definition.toDescriptor = definition.params.length := by
  show (if (!definition.params.isEmpty) = true
    then (definition.params.map Descriptor.parameter).length else 0) = _
  cases definition.params with
  | nil => rfl
  | cons param rest => simp

/-- A faulty node is refused with its own error, whatever its parts are. -/
theorem Faults.resolve_eq {node : Reference} {e : CatalogError} (h : c.Faults node e) :
    c.resolve node = .error e := by
  cases h with
  | unknownBase bracketed unknown =>
    rw [resolve, resolveName_of_bracketed bracketed, lookup_eq_error unknown]
    rfl
  | unknownDefinition unknown => rw [resolve, lookup_eq_error unknown]
  | arity known mismatch =>
    rw [resolve, lookup_eq_ok known]
    simp only [arity_toDescriptor]
    rw [if_pos mismatch]

theorem length_params_congr {a b : Definition} (h : a.toDescriptor = b.toDescriptor) :
    a.params.length = b.params.length := by
  rw [← arity_toDescriptor, h, arity_toDescriptor]

theorem Accepts.not_faults {node : Reference} {e : CatalogError} (h : c.Accepts node) :
    ¬ c.Faults node e := by
  intro hfaults
  cases hfaults with
  | unknownBase bracketed unknown =>
    obtain ⟨base, pairs, d, hbase, known⟩ := h
    have hrefused := resolveName_of_bracketed (c := c) bracketed
    rw [resolveName_of_bracketed hbase, lookup_eq_ok known, lookup_eq_error unknown] at hrefused
    cases hrefused
  | unknownDefinition unknown =>
    obtain ⟨definition, known, _⟩ := h
    rw [unknown] at known
    cases known
  | arity known mismatch =>
    obtain ⟨definition, known', harity⟩ := h
    rw [known] at known'
    rw [length_params_congr (Option.some.inj known')] at mismatch
    exact mismatch harity

/-- A node is in order or faulty. -/
theorem accepts_or_faults (hc : c.Keyed) (node : Reference) :
    c.Accepts node ∨ ∃ e, c.Faults node e := by
  cases node with
  | named name =>
    obtain ⟨base, pairs, hbase⟩ := exists_bracketed_name name
    cases hknown : c.get? base with
    | none => exact Or.inr ⟨_, .unknownBase hbase hknown⟩
    | some d => exact Or.inl ⟨base, pairs, d, hbase, hknown⟩
  | array element => exact Or.inl trivial
  | generic name args =>
    cases hknown : c.get? name with
    | none => exact Or.inr ⟨_, .unknownDefinition hknown⟩
    | some d =>
      obtain ⟨definition, _, rfl, _⟩ := hc _ _ hknown
      by_cases harity : args.length = definition.params.length
      · exact Or.inl ⟨definition, hknown, harity⟩
      · exact Or.inr ⟨_, .arity hknown harity⟩

theorem resolve_generic_nil {name : String} {definition : Definition}
    (known : c.get? name = some definition.toDescriptor) (plain : definition.params = []) :
    c.resolve (.generic name []) = .ok definition.toDescriptor := by
  rw [resolve, lookup_eq_ok known]
  simp only [arity_toDescriptor, plain]
  rfl

/-- A generic reference with the right number of arguments closes the definition over them. -/
theorem resolve_generic {name : String} {definition : Definition} {args : List Reference}
    (known : c.get? name = some definition.toDescriptor) (nonempty : args ≠ [])
    (harity : args.length = definition.params.length) :
    c.resolve (.generic name args) = (c.resolveAll args).map definition.toDescriptor.close := by
  rw [resolve, lookup_eq_ok known]
  simp only [arity_toDescriptor]
  rw [if_neg (by simp [harity]), if_neg (by simpa using nonempty)]
  cases c.resolveAll args <;> rfl

/-! ## The first fault -/

theorem not_firstFault {nodes : List Reference} {e : CatalogError}
    (h : ∀ node ∈ nodes, c.Accepts node) : ¬ c.FirstFault nodes e := by
  intro hfirst
  induction hfirst with
  | here faults => exact (h _ List.mem_cons_self).not_faults faults
  | later _ _ ih => exact ih fun node hnode => h node (List.mem_cons_of_mem _ hnode)

theorem FirstFault.unique {nodes : List Reference} {e e' : CatalogError}
    (h : c.FirstFault nodes e) (h' : c.FirstFault nodes e') : e = e' := by
  induction h with
  | here faults =>
    cases h' with
    | here faults' =>
      have hsame := faults.resolve_eq.symm.trans faults'.resolve_eq
      exact Except.error.inj hsame
    | later accepts _ => exact absurd faults accepts.not_faults
  | later accepts _ ih =>
    cases h' with
    | here faults => exact absurd faults accepts.not_faults
    | later _ first => exact ih first

theorem FirstFault.append {nodes : List Reference} {e : CatalogError} (h : c.FirstFault nodes e)
    (rest : List Reference) : c.FirstFault (nodes ++ rest) e := by
  induction h with
  | here faults => exact .here faults
  | later accepts _ ih => exact .later accepts ih

theorem FirstFault.behind {nodes rest : List Reference} {e : CatalogError}
    (h : ∀ node ∈ nodes, c.Accepts node) (hrest : c.FirstFault rest e) :
    c.FirstFault (nodes ++ rest) e := by
  induction nodes with
  | nil => exact hrest
  | cons node nodes ih =>
    exact .later (h node List.mem_cons_self) (ih fun a ha => h a (List.mem_cons_of_mem node ha))

/-! ## Whole references -/

/-- What comes of a reference: it is resolved to a type that mirrors it and all its nodes are in
order, or it is refused with its first fault. -/
inductive Resolution (c : Catalog) (r : Reference) : Prop where
  | resolved {d : Descriptor} (resolves : c.resolve r = .ok d)
      (accepts : ∀ node ∈ r.nodes, c.Accepts node) (mirrors : c.Mirrors r d)
  | refused {e : CatalogError} (refuses : c.resolve r = .error e)
      (first : c.FirstFault r.nodes e)

theorem Resolution.of_ok {r : Reference} {d : Descriptor} (h : c.Resolution r)
    (hd : c.resolve r = .ok d) : (∀ node ∈ r.nodes, c.Accepts node) ∧ c.Mirrors r d := by
  cases h with
  | resolved resolves accepts mirrors =>
    rw [hd] at resolves
    rw [Except.ok.inj resolves]
    exact ⟨accepts, mirrors⟩
  | refused refuses _ =>
    rw [hd] at refuses
    cases refuses

theorem Resolution.of_error {r : Reference} {e : CatalogError} (h : c.Resolution r)
    (he : c.resolve r = .error e) : c.FirstFault r.nodes e := by
  cases h with
  | resolved resolves _ _ =>
    rw [he] at resolves
    cases resolves
  | refused refuses first =>
    rw [he] at refuses
    rw [Except.error.inj refuses]
    exact first

/-- A generic reference of which the node is in order comes out as its arguments do. -/
theorem resolution_generic {name : String} {definition : Definition} {args : List Reference}
    (known : c.get? name = some definition.toDescriptor)
    (harity : args.length = definition.params.length) (ih : ∀ a ∈ args, c.Resolution a) :
    c.Resolution (.generic name args) := by
  have haccepts : c.Accepts (.generic name args) := ⟨definition, known, harity⟩
  have hnodes : (Reference.generic name args).nodes =
      .generic name args :: args.flatMap Reference.nodes := by
    rw [Reference.nodes, Reference.nodesOfAll_eq]
  by_cases hargs : args = []
  · subst hargs
    have plain : definition.params = [] := List.length_eq_zero_iff.1 harity.symm
    refine .resolved (resolve_generic_nil known plain) ?_ (.definition known plain)
    intro node hnode
    rw [hnodes] at hnode
    rw [List.mem_singleton.1 hnode]
    exact haccepts
  have hresolve := resolve_generic known hargs harity
  cases hall : c.resolveAll args with
  | ok ds =>
    rw [hall] at hresolve
    have hparts := (List.forall₂_and_left _ _).2 ⟨ih, resolveAll_eq_ok_iff.1 hall⟩
    have hsound := hparts.imp fun a d ⟨ha, hd⟩ => ha.of_ok hd
    obtain ⟨hnodesAccept, hmirrors⟩ := (List.forall₂_and_left _ _).1 hsound
    refine .resolved hresolve ?_ (.closed known hargs harity hmirrors)
    intro node hnode
    rw [hnodes] at hnode
    rcases List.mem_cons.1 hnode with rfl | hnode
    · exact haccepts
    · obtain ⟨a, ha, hnode⟩ := List.mem_flatMap.1 hnode
      exact hnodesAccept a ha node hnode
  | error e =>
    rw [hall] at hresolve
    obtain ⟨before, a, after, rfl, hbefore, ha⟩ := resolveAll_eq_error_iff.1 hall
    refine .refused hresolve ?_
    rw [hnodes, List.flatMap_append, List.flatMap_cons]
    -- All nodes in front of the first argument that fails are in order.
    refine .later haccepts (.behind ?_ (FirstFault.append ?_ _))
    · intro node hnode
      obtain ⟨b, hb, hnode⟩ := List.mem_flatMap.1 hnode
      obtain ⟨d, hd⟩ := hbefore b hb
      exact ((ih b (by simp [hb])).of_ok hd).1 node hnode
    · exact (ih a (by simp)).of_error ha

theorem resolution (hc : c.Keyed) (r : Reference) : c.Resolution r := by
  induction r using Reference.induction with
  | named name =>
    rcases accepts_or_faults hc (.named name) with haccepts | ⟨e, hfaults⟩
    · obtain ⟨base, pairs, d, hbase, known⟩ := haccepts
      refine .resolved (d := Descriptor.arrayOf^[pairs] d) ?_ ?_ (.named hbase known)
      · rw [resolve, resolveName_of_bracketed hbase, lookup_eq_ok known]
        rfl
      · intro node hnode
        rw [List.mem_singleton.1 hnode]
        exact ⟨base, pairs, d, hbase, known⟩
    · exact .refused hfaults.resolve_eq (.here hfaults)
  | array element ih =>
    cases ih with
    | resolved resolves accepts mirrors =>
      refine .resolved (by rw [resolve, resolves]) ?_ (.array mirrors)
      intro node hnode
      rcases List.mem_cons.1 hnode with rfl | hnode
      · trivial
      · exact accepts node hnode
    | refused refuses first => exact .refused (by rw [resolve, refuses]) (.later trivial first)
  | generic name args ih =>
    rcases accepts_or_faults hc (.generic name args) with haccepts | ⟨e, hfaults⟩
    · obtain ⟨definition, known, harity⟩ := haccepts
      exact resolution_generic known harity ih
    · exact .refused hfaults.resolve_eq (.here hfaults)

theorem exists_resolve_iff (hc : c.Keyed) (r : Reference) :
    (∃ d, c.resolve r = .ok d) ↔ ∀ node ∈ r.nodes, c.Accepts node := by
  constructor
  · rintro ⟨d, hd⟩
    exact ((resolution hc r).of_ok hd).1
  · intro haccepts
    cases resolution hc r with
    | resolved resolves _ _ => exact ⟨_, resolves⟩
    | refused _ first => exact absurd first (not_firstFault haccepts)

theorem resolve_eq_error_iff (hc : c.Keyed) (r : Reference) (e : CatalogError) :
    c.resolve r = .error e ↔ c.FirstFault r.nodes e := by
  constructor
  · exact (resolution hc r).of_error
  · intro hfirst
    cases resolution hc r with
    | resolved _ accepts _ => exact absurd hfirst (not_firstFault accepts)
    | refused refuses first => rw [refuses, first.unique hfirst]

/-- A type that mirrors a reference is what the reference is resolved to. -/
theorem Mirrors.resolve_eq {r : Reference} {d : Descriptor} (h : c.Mirrors r d) :
    c.resolve r = .ok d := by
  induction r using Reference.induction generalizing d with
  | named name =>
    cases h with
    | named bracketed known =>
      rw [resolve, resolveName_of_bracketed bracketed, lookup_eq_ok known]
      rfl
  | array element ih =>
    cases h with
    | array mirrored => rw [resolve, ih mirrored]
  | generic name args ih =>
    cases h with
    | definition known plain => exact resolve_generic_nil known plain
    | @closed _ definition _ ds known nonempty arity mirrored =>
      have hargs := (List.forall₂_and_left _ _).2
        ⟨fun a ha d (hd : c.Mirrors a d) => ih a ha hd, mirrored⟩
      have hall : c.resolveAll args = .ok ds :=
        resolveAll_eq_ok_iff.2 (hargs.imp fun a d ⟨ha, hd⟩ => ha d hd)
      rw [resolve_generic known nonempty arity, hall]
      rfl

theorem resolve_eq_ok_iff (hc : c.Keyed) (r : Reference) (d : Descriptor) :
    c.resolve r = .ok d ↔ c.Mirrors r d :=
  ⟨fun h => ((resolution hc r).of_ok h).2, Mirrors.resolve_eq⟩

end Catalog

/-! ## Closed types -/

/-- The types that a type is put together from, itself included: elements of arrays and arguments. -/
inductive Descriptor.PartOf (x : Descriptor) : Descriptor → Prop where
  | self : PartOf x x
  | element {d : Descriptor} (part : PartOf x d) : PartOf x (.arrayOf d)
  | arg {d a : Descriptor} (mem : a ∈ d.args) (part : PartOf x a) : PartOf x d

theorem Descriptor.PartOf.arrays {x d : Descriptor} {n : Nat}
    (h : x.PartOf (Descriptor.arrayOf^[n] d)) : x.args = [] ∨ x.PartOf d := by
  induction n with
  | zero => exact Or.inr h
  | succ n ih =>
    rw [Function.iterate_succ_apply'] at h
    cases h with
    | self => exact Or.inl rfl
    | element part => exact ih part
    | arg mem _ => cases mem

namespace Catalog

variable {c : Catalog}

/-- Whether a type, if it is closed over arguments, has as many of them as the definition that the
catalog knows by its definition name has parameters. -/
def KeepsArity (c : Catalog) (x : Descriptor) : Prop :=
  x.isOpen = false → x.args ≠ [] → ∃ definition : Definition,
    c.get? x.definitionName = some definition.toDescriptor ∧
      x.args.length = definition.params.length

theorem keepsArity_of_entry {definition : Definition} {x : Descriptor}
    (h : x.PartOf definition.toDescriptor) : c.KeepsArity x := by
  intro hopen hargs
  -- An entry with arguments is open, and its arguments are parameters, which have none.
  cases h with
  | self =>
    have hparams : definition.params = [] := by
      simpa [Definition.toDescriptor, Descriptor.isOpen] using hopen
    exact absurd (by simp [Definition.toDescriptor, Descriptor.args, hparams]) hargs
  | arg mem part =>
    obtain ⟨name, _, rfl⟩ := List.mem_map.1 mem
    cases part with
    | self => exact absurd rfl hargs
    | arg mem _ => cases mem

theorem keepsArity_of_resolve (hc : c.Keyed) {r : Reference} {d x : Descriptor}
    (h : c.resolve r = .ok d) (hx : x.PartOf d) : c.KeepsArity x := by
  induction r using Reference.induction generalizing d with
  | named name =>
    cases (resolve_eq_ok_iff hc _ _).1 h with
    | named _ known =>
      obtain ⟨definition, _, rfl, _⟩ := hc _ _ known
      rcases hx.arrays with hargs | hx
      · exact fun _ hne => absurd hargs hne
      · exact keepsArity_of_entry hx
  | array element ih =>
    cases (resolve_eq_ok_iff hc _ _).1 h with
    | array mirrored =>
      cases hx with
      | self => exact fun _ hne => absurd rfl hne
      | element part => exact ih mirrored.resolve_eq part
      | arg mem _ => cases mem
  | generic name args ih =>
    cases (resolve_eq_ok_iff hc _ _).1 h with
    | definition _ _ => exact keepsArity_of_entry hx
    | @closed _ definition _ ds known nonempty arity mirrored =>
      cases hx with
      | self =>
        obtain ⟨_, _, _, hkey⟩ := hc _ _ known
        exact fun _ _ => ⟨definition, hkey ▸ known, mirrored.length_eq ▸ arity⟩
      | @arg _ a mem part =>
        obtain ⟨b, hb, hba⟩ : ∃ b ∈ args, c.Mirrors b a := by
          obtain ⟨i, hi, rfl⟩ := List.getElem_of_mem mem
          have hi' : i < args.length := mirrored.length_eq ▸ hi
          exact ⟨args[i], List.getElem_mem hi', mirrored.get hi' hi⟩
        exact ih b hb hba.resolve_eq part

/-- **Resolution is exact.** A catalog resolves exactly the references of which every node is in order,
each to the type that mirrors it, and in that every closed type has as many arguments as its
definition has parameters. Any other reference is refused with the error of its first faulty node in
preorder. Roots are resolved one by one, or refused with the error of the first that is refused. -/
theorem resolve_exact {c : Catalog} (hc : c.Built) :
    (∀ r, ((∃ d, c.resolve r = .ok d) ↔ ∀ node ∈ r.nodes, c.Accepts node) ∧
      (∀ d, c.resolve r = .ok d ↔ c.Mirrors r d) ∧
      (∀ d, c.resolve r = .ok d → ∀ x : Descriptor, x.PartOf d → c.KeepsArity x) ∧
      ∀ e, c.resolve r = .error e ↔ c.FirstFault r.nodes e) ∧
      (∀ ds, c.resolveRoots = .ok ds ↔
        List.Forall₂ (fun r d => c.resolve r = .ok d) c.roots ds) ∧
      ∀ e, c.resolveRoots = .error e ↔ ∃ before r after, c.roots = before ++ r :: after ∧
        (∀ b ∈ before, ∃ d, c.resolve b = .ok d) ∧ c.resolve r = .error e := by
  refine ⟨?_, fun ds => resolveAll_eq_ok_iff, fun e => resolveAll_eq_error_iff⟩
  intro r
  refine ⟨exists_resolve_iff hc.keyed r, resolve_eq_ok_iff hc.keyed r, ?_,
    resolve_eq_error_iff hc.keyed r⟩
  intro d hd x hx
  exact keepsArity_of_resolve hc.keyed hd hx

/-- A pair whose first part is an array of an unknown type is refused for the base of that name, one
with a box without contents for the box, and a pair of known types is what it spells out. -/
theorem pair_first_fault :
    pairCatalog.Built ∧
      pairCatalog.FirstFault (pairWithBox (.named "Shop.Crate[][]")).nodes
        (.unknownType "Shop.Crate") ∧
      pairCatalog.FirstFault (pairWithBox (.generic "Shop.Box`1" [])).nodes
        (.arityMismatch "Shop.Box`1" 1 0) ∧
      ∃ d, pairCatalog.resolve (pairWithBox (.named "Shop.Item[][]")) = .ok d ∧
        pairCatalog.Mirrors (pairWithBox (.named "Shop.Item[][]")) d := by
  have hdefine : Catalog.empty.defineAll pairDefinitions = .ok pairCatalog := rfl
  have hbuilt : pairCatalog.Built := Built.empty.defineAll hdefine
  obtain ⟨d, hd⟩ : ∃ d, pairCatalog.resolve (pairWithBox (.named "Shop.Item[][]")) = .ok d :=
    ⟨_, rfl⟩
  have hexact := (resolve_exact hbuilt).1
  exact ⟨hbuilt, ((hexact _).2.2.2 _).1 rfl, ((hexact _).2.2.2 _).1 rfl, d, hd,
    ((hexact _).2.1 d).1 hd⟩

end Catalog

end TypeProjection
