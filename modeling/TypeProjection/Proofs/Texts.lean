import TypeProjection.Proofs.Names
import TypeProjection.Proofs.Parsing

/-!
# Projected texts

Where all names are dotted paths, the text of a projection can be taken apart again: the grammar
derives it, and only as the expression of the projected type (`project_text_derives`). The parentheses
that are left out around the key of a map and around an argument are not needed there.
-/

namespace TypeProjection

/-! ## Plain expressions -/

namespace Expr

open Grammar

mutual

/-- Whether all names of an expression are paths, and nothing stands in it that is not of the
grammar. -/
def isPlain : Expr → Bool
  | named text => isPath text
  | apply name args => isPath name && !args.isEmpty && isPlainAll args
  | array element => element.isPlain
  | map key value => key.isPlain && value.isPlain
  | orNull type => type.isPlain
  | actionResult => true
  | verbatim _ => false

def isPlainAll : List Expr → Bool
  | [] => true
  | e :: rest => e.isPlain && isPlainAll rest

end

theorem isPlainAll_iff {es : List Expr} :
    isPlainAll es = true ↔ ∀ e ∈ es, e.isPlain = true := by
  induction es with
  | nil => simp [isPlainAll]
  | cons e rest ih => rw [isPlainAll, Bool.and_eq_true, ih, List.forall_mem_cons]

/-- `P` is closed under every form of expression, with paths for the names in it. Nothing is said of
literal texts. -/
structure PathClosed (P : Expr → Prop) : Prop where
  named : ∀ {text : String}, isPath text = true → P (named text)
  apply : ∀ {name : String} {args : List Expr}, isPath name = true → args ≠ [] →
    (∀ e ∈ args, P e) → P (apply name args)
  array : ∀ {element : Expr}, P element → P (array element)
  map : ∀ {key value : Expr}, P key → P value → P (map key value)
  orNull : ∀ {type : Expr}, P type → P (orNull type)
  actionResult : P actionResult

theorem PathClosed.orNullIf {P : Expr → Prop} (h : PathClosed P) {e : Expr} (he : P e)
    (wanted : Bool) : P (orNullIf wanted e) := by
  cases wanted with
  | false => exact he
  | true => exact h.orNull he

theorem pathClosed_isPlain : PathClosed fun e => e.isPlain = true where
  named h := h
  apply := by
    intro name args hname hne hargs
    rw [isPlain, hname, isPlainAll_iff.2 hargs]
    simpa using hne
  array h := h
  map := by
    intro key value hkey hvalue
    rw [isPlain, hkey, hvalue, Bool.and_self]
  orNull h := h
  actionResult := rfl

/-- The text of an expression is derived as that expression, both where a null arm may stand at its
top and where one has to be in parentheses. -/
structure Written (e : Expr) : Prop where
  type : ∃ phrase : Phrase .type, phrase.chars = e.print.toList ∧ phrase.tree = e
  item : ∃ phrase : Phrase .item,
    phrase.chars = (parenthesize e.isUnion e.print).toList ∧ phrase.tree = e

/-- What is no union needs no parentheses. -/
theorem Written.of_atom {e : Expr} (hunion : e.isUnion = false) (phrase : Phrase .atom)
    (hchars : phrase.chars = e.print.toList) (htree : phrase.tree = e) : e.Written where
  type := ⟨.item (.atom phrase), hchars, htree⟩
  item := ⟨.atom phrase, by rw [hunion]; exact hchars, htree⟩

theorem Written.array {e : Expr} (h : e.Written) : (array e).Written := by
  obtain ⟨phrase, hchars, htree⟩ := h.item
  have hprint : (Phrase.array phrase).chars = (Expr.array e).print.toList := by
    rw [Phrase.chars, print, String.toList_append, hchars]
    rfl
  have htree' : (Phrase.array phrase).tree = Expr.array e := congrArg Expr.array htree
  exact ⟨⟨.item (.array phrase), hprint, htree'⟩, ⟨.array phrase, hprint, htree'⟩⟩

theorem Written.orNull {e : Expr} (h : e.Written) : (orNull e).Written := by
  obtain ⟨phrase, hchars, htree⟩ := h.item
  have hprint : (Phrase.orNull (.item phrase)).chars = (Expr.orNull e).print.toList := by
    rw [Phrase.chars, Phrase.chars, print, String.toList_append, hchars]
    rfl
  have htree' : (Phrase.orNull (.item phrase)).tree = Expr.orNull e := congrArg Expr.orNull htree
  -- Where a null arm must not stand open the whole union is a group.
  refine ⟨⟨.orNull (.item phrase), hprint, htree'⟩,
    ⟨.atom (.group (.orNull (.item phrase))), ?_, htree'⟩⟩
  show '(' :: ((Phrase.orNull (.item phrase)).chars ++ [')']) = ("(" ++ _ ++ ")").toList
  rw [hprint, String.toList_append, String.toList_append]
  rfl

theorem Written.map {key value : Expr} (hkey : key.Written) (hvalue : value.Written) :
    (map key value).Written := by
  obtain ⟨keyPhrase, hkeyChars, rfl⟩ := hkey.type
  -- A union as a value stands in parentheses, which the grammar would not need.
  obtain ⟨valuePhrase, hvalueChars, rfl⟩ := hvalue.item
  refine .of_atom rfl (.map keyPhrase (.item valuePhrase)) ?_ rfl
  rw [Phrase.chars, Phrase.chars, print, hkeyChars, hvalueChars]
  simp only [String.toList_append, List.append_assoc]
  rfl

/-- The texts of arguments, with commas between them, are derived as those arguments. -/
theorem exists_args {es : List Expr} (h : ∀ e ∈ es, e.Written) (hne : es ≠ []) :
    ∃ phrase : Phrase .args,
      phrase.chars = (", ".intercalate (printAll es)).toList ∧ phrase.tree = es := by
  induction es with
  | nil => exact absurd rfl hne
  | cons e rest ih =>
    obtain ⟨phrase, hchars, rfl⟩ := (h e List.mem_cons_self).type
    cases rest with
    | nil =>
      refine ⟨.last phrase, ?_, rfl⟩
      simpa [printAll, Phrase.chars] using hchars
    | cons next rest =>
      obtain ⟨phrases, hargs, htree⟩ :=
        ih (fun e he => h e (List.mem_cons_of_mem _ he)) (List.cons_ne_nil _ _)
      refine ⟨.more phrase phrases, ?_, congrArg _ htree⟩
      rw [Phrase.chars, hchars, hargs]
      simp [printAll, comma]

mutual

/-- The text of a plain expression is derived as that expression. -/
theorem written_of_isPlain : ∀ e : Expr, e.isPlain = true → e.Written
  | named text, h => by
      rw [isPlain] at h
      exact .of_atom rfl (.name ⟨text, h⟩) rfl rfl
  | apply name args, h => by
      rw [isPlain, Bool.and_eq_true, Bool.and_eq_true] at h
      obtain ⟨⟨hname, hne⟩, hargs⟩ := h
      obtain ⟨phrase, hchars, htree⟩ :=
        exists_args (written_of_isPlainAll args hargs) (by simpa using hne)
      refine .of_atom rfl (.apply ⟨name, hname⟩ phrase) ?_ (congrArg (Expr.apply name) htree)
      rw [Phrase.chars, print, hchars]
      simp only [String.toList_append, List.append_assoc]
      rfl
  | array element, h => by
      rw [isPlain] at h
      exact (written_of_isPlain element h).array
  | map key value, h => by
      rw [isPlain, Bool.and_eq_true] at h
      exact (written_of_isPlain key h.1).map (written_of_isPlain value h.2)
  | orNull type, h => by
      rw [isPlain] at h
      exact (written_of_isPlain type h).orNull
  | actionResult, _ => .of_atom rfl .actionResult rfl rfl
  | verbatim _, h => by cases h

theorem written_of_isPlainAll :
    ∀ es : List Expr, isPlainAll es = true → ∀ e ∈ es, e.Written
  | [], _ => fun e he => nomatch he
  | e :: rest, h => by
      rw [isPlainAll, Bool.and_eq_true] at h
      have hfirst := written_of_isPlain e h.1
      have hrest := written_of_isPlainAll rest h.2
      intro a ha
      rcases List.mem_cons.1 ha with heq | ha
      · rw [heq]
        exact hfirst
      · exact hrest a ha

end

end Expr

/-! ## The expressions of types -/

/-- Whether the namespace and the simple name of a type are paths. -/
def Descriptor.hasPathNames (d : Descriptor) : Bool :=
  d.namespaceName?.all Grammar.isPath && Grammar.isPath d.simpleName

/-- Whether all namespaces and all names in a catalog are paths. -/
def Catalog.hasPathNames (c : Catalog) : Bool :=
  c.types.entries.all fun entry => entry.2.hasPathNames

/-- Whether all target modules are paths. -/
def Registry.hasPathModules (r : Registry) : Bool :=
  r.modules.entries.all fun entry => Grammar.isPath entry.2

/-- Whether the global namespace is a path, if one is set. -/
def Config.hasPathQualifier (config : Config) : Bool := config.qualifier?.all Grammar.isPath

/-- Whether the target spellings of all builtins are paths. -/
def BuiltinTable.hasPathNames (builtins : BuiltinTable) : Bool :=
  builtins.entries.all fun entry => Grammar.isPath entry.2.name

theorem BuiltinTable.hasPathNames_standard : BuiltinTable.standard.hasPathNames = true := by
  decide +kernel

namespace Registry

open Grammar

theorem isPath_moduleName {r : Registry} (hr : r.hasPathModules = true) {ns : String}
    (hns : isPath ns = true) : isPath (r.moduleName ns) = true := by
  rw [moduleName]
  cases hmodule : r.modules.get? ns with
  | none => exact hns
  | some module => exact List.all_eq_true.1 hr _ (Table.mem_entries_of_get? hmodule)

/-- The declared name of a type is a path if all that it can be made of is one. -/
theorem isPath_declaredName {r : Registry} {config : Config} {c : Catalog}
    (hr : r.hasPathModules = true) (hconfig : config.hasPathQualifier = true)
    (hc : c.hasPathNames = true) {d : Descriptor} (hd : c.Declares d) :
    isPath (r.declaredName config d) = true := by
  obtain ⟨definition, _, known, hns, hname⟩ := hd
  have hpaths := List.all_eq_true.1 hc _ (Table.mem_entries_of_get? known)
  rw [Descriptor.hasPathNames, Bool.and_eq_true] at hpaths
  have hsimple : isPath d.simpleName = true := by
    rw [Descriptor.simpleName, hname]
    exact hpaths.2
  have hnamespace : d.namespaceName?.all isPath = true := by
    rw [hns]
    exact hpaths.1
  unfold declaredName
  cases hq : config.qualifier? with
  | some ns =>
    rw [Config.hasPathQualifier, hq] at hconfig
    exact isPath_join hconfig hsimple
  | none =>
    cases hn : d.namespaceName? with
    | some ns =>
      rw [hn] at hnamespace
      exact isPath_join (isPath_moduleName hr hnamespace) hsimple
    | none => exact hsimple

end Registry

/-- A leaf rule whose text comes from the overrides or from the builtins. -/
def Leaf.isLiteral : Leaf → Bool
  | override _ | builtin _ _ => true
  | actionResult | formData | dynamicJson | untypedMap | untypedArray | enumeration _ | runtime
  | unknown => false

namespace Projector

variable {p : Projector}

theorem not_isLiteral_libraryRule? {d : Descriptor} {leaf : Leaf}
    (h : libraryRule? d = some (.leaf leaf)) : leaf.isLiteral = false := by
  unfold libraryRule? at h
  grind [Leaf.isLiteral]

theorem not_isLiteral_collectionRule? {d : Descriptor} {leaf : Leaf}
    (h : collectionRule? d = some (.leaf leaf)) : leaf.isLiteral = false := by
  unfold collectionRule? at h
  grind [Leaf.isLiteral]

theorem not_isLiteral_singleRule {d : Descriptor} {nullable : Bool} {leaf : Leaf}
    (h : singleRule d nullable = .leaf leaf) : leaf.isLiteral = false := by
  unfold singleRule at h
  grind [Leaf.isLiteral]

/-- Only the first two rules take a text from the overrides or from the builtins. -/
theorem literalRule?_of_rule {d : Descriptor} {nullable : Bool} {leaf : Leaf}
    (h : p.rule d nullable = .leaf leaf) (hleaf : leaf.isLiteral = true) :
    p.literalRule? d nullable = some (.leaf leaf) := by
  unfold rule at h
  cases hliteral : p.literalRule? d nullable with
  | some r =>
    rw [hliteral] at h
    exact congrArg some h
  | none =>
    exfalso
    have hother : leaf.isLiteral = false := by
      cases hlibrary : libraryRule? d with
      | some r =>
        rw [hliteral, hlibrary] at h
        obtain rfl : r = .leaf leaf := h
        exact not_isLiteral_libraryRule? hlibrary
      | none =>
        cases hcollection : collectionRule? d with
        | some r =>
          rw [hliteral, hlibrary, hcollection] at h
          obtain rfl : r = .leaf leaf := h
          exact not_isLiteral_collectionRule? hcollection
        | none =>
          rw [hliteral, hlibrary, hcollection] at h
          exact not_isLiteral_singleRule h
    rw [hother] at hleaf
    cases hleaf

theorem override_of_rule {d : Descriptor} {nullable : Bool} {text : String}
    (h : p.rule d nullable = .leaf (.override text)) :
    p.config.overrides.get? d.fullName = some text := by
  have hliteral := literalRule?_of_rule h rfl
  unfold literalRule? at hliteral
  split at hliteral
  · rename_i text' ho
    cases hliteral
    exact ho
  · cases hb : p.builtins.of? d <;> simp [hb] at hliteral

theorem builtin_of_rule {d : Descriptor} {nullable m : Bool} {entry : Builtin}
    (h : p.rule d nullable = .leaf (.builtin entry m)) : p.builtins.of? d = some entry := by
  have hliteral := literalRule?_of_rule h rfl
  unfold literalRule? at hliteral
  split at hliteral
  · cases hliteral
  · obtain ⟨entry', hb, heq⟩ := Option.map_eq_some_iff.1 hliteral
    cases heq
    exact hb

section Closed

variable {P : Expr → Prop}

theorem closed_silent (hP : Expr.PathClosed P) (hbuiltins : p.builtins.hasPathNames = true)
    (hoverrides : ∀ entry ∈ p.config.overrides.entries, P (.verbatim entry.2)) {d : Descriptor}
    {nullable : Bool} {leaf : Leaf} (h : p.rule d nullable = .leaf leaf)
    (hsilent : leaf.isSilent = true) (strict : Bool) (name : String) :
    P (leaf.toExpr strict name) := by
  have hwords : Grammar.isPath "string" = true ∧ Grammar.isPath "FormData" = true := by
    decide +kernel
  have hany : P (.named "any") := hP.named Grammar.isPath_any
  cases leaf with
  | override text => exact hoverrides _ (Table.mem_entries_of_get? (override_of_rule h))
  | builtin entry m =>
    have hentry := Table.mem_entries_of_get? (builtin_of_rule h)
    exact hP.orNullIf (hP.named (List.all_eq_true.1 hbuiltins _ hentry)) _
  | actionResult => exact hP.actionResult
  | formData => exact hP.named hwords.2
  | untypedMap => exact hP.map (hP.named hwords.1) hany
  | untypedArray => exact hP.array hany
  | dynamicJson | runtime => exact hany
  | enumeration | unknown => cases hsilent

/-- What is closed under the forms of expressions, and holds of all overrides, holds of the expression
of a type if the names of the declared types in it are paths. -/
theorem closed_exprWith (hP : Expr.PathClosed P) (hbuiltins : p.builtins.hasPathNames = true)
    (hoverrides : ∀ entry ∈ p.config.overrides.entries, P (.verbatim entry.2))
    {nameOf : Descriptor → String} (d : Descriptor)
    (h : ∀ x ∈ p.visited d, p.isDeclared x = true → Grammar.isPath (nameOf x) = true) :
    P (p.exprWith nameOf d) := by
  induction d using p.rule_induction with
  | step d r hr hfits ih =>
    have hself := h d.unwrap.type (p.mem_visited_self d)
    have hparts : ∀ a ∈ r.parts, P (p.exprWith nameOf a) := by
      intro a ha
      exact ih a ha fun x hx => h x (mem_visited_of_part (by rw [hr]; exact ha) hx)
    rw [exprWith_eq, hr]
    cases hfits with
    | silent hs _ _ => exact closed_silent hP hbuiltins hoverrides hr hs _ _
    | enumeration hrole _ =>
      have hname := hself (by rw [isDeclared, hrole])
      exact hP.orNullIf (hP.named hname) _
    | unknown _ _ => exact hP.named Grammar.isPath_any
    | @map key value _ _ =>
      exact hP.map (hparts key (by simp [Rule.parts])) (hparts value (by simp [Rule.parts]))
    | @array element _ _ => exact hP.array (hparts element (by simp [Rule.parts]))
    | complex hrole _ =>
      have hname := hself (by rw [isDeclared, hrole])
      have hargs : ∀ e ∈ d.unwrap.type.args.map (p.exprWith nameOf), P e := by
        intro e he
        obtain ⟨a, ha, rfl⟩ := List.mem_map.1 he
        exact hparts a ha
      refine hP.orNullIf ?_ _
      split
      · exact hP.named hname
      · rename_i hne
        exact hP.apply hname (by simpa using hne) hargs

end Closed

/-- Without overrides, and with the standard builtins, an expression is plain if the names of the
declared types in it are paths. -/
theorem isPlain_exprWith (hbuiltins : p.builtins = .standard)
    (hoverrides : p.config.overrides = .empty) {nameOf : Descriptor → String} (d : Descriptor)
    (h : ∀ x ∈ p.visited d, p.isDeclared x = true → Grammar.isPath (nameOf x) = true) :
    (p.exprWith nameOf d).isPlain = true := by
  refine closed_exprWith Expr.pathClosed_isPlain ?_ ?_ d h
  · rw [hbuiltins]
    exact BuiltinTable.hasPathNames_standard
  · rw [hoverrides]
    intro entry hentry
    cases hentry

/-- **Projected texts are unambiguous.** Take a type that a catalog resolves, no overrides and the
standard builtins, and let all namespaces, modules and simple names be dotted paths. Then the text of
its projection is read as one expression, and the grammar derives it as no other. That expression is
built by the first matching rule at every type without its wrappers, with each declared type under
its declared name. -/
theorem project_text_derives {p : Projector} {c : Catalog} {r : Registry} {reference : Reference}
    {d : Descriptor} (hc : c.Built) (hresolve : c.resolve reference = .ok d)
    (hr : r.DeclaredBy c) (hbuiltins : p.builtins = .standard)
    (hoverrides : p.config.overrides = .empty) (hnames : c.hasPathNames = true)
    (hmodules : r.hasPathModules = true) (hqualifier : p.config.hasPathQualifier = true) :
    let tree := p.exprWith (r.declaredName p.config)
    Grammar.parse? (p.project r d).projection.text = some (tree d) ∧
      (∀ e, Grammar.Derives (p.project r d).projection.text e ↔ e = tree d) ∧
      ∀ x, tree x =
        match p.rule x.unwrap.type x.unwrap.nullable with
        | .leaf leaf => leaf.toExpr p.config.strictNulls (r.declaredName p.config x.unwrap.type)
        | .map key value => .map (tree key) (tree value)
        | .array element => .array (tree element)
        | .complex nullable args =>
          .orNullIf (p.config.strictNulls && nullable) <|
            if args.isEmpty then .named (r.declaredName p.config x.unwrap.type)
            else .apply (r.declaredName p.config x.unwrap.type) (args.map tree) := by
  intro tree
  have hd := Catalog.provides_resolve c reference hresolve
  have hplain : (tree d).isPlain = true := by
    refine isPlain_exprWith hbuiltins hoverrides d fun x hx hdeclared => ?_
    have hx' := declares_of_visited hc.keyed p hd hx hdeclared
    exact Registry.isPath_declaredName hmodules hqualifier hnames hx'
  have htext : (p.project r d).projection.text = (tree d).print := by
    rw [project_expr, expr_eq_of_declaredBy hc.keyed hr hd]
    rfl
  have hparse : Grammar.parse? (p.project r d).projection.text = some (tree d) := by
    rw [htext]
    exact Grammar.parse?_of_derives (Expr.written_of_isPlain _ hplain).type
  refine ⟨hparse, fun e => ?_, p.exprWith_eq (r.declaredName p.config)⟩
  rw [← Grammar.parse?_eq_some_iff, hparse, Option.some.injEq]
  exact eq_comm

/-- Some primitives, nullable values, dictionaries and boxes. -/
def boxDefinitions : List Definition :=
  [⟨some "System", "String", .classType, [], []⟩, ⟨some "System", "Int32", .structType, [], []⟩,
    ⟨some "System", "Nullable", .structType, ["T"], []⟩,
    ⟨some "Shop", "Dictionary", .classType, ["TKey", "TValue"], [.mapping]⟩,
    ⟨some "Shop", "Box", .classType, ["T"], []⟩]

/-- A catalog of these definitions alone. -/
def boxCatalog : Catalog :=
  boxDefinitions.foldl (fun c definition => c.enter definition.toDescriptor) .empty

/-- A dictionary from texts to arrays of boxes of nullable numbers. -/
def boxesByName : Reference :=
  .generic "Shop.Dictionary`2"
    [.named "System.String",
      .array (.generic "Shop.Box`1" [.generic "System.Nullable`1" [.named "System.Int32"]])]

/-- A projector with null arms that names all types in one namespace. -/
def strictProjector : Projector := ⟨⟨true, some "Web.Models", .empty⟩, .standard⟩

theorem boxesByName_derives :
    boxCatalog.Built ∧ boxCatalog.hasPathNames = true ∧
      strictProjector.config.hasPathQualifier = true ∧
      ∃ d, boxCatalog.resolve boxesByName = .ok d ∧
        ∀ e, Grammar.Derives (strictProjector.project (.new .empty) d).projection.text e ↔
          e = strictProjector.exprWith
            ((Registry.new .empty).declaredName strictProjector.config) d := by
  have hdefine : Catalog.empty.defineAll boxDefinitions = .ok boxCatalog := rfl
  have hbuilt : boxCatalog.Built := Catalog.Built.empty.defineAll hdefine
  have hpaths : boxCatalog.hasPathNames = true ∧
      strictProjector.config.hasPathQualifier = true := by decide +kernel
  obtain ⟨hnames, hqualifier⟩ := hpaths
  have hresolve : ∃ d, boxCatalog.resolve boxesByName = .ok d := ⟨_, rfl⟩
  obtain ⟨d, hd⟩ := hresolve
  have hderives := project_text_derives hbuilt hd (Registry.declaredBy_new .empty boxCatalog) rfl rfl
    hnames rfl hqualifier
  exact ⟨hbuilt, hnames, hqualifier, d, hd, hderives.2.1⟩

end Projector

end TypeProjection
