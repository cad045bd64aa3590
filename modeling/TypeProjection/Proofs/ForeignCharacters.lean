import TypeProjection.Proofs.Texts

/-!
# Characters of projected texts

The rules of the projection add a few fixed texts of their own. A character that occurs in none of
these is foreign to them, and it can only come in from the settings or through the name of a declared
type. Main statement: with settings that avoid a class of foreign characters, a text is free of the
class exactly if the names of the declared types in it are (`hasAny_project_iff`).
-/

namespace TypeProjection

/-! ## Classes of characters -/

namespace Text

/-- Whether a text holds a character of a class. -/
def hasAny (banned : Char → Bool) (text : String) : Bool := text.toList.any banned

@[simp] theorem hasAny_append (banned : Char → Bool) (a b : String) :
    hasAny banned (a ++ b) = (hasAny banned a || hasAny banned b) := by
  simp [hasAny]

theorem hasAny_intercalate {banned : Char → Bool} {separator : String}
    (h : hasAny banned separator = false) (texts : List String) :
    hasAny banned (separator.intercalate texts) = texts.any (hasAny banned) := by
  induction texts with
  | nil => rfl
  | cons text rest ih =>
    cases rest with
    | nil => simp
    | cons next rest =>
      rw [String.intercalate_cons_cons, hasAny_append, hasAny_append, ih, h, Bool.or_false,
        List.any_cons (a := text)]

/-- The texts that are written between the names of an expression, and the words of the rules. -/
def fixedTexts : List String :=
  ["(", ")", "<", ">", ", ", "[]", "\x7b [key: ", "]: ", " \x7d", " | null", ".", "any", "string",
    "FormData", "any /* IActionResult */"]

/-- Whether no fixed text and no standard builtin holds a character of a class. -/
def isForeign (banned : Char → Bool) : Bool :=
  fixedTexts.all (fun text => !hasAny banned text) &&
    BuiltinTable.standard.entries.all fun entry => !hasAny banned entry.2.name

theorem isForeign_cases {banned : Char → Bool} (h : isForeign banned = true) :
    (∀ text ∈ fixedTexts, hasAny banned text = false) ∧
      ∀ entry ∈ BuiltinTable.standard.entries, hasAny banned entry.2.name = false := by
  rw [isForeign, Bool.and_eq_true, List.all_eq_true, List.all_eq_true] at h
  obtain ⟨hfixed, hbuiltins⟩ := h
  constructor
  · intro text htext
    simpa using hfixed text htext
  · intro entry hentry
    simpa using hbuiltins entry hentry

end Text

open Text

/-! ## Settings and names that avoid a class -/

/-- Whether no text of an override holds a character of a class. -/
def Config.textsAvoid (config : Config) (banned : Char → Bool) : Bool :=
  config.overrides.entries.all fun entry => !hasAny banned entry.2

/-- Whether the global namespace holds no character of a class, if one is set. -/
def Config.qualifierAvoids (config : Config) (banned : Char → Bool) : Bool :=
  config.qualifier?.all fun ns => !hasAny banned ns

/-- Whether no target module holds a character of a class. -/
def Registry.modulesAvoid (r : Registry) (banned : Char → Bool) : Bool :=
  r.modules.entries.all fun entry => !hasAny banned entry.2

/-- Whether no namespace and no simple name in a catalog holds a character of a class. -/
def Catalog.namesAvoid (c : Catalog) (banned : Char → Bool) : Bool :=
  c.types.entries.all fun entry =>
    entry.2.namespaceName?.all (fun ns => !hasAny banned ns) && !hasAny banned entry.2.simpleName

/-- The namespace that a type keeps in its declared name: its own, unless all names are in a global
namespace or the namespace is renamed to a module. -/
def Registry.keptNamespace? (r : Registry) (config : Config) (d : Descriptor) : Option String :=
  if config.qualifier?.isSome then none
  else d.namespaceName?.filter fun ns => (r.modules.get? ns).isNone

section Foreign

variable {banned : Char → Bool}

/-! ## Characters of expressions -/

namespace Expr

theorem hasAny_parenthesize (hforeign : isForeign banned = true) (isUnion : Bool) (text : String) :
    hasAny banned (parenthesize isUnion text) = hasAny banned text := by
  have hfixed := (isForeign_cases hforeign).1
  cases isUnion with
  | false => rfl
  | true => simp [parenthesize, hfixed "(" (by simp [fixedTexts]), hfixed ")" (by simp [fixedTexts])]

theorem hasAny_orNullIf (hforeign : isForeign banned = true) (wanted : Bool) (e : Expr) :
    hasAny banned (orNullIf wanted e).print = hasAny banned e.print := by
  have hnull := (isForeign_cases hforeign).1 " | null" (by simp [fixedTexts])
  cases wanted with
  | false => rfl
  | true => simp [orNullIf, print, hasAny_parenthesize hforeign, hnull]

theorem hasAny_array (hforeign : isForeign banned = true) (e : Expr) :
    hasAny banned (array e).print = hasAny banned e.print := by
  have hbrackets := (isForeign_cases hforeign).1 "[]" (by simp [fixedTexts])
  simp [print, hasAny_parenthesize hforeign, hbrackets]

theorem hasAny_map (hforeign : isForeign banned = true) (key value : Expr) :
    hasAny banned (map key value).print =
      (hasAny banned key.print || hasAny banned value.print) := by
  have hfixed := (isForeign_cases hforeign).1
  have hopen := hfixed "\x7b [key: " (by simp [fixedTexts])
  have hmiddle := hfixed "]: " (by simp [fixedTexts])
  have hclose := hfixed " \x7d" (by simp [fixedTexts])
  simp [print, hasAny_parenthesize hforeign, hopen, hmiddle, hclose]

theorem hasAny_apply (hforeign : isForeign banned = true) (name : String) (args : List Expr) :
    hasAny banned (apply name args).print =
      (hasAny banned name || args.any fun e => hasAny banned e.print) := by
  have hfixed := (isForeign_cases hforeign).1
  have hopen := hfixed "<" (by simp [fixedTexts])
  have hclose := hfixed ">" (by simp [fixedTexts])
  have hcomma := hfixed ", " (by simp [fixedTexts])
  simp [print, printAll_eq, hasAny_intercalate hcomma, hopen, hclose, List.any_map,
    Function.comp_def]

end Expr

namespace Projector

variable {p : Projector}

/-- No text that is not a name of a declared type holds a foreign character. -/
theorem hasAny_silent (hforeign : isForeign banned = true) (hbuiltins : p.builtins = .standard)
    (htexts : p.config.textsAvoid banned = true) {d : Descriptor} {nullable : Bool} {leaf : Leaf}
    (h : p.rule d nullable = .leaf leaf) (hsilent : leaf.isSilent = true) (strict : Bool)
    (name : String) : hasAny banned (leaf.toExpr strict name).print = false := by
  obtain ⟨hfixed, hstandard⟩ := isForeign_cases hforeign
  have hany := hfixed "any" (by simp [fixedTexts])
  cases leaf with
  | override text =>
    have havoids := List.all_eq_true.1 htexts _ (Table.mem_entries_of_get? (override_of_rule h))
    show hasAny banned text = false
    simpa using havoids
  | builtin entry m =>
    have hentry := builtin_of_rule h
    rw [hbuiltins] at hentry
    show hasAny banned (Expr.orNullIf _ (.named entry.name)).print = false
    rw [Expr.hasAny_orNullIf hforeign]
    exact hstandard _ (Table.mem_entries_of_get? hentry)
  | actionResult => exact hfixed "any /* IActionResult */" (by simp [fixedTexts])
  | formData => exact hfixed "FormData" (by simp [fixedTexts])
  | untypedMap =>
    have hstring := hfixed "string" (by simp [fixedTexts])
    rw [Leaf.toExpr, Expr.hasAny_map hforeign, Bool.or_eq_false_iff]
    exact ⟨hstring, hany⟩
  | untypedArray =>
    rw [Leaf.toExpr, Expr.hasAny_array hforeign]
    exact hany
  | dynamicJson | runtime => exact hany
  | enumeration | unknown => cases hsilent

/-- A text holds a foreign character exactly if the name of a declared type in it does. -/
theorem hasAny_exprWith (hforeign : isForeign banned = true) (hbuiltins : p.builtins = .standard)
    (htexts : p.config.textsAvoid banned = true) (nameOf : Descriptor → String) (d : Descriptor) :
    hasAny banned (p.exprWith nameOf d).print =
      (p.visited d).any fun x => p.isDeclared x && hasAny banned (nameOf x) := by
  induction d using p.rule_induction with
  | step d r hr hfits ih =>
    rw [exprWith_eq, hr, visited_eq, ← parts_fits hfits, List.any_cons, List.any_flatMap]
    cases hfits with
    | silent hs hrole _ =>
      have hleaf := hasAny_silent hforeign hbuiltins htexts hr hs p.config.strictNulls
        (nameOf d.unwrap.type)
      simpa [isDeclared, hrole, Rule.parts] using hleaf
    | enumeration hrole _ =>
      simp [isDeclared, hrole, Rule.parts, Leaf.toExpr, Expr.hasAny_orNullIf hforeign, Expr.print]
    | unknown hrole _ =>
      have hany := (isForeign_cases hforeign).1 "any" (by simp [fixedTexts])
      simp [isDeclared, hrole, Rule.parts, Leaf.toExpr, Expr.print, hany]
    | @map key value hrole _ =>
      have hkey := ih key (by simp [Rule.parts])
      have hvalue := ih value (by simp [Rule.parts])
      simp [isDeclared, hrole, Rule.parts, Expr.hasAny_map hforeign, hkey, hvalue]
    | @array element hrole _ =>
      have helement := ih element (by simp [Rule.parts])
      simp [isDeclared, hrole, Rule.parts, Expr.hasAny_array hforeign, helement]
    | complex hrole _ =>
      have hdeclared : p.isDeclared d.unwrap.type = true := by rw [isDeclared, hrole]
      have hargs : (d.unwrap.type.args.map (p.exprWith nameOf)).any
          (fun e => hasAny banned e.print) =
          d.unwrap.type.args.any fun a =>
            (p.visited a).any fun x => p.isDeclared x && hasAny banned (nameOf x) := by
        have hmap := congrArg (fun found : List Bool => found.any id) (List.map_congr_left ih)
        rw [List.any_map, List.any_map] at hmap
        rw [List.any_map]
        exact hmap
      show hasAny banned (Expr.orNullIf _ _).print = _
      rw [Expr.hasAny_orNullIf hforeign, hdeclared, Bool.true_and, Rule.parts, ← hargs]
      split
      · rename_i hempty
        rw [List.isEmpty_iff.1 hempty, List.map_nil, List.any_nil, Bool.or_false]
        rfl
      · exact Expr.hasAny_apply hforeign _ _

end Projector

/-! ## Characters of declared names -/

theorem hasAny_qualify (hforeign : isForeign banned = true) (ns? : Option String) (name : String) :
    hasAny banned (Descriptor.qualify ns? name) =
      (ns?.any (hasAny banned) || hasAny banned name) := by
  have hdot := (isForeign_cases hforeign).1 "." (by simp [fixedTexts])
  cases ns? with
  | none => rfl
  | some ns => simp [Descriptor.qualify, hdot]

/-- With settings that avoid it, a foreign character in a declared name comes from the simple name or
from the namespace that is kept. -/
theorem Registry.hasAny_declaredName (hforeign : isForeign banned = true) {r : Registry}
    {config : Config} (hmodules : r.modulesAvoid banned = true)
    (hqualifier : config.qualifierAvoids banned = true) (d : Descriptor) :
    hasAny banned (r.declaredName config d) =
      ((r.keptNamespace? config d).any (hasAny banned) || hasAny banned d.simpleName) := by
  rw [declaredName, hasAny_qualify hforeign]
  congr 1
  unfold keptNamespace?
  cases hq : config.qualifier? with
  | some ns =>
    rw [Config.qualifierAvoids, hq] at hqualifier
    simpa using hqualifier
  | none =>
    cases hn : d.namespaceName? with
    | none => rfl
    | some ns =>
      cases hm : r.modules.get? ns with
      | none => simp [moduleName, hm]
      | some module =>
        have hmodule := List.all_eq_true.1 hmodules _ (Table.mem_entries_of_get? hm)
        simpa [moduleName, hm] using hmodule

theorem Registry.any_keptNamespace? {r : Registry} {config : Config} {d : Descriptor}
    (h : d.namespaceName?.any (hasAny banned) = false) :
    (r.keptNamespace? config d).any (hasAny banned) = false := by
  unfold keptNamespace?
  split
  · rfl
  · cases hn : d.namespaceName? with
    | none => rfl
    | some ns =>
      rw [hn] at h
      rw [Option.filter]
      split
      · exact h
      · rfl

theorem Catalog.avoids_of_declares {c : Catalog} (hc : c.namesAvoid banned = true) {d : Descriptor}
    (hd : c.Declares d) :
    d.namespaceName?.any (hasAny banned) = false ∧ hasAny banned d.simpleName = false := by
  obtain ⟨definition, _, known, hns, hname⟩ := hd
  have hentry := List.all_eq_true.1 hc _ (Table.mem_entries_of_get? known)
  rw [Bool.and_eq_true, Bool.not_eq_true'] at hentry
  obtain ⟨hentryNs, hentryName⟩ := hentry
  constructor
  · have hall : definition.namespaceName?.all (fun ns => !hasAny banned ns) = true := hentryNs
    rw [hns]
    cases hn : definition.namespaceName? with
    | none => rfl
    | some ns =>
      rw [hn] at hall
      simpa using hall
  · rw [Descriptor.simpleName, hname]
    exact hentryName

/-! ## Characters of texts -/

namespace Projector

variable {p : Projector} {c : Catalog} {r : Registry} {d : Descriptor}

/-- A text is free of a foreign class exactly if the names are that it can get its characters from. -/
theorem hasAny_project_iff (hforeign : isForeign banned = true) (hc : c.Keyed) (hd : c.Provides d)
    (hr : r.DeclaredBy c) (hbuiltins : p.builtins = .standard)
    (htexts : p.config.textsAvoid banned = true) (hmodules : r.modulesAvoid banned = true)
    (hqualifier : p.config.qualifierAvoids banned = true) :
    hasAny banned (p.project r d).projection.text = false ↔
      ∀ x ∈ p.visited d, p.isDeclared x = true → hasAny banned x.simpleName = false ∧
        (r.keptNamespace? p.config x).any (hasAny banned) = false := by
  have htext : (p.project r d).projection.text =
      (p.exprWith (r.declaredName p.config) d).print :=
    congrArg Projection.text (projection_eq_ofExpr hc hr hd)
  rw [htext, hasAny_exprWith hforeign hbuiltins htexts, List.any_eq_false]
  refine forall₂_congr fun x _ => ?_
  rw [Registry.hasAny_declaredName hforeign hmodules hqualifier]
  cases p.isDeclared x <;> simp [and_comm]

/-- In a catalog whose names avoid a class, so do the names of all declared types that are visited. -/
theorem avoids_of_visited (hc : c.Keyed) (hd : c.Provides d) (hnames : c.namesAvoid banned = true) :
    ∀ x ∈ p.visited d, p.isDeclared x = true → hasAny banned x.simpleName = false ∧
      (r.keptNamespace? p.config x).any (hasAny banned) = false := by
  intro x hx hdeclared
  obtain ⟨hns, hname⟩ :=
    Catalog.avoids_of_declares hnames (declares_of_visited hc p hd hx hdeclared)
  exact ⟨hname, Registry.any_keptNamespace? hns⟩

end Projector

end Foreign

/-! ## Texts from documents -/

theorem eq_ok_of_toOption {ε α : Type} {result : Except ε α} {a : α}
    (h : result.toOption = some a) : result = .ok a := by
  cases result with
  | error e => cases h
  | ok b =>
    cases h
    rfl

/-- A document and a reference that evaluate to a text are accepted and resolved. -/
theorem Projector.exists_project_of_eval (p : Projector) (document : String) (reference : Reference)
    (text : String)
    (heval : ((Catalog.ofText document).toOption.bind fun c =>
      (c.resolve reference).toOption.map fun d =>
        (p.project (.new .empty) d).projection.text) = some text) :
    ∃ c d, Catalog.ofText document = .ok c ∧ c.resolve reference = .ok d ∧
      (p.project (.new .empty) d).projection.text = text := by
  obtain ⟨c, hc, hresolve⟩ := Option.bind_eq_some_iff.1 heval
  obtain ⟨d, hd, htext⟩ := Option.map_eq_some_iff.1 hresolve
  exact ⟨c, d, eq_ok_of_toOption hc, eq_ok_of_toOption hd, htext⟩

end TypeProjection
