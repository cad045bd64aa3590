import TypeProjection.Proofs.Resolution

/-!
# Growing catalogs

Definitions are added to a catalog while references are resolved in it. A reference that was resolved
keeps its type, and a wrong number of arguments stays wrong, whatever is defined later: a new name may
look like an array or like a closed type, but no name that was known is ever given another meaning.
Main statement: a result changes only if it was the complaint about an unknown name, and only once
that name has been defined (`results_kept`).
-/

namespace TypeProjection

namespace Catalog

variable {c c' : Catalog}

/-! ## Attempts to define -/

/-- The catalog after attempts to add definitions one after another, whatever comes of each. -/
def attemptAll (c : Catalog) (definitions : List Definition) : Catalog :=
  definitions.foldl (fun c definition => (c.define definition).2) c

theorem attemptAll_cons (c : Catalog) (definition : Definition) (rest : List Definition) :
    c.attemptAll (definition :: rest) = (c.define definition).2.attemptAll rest := by
  rw [attemptAll, attemptAll, List.foldl_cons]

theorem attemptAll_extends (c : Catalog) (definitions : List Definition) :
    c.Extends (c.attemptAll definitions) := by
  induction definitions generalizing c with
  | nil => exact .refl c
  | cons definition rest ih =>
    rw [attemptAll_cons]
    exact (c.define_extends definition).trans (ih _)

/-- Whatever has been attempted, the catalog is one that can be built. -/
theorem Built.attemptAll (hc : c.Built) (definitions : List Definition) :
    (c.attemptAll definitions).Built := by
  induction definitions generalizing c with
  | nil => exact hc
  | cons definition rest ih =>
    rw [attemptAll_cons]
    exact ih (hc.define definition)

/-! ## Two catalogs -/

/-- A result that does not complain about one of the given names. -/
def Settled {α : Type} (names : String → Prop) (result : Except CatalogError α) : Prop :=
  ∀ name, result = .error (.unknownType name) → ¬ names name

/-- The result of a part is settled if its errors are those of the whole. -/
theorem Settled.of_part {α β : Type} {names : String → Prop} {part : Except CatalogError α}
    {whole : Except CatalogError β} (h : Settled names whole)
    (herror : ∀ e, part = .error e → whole = .error e) : Settled names part := by
  intro name hpart
  exact h name (herror _ hpart)

/-- The second catalog looks up whatever the first one does, the complaints about the given names
apart. -/
def Agree (names : String → Prop) (c c' : Catalog) : Prop :=
  ∀ name, Settled names (c.lookup name) → c'.lookup name = c.lookup name

variable {names : String → Prop}

/-- The brackets behind a name are read off the name alone, so no definition can take them. -/
theorem resolveName_eq_of_settled (hagree : Agree names c c') {name : String}
    (h : Settled names (c.resolveName name)) : c'.resolveName name = c.resolveName name := by
  obtain ⟨base, pairs, hbase⟩ := exists_bracketed_name name
  have hlookup : c'.lookup base = c.lookup base := by
    apply hagree
    apply h.of_part
    intro e he
    rw [resolveName_of_bracketed hbase, he]
    rfl
  rw [resolveName_of_bracketed hbase, resolveName_of_bracketed hbase, hlookup]

theorem resolveAll_eq_of_settled {rs : List Reference}
    (ih : ∀ r ∈ rs, Settled names (c.resolve r) → c'.resolve r = c.resolve r)
    (h : Settled names (c.resolveAll rs)) : c'.resolveAll rs = c.resolveAll rs := by
  induction rs with
  | nil => rfl
  | cons r rest ihrest =>
    -- The first reference that fails decides, so its error is one of the whole list.
    have hfirst : c'.resolve r = c.resolve r :=
      ih r List.mem_cons_self (h.of_part fun e he => resolveAll_cons_error he)
    cases hr : c.resolve r with
    | error e =>
      rw [hr] at hfirst
      rw [resolveAll_cons_error hr, resolveAll_cons_error hfirst]
    | ok d =>
      rw [hr] at hfirst
      have hrest : c'.resolveAll rest = c.resolveAll rest := by
        apply ihrest
        · intro a ha
          exact ih a (List.mem_cons_of_mem r ha)
        · apply h.of_part
          intro e he
          rw [resolveAll_cons_ok hr, he]
          rfl
      rw [resolveAll_cons_ok hr, resolveAll_cons_ok hfirst, hrest]

/-- A reference has one result in catalogs that agree, unless it is about one of the given names. -/
theorem resolve_eq_of_settled (hagree : Agree names c c') (r : Reference)
    (h : Settled names (c.resolve r)) : c'.resolve r = c.resolve r := by
  induction r using Reference.induction with
  | named name =>
    rw [resolve] at h
    rw [resolve, resolve]
    exact resolveName_eq_of_settled hagree h
  | array element ih =>
    have helement : c'.resolve element = c.resolve element := by
      apply ih
      apply h.of_part
      intro e he
      rw [resolve, he]
    rw [resolve, resolve, helement]
  | generic name args ih =>
    have hlookup : c'.lookup name = c.lookup name := by
      apply hagree
      apply h.of_part
      intro e he
      rw [resolve, he]
    rw [resolve] at h
    rw [resolve, resolve, hlookup]
    cases hknown : c.lookup name with
    | error e => rfl
    | ok definition =>
      rw [hknown] at h
      dsimp only at h ⊢
      -- The number of arguments is the same in both catalogs; only their results may differ.
      by_cases harity : args.length ≠ arity definition
      · rw [if_pos harity, if_pos harity]
      rw [if_neg harity] at h
      rw [if_neg harity, if_neg harity]
      by_cases hempty : args.isEmpty = true
      · rw [if_pos hempty, if_pos hempty]
      rw [if_neg hempty] at h
      rw [if_neg hempty, if_neg hempty]
      have hargs : c'.resolveAll args = c.resolveAll args := by
        apply resolveAll_eq_of_settled ih
        apply h.of_part
        intro e he
        rw [he]
      rw [hargs]

/-- Catalogs with the same entries resolve every reference alike, whatever the order in which the
entries were made. -/
theorem resolve_congr (h : ∀ name, c.get? name = c'.get? name) (r : Reference) :
    c.resolve r = c'.resolve r := by
  have hagree : Agree (fun _ => False) c' c := by
    intro name _
    rw [lookup, lookup, h]
  exact resolve_eq_of_settled hagree r fun _ _ hfalse => hfalse

/-! ## What is kept -/

/-- Whether a type can be looked up by a name. -/
def Knows (c : Catalog) (name : String) : Prop := ∃ d, c.get? name = some d

theorem Extends.agree (h : c.Extends c') : Agree c'.Knows c c' := by
  intro name hsettled
  cases hknown : c.get? name with
  | some d => rw [lookup_eq_ok hknown, lookup_eq_ok (h name d hknown)]
  | none =>
    have hunknown := lookup_eq_error hknown
    rw [hunknown]
    cases hlater : c'.get? name with
    | none => exact lookup_eq_error hlater
    | some d => exact absurd ⟨d, hlater⟩ (hsettled name hunknown)

/-- What a result in a catalog has to do with the result in a later one. -/
structure Kept {α : Type} (later : Catalog) (old new : Except CatalogError α) : Prop where
  resolved : ∀ a, old = .ok a → new = .ok a
  arityMismatch : ∀ name expected actual, old = .error (.arityMismatch name expected actual) →
    new = .error (.arityMismatch name expected actual)
  /-- Only the complaint about an unknown name can be lifted, by a definition of that name. -/
  changed : new ≠ old → ∃ name, old = .error (.unknownType name) ∧ later.Knows name

theorem kept_of_settled {α : Type} {old new : Except CatalogError α}
    (h : Settled c'.Knows old → new = old) : c'.Kept old new where
  resolved := by
    rintro a rfl
    apply h
    intro name hname
    cases hname
  arityMismatch := by
    rintro name expected actual rfl
    apply h
    intro unknown hunknown
    cases hunknown
  changed := by
    intro hne
    by_contra hnone
    apply hne
    apply h
    intro name hold hknown
    exact hnone ⟨name, hold, hknown⟩

/-- **Resolution is monotone.** After any attempts to define types, some of which may have been
refused: a reference or a bare name that was resolved is resolved to the same type, one that was
refused for its number of arguments is refused in the same way, and any other result can change only
if it was about an unknown name that is known now. A known name keeps its definition, and an attempt
that is refused leaves a catalog in which every result is the same. -/
theorem results_kept (c : Catalog) (definitions : List Definition) :
    let c' := c.attemptAll definitions
    (∀ r, c'.Kept (c.resolve r) (c'.resolve r)) ∧
      (∀ name, c'.Kept (c.resolveName name) (c'.resolveName name)) ∧
      (∀ name d, c.get? name = some d → c'.get? name = some d) ∧
      ∀ definition e, (c'.define definition).1 = .error e →
        (∀ r, (c'.define definition).2.resolve r = c'.resolve r) ∧
          (∀ name, (c'.define definition).2.resolveName name = c'.resolveName name) ∧
          ∀ name, (c'.define definition).2.get? name = c'.get? name := by
  intro c'
  have hext : c.Extends c' := c.attemptAll_extends definitions
  refine ⟨?_, ?_, hext, ?_⟩
  · intro r
    exact kept_of_settled (resolve_eq_of_settled hext.agree r)
  · intro name
    exact kept_of_settled (resolveName_eq_of_settled hext.agree)
  · intro definition e hrefused
    rw [define_error hrefused]
    exact ⟨fun _ => rfl, fun _ => rfl, fun _ => rfl⟩

/-- One more definition of items, which is refused where items are known. -/
def otherItems : Definition := ⟨some "Shop", "Item", .enumType, [], []⟩

/-- Definitions of types that are named like an array of items and like a box of items, one more
definition of items, and one of crates. -/
def lookalikes : List Definition :=
  [⟨some "Shop", "Item[]", .enumType, [], []⟩, ⟨some "Shop", "Box`1[[Shop.Item]]", .enumType, [], []⟩,
    otherItems, ⟨some "Shop", "Crate", .classType, [], []⟩]

/-- None of the names takes the place of an array or of a box, but crates become known. They stay what
they are when items are refused once more. -/
theorem lookalikes_take_no_place :
    ∃ array box, pairCatalog.resolve (.named "Shop.Item[]") = .ok array ∧
      (pairCatalog.attemptAll lookalikes).resolve (.named "Shop.Item[]") = .ok array ∧
      pairCatalog.resolve (.generic "Shop.Box`1" [.named "Shop.Item"]) = .ok box ∧
      (pairCatalog.attemptAll lookalikes).resolve (.generic "Shop.Box`1" [.named "Shop.Item"]) =
        .ok box ∧
      (pairCatalog.attemptAll lookalikes).resolve (.generic "Shop.Pair`2" []) =
        .error (.arityMismatch "Shop.Pair`2" 2 0) ∧
      pairCatalog.resolveName "Shop.Crate" = .error (.unknownType "Shop.Crate") ∧
      ((pairCatalog.attemptAll lookalikes).define otherItems).1 =
        .error (.duplicateDefinition "Shop.Item") ∧
      ∃ crate, (pairCatalog.attemptAll lookalikes).resolveName "Shop.Crate" = .ok crate ∧
        ((pairCatalog.attemptAll lookalikes).define otherItems).2.resolveName "Shop.Crate" =
          .ok crate := by
  obtain ⟨hresolve, -, -, hrefused⟩ := results_kept pairCatalog lookalikes
  obtain ⟨array, harray⟩ : ∃ array, pairCatalog.resolve (.named "Shop.Item[]") = .ok array :=
    ⟨_, rfl⟩
  obtain ⟨box, hbox⟩ :
      ∃ box, pairCatalog.resolve (.generic "Shop.Box`1" [.named "Shop.Item"]) = .ok box := ⟨_, rfl⟩
  obtain ⟨crate, hcrate⟩ :
      ∃ crate, (pairCatalog.attemptAll lookalikes).resolveName "Shop.Crate" = .ok crate := ⟨_, rfl⟩
  have htaken : ((pairCatalog.attemptAll lookalikes).define otherItems).1 =
      .error (.duplicateDefinition "Shop.Item") := by
    have hvalid : blankPart? otherItems = none := by decide +kernel
    have hname : otherItems.toDescriptor.definitionName = "Shop.Item" := by decide +kernel
    have hknown : (pairCatalog.attemptAll lookalikes).types.contains "Shop.Item" = true := by
      decide +kernel
    rw [← hname] at hknown ⊢
    rw [define_of_contains hvalid hknown]
  obtain ⟨-, hsame, -⟩ := hrefused otherItems _ htaken
  exact ⟨array, box, harray, (hresolve _).resolved array harray, hbox,
    (hresolve _).resolved box hbox, (hresolve _).arityMismatch _ _ _ rfl, rfl, htaken, crate, hcrate,
    (hsame _).trans hcrate⟩

end Catalog

end TypeProjection
