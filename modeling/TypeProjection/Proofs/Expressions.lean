import TypeProjection.Proofs.Effects

/-!
# Texts and expressions

The text of a projection is put together while types are visited, and where it gets parentheses
hangs on a flag that each part hands up. This file shows that the text is the print of one expression
(`project_expr`), and that the expression asks for names of declared types only (`exprWith_congr`).
-/

namespace TypeProjection

/-! ## Printing -/

theorem Expr.printAll_eq (es : List Expr) : Expr.printAll es = es.map Expr.print := by
  induction es with
  | nil => rfl
  | cons e rest ih => rw [Expr.printAll, ih, List.map_cons]

theorem Outline.toExprs_eq (strict : Bool) (nameOf : Descriptor → String) (os : List Outline) :
    Outline.toExprs strict nameOf os = os.map (Outline.toExpr strict nameOf) := by
  induction os with
  | nil => rfl
  | cons o rest ih => rw [Outline.toExprs, ih, List.map_cons]

namespace Projection

theorem orNullIf_ofExpr (wanted : Bool) (e : Expr) :
    (ofExpr e).orNullIf wanted = ofExpr (Expr.orNullIf wanted e) := by
  cases wanted <;> rfl

theorem apply_ofExpr (name : String) (args : List Expr) :
    apply name (args.map ofExpr) =
      ofExpr (if args.isEmpty then .named name else .apply name args) := by
  cases args with
  | nil => rfl
  | cons e rest =>
    have htexts : ((e :: rest).map ofExpr).map text = Expr.printAll (e :: rest) := by
      rw [Expr.printAll_eq, List.map_map]
      rfl
    rw [apply, htexts]
    rfl

end Projection

namespace Projector

variable {p : Projector}

/-! ## The expression of a type by its rule -/

theorem exprWith_eq (p : Projector) (nameOf : Descriptor → String) (d : Descriptor) :
    p.exprWith nameOf d =
      match p.rule d.unwrap.type d.unwrap.nullable with
      | .leaf leaf => leaf.toExpr p.config.strictNulls (nameOf d.unwrap.type)
      | .map key value => .map (p.exprWith nameOf key) (p.exprWith nameOf value)
      | .array element => .array (p.exprWith nameOf element)
      | .complex nullable args =>
        .orNullIf (p.config.strictNulls && nullable) <|
          if args.isEmpty then .named (nameOf d.unwrap.type)
          else .apply (nameOf d.unwrap.type) (args.map (p.exprWith nameOf)) := by
  rw [exprWith, outline_eq]
  cases p.rule d.unwrap.type d.unwrap.nullable with
  | leaf leaf => rfl
  | map key value => rfl
  | array element => rfl
  | complex nullable args =>
    show Outline.toExpr _ _ (.complex _ _ _) = _
    rw [Outline.toExpr, Outline.toExprs_eq, List.map_map, List.isEmpty_map]
    rfl

theorem toExpr_silent {leaf : Leaf} (h : leaf.isSilent = true) (strict : Bool)
    (name name' : String) : leaf.toExpr strict name = leaf.toExpr strict name' := by
  cases leaf <;> first | rfl | cases h

/-- An expression depends on the names of the declared types among the visited ones alone. -/
theorem exprWith_congr {f g : Descriptor → String} (p : Projector) (d : Descriptor)
    (h : ∀ x ∈ p.visited d, p.isDeclared x = true → f x = g x) :
    p.exprWith f d = p.exprWith g d := by
  induction d using p.rule_induction with
  | step d r hr hfits ih =>
    have hself := h d.unwrap.type (p.mem_visited_self d)
    have hparts : ∀ a ∈ r.parts, p.exprWith f a = p.exprWith g a := by
      intro a ha
      exact ih a ha fun x hx => h x (mem_visited_of_part (by rw [hr]; exact ha) hx)
    rw [exprWith_eq p f, exprWith_eq p g, hr]
    cases hfits with
    | silent hs _ _ => exact toExpr_silent hs _ _ _
    | enumeration hrole _ =>
      have hname := hself (by rw [isDeclared, hrole])
      show Leaf.toExpr _ (f d.unwrap.type) _ = Leaf.toExpr _ (g d.unwrap.type) _
      rw [hname]
    | unknown _ _ => rfl
    | @map key value _ _ =>
      show Expr.map _ _ = Expr.map _ _
      rw [hparts key (by simp [Rule.parts]), hparts value (by simp [Rule.parts])]
    | @array element _ _ =>
      show Expr.array _ = Expr.array _
      rw [hparts element (by simp [Rule.parts])]
    | complex hrole _ =>
      have hname := hself (by rw [isDeclared, hrole])
      have hargs := List.map_congr_left hparts
      simp only [Rule.parts] at hargs
      show Expr.orNullIf _ _ = Expr.orNullIf _ _
      rw [hname, hargs]

/-! ## The text of a visit -/

/-- Visiting a type leaves a registry that only has grown. -/
theorem visit_extends (p : Projector) (t : Trail) (d : Descriptor) :
    t.registry.Extends (p.visit t d).2.registry := by
  rw [visit_registry]
  exact t.registry.registerAll_extends _

theorem visitAll_extends (p : Projector) (t : Trail) (ds : List Descriptor) :
    t.registry.Extends (p.visitAll t ds).2.registry := by
  induction ds generalizing t with
  | nil => rw [visitAll]; exact Registry.Extends.refl _
  | cons d rest ih =>
    rw [visitAll]
    exact (p.visit_extends t d).trans (ih (p.visit t d).2)

/-- The name that is read right after a registration is the one that any later registry gives. -/
theorem qualifiedName_register {t : Trail} {d : Descriptor} {c : Config} {r : Registry}
    (h : (t.register d).registry.Extends r) :
    (t.register d).registry.qualifiedName c d = r.qualifiedName c d := by
  have hd : (t.register d).registry.contains d = true := by
    rw [Trail.registry_register]
    exact t.registry.contains_register_self d
  rw [Registry.qualifiedName, Registry.qualifiedName, h.moduleOf?_eq hd]

theorem visitAll_ofExpr {ds : List Descriptor} {r : Registry}
    (ih : ∀ d ∈ ds, ∀ t, (p.visit t d).2.registry.Extends r →
      (p.visit t d).1 = .ofExpr (p.exprWith (r.qualifiedName p.config) d))
    (t : Trail) (hr : (p.visitAll t ds).2.registry.Extends r) :
    (p.visitAll t ds).1 =
      (ds.map (p.exprWith (r.qualifiedName p.config))).map Projection.ofExpr := by
  induction ds generalizing t with
  | nil => rw [visitAll]; rfl
  | cons d rest ihrest =>
    rw [visitAll] at hr ⊢
    have hd := ih d List.mem_cons_self t ((p.visitAll_extends _ rest).trans hr)
    have hrest := ihrest (fun a ha => ih a (List.mem_cons_of_mem d ha)) (p.visit t d).2 hr
    rw [List.map_cons, List.map_cons, ← hd, ← hrest]

/-- The text of a visit is the print of the type's expression, with the names of any registry that
comes later. -/
theorem visit_ofExpr (p : Projector) (d : Descriptor) {r : Registry} (t : Trail)
    (hr : (p.visit t d).2.registry.Extends r) :
    (p.visit t d).1 = .ofExpr (p.exprWith (r.qualifiedName p.config) d) := by
  induction d using p.rule_induction generalizing t with
  | step d rule hrule hfits ih =>
    rw [visit_eq, hrule] at hr ⊢
    rw [exprWith_eq, hrule]
    cases hfits with
    | @silent leaf hs _ _ =>
      cases leaf with
      | builtin entry nullable => exact Projection.orNullIf_ofExpr _ (.named entry.name)
      | override | actionResult | formData | dynamicJson | untypedMap | untypedArray | runtime =>
        rfl
      | enumeration | unknown => cases hs
    | enumeration _ _ =>
      have hname : (t.register d.unwrap.type).registry.qualifiedName p.config d.unwrap.type =
          r.qualifiedName p.config d.unwrap.type := qualifiedName_register hr
      show p.orNull _ (.plain ((t.register d.unwrap.type).registry.qualifiedName _ _)) = _
      rw [hname]
      exact Projection.orNullIf_ofExpr _ (.named _)
    | unknown _ _ => rfl
    | @map key value _ _ =>
      -- What the key leaves is extended by what the value leaves.
      have hvalue := ih value (by simp [Rule.parts]) (p.visit t key).2 hr
      have hkey := ih key (by simp [Rule.parts]) t ((p.visit_extends _ value).trans hr)
      show Projection.map (p.visit t key).1 (p.visit (p.visit t key).2 value).1 = _
      rw [hkey, hvalue]
      rfl
    | @array element _ _ =>
      show Projection.array (p.visit t element).1 = _
      rw [ih element (by simp [Rule.parts]) t hr]
      rfl
    | complex _ _ =>
      have hparts : ∀ a ∈ d.unwrap.type.args, ∀ t, (p.visit t a).2.registry.Extends r →
          (p.visit t a).1 = .ofExpr (p.exprWith (r.qualifiedName p.config) a) := ih
      have hargs := visitAll_ofExpr hparts (t.register d.unwrap.type) hr
      -- The name is read before the arguments are visited, and stays.
      have hname : (t.register d.unwrap.type).registry.qualifiedName p.config d.unwrap.type =
          r.qualifiedName p.config d.unwrap.type :=
        qualifiedName_register ((p.visitAll_extends _ _).trans hr)
      show p.orNull _ (.apply ((t.register d.unwrap.type).registry.qualifiedName _ _)
        (p.visitAll (t.register d.unwrap.type) d.unwrap.type.args).1) = _
      rw [hname, hargs, Projection.apply_ofExpr, List.isEmpty_map]
      exact Projection.orNullIf_ofExpr _ _

/-- The text of a projection is the print of the type's expression. -/
theorem project_expr (p : Projector) (r : Registry) (d : Descriptor) :
    (p.project r d).projection = .ofExpr (p.expr r d) :=
  p.visit_ofExpr d ⟨r, []⟩ (Registry.Extends.refl _)

end Projector

end TypeProjection
