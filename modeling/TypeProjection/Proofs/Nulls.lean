import TypeProjection.Proofs.Expressions

/-!
# Null arms

Two projections that differ in the strictness of nulls alone are compared. They visit the same types
and leave the same trail, and their texts are prints of one expression, in the lax case without its
null arms (`project_withNulls`). No other rule looks at the setting.
-/

namespace TypeProjection

/-! ## Erasing null arms -/

namespace Expr

mutual

/-- An expression without its null arms. -/
def eraseNulls : Expr → Expr
  | named text => named text
  | apply name args => apply name (eraseNullsAll args)
  | array element => array element.eraseNulls
  | map key value => map key.eraseNulls value.eraseNulls
  | orNull type => type.eraseNulls
  | actionResult => actionResult
  | verbatim text => verbatim text

def eraseNullsAll : List Expr → List Expr
  | [] => []
  | e :: rest => e.eraseNulls :: eraseNullsAll rest

end

theorem eraseNulls_orNullIf (wanted : Bool) (e : Expr) :
    (orNullIf wanted e).eraseNulls = e.eraseNulls := by
  cases wanted <;> rfl

/-- Nothing is left that needs parentheses. -/
theorem isUnion_eraseNulls : ∀ e : Expr, e.eraseNulls.isUnion = false
  | named _ => rfl
  | apply _ _ => rfl
  | array _ => rfl
  | map _ _ => rfl
  | orNull type => by
      rw [eraseNulls]
      exact isUnion_eraseNulls type
  | actionResult => rfl
  | verbatim _ => rfl

end Expr

theorem Leaf.eraseNulls_toExpr (name : String) (leaf : Leaf) :
    (leaf.toExpr true name).eraseNulls = leaf.toExpr false name := by
  cases leaf with
  | builtin entry nullable => exact Expr.eraseNulls_orNullIf _ (.named entry.name)
  | enumeration nullable => exact Expr.eraseNulls_orNullIf _ (.named name)
  | override | actionResult | formData | dynamicJson | untypedMap | untypedArray | runtime
  | unknown => rfl

namespace Outline

mutual

/-- Erasing the null arms of a strict expression gives the lax one. -/
theorem eraseNulls_toExpr (nameOf : Descriptor → String) :
    ∀ o : Outline, (o.toExpr true nameOf).eraseNulls = o.toExpr false nameOf
  | leaf type rule => by
      rw [toExpr, toExpr]
      exact rule.eraseNulls_toExpr (nameOf type)
  | map type key value => by
      rw [toExpr, toExpr, Expr.eraseNulls, eraseNulls_toExpr nameOf key,
        eraseNulls_toExpr nameOf value]
  | array type element => by
      rw [toExpr, toExpr, Expr.eraseNulls, eraseNulls_toExpr nameOf element]
  | complex type nullable args => by
      rw [toExpr, toExpr, Expr.eraseNulls_orNullIf]
      by_cases h : args.isEmpty = true
      · rw [if_pos h, if_pos h]
        rfl
      · rw [if_neg h, if_neg h, Expr.eraseNulls, eraseNullsAll_toExprs nameOf args]
        rfl

theorem eraseNullsAll_toExprs (nameOf : Descriptor → String) :
    ∀ os : List Outline, Expr.eraseNullsAll (toExprs true nameOf os) = toExprs false nameOf os
  | [] => rfl
  | o :: rest => by
      rw [toExprs, toExprs, Expr.eraseNullsAll, eraseNulls_toExpr nameOf o,
        eraseNullsAll_toExprs nameOf rest]

end

end Outline

namespace Projector

/-- The same projector with null arms turned on or off. -/
def withNulls (p : Projector) (strict : Bool) : Projector :=
  { p with config := p.config.setStrictNulls strict }

/-! ## What does not depend on null arms -/

@[simp] theorem enter_withNulls (p : Projector) (strict : Bool) :
    (p.withNulls strict).enter = p.enter := rfl

theorem visited_withNulls (p : Projector) (strict : Bool) (d : Descriptor) :
    (p.withNulls strict).visited d = p.visited d := by
  have hcomponents : (p.withNulls strict).components = p.components := rfl
  exact visited_congr hcomponents d

theorem outline_withNulls (p : Projector) (strict : Bool) (d : Descriptor) :
    (p.withNulls strict).outline d = p.outline d := by
  have hrule : (p.withNulls strict).rule = p.rule := rfl
  exact outline_congr hrule d

/-- The trail of a visit is the same with and without null arms. -/
theorem visit_withNulls_trail (p : Projector) (strict : Bool) (t : Trail) (d : Descriptor) :
    ((p.withNulls strict).visit t d).2 = (p.visit t d).2 := by
  rw [visit_trail, visit_trail, visited_withNulls, enter_withNulls]

/-- The names of types are the same with and without null arms. -/
theorem expr_withNulls (p : Projector) (strict : Bool) (r : Registry) (d : Descriptor) :
    (p.withNulls strict).expr r d =
      (p.outline d).toExpr strict ((p.project r d).registry.qualifiedName p.config) := by
  have hregistry : ((p.withNulls strict).project r d).registry = (p.project r d).registry :=
    congrArg Trail.registry (p.visit_withNulls_trail strict ⟨r, []⟩ d)
  rw [expr, exprWith, outline_withNulls, hregistry]
  rfl

/-! ## Strict and lax projections -/

/-- **Strict nulls only add null arms.** With and without them the same types are registered in the
same order and the same warnings are given; the strict text is the print of an expression and the lax
text the print of that expression without its null arms; and a lax projection is never a union. -/
theorem project_withNulls (p : Projector) (r : Registry) (d : Descriptor) :
    ((p.withNulls true).project r d).registry = ((p.withNulls false).project r d).registry ∧
      ((p.withNulls true).project r d).events = ((p.withNulls false).project r d).events ∧
      ((p.withNulls true).project r d).projection.text =
        ((p.withNulls true).expr r d).print ∧
      ((p.withNulls false).project r d).projection.text =
        ((p.withNulls true).expr r d).eraseNulls.print ∧
      ((p.withNulls false).project r d).projection.isUnion = false := by
  have htrail : ((p.withNulls true).visit ⟨r, []⟩ d).2 = ((p.withNulls false).visit ⟨r, []⟩ d).2 :=
    (p.visit_withNulls_trail true ⟨r, []⟩ d).trans (p.visit_withNulls_trail false ⟨r, []⟩ d).symm
  have hlax : ((p.withNulls false).project r d).projection =
      .ofExpr ((p.withNulls true).expr r d).eraseNulls := by
    rw [project_expr, expr_withNulls, expr_withNulls, Outline.eraseNulls_toExpr]
  refine ⟨congrArg Trail.registry htrail, congrArg Trail.events htrail, ?_, ?_, ?_⟩
  · rw [project_expr]
    rfl
  · rw [hlax]
    rfl
  · rw [hlax]
    exact Expr.isUnion_eraseNulls _

end Projector

end TypeProjection
