import TypeProjection.Proofs.Visits

/-!
# Effects of a projection

The registry and the warnings are handed through the whole recursion of a projection. What comes out
is nevertheless simple: the declared types among the visited ones are registered in preorder, and
each unknown one is warned of once. Entering one type is the step (`enter_registry`,
`enter_warnings`), and the visited types of a projection are a run of such steps.
-/

namespace TypeProjection

/-- The warnings on a trail. -/
def Trail.warnings (t : Trail) : List String := t.events.filterMap Event.warning?

@[simp] theorem Trail.registry_log (t : Trail) (e : Event) : (t.log e).registry = t.registry := rfl

theorem Trail.warnings_log (t : Trail) (e : Event) :
    (t.log e).warnings = t.warnings ++ e.warning?.toList := by
  rw [warnings, warnings, log, List.filterMap_append]
  cases e <;> rfl

theorem Trail.registry_register (t : Trail) (d : Descriptor) :
    (t.register d).registry = t.registry.register d := by
  unfold Trail.register
  split
  · rename_i h; rw [Registry.register_of_contains h]
  · rfl

theorem Trail.warnings_register (t : Trail) (d : Descriptor) :
    (t.register d).warnings = t.warnings := by
  unfold Trail.register
  split
  · rfl
  · rw [warnings_log]
    exact List.append_nil _

namespace Projector

variable {p : Projector}

/-! ## One type -/

/-- Entering a type registers it exactly if it is declared. -/
theorem enter_registry (p : Projector) (t : Trail) (d : Descriptor) :
    (p.enter t d).registry =
      if p.isDeclared d then t.registry.register d else t.registry := by
  rw [enter, isDeclared]
  cases p.role d with
  | silent => rfl
  | enumeration => exact t.registry_register d
  | complex => exact t.registry_register d
  | unknown => rfl

/-- Entering a type warns exactly if it is unknown. -/
theorem enter_warnings (p : Projector) (t : Trail) (d : Descriptor) :
    (p.enter t d).warnings =
      t.warnings ++ if p.isUnknown d then [unknownTypeMessage d] else [] := by
  rw [enter, isUnknown]
  cases p.role d with
  | silent => exact (List.append_nil _).symm
  | enumeration =>
    show ((t.register d).log _).warnings = t.warnings ++ []
    rw [Trail.warnings_log, Trail.warnings_register]
    rfl
  | complex => exact (t.warnings_register d).trans (List.append_nil _).symm
  | unknown => exact t.warnings_log _

/-! ## A run of types -/

theorem foldl_enter_registry (p : Projector) (ds : List Descriptor) (t : Trail) :
    (ds.foldl p.enter t).registry = t.registry.registerAll (ds.filter p.isDeclared) := by
  induction ds generalizing t with
  | nil => rfl
  | cons d rest ih =>
    rw [List.foldl_cons, ih, enter_registry]
    by_cases h : p.isDeclared d = true
    · rw [if_pos h, List.filter_cons_of_pos h]
      rfl
    · rw [if_neg h, List.filter_cons_of_neg h]

theorem foldl_enter_warnings (p : Projector) (ds : List Descriptor) (t : Trail) :
    (ds.foldl p.enter t).warnings =
      t.warnings ++ (ds.filter p.isUnknown).map unknownTypeMessage := by
  induction ds generalizing t with
  | nil => exact (List.append_nil _).symm
  | cons d rest ih =>
    rw [List.foldl_cons, ih, enter_warnings, List.append_assoc]
    by_cases h : p.isUnknown d = true
    · rw [if_pos h, List.filter_cons_of_pos h]
      rfl
    · rw [if_neg h, List.filter_cons_of_neg h]
      rfl

/-! ## A projection -/

theorem visit_registry (p : Projector) (t : Trail) (d : Descriptor) :
    (p.visit t d).2.registry = t.registry.registerAll ((p.visited d).filter p.isDeclared) := by
  rw [visit_trail, foldl_enter_registry]

theorem project_registry (p : Projector) (r : Registry) (d : Descriptor) :
    (p.project r d).registry = r.registerAll ((p.visited d).filter p.isDeclared) :=
  p.visit_registry ⟨r, []⟩ d

theorem project_warnings (p : Projector) (r : Registry) (d : Descriptor) :
    (p.project r d).warnings = ((p.visited d).filter p.isUnknown).map unknownTypeMessage := by
  show (p.visit ⟨r, []⟩ d).2.warnings = _
  rw [visit_trail, foldl_enter_warnings]
  exact List.nil_append _

/-- **Effects are exact.** Projecting a type adds to the registry the declared types among the
visited ones, in preorder and each definition once, unless they are there already; the modules stay;
and the warnings are those of the unknown types among the visited ones, in preorder. -/
theorem project_effects (p : Projector) (r : Registry) (d : Descriptor) :
    (p.project r d).registry.entries =
        r.entries ++ r.unregistered ((p.visited d).filter p.isDeclared) ∧
      (p.project r d).registry.modules = r.modules ∧
      (p.project r d).warnings =
        ((p.visited d).filter p.isUnknown).map unknownTypeMessage := by
  refine ⟨?_, ?_, p.project_warnings r d⟩
  · rw [project_registry]
    exact r.entries_registerAll _
  · rw [project_registry]
    exact r.modules_registerAll _

end Projector

end TypeProjection
