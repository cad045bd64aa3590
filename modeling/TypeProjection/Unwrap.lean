import TypeProjection.Host

/-!
# Wrapper types

Before a type is projected its wrappers are taken off: an asynchronous result, then a web result,
then a nullable value. Each is taken off at most once and in this order.
-/

namespace TypeProjection

/-- A type without its wrappers, and whether it admits null. -/
structure Unwrapped where
  type : Descriptor
  nullable : Bool

namespace Descriptor

/-- The only argument of a type with the given definition name. -/
def onlyArg? (d : Descriptor) (definition : String) : Option Descriptor :=
  if d.definitionName = definition then
    match d.args with
    | [inner] => some inner
    | _ => none
  else none

/-- The result of an asynchronous computation; without an argument it returns nothing. -/
def withoutAsync (d : Descriptor) : Descriptor :=
  if Host.isAsyncWrapper d then d.args.head?.getD Host.void else d

def withoutActionResult (d : Descriptor) : Descriptor :=
  (d.onlyArg? Host.actionResult).getD d

/-- Takes off a nullable wrapper. Without one, a type admits null if it is a reference type. -/
def withoutNullable (d : Descriptor) : Unwrapped :=
  match d.onlyArg? Host.nullable with
  | some inner => ⟨inner, true⟩
  | none => ⟨d, d.isReferenceType⟩

def unwrap (d : Descriptor) : Unwrapped := d.withoutAsync.withoutActionResult.withoutNullable

/-! ## Size -/

theorem size_le_of_onlyArg? {d inner : Descriptor} {definition : String}
    (h : d.onlyArg? definition = some inner) : inner.size ≤ d.size := by
  unfold onlyArg? at h
  split at h
  · split at h
    · rename_i _ _ hargs
      obtain rfl : _ = inner := Option.some.inj h
      exact Nat.le_of_lt (size_lt_of_mem_args (by simp [hargs]))
    · cases h
  · cases h

theorem size_withoutAsync_le (d : Descriptor) : d.withoutAsync.size ≤ d.size := by
  unfold withoutAsync
  split
  · cases hargs : d.args with
    | nil => exact size_pos d
    | cons a rest => exact Nat.le_of_lt (size_lt_of_mem_args (by simp [hargs]))
  · exact Nat.le_refl _

theorem size_withoutActionResult_le (d : Descriptor) :
    d.withoutActionResult.size ≤ d.size := by
  unfold withoutActionResult
  cases h : d.onlyArg? Host.actionResult with
  | none => exact Nat.le_refl _
  | some inner => exact size_le_of_onlyArg? h

theorem size_withoutNullable_le (d : Descriptor) : d.withoutNullable.type.size ≤ d.size := by
  unfold withoutNullable
  split
  · rename_i h; exact size_le_of_onlyArg? h
  · exact Nat.le_refl _

theorem size_unwrap_le (d : Descriptor) : d.unwrap.type.size ≤ d.size :=
  Nat.le_trans (size_withoutNullable_le _)
    (Nat.le_trans (size_withoutActionResult_le _) (size_withoutAsync_le d))

end Descriptor

end TypeProjection
