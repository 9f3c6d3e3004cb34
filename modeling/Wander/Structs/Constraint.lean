import Mathlib.Data.Int.Notation

/-!
# Constraints and affinities

`structs.Constraint` and `structs.Affinity`, which jobs, task groups, tasks and device requests
carry. Their `Equal` methods compare every field, so they are the structures' equality here.
`Constraints.Equal` and `Affinities.Equal` compare lists as sets, by one loop (`setEquals`) that
checks the first list's elements only: `[a, a]` equals `[a, b]`, but not the other way round.
-/

set_option autoImplicit false
set_option relaxedAutoImplicit false

namespace Wander.Structs

/-- `structs.Constraint`. The operand is kept as the source's string: the scheduler compares it
with the names of the constraints it handles. -/
structure Constraint where
  lTarget : String := ""
  rTarget : String := ""
  operand : String := ""
deriving DecidableEq, Repr

/-- `structs.ConstraintDistinctProperty`. -/
def constraintDistinctProperty : String := "distinct_property"

/-- `structs.ConstraintDistinctHosts`. -/
def constraintDistinctHosts : String := "distinct_hosts"

/-- `structs.Affinity`; the weight is an `int8`. -/
structure Affinity where
  lTarget : String := ""
  rTarget : String := ""
  operand : String := ""
  weight : ℤ := 0
deriving DecidableEq, Repr

/-- The loop `Constraints.Equal` and `Affinities.Equal` share: as many elements, and each element
of the first list found in the second. -/
def setEquals {α : Type} [DecidableEq α] (xs ys : List α) : Bool :=
  xs.length == ys.length && xs.all (· ∈ ys)

/-- `Constraints.Equal`. -/
def constraintsEqual (xs ys : List Constraint) : Bool := setEquals xs ys

/-- `Affinities.Equal`. -/
def affinitiesEqual (xs ys : List Affinity) : Bool := setEquals xs ys

@[simp] theorem setEquals_self {α : Type} [DecidableEq α] (xs : List α) :
    setEquals xs xs = true := by
  simp [setEquals]

end Wander.Structs
