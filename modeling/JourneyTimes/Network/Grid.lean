import JourneyTimes.Network.Basic

/-!
# Grid cities

A grid city has crossings in rows and columns, the same distance apart, and a
two-way street between any two crossings next to each other.
-/

namespace JourneyTimes.Network

variable {α : Type} [Scalar α]

/-- The size of a grid city and the lengths and speeds of its streets. -/
structure GridPlan (α : Type) where
  columns : Nat
  rows : Nat
  spacing : α
  freeSpeed : α
deriving Repr, DecidableEq

namespace GridPlan

/-- The crossings as pairs of a column and a row, row after row. -/
def crossings (plan : GridPlan α) : List (Nat × Nat) :=
  (List.range plan.rows).flatMap fun row =>
    (List.range plan.columns).map fun column => (column, row)

/-- Crossings are numbered row after row, and have their number as id. -/
def crossingId (plan : GridPlan α) (crossing : Nat × Nat) : String :=
  toString (crossing.2 * plan.columns + crossing.1)

/-- The place of a crossing. -/
def crossingPlace (plan : GridPlan α) (crossing : Nat × Nat) : Point α :=
  ⟨plan.spacing * Scalar.ofNat crossing.1, plan.spacing * Scalar.ofNat crossing.2⟩

/-- The crossings next to one: left, right, below and above it, as far as
they exist. -/
def neighbours (plan : GridPlan α) : Nat × Nat → List (Nat × Nat)
  | (column, row) =>
    (if 0 < column then [(column - 1, row)] else []) ++
    (if column + 1 < plan.columns then [(column + 1, row)] else []) ++
    (if 0 < row then [(column, row - 1)] else []) ++
    (if row + 1 < plan.rows then [(column, row + 1)] else [])

/-- The street from one crossing to another. -/
def street (plan : GridPlan α) (crossing neighbour : Nat × Nat) : Link α :=
  let origin := plan.crossingId crossing
  let destination := plan.crossingId neighbour
  Link.road (origin ++ "-" ++ destination) origin destination plan.spacing
    plan.freeSpeed

/-- The streets that leave the crossings, crossing after crossing. -/
def streets (plan : GridPlan α) : List (Link α) :=
  plan.crossings.flatMap fun crossing =>
    (plan.neighbours crossing).map (plan.street crossing)

end GridPlan

/-- The network of a grid city. -/
def grid (plan : GridPlan α) : Network α :=
  ofParts
    (plan.crossings.map fun crossing =>
      ⟨plan.crossingId crossing, plan.crossingPlace crossing⟩)
    plan.streets

end JourneyTimes.Network
