import JourneyTimes.Landmarks.Selection

/-!
# Landmark factories

Landmarks take time to prepare, so a factory prepares them once for every
graph and hands out the same landmarks whenever that graph comes again,
whatever cost model it comes with.
-/

namespace JourneyTimes

/-- How many landmarks are chosen in which way, and the landmarks of the
graphs seen so far, by the identity of the graph. -/
structure LandmarksFactory (α : Type) where
  number : Nat
  selection : Selection
  prepared : List (Nat × Landmarks α)

namespace LandmarksFactory

variable {α : Type} [Scalar α]

/-- A factory that has seen no graph. -/
def make (number : Nat) (selection : Selection) : LandmarksFactory α :=
  ⟨number, selection, []⟩

/-- The landmarks of a graph that was seen before. -/
def prepared? (factory : LandmarksFactory α) (graph : Graph α) :
    Option (Landmarks α) :=
  factory.prepared.lookup graph.identity

/-- The landmarks of a graph: those prepared before, or else new ones. -/
def request (factory : LandmarksFactory α) (graph : Graph α)
    (cost : CostModel α) :
    Except Error (Landmarks α × LandmarksFactory α) :=
  match factory.prepared? graph with
  | some landmarks => .ok (landmarks, factory)
  | none => do
    let landmarks ←
      Landmarks.preprocess graph cost factory.number factory.selection
    pure (landmarks,
      { factory with
        prepared := (graph.identity, landmarks) :: factory.prepared })

/-- For how many graphs landmarks have been prepared. -/
def count (factory : LandmarksFactory α) : Nat := factory.prepared.length

end LandmarksFactory

end JourneyTimes
