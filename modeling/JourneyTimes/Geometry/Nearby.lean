import JourneyTimes.Error
import JourneyTimes.Geometry.Point

/-!
# Points near a place

Transfers lead to the stops within a radius, and a zone is represented by the
node nearest to it.  Both questions are about a collection of places, each
with something found there.  Only places with finite coordinates can be
collected or asked about.
-/

namespace JourneyTimes

/-- Places with something found at each of them, in the order added. -/
structure Places (α β : Type) where
  entries : List (Point α × β)

namespace Places

variable {α β : Type} [Scalar α]

/-- No places. -/
def empty : Places α β := ⟨[]⟩

/-- A place can be used only if both its coordinates are finite. -/
def check (point : Point α) : Except Error Unit :=
  if point.isFinite then .ok () else .error .nonFiniteCoordinate

/-- Add a place. -/
def add (places : Places α β) (point : Point α) (content : β) :
    Except Error (Places α β) := do
  check point
  pure ⟨places.entries ++ [(point, content)]⟩

/-- Collect places in the order given. -/
def ofList (entries : List (Point α × β)) : Except Error (Places α β) := do
  entries.forM fun entry => check entry.1
  pure ⟨entries⟩

/-- What is found at the places whose squared distance is at most the square
of the radius, in the order added. -/
def within (places : Places α β) (point : Point α) (radius : α) :
    Except Error (List β) := do
  check point
  let near := places.entries.filter fun entry =>
    point.squaredDistance entry.1 ≤ Scalar.square radius
  pure (near.map (·.2))

/-- The nearer of a place found so far and another; the first of two equally
near ones stays. -/
def closer (point : Point α) (best : Option (α × β)) (entry : Point α × β) :
    Option (α × β) :=
  let distance := point.squaredDistance entry.1
  match best with
  | none => some (distance, entry.2)
  | some (least, _) => if distance < least then some (distance, entry.2) else best

/-- What is found at the nearest place, the one added first of equally near
ones. -/
def nearest? (places : Places α β) (point : Point α) :
    Except Error (Option β) := do
  check point
  pure ((places.entries.foldl (closer point) none).map (·.2))

end Places

end JourneyTimes
