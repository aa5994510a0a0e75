import JourneyTimes.Scalar

/-!
# Points of the plane

Nodes, stops and zones lie in the plane, and lengths of transfers and walks
are straight-line distances between them.
-/

namespace JourneyTimes

/-- A point, by its two coordinates. -/
structure Point (α : Type) where
  x : α
  y : α
deriving Repr, DecidableEq

namespace Point

variable {α : Type} [Scalar α]

/-- Points are compared by their coordinates. -/
instance : BEq (Point α) where
  beq left right := left.x == right.x && left.y == right.y

/-- The vector from the second point to the first. -/
def minus (point origin : Point α) : Point α :=
  ⟨point.x - origin.x, point.y - origin.y⟩

/-- The square of the distance between two points. -/
def squaredDistance (left right : Point α) : α :=
  let offset := left.minus right
  Scalar.square offset.x + Scalar.square offset.y

/-- The straight-line distance between two points. -/
def distance (left right : Point α) : α :=
  Scalar.squareRoot (left.squaredDistance right)

/-- The angle of the vector from `origin` to a point, from `0` up to, but not
including, a full turn. -/
def angleFrom (point origin : Point α) : α :=
  let offset := point.minus origin
  let angle := Scalar.angle offset.y offset.x
  if angle < 0 then angle + Scalar.ofNat 2 * Scalar.halfTurn else angle

/-- Whether both coordinates are finite. -/
def isFinite (point : Point α) : Bool :=
  Scalar.isFinite point.x && Scalar.isFinite point.y

end Point

/-- A rectangle with sides parallel to the axes. -/
structure Box (α : Type) where
  low : Point α
  high : Point α

namespace Box

variable {α : Type} [Scalar α]

/-- The least box with both a box and a point in it. -/
def extend (box : Box α) (point : Point α) : Box α :=
  { low := ⟨Scalar.smaller box.low.x point.x, Scalar.smaller box.low.y point.y⟩
    high := ⟨Scalar.larger box.high.x point.x, Scalar.larger box.high.y point.y⟩ }

/-- The least box around some points, if there are any. -/
def around : List (Point α) → Option (Box α)
  | [] => none
  | point :: rest => some (rest.foldl extend ⟨point, point⟩)

/-- The point in the middle of a box. -/
def centre (box : Box α) : Point α :=
  ⟨(box.low.x + box.high.x) / Scalar.ofNat 2,
   (box.low.y + box.high.y) / Scalar.ofNat 2⟩

end Box

end JourneyTimes
