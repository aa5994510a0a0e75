import JourneyTimes.Landmarks.Basic
import JourneyTimes.Random.Sample

/-!
# Choosing landmarks

Good landmarks lie far apart, near the rim of the graph.  They are chosen by
angle around the middle, or one after another as far as possible from those
chosen before, or at random.
-/

namespace JourneyTimes

/-- How landmarks are chosen. -/
inductive Selection where
  /-- The node farthest from the middle, in each of some equal sectors. -/
  | pieSlices
  /-- Again and again the node with the greatest cost from the landmarks. -/
  | farthest
  /-- Nodes drawn at random, the same ones for the same seed. -/
  | random (seed : UInt64)
deriving Repr, DecidableEq

namespace Selection

variable {α : Type} [Scalar α]

/-! ## Sectors -/

/-- The sector that a node lies in, as seen from the middle. -/
def sectorOf (count : Nat) (centre place : Point α) : Nat :=
  let sectorAngle : α :=
    Scalar.ofNat 2 * Scalar.halfTurn / Scalar.ofNat count
  min (Scalar.wholePart (place.angleFrom centre / sectorAngle)) (count - 1)

/-- The farther of the node chosen so far and another one; the first of two
equally far ones stays. -/
def farther (best : Option (Nat × α)) (node : Nat) (distance : α) :
    Option (Nat × α) :=
  match best with
  | none => some (node, distance)
  | some (_, greatest) =>
    if greatest < distance then some (node, distance) else best

/-- Let a node compete in its sector. -/
def compete (count : Nat) (centre : Point α)
    (sectors : Array (Option (Nat × α))) (node : Graph.Node α) :
    Array (Option (Nat × α)) :=
  sectors.modify (sectorOf count centre node.place) fun best =>
    farther best node.index (node.place.distance centre)

/-- The node farthest from the middle in each sector that has nodes. -/
def bySector (graph : Graph α) (count : Nat) : List Nat :=
  match Box.around (graph.nodes.toList.map (·.place)) with
  | none => []
  | some box =>
    let sectors := graph.nodes.toList.foldl (compete count box.centre)
      (Array.replicate count none)
    sectors.toList.filterMap fun best => best.map (·.1)

/-! ## Distance -/

/-- The node of greatest cost so far, and the next node: the first of equally
great ones stays. -/
def costlier (best : Option (Nat × α)) (candidate : Nat × α) :
    Option (Nat × α) :=
  match best with
  | none => some candidate
  | some (_, greatest) =>
    if candidate.2 ≤ greatest then best else some candidate

/-- The node of greatest finite cost among those that are not chosen yet. -/
def costliest? (costs : Array α) (chosen : List Nat) : Option Nat :=
  let candidates := costs.toList.zipIdx.filterMap fun (cost, node) =>
    if Scalar.isFinite cost ∧ ¬ chosen.contains node then some (node, cost)
    else none
  (candidates.foldl costlier none).map (·.1)

/-- The costs from the nearest landmark, once there is another landmark. -/
def nearestCosts (isFirst : Bool) (costs fresh : Array α) : Array α :=
  Array.zipWith
    (fun cost new => if isFirst ∨ new < cost then new else cost) costs fresh

/-- Choose some more landmarks, given the costs from the landmarks chosen so
far, or from node `0` if there are none. -/
def byDistance (graph : Graph α) (cost : CostModel α) :
    Nat → Array α → List Nat → Except Error (List Nat)
  | 0, _, chosen => .ok chosen
  | count + 1, costs, chosen =>
    match costliest? costs chosen with
    | none => .ok chosen
    | some node => do
      let fresh ← Sweep.costs graph cost .outgoing node
      byDistance graph cost count
        (nearestCosts chosen.isEmpty costs fresh) (chosen ++ [node])

/-! ## All ways of choosing -/

/-- Choose landmarks: at most the given number, and no more than there are
nodes. -/
def choose (selection : Selection) (graph : Graph α) (cost : CostModel α)
    (number : Nat) : Except Error (List Nat) :=
  let count := min number graph.size
  if count = 0 then .ok []
  else
    match selection with
    | .pieSlices => .ok (bySector graph count)
    | .farthest => do
      let costs ← Sweep.costs graph cost .outgoing 0
      byDistance graph cost count costs []
    | .random seed => .ok (Random.sample seed graph.size count)

end Selection

/-- Choose landmarks and find the costs from and to each of them. -/
def Landmarks.preprocess {α : Type} [Scalar α] (graph : Graph α)
    (cost : CostModel α) (number : Nat) (selection : Selection) :
    Except Error (Landmarks α) := do
  let nodes ← selection.choose graph cost number
  let members ← nodes.mapM (Landmark.prepare graph cost)
  pure { size := graph.size, members }

end JourneyTimes
