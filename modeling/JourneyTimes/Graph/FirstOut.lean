/-!
# First-out adjacency

The links at the nodes of a graph are stored in two arrays.  One holds the
numbers of all links, those of node `0` first, then those of node `1`, and so
on.  The other says for every node where its links begin; they end where the
links of the next node begin.

The arrays are made by a counting sort: count the links of every node, add
the counts up to get the beginnings, and put every link into the next free
slot of its node.  Links of one node therefore stay in increasing order.
-/

namespace JourneyTimes

/-- Numbers of links grouped by node. -/
structure FirstOut where
  /-- Where the links of each node begin in `slots`, and where all end. -/
  first : Array Nat
  /-- The numbers of the links. -/
  slots : Array Nat
deriving Repr, DecidableEq

namespace FirstOut

/-- How many links each node has, one place further on: the count of node `n`
stands at `n + 1`. -/
def counts (size : Nat) (keys : List Nat) : Array Nat :=
  keys.foldl (fun counts key => counts.modify (key + 1) (· + 1))
    (Array.replicate (size + 1) 0)

/-- Add every count to the one after it, from the front. -/
def runningTotals (size : Nat) (counts : Array Nat) : Array Nat :=
  (List.range size).foldl
    (fun totals node => totals.modify (node + 1) (· + totals.getD node 0))
    counts

/-- The free slot of every node, and the slots filled so far. -/
structure Filling where
  next : Array Nat
  slots : Array Nat

/-- Put a link into the next free slot of its node. -/
def Filling.put (filling : Filling) (key link : Nat) : Filling :=
  { next := filling.next.modify key (· + 1)
    slots := filling.slots.setIfInBounds (filling.next.getD key 0) link }

/-- Group links by node; `keys` holds the node of link `0`, of link `1`, and
so on, all of them smaller than `size`. -/
def ofKeys (size : Nat) (keys : List Nat) : FirstOut :=
  let first := runningTotals size (counts size keys)
  let filled := keys.zipIdx.foldl
    (fun filling (key, link) => filling.put key link)
    (Filling.mk first (Array.replicate keys.length 0))
  ⟨first, filled.slots⟩

/-- The links of a node, in increasing order. -/
def linksAt (adjacency : FirstOut) (node : Nat) : List Nat :=
  (adjacency.slots.extract (adjacency.first.getD node 0)
    (adjacency.first.getD (node + 1) 0)).toList

end FirstOut

end JourneyTimes
