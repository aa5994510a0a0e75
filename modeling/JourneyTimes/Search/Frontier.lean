import JourneyTimes.Scalar

/-!
# Frontiers

A search keeps the nodes that it has found a way to, and has not settled, in
its frontier.  Every node is there at most once, with a key.  The node with
the smallest key comes out first, and of several with that key the one with
the smallest number, so the order of a search never depends on chance.
-/

namespace JourneyTimes

/-- A node that waits to be settled. -/
structure Frontier.Entry (α : Type) where
  key : α
  node : Nat
deriving Repr, DecidableEq

/-- The nodes that wait to be settled. -/
structure Frontier (α : Type) where
  entries : List (Frontier.Entry α)
deriving Repr, DecidableEq

namespace Frontier

variable {α : Type} [Scalar α]

/-- Whether an entry comes out before another. -/
def Entry.precedes (left right : Entry α) : Bool :=
  decide (left.key < right.key) ||
    (!decide (right.key < left.key) && decide (left.node < right.node))

/-- No nodes. -/
def empty : Frontier α := ⟨[]⟩

/-- Let a node wait with a key.  If the node waits already, the new key takes
the place of the old one. -/
def push (frontier : Frontier α) (node : Nat) (key : α) : Frontier α :=
  ⟨⟨key, node⟩ :: frontier.entries.filter fun entry => entry.node != node⟩

/-- The earlier of two entries. -/
def earlier (best entry : Entry α) : Entry α :=
  if entry.precedes best then entry else best

/-- The node that comes out first, and the frontier without it. -/
def pop? (frontier : Frontier α) : Option (Nat × Frontier α) :=
  match frontier.entries with
  | [] => none
  | entry :: rest =>
    let first := rest.foldl earlier entry
    some (first.node,
      ⟨frontier.entries.filter fun entry => entry.node != first.node⟩)

end Frontier

end JourneyTimes
