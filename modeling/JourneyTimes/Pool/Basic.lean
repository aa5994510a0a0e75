import JourneyTimes.Error

/-!
# Worker pools

Path trees are expensive to make, so a fixed number of them is made once and
lent to the tasks that need one.  A pool lends each of its resources to one
borrower at a time, under a lease with a number of its own.  The resource put
back last is lent first.

A pool that has been shut down has dropped its resources and lends nothing.
-/

namespace JourneyTimes

/-- Resources that are free, and resources that are out on a lease. -/
structure WorkerPool (ρ : Type) where
  /-- How many resources the pool was made with. -/
  size : Nat
  /-- The free resources, the one lent next in front. -/
  free : List ρ
  /-- The resources that are lent, by the number of their lease. -/
  leases : List (Nat × ρ)
  nextLease : Nat
  isShutDown : Bool
deriving Repr

namespace WorkerPool

variable {ρ : Type}

/-- A pool that lends some resources, the last of them first.  There must be
at least one. -/
def make (resources : List ρ) : Except Error (WorkerPool ρ) :=
  if resources.isEmpty then .error .emptyPool
  else .ok
    { size := resources.length
      free := resources.reverse
      leases := []
      nextLease := 0
      isShutDown := false }

/-- The number of resources that are not lent. -/
def available (pool : WorkerPool ρ) : Nat := pool.free.length

/-- Borrow a resource: the number of the lease and the pool after lending.
There is no lease yet if all resources are lent; the borrower waits until one
comes back. -/
def checkout (pool : WorkerPool ρ) :
    Except Error (Option (Nat × WorkerPool ρ)) :=
  if pool.isShutDown then .error .poolShutDown
  else
    match pool.free with
    | [] => .ok none
    | resource :: free =>
      .ok (some (pool.nextLease,
        { pool with
          free
          leases := (pool.nextLease, resource) :: pool.leases
          nextLease := pool.nextLease + 1 }))

/-- The resource that is lent under a lease. -/
def resource? (pool : WorkerPool ρ) (lease : Nat) : Option ρ :=
  pool.leases.lookup lease

/-- Change the resource that is lent under a lease. -/
def update (pool : WorkerPool ρ) (lease : Nat) (change : ρ → ρ) :
    WorkerPool ρ :=
  { pool with
    leases := pool.leases.map fun (number, resource) =>
      (number, if number = lease then change resource else resource) }

/-- Give a resource back, if it is lent under the lease. -/
def giveBack? (pool : WorkerPool ρ) (lease : Nat) : Option (WorkerPool ρ) :=
  (pool.resource? lease).map fun resource =>
    { pool with
      free := resource :: pool.free
      leases := pool.leases.filter fun (number, _) => number != lease }

/-- Drop all free resources and lend nothing any more. -/
def shutDown (pool : WorkerPool ρ) : WorkerPool ρ :=
  { pool with free := [], isShutDown := true }

end WorkerPool

end JourneyTimes
