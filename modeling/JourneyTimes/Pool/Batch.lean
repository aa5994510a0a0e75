import JourneyTimes.Pool.Basic

/-!
# Batches of tasks

A batch runs one task for every item, each with a resource of a pool to
itself.  It goes on in moves: a task starts when a resource is free, and
finishes by putting what it found into the store of the batch and giving the
resource back, also when it fails.  Once a task has failed no other one
starts.

Any order of moves is a way to run a batch, and this module says what each
move does.  `WorkerPool.submit` runs the tasks in the order of the items, one
after another.
-/

namespace JourneyTimes

/-- What the tasks of a batch do.  `work` uses a resource, which it may leave
changed, on an item; `record` puts what was found into the store. -/
structure Job (ρ τ ω σ : Type) where
  work : τ → ρ → Except Error ω × ρ
  record : τ → ω → σ → Except Error σ

/-- A task that has started: the position of its item, the item, and the lease
of the resource it uses. -/
structure RunningTask (τ : Type) where
  position : Nat
  item : τ
  lease : Nat
deriving Repr, DecidableEq

/-- A batch under way. -/
structure Batch (ρ τ σ : Type) where
  pool : WorkerPool ρ
  /-- The items whose tasks have not started, with their positions. -/
  pending : List (Nat × τ)
  running : List (RunningTask τ)
  store : σ
  failure : Option Error

/-- What happens next in a batch, to the item at a position. -/
inductive Move where
  | start (position : Nat)
  | finish (position : Nat)
deriving Repr, DecidableEq

namespace Batch

variable {ρ τ ω σ : Type}

/-- A batch of which no task has started. -/
def make (pool : WorkerPool ρ) (items : List τ) (store : σ) : Batch ρ τ σ :=
  { pool
    pending := items.zipIdx.map fun (item, position) => (position, item)
    running := []
    store
    failure := none }

/-- Start the task of an item.  This cannot happen after a failure, or while
no resource is free. -/
def start? (batch : Batch ρ τ σ) (position : Nat) : Option (Batch ρ τ σ) :=
  match batch.failure, batch.pending.lookup position, batch.pool.checkout with
  | none, some item, .ok (some (lease, pool)) =>
    some
      { batch with
        pool
        pending := batch.pending.filter fun (other, _) => other != position
        running := ⟨position, item, lease⟩ :: batch.running }
  | _, _, _ => none

/-- The task at a position, if it is running. -/
def task? (batch : Batch ρ τ σ) (position : Nat) : Option (RunningTask τ) :=
  batch.running.find? fun task => task.position == position

/-- The store after a task, or how the task failed. -/
def outcome (job : Job ρ τ ω σ) (item : τ) (found : Except Error ω)
    (store : σ) : Except Error σ := do
  let found ← found
  job.record item found store

/-- Finish the task of an item. -/
def finish? (job : Job ρ τ ω σ) (batch : Batch ρ τ σ) (position : Nat) :
    Option (Batch ρ τ σ) := do
  let task ← batch.task? position
  let resource ← batch.pool.resource? task.lease
  let (found, resource) := job.work task.item resource
  let pool ← (batch.pool.update task.lease fun _ => resource).giveBack? task.lease
  let running := batch.running.filter fun other => other.position != position
  match outcome job task.item found batch.store with
  | .ok store => pure { batch with pool, running, store }
  | .error error =>
    pure
      { batch with
        pool, running
        failure := batch.failure.or (some error) }

/-- Make a move, if it can be made. -/
def move? (job : Job ρ τ ω σ) (batch : Batch ρ τ σ) : Move → Option (Batch ρ τ σ)
  | .start position => batch.start? position
  | .finish position => batch.finish? job position

/-- Run the tasks at some positions, one after another, until one fails or
cannot start. -/
def runInOrder (job : Job ρ τ ω σ) : List Nat → Batch ρ τ σ → Batch ρ τ σ
  | [], batch => batch
  | position :: rest, batch =>
    match (batch.start? position).bind fun started => started.finish? job position with
    | some next => runInOrder job rest next
    | none => batch

/-- What came of a batch: the store, unless a task failed or could not
start. -/
def result (batch : Batch ρ τ σ) : Except Error σ :=
  match batch.failure with
  | some error => .error error
  | none =>
    if batch.pending.isEmpty then .ok batch.store
    else .error (if batch.pool.isShutDown then .poolShutDown else .emptyPool)

end Batch

/-- Run a task for every item, in the order of the items, and give the store
that they leave, with the pool.  A pool that is shut down takes no tasks. -/
def WorkerPool.submit {ρ τ ω σ : Type} (pool : WorkerPool ρ)
    (job : Job ρ τ ω σ) (items : List τ) (store : σ) :
    Except Error σ × WorkerPool ρ :=
  if pool.isShutDown then (.error .poolShutDown, pool)
  else
    let final :=
      (Batch.make pool items store).runInOrder job (List.range items.length)
    (final.result, final.pool)

end JourneyTimes
