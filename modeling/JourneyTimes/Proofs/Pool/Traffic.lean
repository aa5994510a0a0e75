import JourneyTimes.Proofs.Pool.Lending
import Mathlib.Logic.Relation

/-!
# Traffic at a pool

Several submissions may share a pool with each other and with borrowers of their own.
They go on in steps, in any order.  A task starts when a resource is free, perhaps
although another task of its submission has failed, since whoever starts it need not
know of that yet.  It ends by giving its resource back, whether it has succeeded or
failed.  A submission returns when none of its tasks is running, and either all of them
have run or one of them has failed.

Resources are told apart by names, which tasks and borrowers keep.  A name may be a
number that nothing changes, or anything less.

A pool that runs the tasks of a submission one after another takes such steps.
-/

namespace JourneyTimes

variable {ρ ι τ ω σ : Type}

/-- A task that is running, as the item it runs on with its position. -/
def RunningTask.entry (task : RunningTask τ) : Nat × τ := (task.position, task.item)

/-- A batch that shares its pool with others. -/
structure Submission (ρ τ ω σ : Type) where
  job : Job ρ τ ω σ
  items : List τ
  /-- The batch, with the pool as it was when the batch went on last. -/
  batch : Batch ρ τ σ
  /-- The tasks that have run to their end. -/
  ran : List (Nat × τ)
  /-- The tasks that found the pool shut down. -/
  refused : List (Nat × τ)
  /-- The numbers of all leases that its tasks have taken. -/
  taken : List Nat
  /-- What it has returned. -/
  result : Option (Except Error σ)

namespace Submission

/-- A submission of which no task has started. -/
def make (pool : WorkerPool ρ) (job : Job ρ τ ω σ) (items : List τ) (store : σ) :
    Submission ρ τ ω σ :=
  { job, items, batch := .make pool items store
    ran := [], refused := [], taken := [], result := none }

/-- The tasks of a submission, as items with their positions. -/
def tasks (submission : Submission ρ τ ω σ) : List (Nat × τ) :=
  submission.items.zipIdx.map fun (item, position) => (position, item)

/-- The batch on the pool as it is now. -/
def on (submission : Submission ρ τ ω σ) (pool : WorkerPool ρ) : Batch ρ τ σ :=
  { submission.batch with pool }

/-- The leases of the tasks that are running. -/
def leases (submission : Submission ρ τ ω σ) : List Nat :=
  submission.batch.running.map (·.lease)

/-- The submission of which a task has started.  It may have failed before. -/
def started (submission : Submission ρ τ ω σ) (lease : Nat) (next : Batch ρ τ σ) :
    Submission ρ τ ω σ :=
  { submission with
    batch := { next with failure := submission.batch.failure }
    taken := lease :: submission.taken }

/-- The submission of which a task has run to its end. -/
def finished (submission : Submission ρ τ ω σ) (task : RunningTask τ) (next : Batch ρ τ σ) :
    Submission ρ τ ω σ :=
  { submission with batch := next, ran := task.entry :: submission.ran }

/-- The submission of which a task has found no pool to borrow from. -/
def turnedAway (submission : Submission ρ τ ω σ) (entry : Nat × τ) (error : Error) :
    Submission ρ τ ω σ :=
  { submission with
    batch :=
      { submission.batch with
        pending := submission.batch.pending.filter fun (other, _) => other != entry.1
        failure := submission.batch.failure.or (some error) }
    refused := entry :: submission.refused }

/-- A submission may return: no task is running, and all have run unless one failed. -/
def IsDone (submission : Submission ρ τ ω σ) : Prop :=
  submission.batch.running = [] ∧
    (submission.batch.failure ≠ none ∨ submission.batch.pending = [])

end Submission

/-- A pool with everybody who borrows from it. -/
structure Traffic (ρ τ ω σ : Type) where
  pool : WorkerPool ρ
  /-- The leases that somebody else holds than a task. -/
  held : List Nat
  submissions : List (Submission ρ τ ω σ)

namespace Traffic

/-- A pool that nobody has borrowed from. -/
def begin (pool : WorkerPool ρ) : Traffic ρ τ ω σ := ⟨pool, [], []⟩

/-- What may happen next at a pool. -/
inductive Step (name : ρ → ι) : Traffic ρ τ ω σ → Traffic ρ τ ω σ → Prop where
  | checkout {traffic : Traffic ρ τ ω σ} {lease : Nat} {pool : WorkerPool ρ}
      (lent : traffic.pool.checkout = .ok (some (lease, pool))) :
      Step name traffic { traffic with pool, held := lease :: traffic.held }
  | use {traffic : Traffic ρ τ ω σ} {lease : Nat} {change : ρ → ρ}
      (holds : lease ∈ traffic.held)
      (sameName : ∀ resource, name (change resource) = name resource) :
      Step name traffic { traffic with pool := traffic.pool.update lease change }
  | drop {traffic : Traffic ρ τ ω σ} {lease : Nat} {pool : WorkerPool ρ}
      (holds : lease ∈ traffic.held) (back : traffic.pool.giveBack? lease = some pool) :
      Step name traffic { traffic with pool, held := traffic.held.erase lease }
  | submit {traffic : Traffic ρ τ ω σ} (job : Job ρ τ ω σ) (items : List τ) (store : σ)
      (isOpen : traffic.pool.isShutDown = false)
      (sameName : ∀ item resource, name (job.work item resource).2 = name resource) :
      Step name traffic
        { traffic with
          submissions := .make traffic.pool job items store :: traffic.submissions }
  | start {traffic : Traffic ρ τ ω σ} {before after : List (Submission ρ τ ω σ)}
      {submission : Submission ρ τ ω σ} {position : Nat} {next : Batch ρ τ σ}
      (split : traffic.submissions = before ++ submission :: after)
      (underWay : submission.result = none)
      (moved : { submission.on traffic.pool with failure := none }.start? position = some next) :
      Step name traffic
        { traffic with
          pool := next.pool
          submissions := before ++ submission.started traffic.pool.nextLease next :: after }
  | finish {traffic : Traffic ρ τ ω σ} {before after : List (Submission ρ τ ω σ)}
      {submission : Submission ρ τ ω σ} {task : RunningTask τ} {next : Batch ρ τ σ}
      (split : traffic.submissions = before ++ submission :: after)
      (running : task ∈ submission.batch.running)
      (moved : (submission.on traffic.pool).finish? submission.job task.position = some next) :
      Step name traffic
        { traffic with
          pool := next.pool
          submissions := before ++ submission.finished task next :: after }
  | refuse {traffic : Traffic ρ τ ω σ} {before after : List (Submission ρ τ ω σ)}
      {submission : Submission ρ τ ω σ} {entry : Nat × τ} {error : Error}
      (split : traffic.submissions = before ++ submission :: after)
      (underWay : submission.result = none) (pending : entry ∈ submission.batch.pending)
      (refused : traffic.pool.checkout = .error error) :
      Step name traffic
        { traffic with submissions := before ++ submission.turnedAway entry error :: after }
  | answer {traffic : Traffic ρ τ ω σ} {before after : List (Submission ρ τ ω σ)}
      {submission : Submission ρ τ ω σ}
      (split : traffic.submissions = before ++ submission :: after)
      (underWay : submission.result = none) (done : submission.IsDone) :
      Step name traffic
        { traffic with
          submissions := before ++
            { submission with result := some (submission.on traffic.pool).result } :: after }
  | shutDown {traffic : Traffic ρ τ ω σ} (unlent : traffic.pool.leases = []) :
      Step name traffic { traffic with pool := traffic.pool.shutDown }

/-- Any number of steps. -/
abbrev Reaches (name : ρ → ι) : Traffic ρ τ ω σ → Traffic ρ τ ω σ → Prop :=
  Relation.ReflTransGen (Step name)

/-! ## One task after another -/

/-- A task that starts while no other one of its submission is running can run to its
end. -/
theorem reaches_task (name : ρ → ι) {pool : WorkerPool ρ} (held : List Nat)
    {submission : Submission ρ τ ω σ} (others : List (Submission ρ τ ω σ))
    (underWay : submission.result = none) (resting : submission.batch.running = [])
    (unfailed : submission.batch.failure = none) {position : Nat} {next : Batch ρ τ σ}
    (moved : (submission.on pool).start? position = some next) :
    ∃ later last, next.finish? submission.job position = some last ∧
      later.on last.pool = last ∧ later.job = submission.job ∧ later.result = none ∧
      last.running = [] ∧ last.pool.isShutDown = false ∧ last.pool.free ≠ [] ∧
      last.pending = (submission.batch.pending.filter fun (other, _) => other != position) ∧
      Reaches name ⟨pool, held, submission :: others⟩ ⟨last.pool, held, later :: others⟩ := by
  have same : { submission.on pool with failure := none } = submission.on pool := by
    rw [← unfailed]
    rfl
  rcases Batch.start?_eq_some moved with ⟨-, isOpen, item, resource, free, -, freeEq, nextEq⟩
  let task : RunningTask τ := ⟨position, item, pool.nextLease⟩
  have running : next.running = [task] := by
    rw [nextEq]
    show task :: submission.batch.running = [task]
    rw [resting]
  have found : next.task? position = some task := by
    rw [Batch.task?, running, List.find?_cons_of_pos (by simp [task])]
  have lent : next.pool.resource? task.lease = some resource := by
    rw [nextEq]
    exact List.lookup_cons_self
  rcases Batch.exists_finish? submission.job found lent with ⟨last, finished⟩
  have runs : (submission.started pool.nextLease next).on next.pool = next := by
    rw [nextEq]
    rfl
  have starts : Step name ⟨pool, held, submission :: others⟩
      ⟨next.pool, held, submission.started pool.nextLease next :: others⟩ := by
    have split : (⟨pool, held, submission :: others⟩ : Traffic ρ τ ω σ).submissions =
      [] ++ submission :: others := rfl
    exact .start split underWay (same ▸ moved)
  have ends : Step name ⟨next.pool, held, submission.started pool.nextLease next :: others⟩
      ⟨last.pool, held, (submission.started pool.nextLease next).finished task last :: others⟩ := by
    have split : (⟨next.pool, held, submission.started pool.nextLease next :: others⟩ :
      Traffic ρ τ ω σ).submissions = [] ++ submission.started pool.nextLease next :: others := rfl
    have member : task ∈ next.running := by
      rw [running]
      exact List.mem_cons_self ..
    exact .finish split member (runs.symm ▸ finished)
  refine ⟨(submission.started pool.nextLease next).finished task last, last, finished, rfl, rfl,
    underWay, ?_⟩
  rcases Batch.finish?_eq_some finished with ⟨other, before, otherRunning, -, -, outcomes⟩
  obtain rfl : other = task := by simpa [running] using otherRunning
  have retired (left : ρ) : (next.retire task left).running = [] ∧
      (next.retire task left).pool.isShutDown = false ∧
      (next.retire task left).pool.free ≠ [] ∧ (next.retire task left).pending =
        submission.batch.pending.filter fun (other, _) => other != position := by
    refine ⟨?_, ?_, List.cons_ne_nil _ _, ?_⟩
    · rw [Batch.retire, running]
      simp
    · rw [Batch.retire, nextEq]
      exact isOpen
    · rw [Batch.retire, nextEq]
      rfl
  rcases outcomes with ⟨store, -, rfl⟩ | ⟨error, -, rfl⟩
  · rcases retired (submission.job.work task.item before).2 with ⟨rests, opens, stocks, waits⟩
    exact ⟨rests, opens, stocks, waits, .tail (.single starts) ends⟩
  · rcases retired (submission.job.work task.item before).2 with ⟨rests, opens, stocks, waits⟩
    exact ⟨rests, opens, stocks, waits, .tail (.single starts) ends⟩

/-- A batch that runs its tasks one after another runs them in steps. -/
theorem reaches_runInOrder (name : ρ → ι) (held : List Nat)
    (others : List (Submission ρ τ ω σ)) {positions : List Nat} :
    ∀ {pool : WorkerPool ρ} {submission : Submission ρ τ ω σ}, submission.result = none →
      submission.batch.running = [] → submission.batch.pending.map Prod.fst = positions →
      positions.Nodup → pool.isShutDown = false → pool.free ≠ [] →
      ∃ later final, later.result = none ∧ later.IsDone ∧ later.on final.pool = final ∧
        final = (submission.on pool).runInOrder submission.job positions ∧
        Reaches name ⟨pool, held, submission :: others⟩ ⟨final.pool, held, later :: others⟩ := by
  induction positions with
  | nil =>
      intro pool submission underWay resting waiting _ _ _
      exact ⟨submission, _, underWay, ⟨resting, .inr (List.map_eq_nil_iff.mp waiting)⟩, rfl, rfl,
        .refl⟩
  | cons position rest ih =>
      intro pool submission underWay resting waiting nodup isOpen stocked
      cases failure : submission.batch.failure with
      | some error =>
          have failed : (submission.on pool).failure = some error := failure
          refine ⟨submission, submission.on pool, underWay, ⟨resting, .inl ?_⟩, rfl, ?_, .refl⟩
          · rw [failure]
            nofun
          · rw [Batch.runInOrder, Batch.start?_of_failed failed]
            rfl
      | none =>
          have unfailed : (submission.on pool).failure = none := failure
          have lineUp : (submission.on pool).pending.map Prod.fst = position :: rest := waiting
          rcases Batch.pending_first lineUp nodup with ⟨⟨item, found⟩, left⟩
          rcases Batch.exists_start? unfailed isOpen stocked found with ⟨next, moved⟩
          rcases reaches_task name held others underWay resting failure moved with
            ⟨after, last, finished, onLast, sameJob, stillUnderWay, rests, opens, stocks, waits,
              reaches⟩
          have fewer : after.batch.pending.map Prod.fst = rest := by
            have pending : after.batch.pending = last.pending := by
              rw [← onLast]
              rfl
            rw [pending, waits]
            exact left
          have restsAfter : after.batch.running = [] := by
            rw [← rests, ← onLast]
            rfl
          rcases ih stillUnderWay restsAfter fewer (List.nodup_cons.mp nodup).2 opens stocks with
            ⟨done, final, underWayStill, isDone, onFinal, finalEq, more⟩
          refine ⟨done, final, underWayStill, isDone, onFinal, ?_, reaches.trans more⟩
          rw [Batch.runInOrder, moved, Option.bind_some, finished, finalEq, onLast, sameJob]

/-- What a pool gives that runs the tasks of a submission one after another is what the
submission returns after some steps. -/
theorem reaches_submit {name : ρ → ι} {traffic : Traffic ρ τ ω σ}
    (isOpen : traffic.pool.isShutDown = false)
    (stocked : traffic.pool.free ≠ []) (job : Job ρ τ ω σ) (items : List τ) (store : σ)
    (sameName : ∀ item resource, name (job.work item resource).2 = name resource) :
    ∃ submission, submission.result = some (traffic.pool.submit job items store).1 ∧
      Reaches name traffic
        { traffic with
          pool := (traffic.pool.submit job items store).2
          submissions := submission :: traffic.submissions } := by
  have begun : (Submission.make traffic.pool job items store).result = none := rfl
  have positions := Batch.make_positions traffic.pool items store
  rcases
      reaches_runInOrder name traffic.held traffic.submissions begun rfl positions
        List.nodup_range isOpen stocked with
    ⟨later, final, underWay, isDone, onFinal, finalEq, reaches⟩
  have submitted : traffic.pool.submit job items store = (final.result, final.pool) := by
    rw [WorkerPool.submit, isOpen, if_neg Bool.false_ne_true, finalEq]
    rfl
  rw [submitted]
  have split : later :: traffic.submissions = [] ++ later :: traffic.submissions := rfl
  have answers : Step name ⟨final.pool, traffic.held, later :: traffic.submissions⟩ _ :=
    .answer split underWay isDone
  refine ⟨_, ?_, .trans (.single (.submit job items store isOpen sameName))
    (reaches.tail answers)⟩
  rw [onFinal]

end Traffic

end JourneyTimes
