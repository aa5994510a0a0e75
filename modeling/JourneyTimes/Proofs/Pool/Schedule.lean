import JourneyTimes.Proofs.Pool.Moves
import JourneyTimes.Proofs.Pool.Order

/-!
# Whatever the schedule of a batch

The moves of a batch may come in any order, and any free resource may be lent to the
next task.  As long as no task has failed, the store is what the finished tasks have
written, in the order in which they finished.  When no move is left, these are all
tasks, each of them once, and if their writes may change places the store is the one
that they leave in the order of the items.
-/

namespace JourneyTimes

variable {ρ τ ω σ κ : Type}

namespace Batch

/-- The states that a batch comes to, with the positions of the tasks that have
finished, in order.  Between two moves the free resources may change places. -/
inductive Run (job : Job ρ τ ω σ) (first : Batch ρ τ σ) : List Nat → Batch ρ τ σ → Prop where
  | stay : Run job first [] first
  | start {order : List Nat} {batch next : Batch ρ τ σ} {position : Nat}
      (before : Run job first order batch) (moved : batch.start? position = some next) :
      Run job first order next
  | finish {order : List Nat} {batch next : Batch ρ τ σ} {position : Nat}
      (before : Run job first order batch) (moved : batch.finish? job position = some next) :
      Run job first (order ++ [position]) next
  | shuffle {order : List Nat} {batch : Batch ρ τ σ} {free : List ρ}
      (before : Run job first order batch) (same : free.Perm batch.pool.free) :
      Run job first order { batch with pool := { batch.pool with free } }

variable {job : Job ρ τ ω σ} {batch next : Batch ρ τ σ} {position : Nat}

/-! ## The store -/

/-- What the finished tasks have written, one after another, or how one of them has
failed. -/
structure Written (job : Job ρ τ ω σ) (fresh : ρ) (items : List τ) (Keeps : σ → Prop)
    (first : σ) (order : List Nat) (batch : Batch ρ τ σ) : Prop where
  keeps : Keeps batch.store
  store_eq : batch.failure = none →
    order.foldlM (job.write fresh items) first = .ok batch.store
  failed : ∀ error, batch.failure = some error →
    (∀ store, order.foldlM (job.write fresh items) first ≠ .ok store) ∧
    ∃ item ∈ items, ∃ store, Keeps store ∧
      outcome job item (job.work item fresh).1 store = .error error

section Store

variable {Fit : ρ → Prop} {fresh : ρ} {items : List τ} {Keeps : σ → Prop} {key : τ → κ}
  {first : σ} {order : List Nat}

/-- A task that finishes writes what it would write with a fresh resource. -/
theorem Written.finish (uniform : job.IsUniform Fit fresh)
    (apart : job.WritesApart fresh items Keeps key) (manned : batch.Manned Fit items order)
    (written : batch.Written job fresh items Keeps first order)
    (moved : batch.finish? job position = some next) :
    next.Manned Fit items (order ++ [position]) ∧
      next.Written job fresh items Keeps first (order ++ [position]) := by
  rcases finish?_eq_some moved with ⟨task, resource, member, rfl, lent, outcomes⟩
  have fit := manned.fit_of_resource? lent
  have leftFit : Fit (job.work task.item resource).2 := uniform.left_fit fit
  have retired := manned.retire member leftFit
  have item := manned.running_item task member
  have writes (store : σ) : job.write fresh items store task.position =
      outcome job task.item (job.work task.item fresh).1 store := by
    rw [Job.write, item]
  have extended : (order ++ [task.position]).foldlM (job.write fresh items) first =
      order.foldlM (job.write fresh items) first >>= fun store =>
        outcome job task.item (job.work task.item fresh).1 store := by
    rw [List.foldlM_append]
    refine bind_congr fun store => ?_
    rw [List.foldlM_cons, writes]
    exact bind_pure _
  have stillFails (never : ∀ store, order.foldlM (job.write fresh items) first ≠ .ok store) :
      ∀ store, (order ++ [task.position]).foldlM (job.write fresh items) first ≠ .ok store := by
    intro store done
    rw [extended] at done
    rcases bind_eq_ok.mp done with ⟨before, beforeDone, -⟩
    exact never before beforeDone
  rw [uniform.found_eq fit] at outcomes
  rcases outcomes with ⟨store, recorded, rfl⟩ | ⟨error, failed, rfl⟩
  · refine ⟨{ retired with }, apart.keeps written.keeps recorded, ?_, ?_⟩
    · intro unfailed
      rw [extended, written.store_eq unfailed, ok_bind, recorded]
    · intro error isFailure
      rcases written.failed error isFailure with ⟨never, failing⟩
      exact ⟨stillFails never, failing⟩
  · refine ⟨{ retired with }, written.keeps, ?_, ?_⟩
    · intro unfailed
      simp at unfailed
    · intro other isFailure
      cases before : batch.failure with
      | none =>
          rw [before] at isFailure
          cases isFailure
          refine ⟨?_, task.item, List.mem_of_getElem? item, batch.store, written.keeps, failed⟩
          intro store done
          rw [extended, written.store_eq before, ok_bind, failed] at done
          cases done
      | some earlier =>
          rw [before] at isFailure
          cases isFailure
          rcases written.failed _ before with ⟨never, failing⟩
          exact ⟨stillFails never, failing⟩

/-- Whatever moves are made, the books of the batch stay in order. -/
theorem Run.manned_written {pool : WorkerPool ρ} (uniform : job.IsUniform Fit fresh)
    (apart : job.WritesApart fresh items Keeps key) (idle : pool.Idle Fit) (holds : Keeps first)
    (run : Run job (make pool items first) order batch) :
    batch.Manned Fit items order ∧ batch.Written job fresh items Keeps first order := by
  induction run with
  | stay => exact ⟨.make idle items first, holds, fun _ => rfl, nofun⟩
  | start _ moved ih =>
      rcases ih with ⟨manned, written⟩
      refine ⟨manned.start moved, ?_⟩
      rcases start?_eq_some moved with ⟨-, -, item, resource, free, -, -, rfl⟩
      exact { written with }
  | finish _ moved ih => exact ih.2.finish uniform apart ih.1 moved
  | shuffle _ same ih => exact ⟨ih.1.shuffle same, { ih.2 with }⟩

end Store

/-! ## The end of a batch -/

section End

variable {Fit : ρ → Prop} {fresh : ρ} {items : List τ} {Keeps : σ → Prop} {key : τ → κ}
  {first : σ} {order : List Nat} {pool : WorkerPool ρ}
  (uniform : job.IsUniform Fit fresh) (apart : job.WritesApart fresh items Keeps key)
  (idle : pool.Idle Fit) (holds : Keeps first)
  (run : Run job (make pool items first) order batch) (ended : batch.IsOver job)

include uniform apart idle holds run ended

/-- If no task fails, every task finishes once. -/
theorem Run.order_perm (unfailed : batch.failure = none) :
    order.Perm (List.range items.length) := by
  have manned := (run.manned_written uniform apart idle holds).1
  have positions := manned.positions
  rw [manned.running_eq_nil ended, manned.pending_eq_nil ended unfailed] at positions
  simpa using positions

/-- If no task fails, the batch gives what its tasks leave in the order of the
items. -/
theorem Run.result_of_unfailed (unfailed : batch.failure = none) :
    batch.result = .ok batch.store ∧ job.inOrder fresh items first = .ok batch.store := by
  have perm := run.order_perm uniform apart idle holds ended unfailed
  rcases run.manned_written uniform apart idle holds with ⟨manned, written⟩
  constructor
  · rw [result, unfailed, manned.pending_eq_nil ended unfailed]
    rfl
  · rw [← job.foldlM_write_range]
    exact apart.foldlM_write perm (perm.nodup_iff.mpr List.nodup_range) holds
      (written.store_eq unfailed)

/-- A batch gives a store exactly if its tasks leave that store in the order of the
items. -/
theorem Run.result_eq_ok_iff (store : σ) :
    batch.result = .ok store ↔ job.inOrder fresh items first = .ok store := by
  rcases run.manned_written uniform apart idle holds with ⟨manned, written⟩
  have ofUnfailed := run.result_of_unfailed uniform apart idle holds ended
  cases failure : batch.failure with
  | none => rw [(ofUnfailed failure).1, (ofUnfailed failure).2]
  | some error =>
      refine ⟨fun done => ?_, fun done => ?_⟩
      · rw [result, failure] at done
        cases done
      · -- The finished tasks come first in some order of all tasks.
        rw [← job.foldlM_write_range] at done
        have reordered := apart.foldlM_write manned.positions.symm List.nodup_range holds done
        rw [List.foldlM_append] at reordered
        rcases bind_eq_ok.mp reordered with ⟨before, beforeDone, -⟩
        exact absurd beforeDone ((written.failed error failure).1 before)

/-- If a batch fails, then the way one of its tasks fails. -/
theorem Run.exists_failed {error : Error} (failed : batch.result = .error error) :
    ∃ item ∈ items, ∃ store, Keeps store ∧
      outcome job item (job.work item fresh).1 store = .error error := by
  cases failure : batch.failure with
  | none =>
      rw [(run.result_of_unfailed uniform apart idle holds ended failure).1] at failed
      cases failed
  | some first =>
      rw [result, failure] at failed
      cases failed
      exact ((run.manned_written uniform apart idle holds).2.failed error failure).2

end End

/-! ## One task after another -/

/-- No move is left once no task is running and no task may start. -/
theorem isOver_of_running_eq_nil (resting : batch.running = [])
    (held : batch.failure = none → batch.pending = []) : batch.IsOver job := by
  intro move
  refine Option.eq_none_iff_forall_ne_some.mpr fun next moved => ?_
  cases move with
  | start position =>
      rcases start?_eq_some moved with ⟨unfailed, -, item, -, -, found, -⟩
      rw [held unfailed] at found
      cases found
  | finish position =>
      rcases finish?_eq_some moved with ⟨task, -, member, -⟩
      rw [resting] at member
      cases member

variable {Fit : ρ → Prop} {fresh : ρ} {items : List τ} {Keeps : σ → Prop} {key : τ → κ}
  {first : σ} {order : List Nat} {pool : WorkerPool ρ}

/-- A task that starts while no other one is running finishes, if it is let. -/
theorem Manned.start_finish (manned : batch.Manned Fit items order)
    (resting : batch.running = []) (moved : batch.start? position = some next) :
    ∃ last, next.finish? job position = some last ∧ last.running = [] ∧
      last.pending = batch.pending.filter fun (other, _) => other != position := by
  have started := manned.start moved
  rcases start?_eq_some moved with ⟨-, -, item, resource, free, -, -, nextEq⟩
  have running : next.running = [⟨position, item, batch.pool.nextLease⟩] := by
    rw [nextEq, ← resting]
  have found : next.task? position = some ⟨position, item, batch.pool.nextLease⟩ := by
    rw [task?, running, List.find?_cons_of_pos (by simp)]
  rcases started.exists_resource? (List.mem_of_find?_eq_some found) with ⟨lent, lentEq⟩
  rcases exists_finish? job found lentEq with ⟨last, finished⟩
  refine ⟨last, finished, ?_⟩
  rcases finish?_eq_some finished with ⟨task, resource, -, atPosition, -, outcomes⟩
  have retired (left : ρ) : (next.retire task left).running = [] := by
    rw [Batch.retire, running]
    simp [atPosition]
  have pending : next.pending = batch.pending.filter fun (other, _) => other != position := by
    rw [nextEq]
  rcases outcomes with ⟨store, -, rfl⟩ | ⟨error, -, rfl⟩
  · exact ⟨retired (job.work task.item resource).2, pending⟩
  · exact ⟨retired (job.work task.item resource).2, pending⟩

/-- Running the waiting tasks one after another is a run to the end. -/
theorem Run.runInOrder (uniform : job.IsUniform Fit fresh)
    (apart : job.WritesApart fresh items Keeps key) (idle : pool.Idle Fit) (holds : Keeps first)
    {positions : List Nat} (run : Run job (Batch.make pool items first) order batch)
    (resting : batch.running = []) (waiting : batch.pending.map Prod.fst = positions) :
    ∃ order, Run job (Batch.make pool items first) order (batch.runInOrder job positions) ∧
      (batch.runInOrder job positions).IsOver job := by
  induction positions generalizing order batch with
  | nil =>
      refine ⟨order, run, isOver_of_running_eq_nil resting fun _ => ?_⟩
      exact List.map_eq_nil_iff.mp waiting
  | cons position rest ih =>
      have manned := (run.manned_written uniform apart idle holds).1
      cases failure : batch.failure with
      | some error =>
          rw [Batch.runInOrder, start?_of_failed failure, Option.bind_none]
          refine ⟨order, run, isOver_of_running_eq_nil resting fun unfailed => ?_⟩
          rw [failure] at unfailed
          cases unfailed
      | none =>
          have nodup := (List.nodup_append.mp (List.nodup_append.mp manned.nodup).2.1).2.1
          rcases pending_first waiting (waiting ▸ nodup) with ⟨⟨item, found⟩, others⟩
          rcases exists_start? failure manned.isOpen (manned.stocked resting) found with
            ⟨next, moved⟩
          rcases manned.start_finish resting moved with ⟨last, finished, lastResting, lastPending⟩
          rw [Batch.runInOrder, moved, Option.bind_some, finished]
          exact ih ((run.start moved).finish finished) lastResting (lastPending ▸ others)

end Batch

/-- A pool submits a batch by running it to its end. -/
theorem WorkerPool.Idle.submit_run {job : Job ρ τ ω σ} {Fit : ρ → Prop} {fresh : ρ}
    {items : List τ} {Keeps : σ → Prop} {key : τ → κ} {first : σ} {pool : WorkerPool ρ}
    (uniform : job.IsUniform Fit fresh) (apart : job.WritesApart fresh items Keeps key)
    (idle : pool.Idle Fit) (holds : Keeps first) :
    ∃ order final, Batch.Run job (Batch.make pool items first) order final ∧
      final.IsOver job ∧ (pool.submit job items first).1 = final.result := by
  rcases Batch.Run.runInOrder uniform apart idle holds .stay rfl
    (Batch.make_positions pool items first) with ⟨order, run, ended⟩
  refine ⟨order, _, run, ended, ?_⟩
  rw [WorkerPool.submit, idle.isOpen, if_neg Bool.false_ne_true]

/-- However a batch is run to its end, it gives a store exactly if its tasks leave that
store in the order of the items, each with a resource that has never been used.
Unless a task fails there is such a store, and every task finishes once. -/
structure Job.IsDetermined (job : Job ρ τ ω σ) (fresh : ρ) (pool : WorkerPool ρ)
    (items : List τ) (first : σ) : Prop where
  result_iff : ∀ order final, Batch.Run job (Batch.make pool items first) order final →
    final.IsOver job → ∀ store, final.result = .ok store ↔
      job.inOrder fresh items first = .ok store
  unfailed : ∀ order final, Batch.Run job (Batch.make pool items first) order final →
    final.IsOver job → final.failure = none →
      (∃ store, final.result = .ok store) ∧ order.Perm (List.range items.length)
  submit_iff : ∀ store, (pool.submit job items first).1 = .ok store ↔
    job.inOrder fresh items first = .ok store

/-- Tasks that do not depend on their resources and that write apart determine what
comes of a batch. -/
theorem Job.IsUniform.isDetermined {job : Job ρ τ ω σ} {Fit : ρ → Prop} {fresh : ρ}
    {items : List τ} {Keeps : σ → Prop} {key : τ → κ} {first : σ} {pool : WorkerPool ρ}
    (uniform : job.IsUniform Fit fresh) (apart : job.WritesApart fresh items Keeps key)
    (idle : pool.Idle Fit) (holds : Keeps first) :
    job.IsDetermined fresh pool items first where
  result_iff _ _ run ended := run.result_eq_ok_iff uniform apart idle holds ended
  unfailed _ _ run ended unfailed :=
    ⟨⟨_, (run.result_of_unfailed uniform apart idle holds ended unfailed).1⟩,
      run.order_perm uniform apart idle holds ended unfailed⟩
  submit_iff := by
    rcases idle.submit_run uniform apart holds with ⟨order, final, run, ended, submitted⟩
    rw [submitted]
    exact run.result_eq_ok_iff uniform apart idle holds ended

end JourneyTimes
