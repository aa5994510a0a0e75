import JourneyTimes.Pool.Batch
import JourneyTimes.Proofs.Outcome

/-!
# Batches whose tasks succeed

Between two tasks of a batch that runs in order the pool has all its resources.
If every resource is fit for every task, and tasks leave them fit, then no task
fails or has to wait.  What the tasks keep of the store, one after another, then
holds of the store at the end.
-/

namespace JourneyTimes

variable {ρ τ ω σ : Type} {Fit : ρ → Prop}

namespace WorkerPool

/-- A pool that has lent nothing, and has something fit to lend. -/
structure Idle (Fit : ρ → Prop) (pool : WorkerPool ρ) : Prop where
  isOpen : pool.isShutDown = false
  stocked : pool.free ≠ []
  fit : ∀ resource ∈ pool.free, Fit resource
  unlent : pool.leases = []

theorem make_idle {resources : List ρ} (stocked : resources ≠ [])
    (fit : ∀ resource ∈ resources, Fit resource) :
    ∃ pool, make resources = .ok pool ∧ pool.Idle Fit := by
  have some : resources.isEmpty = false := List.isEmpty_eq_false_iff.mpr stocked
  refine ⟨_, by rw [make, some]; rfl, rfl, ?_, ?_, rfl⟩
  · exact fun none => stocked (List.reverse_eq_nil_iff.mp none)
  · intro resource member
    exact fit resource (List.mem_reverse.mp member)

end WorkerPool

namespace Batch

variable {job : Job ρ τ ω σ} {batch : Batch ρ τ σ}

/-- A batch of which no task is running and none has failed. -/
structure Rests (Fit : ρ → Prop) (batch : Batch ρ τ σ) : Prop where
  idle : batch.pool.Idle Fit
  unbusy : batch.running = []
  unfailed : batch.failure = none

/-- A task that succeeds with every resource leads from rest to rest. -/
theorem Rests.run_task (rests : batch.Rests Fit) {position : Nat} {item : τ}
    (pending : batch.pending.lookup position = some item) {Good : σ → Prop}
    (succeeds : ∀ resource, Fit resource → ∃ found left store,
      job.work item resource = (.ok found, left) ∧ Fit left ∧
        job.record item found batch.store = .ok store ∧ Good store) :
    ∃ next, ((batch.start? position).bind fun started => started.finish? job position) =
        some next ∧ next.Rests Fit ∧
      next.pending = (batch.pending.filter fun (other, _) => other != position) ∧
      Good next.store := by
  rcases rests with ⟨⟨isOpen, stocked, fit, unlent⟩, unbusy, unfailed⟩
  rcases List.exists_cons_of_ne_nil stocked with ⟨resource, free, freeEq⟩
  rw [freeEq, List.forall_mem_cons] at fit
  rcases succeeds resource fit.1 with ⟨found, left, store, worked, leftFit, recorded, good⟩
  have started : batch.start? position = some
      { batch with
        pool :=
          { batch.pool with
            free
            leases := [(batch.pool.nextLease, resource)]
            nextLease := batch.pool.nextLease + 1 }
        pending := batch.pending.filter fun (other, _) => other != position
        running := [⟨position, item, batch.pool.nextLease⟩] } := by
    simp [start?, unfailed, pending, WorkerPool.checkout, isOpen, freeEq, unlent, unbusy]
  have outcomeEq : outcome job item (.ok found) batch.store = .ok store := recorded
  rw [started, Option.bind_some]
  refine ⟨
    { batch with
      pool :=
        { batch.pool with
          free := left :: free
          leases := []
          nextLease := batch.pool.nextLease + 1 }
      pending := batch.pending.filter fun (other, _) => other != position
      running := []
      store }, ?_, ⟨⟨isOpen, List.cons_ne_nil left free, ?_, rfl⟩, rfl, unfailed⟩, rfl, good⟩
  · simp [finish?, task?, WorkerPool.resource?, WorkerPool.update, WorkerPool.giveBack?, worked,
      outcomeEq]
  · exact List.forall_mem_cons.mpr ⟨leftFit, fit.2⟩

/-- Items with their positions, of which the first one has a given position. -/
def numbered (first : Nat) : List τ → List (Nat × τ)
  | [] => []
  | item :: items => (first, item) :: numbered (first + 1) items

theorem make_pending (pool : WorkerPool ρ) (items : List τ) (store : σ) :
    (make pool items store).pending = numbered 0 items := by
  suffices ∀ first, (items.zipIdx first).map Prod.swap = numbered first items from this 0
  induction items with
  | nil => exact fun _ => rfl
  | cons item items ih =>
      intro first
      rw [List.zipIdx_cons, List.map_cons, ih, numbered, Prod.swap_prod_mk]

theorem numbered_filter (first : Nat) (item : τ) (items : List τ) :
    ((numbered first (item :: items)).filter fun (other, _) => other != first) =
      numbered (first + 1) items := by
  have later (items : List τ) : ∀ next, first < next →
      ((numbered next items).filter fun (other, _) => other != first) = numbered next items := by
    induction items with
    | nil => exact fun _ _ => rfl
    | cons item items ih =>
        intro next less
        have apart : next ≠ first := Nat.ne_of_gt less
        rw [numbered, List.filter_cons_of_pos (by simpa using apart), ih _ (Nat.lt_succ_of_lt less)]
  rw [numbered, List.filter_cons_of_neg (by simp)]
  exact later items (first + 1) (Nat.lt_succ_self first)

/-- A batch goes through to its end if all tasks succeed.  What every task keeps of the
store, with the items done so far, then holds with all of them. -/
theorem Rests.run {Keeps : List τ → σ → Prop} {items : List τ}
    (succeeds : ∀ done item store, item ∈ items → Keeps done store → ∀ resource, Fit resource →
      ∃ found left next, job.work item resource = (.ok found, left) ∧ Fit left ∧
        job.record item found store = .ok next ∧ Keeps (done ++ [item]) next) :
    ∀ {batch : Batch ρ τ σ} {first : Nat} {done : List τ}, batch.Rests Fit →
      batch.pending = numbered first items → Keeps done batch.store →
      ∃ final, batch.runInOrder job (List.range' first items.length) = final ∧
        final.Rests Fit ∧ final.pending = [] ∧ Keeps (done ++ items) final.store := by
  induction items with
  | nil =>
      intro batch first done rests pending keeps
      refine ⟨batch, rfl, rests, pending, ?_⟩
      rwa [List.append_nil]
  | cons item items ih =>
      intro batch first done rests pending keeps
      have next : batch.pending.lookup first = some item := by
        rw [pending, numbered, List.lookup_cons_self]
      rcases rests.run_task next (succeeds done item batch.store (List.mem_cons_self ..) keeps) with
        ⟨later, moved, laterRests, laterPending, laterKeeps⟩
      rw [pending, numbered_filter] at laterPending
      rcases
          ih (fun done other store member => succeeds done other store (.tail _ member)) laterRests
            laterPending laterKeeps with
        ⟨final, ran, finalRests, finished, finalKeeps⟩
      refine ⟨final, ?_, finalRests, finished, ?_⟩
      · rw [List.length_cons, List.range'_succ, runInOrder, moved]
        exact ran
      · rwa [List.append_assoc, List.singleton_append] at finalKeeps

end Batch

/-- If every task succeeds with every fit resource, then a pool with fit resources gives
what the tasks keep of the store. -/
theorem WorkerPool.Idle.submit {pool : WorkerPool ρ} (idle : pool.Idle Fit)
    {job : Job ρ τ ω σ} {items : List τ} {Keeps : List τ → σ → Prop} {store : σ}
    (begins : Keeps [] store)
    (succeeds : ∀ done item store, item ∈ items → Keeps done store → ∀ resource, Fit resource →
      ∃ found left next, job.work item resource = (.ok found, left) ∧ Fit left ∧
        job.record item found store = .ok next ∧ Keeps (done ++ [item]) next) :
    ∃ final, (pool.submit job items store).1 = .ok final ∧ Keeps items final := by
  have rests : (Batch.make pool items store).Rests Fit := ⟨idle, rfl, rfl⟩
  rcases rests.run succeeds (Batch.make_pending pool items store) begins with
    ⟨final, ran, finalRests, finished, keeps⟩
  refine ⟨final.store, ?_, keeps⟩
  rw [WorkerPool.submit, idle.isOpen, if_neg Bool.false_ne_true, List.range_eq_range', ran]
  simp [Batch.result, finalRests.unfailed, finished]

end JourneyTimes
