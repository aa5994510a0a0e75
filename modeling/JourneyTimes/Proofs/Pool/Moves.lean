import JourneyTimes.Proofs.Pool.Batch
import Mathlib.Data.List.Nodup

/-!
# Moves of a batch

A move starts a task or finishes one.  A task that finishes works with its resource,
writes what it has found and gives the resource back, all in one move.  Nothing is lost
by that: the resource is its own until then, so no other task can see when the work was
done, and the task that gets the resource next starts later anyway.

Whatever moves are made, every task waits, runs or has finished, and every running task
has a resource to itself.  So when no move is left no task is running, and unless a task
has failed none is waiting.
-/

namespace JourneyTimes

variable {ρ τ ω σ : Type}

namespace Batch

/-- No move is left. -/
def IsOver (job : Job ρ τ ω σ) (batch : Batch ρ τ σ) : Prop :=
  ∀ move, batch.move? job move = none

/-! ## What a move does -/

variable {job : Job ρ τ ω σ} {batch next : Batch ρ τ σ} {position : Nat}

/-- Everything that starting a task does. -/
theorem start?_eq_some (moved : batch.start? position = some next) :
    batch.failure = none ∧ batch.pool.isShutDown = false ∧ ∃ item resource free,
      batch.pending.lookup position = some item ∧ batch.pool.free = resource :: free ∧
      next =
        { batch with
          pool :=
            { batch.pool with
              free
              leases := (batch.pool.nextLease, resource) :: batch.pool.leases
              nextLease := batch.pool.nextLease + 1 }
          pending := batch.pending.filter fun (other, _) => other != position
          running := ⟨position, item, batch.pool.nextLease⟩ :: batch.running } := by
  unfold start? at moved
  split at moved
  · rename_i item lease pool unfailed found lent
    unfold WorkerPool.checkout at lent
    split_ifs at lent with isShutDown
    split at lent
    · cases lent
    · rename_i resource free freeEq
      cases lent
      cases moved
      exact ⟨unfailed, Bool.eq_false_iff.mpr isShutDown, item, resource, free, found, freeEq, rfl⟩
  · cases moved

/-- No task starts any more when one has failed. -/
theorem start?_of_failed {error : Error} (failed : batch.failure = some error) (position : Nat) :
    batch.start? position = none := by
  refine Option.eq_none_iff_forall_ne_some.mpr fun next moved => ?_
  have unfailed := (start?_eq_some moved).1
  rw [failed] at unfailed
  cases unfailed

/-- The first of the tasks that wait can be looked up, and when it is taken out the others
wait. -/
theorem pending_first {rest : List Nat}
    (waiting : batch.pending.map Prod.fst = position :: rest) (nodup : (position :: rest).Nodup) :
    (∃ item, batch.pending.lookup position = some item) ∧
      (batch.pending.filter fun (other, _) => other != position).map Prod.fst = rest := by
  rcases List.map_eq_cons_iff.mp waiting with
    ⟨⟨number, item⟩, later, pendingEq, isPosition, laterEq⟩
  obtain rfl : number = position := isPosition
  rw [List.nodup_cons, ← laterEq] at nodup
  have others : (later.filter fun (other, _) => other != number) = later := by
    refine List.filter_eq_self.mpr fun entry member => ?_
    rw [bne_iff_ne]
    rintro rfl
    exact nodup.1 (List.mem_map_of_mem member)
  rw [pendingEq]
  refine ⟨⟨item, List.lookup_cons_self⟩, ?_⟩
  rw [List.filter_cons_of_neg (by simp), others, laterEq]

/-- A task starts if none has failed and a resource is free. -/
theorem exists_start? (unfailed : batch.failure = none)
    (isOpen : batch.pool.isShutDown = false) (stocked : batch.pool.free ≠ []) {item : τ}
    (pending : batch.pending.lookup position = some item) :
    ∃ next, batch.start? position = some next := by
  rcases List.exists_cons_of_ne_nil stocked with ⟨resource, free, freeEq⟩
  simp [start?, unfailed, pending, WorkerPool.checkout, isOpen, freeEq]

end Batch

namespace WorkerPool

/-- What is lent under a lease is what it was changed to. -/
theorem lookup_update (pool : WorkerPool ρ) (lease : Nat) (change : ρ → ρ) :
    (pool.update lease change).resource? lease = (pool.resource? lease).map change := by
  rw [resource?, resource?, update]
  induction pool.leases with
  | nil => rfl
  | cons lent leases ih =>
      rcases lent with ⟨number, resource⟩
      rw [List.map_cons, List.lookup_cons, List.lookup_cons, ih]
      by_cases same : lease = number
      · subst same
        simp
      · rw [beq_false_of_ne same]

/-- A resource that has been changed comes back to the front, and its lease ends. -/
theorem giveBack?_update (pool : WorkerPool ρ) {lease : Nat} {resource : ρ}
    (lent : pool.resource? lease = some resource) (left : ρ) :
    (pool.update lease fun _ => left).giveBack? lease = some
      { pool with
        free := left :: pool.free
        leases := pool.leases.filter fun (number, _) => number != lease } := by
  rw [giveBack?, lookup_update, lent]
  simp only [Option.map_some, update, List.filter_map, Option.some.injEq, mk.injEq, true_and,
    and_true]
  calc ((pool.leases.filter _).map _)
      = (pool.leases.filter fun (number, _) => number != lease).map id := by
        refine List.map_congr_left ?_
        rintro ⟨number, resource⟩ member
        have apart : number ≠ lease := by simpa using (List.mem_filter.mp member).2
        simp [apart]
    _ = pool.leases.filter fun (number, _) => number != lease := List.map_id _

end WorkerPool

namespace Batch

variable {job : Job ρ τ ω σ} {batch next : Batch ρ τ σ} {position : Nat}

/-- The batch in which a task has given back its resource. -/
def retire (batch : Batch ρ τ σ) (task : RunningTask τ) (left : ρ) : Batch ρ τ σ :=
  { batch with
    pool :=
      { batch.pool with
        free := left :: batch.pool.free
        leases := batch.pool.leases.filter fun (number, _) => number != task.lease }
    running := batch.running.filter fun other => other.position != task.position }

/-- Everything that finishing a task does. -/
theorem finish?_eq_some (moved : batch.finish? job position = some next) :
    ∃ task resource, task ∈ batch.running ∧ task.position = position ∧
      batch.pool.resource? task.lease = some resource ∧
      ((∃ store, outcome job task.item (job.work task.item resource).1 batch.store = .ok store ∧
        next = { batch.retire task (job.work task.item resource).2 with store }) ∨
      ∃ error, outcome job task.item (job.work task.item resource).1 batch.store = .error error ∧
        next = { batch.retire task (job.work task.item resource).2 with
          failure := batch.failure.or (some error) }) := by
  rcases Option.bind_eq_some_iff.mp moved with ⟨task, found, moved⟩
  rcases Option.bind_eq_some_iff.mp moved with ⟨resource, lent, moved⟩
  dsimp only at moved
  rw [WorkerPool.giveBack?_update batch.pool lent] at moved
  have atPosition : task.position = position := by simpa using List.find?_some found
  subst atPosition
  refine ⟨task, resource, List.mem_of_find?_eq_some found, rfl, lent, ?_⟩
  simp only [Option.bind_eq_bind, Option.bind_some] at moved
  split at moved
  · rename_i store recorded
    cases moved
    exact .inl ⟨store, recorded, rfl⟩
  · rename_i error failed
    cases moved
    exact .inr ⟨error, failed, rfl⟩

/-- A running task finishes if its resource is lent to it. -/
theorem exists_finish? (job : Job ρ τ ω σ) {task : RunningTask τ}
    (found : batch.task? position = some task) {resource : ρ}
    (lent : batch.pool.resource? task.lease = some resource) :
    ∃ next, batch.finish? job position = some next := by
  rw [finish?, found]
  simp only [Option.bind_eq_bind, Option.bind_some, lent,
    WorkerPool.giveBack?_update batch.pool lent]
  split
  · exact ⟨_, rfl⟩
  · exact ⟨_, rfl⟩

/-! ## Tasks and resources -/

/-- What is known of the tasks and the resources of a batch: every task waits, runs or
has finished, and every running task has a resource. -/
structure Manned (Fit : ρ → Prop) (items : List τ) (order : List Nat) (batch : Batch ρ τ σ) :
    Prop where
  isOpen : batch.pool.isShutDown = false
  freeFit : ∀ resource ∈ batch.pool.free, Fit resource
  lentFit : ∀ lent ∈ batch.pool.leases, Fit lent.2
  staffed : 0 < batch.pool.free.length + batch.pool.leases.length
  leases_eq : batch.pool.leases.map Prod.fst = batch.running.map (·.lease)
  leases_nodup : (batch.pool.leases.map Prod.fst).Nodup
  lease_lt : ∀ lent ∈ batch.pool.leases, lent.1 < batch.pool.nextLease
  pending_item : ∀ entry ∈ batch.pending, items[entry.1]? = some entry.2
  running_item : ∀ task ∈ batch.running, items[task.position]? = some task.item
  positions : (order ++ (batch.running.map (·.position) ++ batch.pending.map Prod.fst)).Perm
    (List.range items.length)

/-- What has a key of its own can be put in front of the others. -/
theorem cons_filter_perm {β κ : Type} [DecidableEq κ] {entries : List β} {key : β → κ}
    (nodup : (entries.map key).Nodup) {entry : β} (member : entry ∈ entries) :
    (entry :: entries.filter fun other => key other != key entry).Perm entries := by
  rcases List.append_of_mem member with ⟨before, after, rfl⟩
  rw [List.map_append, List.map_cons, List.nodup_middle, List.nodup_cons, ← List.map_append]
    at nodup
  have apart : ∀ other ∈ before ++ after, (key other != key entry) = true := by
    intro other otherMember
    rw [bne_iff_ne]
    intro same
    exact nodup.1 (same ▸ List.mem_map_of_mem otherMember)
  rw [List.filter_append, List.filter_cons_of_neg (by simp), ← List.filter_append,
    List.filter_eq_self.mpr apart]
  exact List.perm_middle.symm

theorem perm_cons_filter {β κ : Type} [DecidableEq κ] {entries : List β} {key : β → κ}
    (nodup : (entries.map key).Nodup) {entry : β} (member : entry ∈ entries) :
    (entries.map key).Perm
      (key entry :: (entries.filter fun other => key other != key entry).map key) :=
  ((cons_filter_perm nodup member).map key).symm

theorem make_positions (pool : WorkerPool ρ) (items : List τ) (store : σ) :
    (make pool items store).pending.map Prod.fst = List.range items.length := by
  rw [make, List.map_map, List.range_eq_range']
  exact List.zipIdx_map_snd 0 items

namespace Manned

variable {Fit : ρ → Prop} {items : List τ} {order : List Nat}
  (manned : batch.Manned Fit items order)

include manned

theorem nodup : (order ++ (batch.running.map (·.position) ++ batch.pending.map Prod.fst)).Nodup :=
  manned.positions.nodup_iff.mpr List.nodup_range

theorem start (moved : batch.start? position = some next) : next.Manned Fit items order := by
  rcases start?_eq_some moved with
    ⟨-, -, item, resource, free, found, freeEq, rfl⟩
  have member : (position, item) ∈ batch.pending := by
    rcases List.lookup_eq_some_iff.mp found with ⟨before, after, pendingEq, -⟩
    rw [pendingEq]
    exact List.mem_append_right _ (List.mem_cons_self ..)
  have fit := manned.freeFit
  rw [freeEq, List.forall_mem_cons] at fit
  have pendingNodup := (List.nodup_append.mp (List.nodup_append.mp manned.nodup).2.1).2.1
  refine ⟨manned.isOpen, fit.2, List.forall_mem_cons.mpr ⟨fit.1, manned.lentFit⟩, ?_, ?_, ?_,
    ?_, ?_, ?_, ?_⟩
  · exact Nat.add_pos_right _ (Nat.succ_pos _)
  · simp [manned.leases_eq]
  · refine List.nodup_cons.mpr ⟨?_, manned.leases_nodup⟩
    intro known
    rcases List.mem_map.mp known with ⟨lent, lentMember, isNext⟩
    exact absurd isNext (Nat.ne_of_lt (manned.lease_lt lent lentMember))
  · refine List.forall_mem_cons.mpr ⟨Nat.lt_succ_self _, ?_⟩
    intro lent lentMember
    exact Nat.lt_succ_of_lt (manned.lease_lt lent lentMember)
  · intro entry entryMember
    exact manned.pending_item entry (List.mem_filter.mp entryMember).1
  · exact List.forall_mem_cons.mpr ⟨manned.pending_item _ member, manned.running_item⟩
  · refine List.Perm.trans ?_ manned.positions
    refine List.Perm.append_left order ?_
    rw [List.map_cons, List.cons_append]
    exact (List.perm_middle.symm.trans
      (List.Perm.append_left _ (perm_cons_filter pendingNodup member).symm))

theorem retire {task : RunningTask τ} (member : task ∈ batch.running) {left : ρ}
    (leftFit : Fit left) :
    (batch.retire task left).Manned Fit items (order ++ [task.position]) := by
  have runningNodup := (List.nodup_append.mp (List.nodup_append.mp manned.nodup).2.1).1
  have leaseNodup := manned.leases_nodup
  rw [manned.leases_eq] at leaseNodup
  -- The task is told from the others by its position as well as by its lease.
  have sameFilter : (batch.running.filter fun other => other.lease != task.lease) =
      batch.running.filter fun other => other.position != task.position := by
    refine List.filter_congr ?_
    intro other otherMember
    have sameLease (equal : other.lease = task.lease) : other = task :=
      List.inj_on_of_nodup_map leaseNodup otherMember member equal
    have samePosition (equal : other.position = task.position) : other = task :=
      List.inj_on_of_nodup_map runningNodup otherMember member equal
    rw [Bool.eq_iff_iff, bne_iff_ne, bne_iff_ne]
    exact ⟨fun apart equal => apart (congrArg _ (samePosition equal)),
      fun apart equal => apart (congrArg _ (sameLease equal))⟩
  refine ⟨manned.isOpen, List.forall_mem_cons.mpr ⟨leftFit, manned.freeFit⟩, ?_, ?_, ?_, ?_, ?_,
    manned.pending_item, ?_, ?_⟩
  · intro lent lentMember
    exact manned.lentFit lent (List.mem_filter.mp lentMember).1
  · exact Nat.add_pos_left (Nat.succ_pos _) _
  · calc (batch.pool.leases.filter fun (number, _) => number != task.lease).map Prod.fst
        = (batch.pool.leases.map Prod.fst).filter (· != task.lease) := by
          rw [List.filter_map]
          rfl
      _ = (batch.running.filter fun other => other.lease != task.lease).map (·.lease) := by
          rw [manned.leases_eq, List.filter_map]
          rfl
      _ = (batch.running.filter fun other => other.position != task.position).map (·.lease) := by
          rw [sameFilter]
  · exact manned.leases_nodup.sublist (List.filter_sublist.map Prod.fst)
  · intro lent lentMember
    exact manned.lease_lt lent (List.mem_filter.mp lentMember).1
  · intro other otherMember
    exact manned.running_item other (List.mem_filter.mp otherMember).1
  · refine List.Perm.trans ?_ manned.positions
    rw [List.append_assoc]
    refine List.Perm.append_left order ?_
    exact List.Perm.append_right _ (perm_cons_filter runningNodup member).symm

theorem shuffle {free : List ρ} (same : free.Perm batch.pool.free) :
    Manned Fit items order { batch with pool := { batch.pool with free } } :=
  { manned with
    freeFit := fun resource member => manned.freeFit resource (same.mem_iff.mp member)
    staffed := by
      rw [same.length_eq]
      exact manned.staffed }

omit manned in
theorem make {pool : WorkerPool ρ} (idle : pool.Idle Fit) (items : List τ) (store : σ) :
    (Batch.make pool items store).Manned Fit items [] where
  isOpen := idle.isOpen
  freeFit := idle.fit
  lentFit := by simp [Batch.make, idle.unlent]
  staffed := Nat.add_pos_left (List.length_pos_iff.mpr idle.stocked) _
  leases_eq := by simp [Batch.make, idle.unlent]
  leases_nodup := by simp [Batch.make, idle.unlent]
  lease_lt := by simp [Batch.make, idle.unlent]
  pending_item := by
    intro entry member
    rcases List.mem_map.mp member with ⟨⟨item, position⟩, numbered, rfl⟩
    exact List.mk_mem_zipIdx_iff_getElem?.mp numbered
  running_item := nofun
  positions := by
    rw [make_positions]
    exact .rfl

/-- A running task holds a fit resource. -/
theorem exists_resource? {task : RunningTask τ} (member : task ∈ batch.running) :
    ∃ resource, batch.pool.resource? task.lease = some resource := by
  have lent : task.lease ∈ batch.pool.leases.map Prod.fst := by
    rw [manned.leases_eq]
    exact List.mem_map_of_mem member
  rcases List.mem_map.mp lent with ⟨pair, pairMember, same⟩
  refine Option.ne_none_iff_exists'.mp fun unlent => ?_
  have apart := List.lookup_eq_none_iff.mp unlent pair pairMember
  simp [same] at apart

theorem fit_of_resource? {lease : Nat} {resource : ρ}
    (lent : batch.pool.resource? lease = some resource) : Fit resource := by
  rcases List.lookup_eq_some_iff.mp lent with ⟨before, after, leasesEq, -⟩
  refine manned.lentFit (lease, resource) ?_
  rw [leasesEq]
  exact List.mem_append_right _ (List.mem_cons_self ..)

/-- When no move is left, no task is running. -/
theorem running_eq_nil (ended : batch.IsOver job) : batch.running = [] := by
  refine List.eq_nil_iff_forall_not_mem.mpr fun task member => ?_
  have found : ∃ other, batch.task? task.position = some other := by
    refine Option.ne_none_iff_exists'.mp fun none => ?_
    simpa using List.find?_eq_none.mp none task member
  rcases found with ⟨other, found⟩
  rcases manned.exists_resource? (List.mem_of_find?_eq_some found) with ⟨resource, lent⟩
  rcases exists_finish? job found lent with ⟨next, moved⟩
  exact absurd ((ended (.finish task.position)).symm.trans moved) nofun

/-- While no task is running, a resource is free. -/
theorem stocked (resting : batch.running = []) : batch.pool.free ≠ [] := by
  have unlent : batch.pool.leases.length = 0 := by
    rw [← List.length_map (f := Prod.fst), manned.leases_eq, resting]
    rfl
  have staffed := manned.staffed
  rw [unlent] at staffed
  exact List.length_pos_iff.mp staffed

/-- When no move is left and no task has failed, none is waiting. -/
theorem pending_eq_nil (ended : batch.IsOver job) (unfailed : batch.failure = none) :
    batch.pending = [] := by
  have stocked := manned.stocked (manned.running_eq_nil ended)
  refine List.eq_nil_iff_forall_not_mem.mpr fun entry member => ?_
  have found : ∃ item, batch.pending.lookup entry.1 = some item := by
    refine Option.ne_none_iff_exists'.mp fun none => ?_
    simpa using List.lookup_eq_none_iff.mp none entry member
  rcases found with ⟨item, found⟩
  rcases exists_start? unfailed manned.isOpen stocked found with ⟨next, moved⟩
  exact absurd ((ended (.start entry.1)).symm.trans moved) nofun

end Manned

end Batch

end JourneyTimes
