import JourneyTimes.Proofs.Pool.Traffic

/-!
# A pool keeps its resources

Whatever steps are made, a pool has all of its resources until it is shut down, and each
of them once: they are free, or lent to one borrower or one running task.  A submission
has nothing of what its tasks have borrowed when it returns.  It has run each of them once
if it returns a store, and none of them twice if it returns an error.
-/

namespace JourneyTimes

variable {ρ ι τ ω σ : Type}

/-! ## Submissions -/

/-- What is known of a submission at a pool, whether it is under way or has returned. -/
structure Submission.InOrder (name : ρ → ι) (pool : WorkerPool ρ)
    (submission : Submission ρ τ ω σ) : Prop where
  sameName : ∀ item resource, name (submission.job.work item resource).2 = name resource
  tasks_perm : (submission.ran ++ (submission.batch.running.map (·.entry) ++
    (submission.batch.pending ++ submission.refused))).Perm submission.tasks
  refused_eq : submission.batch.failure = none → submission.refused = []
  taken_lt : ∀ lease ∈ submission.taken, lease < pool.nextLease
  taken_back : ∀ lease ∈ submission.taken, lease ∈ pool.outstanding → lease ∈ submission.leases
  resting : submission.result.isSome = true → submission.batch.running = []
  complete : ∀ store, submission.result = some (.ok store) →
    submission.batch.failure = none ∧ submission.batch.pending = []

namespace Submission.InOrder

variable {name : ρ → ι} {pool next : WorkerPool ρ} {submission : Submission ρ τ ω σ}

theorem make (pool : WorkerPool ρ) {job : Job ρ τ ω σ} (items : List τ) (store : σ)
    (sameName : ∀ item resource, name (job.work item resource).2 = name resource) :
    (Submission.make pool job items store).InOrder name pool where
  sameName := sameName
  tasks_perm := by
    rw [Submission.make, tasks]
    simp [Batch.make]
  refused_eq _ := rfl
  taken_lt := nofun
  taken_back := nofun
  resting := nofun
  complete := nofun

/-- What happens to the leases of others does not matter. -/
theorem frame (inOrder : submission.InOrder name pool) (follows : pool.Follows next) :
    submission.InOrder name next :=
  { inOrder with
    taken_lt := fun lease taken =>
      Nat.lt_of_lt_of_le (inOrder.taken_lt lease taken) follows.nextLease_le
    taken_back := fun lease taken known =>
      inOrder.taken_back lease taken
        (follows.outstanding_of_lt lease known (inOrder.taken_lt lease taken)) }

theorem nodup (inOrder : submission.InOrder name pool) :
    ((submission.ran ++ (submission.batch.running.map (·.entry) ++
      (submission.batch.pending ++ submission.refused))).map Prod.fst).Nodup := by
  have numbers : submission.tasks.map Prod.fst = List.range submission.items.length :=
    Batch.make_positions pool submission.items submission.batch.store
  rw [(inOrder.tasks_perm.map Prod.fst).nodup_iff, numbers]
  exact List.nodup_range

theorem running_nodup (inOrder : submission.InOrder name pool) :
    (submission.batch.running.map (·.position)).Nodup := by
  have nodup := inOrder.nodup
  rw [List.map_append, List.map_append, List.map_map] at nodup
  exact (List.nodup_append.mp (List.nodup_append.mp nodup).2.1).1

theorem pending_nodup (inOrder : submission.InOrder name pool) :
    (submission.batch.pending.map Prod.fst).Nodup := by
  have nodup := inOrder.nodup
  rw [List.map_append, List.map_append, List.map_append] at nodup
  exact (List.nodup_append.mp (List.nodup_append.mp (List.nodup_append.mp nodup).2.1).2.1).1

/-- A task that starts takes a lease that nobody has had. -/
theorem started (inOrder : submission.InOrder name pool) (underWay : submission.result = none)
    {position : Nat} {next : Batch ρ τ σ}
    (moved : { submission.on pool with failure := none }.start? position = some next)
    (follows : pool.Follows next.pool) (more : pool.nextLease < next.pool.nextLease) :
    (submission.started pool.nextLease next).InOrder name next.pool ∧
      (submission.started pool.nextLease next).leases = pool.nextLease :: submission.leases := by
  rcases Batch.start?_eq_some moved with ⟨-, -, item, resource, free, found, -, rfl⟩
  have member : (position, item) ∈ submission.batch.pending := by
    rcases List.lookup_eq_some_iff.mp found with ⟨before, after, pendingEq, -⟩
    rw [show submission.batch.pending = before ++ (position, item) :: after from pendingEq]
    exact List.mem_append_right _ (List.mem_cons_self ..)
  refine ⟨⟨inOrder.sameName, ?_, inOrder.refused_eq, ?_, ?_, ?_, ?_⟩, rfl⟩
  · refine List.Perm.trans (List.Perm.append_left _ ?_) inOrder.tasks_perm
    apply List.perm_middle.symm.trans
    apply List.Perm.append_left
    exact (Batch.cons_filter_perm inOrder.pending_nodup member).append_right submission.refused
  · exact List.forall_mem_cons.mpr ⟨more, (inOrder.frame follows).taken_lt⟩
  · intro lease taken known
    rcases List.mem_cons.mp taken with rfl | taken
    · exact List.mem_cons_self ..
    · exact List.mem_cons_of_mem _ ((inOrder.frame follows).taken_back lease taken known)
  · intro returned
    rw [Submission.started, underWay] at returned
    cases returned
  · intro store returned
    rw [Submission.started, underWay] at returned
    cases returned

/-- A task that has run to its end has no lease any more. -/
theorem finished (inOrder : submission.InOrder name pool) {task : RunningTask τ}
    (running : task ∈ submission.batch.running) {next : Batch ρ τ σ}
    (runningEq : next.running =
      submission.batch.running.filter fun other => other.position != task.position)
    (pendingEq : next.pending = submission.batch.pending)
    (unfailed : next.failure = none → submission.batch.failure = none)
    (follows : pool.Follows next.pool) (gone : task.lease ∉ next.pool.outstanding) :
    (submission.finished task next).InOrder name next.pool ∧
      (task.lease :: (submission.finished task next).leases).Perm submission.leases := by
  have split : (task :: next.running).Perm submission.batch.running := by
    rw [runningEq]
    exact Batch.cons_filter_perm inOrder.running_nodup running
  have leases : (task.lease :: next.running.map (·.lease)).Perm submission.leases :=
    split.map RunningTask.lease
  have busy : submission.result.isSome ≠ true := by
    intro returned
    rw [inOrder.resting returned] at running
    cases running
  refine ⟨⟨inOrder.sameName, ?_, fun still => inOrder.refused_eq (unfailed still), ?_, ?_, ?_, ?_⟩,
    leases⟩
  · refine List.Perm.trans ?_ inOrder.tasks_perm
    show (task.entry :: (submission.ran ++ (next.running.map (·.entry) ++
      (next.pending ++ submission.refused)))).Perm _
    rw [pendingEq]
    apply List.perm_middle.symm.trans
    apply List.Perm.append_left
    exact (split.map (·.entry)).append_right _
  · exact (inOrder.frame follows).taken_lt
  · intro lease taken known
    have before := (inOrder.frame follows).taken_back lease taken known
    rcases List.mem_cons.mp (leases.mem_iff.mpr before) with rfl | others
    · exact absurd known gone
    · exact others
  · exact fun returned => absurd returned busy
  · intro store returned
    exact absurd (Option.isSome_iff_exists.mpr ⟨_, returned⟩) busy

theorem turnedAway (inOrder : submission.InOrder name pool) (underWay : submission.result = none)
    {entry : Nat × τ} (pending : entry ∈ submission.batch.pending) (error : Error) :
    (submission.turnedAway entry error).InOrder name pool where
  sameName := inOrder.sameName
  tasks_perm := by
    refine List.Perm.trans ?_ inOrder.tasks_perm
    apply List.Perm.append_left
    apply List.Perm.append_left
    apply List.perm_middle.trans
    exact (Batch.cons_filter_perm inOrder.pending_nodup pending).append_right submission.refused
  refused_eq := by
    intro unfailed
    simp [Submission.turnedAway] at unfailed
  taken_lt := inOrder.taken_lt
  taken_back := inOrder.taken_back
  resting := by
    intro returned
    rw [Submission.turnedAway, underWay] at returned
    cases returned
  complete := by
    intro store returned
    rw [Submission.turnedAway, underWay] at returned
    cases returned

/-- A submission returns a store only if all of its tasks have run. -/
theorem answered (inOrder : submission.InOrder name pool) (done : submission.IsDone) :
    { submission with result := some (submission.on pool).result }.InOrder name pool :=
  { inOrder with
    resting := fun _ => done.1
    complete := by
      intro store returned
      have result : (submission.on pool).result = .ok store := Option.some.inj returned
      rw [Batch.result] at result
      split at result
      · cases result
      · rename_i unfailed
        split_ifs at result with none
        exact ⟨unfailed, List.isEmpty_iff.mp none⟩ }

end Submission.InOrder

/-! ## Traffic -/

namespace Traffic

variable {name : ρ → ι} {names : List ι} {traffic next : Traffic ρ τ ω σ}

/-- The pool keeps its books, every lease is held by somebody, and the submissions are in
order. -/
structure Balanced (name : ρ → ι) (names : List ι) (traffic : Traffic ρ τ ω σ) : Prop where
  balances : traffic.pool.Balances name names
  holders : traffic.pool.outstanding.Perm
    (traffic.held ++ traffic.submissions.flatMap (·.leases))
  inOrder : ∀ submission ∈ traffic.submissions, submission.InOrder name traffic.pool

namespace Balanced

theorem frame (balanced : traffic.Balanced name names) {pool : WorkerPool ρ}
    (follows : traffic.pool.Follows pool) :
    ∀ submission ∈ traffic.submissions, submission.InOrder name pool :=
  fun submission member => (balanced.inOrder submission member).frame follows

/-- One submission goes on, while the others stay as they are. -/
theorem replace (balanced : traffic.Balanced name names) {pool : WorkerPool ρ}
    {before after : List (Submission ρ τ ω σ)} {submission later : Submission ρ τ ω σ}
    (split : traffic.submissions = before ++ submission :: after)
    (balances : pool.Balances name names) (follows : traffic.pool.Follows pool)
    (inOrder : later.InOrder name pool)
    (holders : ∀ others, traffic.pool.outstanding.Perm (submission.leases ++ others) →
      pool.outstanding.Perm (later.leases ++ others)) :
    Balanced name names { traffic with pool, submissions := before ++ later :: after } where
  balances := balances
  holders := by
    have apart (present : Submission ρ τ ω σ) :
        (traffic.held ++ (before ++ present :: after).flatMap (·.leases)).Perm
          (present.leases ++ (traffic.held ++ (before ++ after).flatMap (·.leases))) := by
      rw [List.flatMap_append, List.flatMap_cons, List.flatMap_append]
      refine List.Perm.trans ?_ (List.perm_append_comm_assoc ..)
      apply List.Perm.append_left
      exact List.perm_append_comm_assoc ..
    have known := balanced.holders
    rw [split] at known
    exact (holders _ (known.trans (apart submission))).trans (apart later).symm
  inOrder := by
    have others := balanced.frame follows
    rw [split, List.forall_mem_append, List.forall_mem_cons] at others
    rw [List.forall_mem_append, List.forall_mem_cons]
    exact ⟨others.1, inOrder, others.2.2⟩

section

variable (balanced : traffic.Balanced name names) {before after : List (Submission ρ τ ω σ)}
  {submission : Submission ρ τ ω σ} (split : traffic.submissions = before ++ submission :: after)
  {batch : Batch ρ τ σ}

include balanced split

theorem inOrder_of_split : submission.InOrder name traffic.pool :=
  balanced.inOrder submission (split ▸ List.mem_append_right _ (.head _))

/-- A task that starts gets a free resource. -/
theorem start {position : Nat} (underWay : submission.result = none)
    (moved : { submission.on traffic.pool with failure := none }.start? position = some batch) :
    Balanced name names
        { traffic with
          pool := batch.pool
          submissions := before ++ submission.started traffic.pool.nextLease batch :: after } ∧
      traffic.pool.Follows batch.pool := by
  rcases Batch.start?_eq_some moved with ⟨-, isOpen, item, resource, free, -, freeEq, batchEq⟩
  rcases balanced.balances.lend isOpen freeEq (congrArg Batch.pool batchEq) with
    ⟨lends, follows, outstandingEq⟩
  have more : traffic.pool.nextLease < batch.pool.nextLease := by
    rw [batchEq]
    exact Nat.lt_succ_self _
  rcases (balanced.inOrder_of_split split).started underWay moved follows more with
    ⟨started, leasesEq⟩
  refine ⟨balanced.replace split lends follows started fun others known => ?_, follows⟩
  rw [outstandingEq, leasesEq]
  exact known.cons _

/-- A task that finishes gives its resource back, whether it has failed or not. -/
theorem finish {task : RunningTask τ} (running : task ∈ submission.batch.running)
    (moved : (submission.on traffic.pool).finish? submission.job task.position = some batch) :
    Balanced name names
        { traffic with
          pool := batch.pool
          submissions := before ++ submission.finished task batch :: after } ∧
      traffic.pool.Follows batch.pool := by
  have inOrder := balanced.inOrder_of_split split
  rcases Batch.finish?_eq_some moved with
    ⟨other, resource, otherRunning, samePosition, lent, outcomes⟩
  obtain rfl : other = task :=
    List.inj_on_of_nodup_map inOrder.running_nodup otherRunning running samePosition
  have batchEq : batch.pool = ((submission.on traffic.pool).retire other
        (submission.job.work other.item resource).2).pool ∧
      batch.running = (submission.batch.running.filter fun task =>
        task.position != other.position) ∧
      batch.pending = submission.batch.pending ∧
      (batch.failure = none → submission.batch.failure = none) := by
    rcases outcomes with ⟨store, -, rfl⟩ | ⟨error, -, rfl⟩
    · exact ⟨rfl, rfl, rfl, id⟩
    · refine ⟨rfl, rfl, rfl, fun unfailed => ?_⟩
      simp at unfailed
  rcases batchEq with ⟨poolEq, runningEq, pendingEq, unfailed⟩
  rcases balanced.balances.restore lent (inOrder.sameName other.item resource) poolEq with
    ⟨restores, follows, outstandingPerm⟩
  have gone : other.lease ∉ batch.pool.outstanding :=
    (List.nodup_cons.mp (outstandingPerm.nodup_iff.mpr balanced.balances.nodup)).1
  rcases inOrder.finished running runningEq pendingEq unfailed follows gone with
    ⟨finished, leasesPerm⟩
  refine ⟨balanced.replace split restores follows finished fun others known => ?_, follows⟩
  exact List.Perm.cons_inv
    ((outstandingPerm.trans known).trans (leasesPerm.symm.append_right others))

end

/-- Every step keeps the books of the pool and the order of the submissions. -/
theorem step (balanced : traffic.Balanced name names) (step : Step name traffic next) :
    next.Balanced name names ∧ traffic.pool.Follows next.pool := by
  have balances := balanced.balances
  cases step with
  | checkout lent =>
      rcases WorkerPool.checkout_eq_some lent with ⟨isOpen, rfl, resource, free, freeEq, poolEq⟩
      rcases balances.lend isOpen freeEq poolEq with ⟨lends, follows, outstandingEq⟩
      refine ⟨⟨lends, ?_, balanced.frame follows⟩, follows⟩
      show List.Perm _ (_ :: (traffic.held ++ _))
      rw [outstandingEq]
      exact balanced.holders.cons _
  | use holds sameName =>
      rename_i lease change
      rcases balances.update lease sameName with ⟨updates, follows, outstandingEq⟩
      refine ⟨⟨updates, ?_, balanced.frame follows⟩, follows⟩
      rw [outstandingEq]
      exact balanced.holders
  | drop holds back =>
      rename_i lease pool
      rcases WorkerPool.giveBack?_eq_some back with ⟨resource, lent, poolEq⟩
      rcases balances.restore lent rfl poolEq with ⟨restores, follows, split⟩
      refine ⟨⟨restores, ?_, balanced.frame follows⟩, follows⟩
      have apart := (List.perm_cons_erase holds).append_right
        (traffic.submissions.flatMap (·.leases))
      exact List.Perm.cons_inv ((split.trans balanced.holders).trans apart)
  | submit job items store isOpen sameName =>
      refine ⟨⟨balances, balanced.holders, ?_⟩, .refl _⟩
      exact List.forall_mem_cons.mpr ⟨.make traffic.pool items store sameName, balanced.inOrder⟩
  | start split underWay moved => exact balanced.start split underWay moved
  | finish split running moved => exact balanced.finish split running moved
  | refuse split underWay pending refused =>
      refine ⟨balanced.replace split balances (.refl _) ?_ fun _ known => known, .refl _⟩
      exact (balanced.inOrder_of_split split).turnedAway underWay pending _
  | answer split underWay done =>
      refine ⟨balanced.replace split balances (.refl _) ?_ fun _ known => known, .refl _⟩
      exact (balanced.inOrder_of_split split).answered done
  | shutDown unlent =>
      rcases balances.shutDown unlent with ⟨shut, follows, outstandingEq⟩
      exact ⟨⟨shut, balanced.holders, balanced.frame follows⟩, follows⟩

/-- Whatever steps are made, the books stay in order, and a pool that has been shut down
stays so. -/
theorem reaches (balanced : traffic.Balanced name names) (reaches : Reaches name traffic next) :
    next.Balanced name names ∧ (traffic.pool.isShutDown = true → next.pool.isShutDown = true) := by
  induction reaches with
  | refl => exact ⟨balanced, id⟩
  | tail _ step ih =>
      rcases ih.1.step step with ⟨after, follows⟩
      exact ⟨after, fun isShutDown => follows.stays (ih.2 isShutDown)⟩

theorem begin {resources : List ρ} {pool : WorkerPool ρ} (name : ρ → ι)
    (made : WorkerPool.make resources = .ok pool) :
    (Traffic.begin pool : Traffic ρ τ ω σ).Balanced name (resources.map name) := by
  rcases WorkerPool.balances_make name made with ⟨balances, unlent⟩
  refine ⟨balances, ?_, fun _ member => absurd member List.not_mem_nil⟩
  rw [Traffic.begin, unlent]
  exact .rfl

end Balanced

/-- At a pool that was made with some resources, and whatever has been done with it, all
of the resources are free or lent, each of them once, until the pool is shut down.  The
leases that have not ended are those of borrowers and of running tasks, each held by one
of them.  When a submission has returned, all leases that its tasks took have ended; each
of its tasks has run once if it returned a store, and none of them has run twice if it
returned an error.  After the pool is shut down nothing is lent, ever, and the pool
refuses to lend and to take tasks. -/
theorem conserves {resources : List ρ} {pool : WorkerPool ρ}
    (made : WorkerPool.make resources = .ok pool)
    (reached : Reaches name (begin pool) traffic) :
    (traffic.pool.isShutDown = false →
      (traffic.pool.free.map name ++ traffic.pool.leases.map fun lent => name lent.2).Perm
        (resources.map name) ∧
      traffic.pool.leases.length ≤ resources.length) ∧
    (traffic.pool.outstanding.Nodup ∧ traffic.pool.outstanding.Perm
      (traffic.held ++ traffic.submissions.flatMap (·.leases))) ∧
    (∀ submission ∈ traffic.submissions, ∀ result, submission.result = some result →
      (∀ lease ∈ submission.taken, lease ∉ traffic.pool.outstanding) ∧
      (∀ store, result = .ok store → submission.ran.Perm submission.tasks) ∧
      ∀ error, result = .error error → (submission.ran.map Prod.fst).Nodup) ∧
    (traffic.pool.isShutDown = true → ∀ later, Reaches name traffic later →
      later.pool.outstanding = [] ∧ later.pool.checkout = .error .poolShutDown ∧
      ∀ (job : Job ρ τ ω σ) (items : List τ) (store : σ),
        later.pool.submit job items store = (.error .poolShutDown, later.pool)) := by
  have balanced := ((Balanced.begin name made).reaches reached).1
  refine ⟨?_, ⟨balanced.balances.nodup, balanced.holders⟩, ?_, ?_⟩
  · intro isOpen
    have perm := balanced.balances.names_perm isOpen
    refine ⟨perm, ?_⟩
    have length := perm.length_eq
    simp only [List.length_append, List.length_map] at length
    omega
  · intro submission member result returned
    have inOrder := balanced.inOrder submission member
    have resting := inOrder.resting (Option.isSome_iff_exists.mpr ⟨result, returned⟩)
    refine ⟨?_, ?_, ?_⟩
    · intro lease taken known
      have running := inOrder.taken_back lease taken known
      rw [Submission.leases, resting] at running
      cases running
    · rintro store rfl
      rcases inOrder.complete store returned with ⟨unfailed, none⟩
      simpa [resting, none, inOrder.refused_eq unfailed] using inOrder.tasks_perm
    · intro error _
      have nodup := inOrder.nodup
      rw [List.map_append] at nodup
      exact (List.nodup_append.mp nodup).1
  · intro isShutDown later reaches
    rcases balanced.reaches reaches with ⟨laterBalanced, stays⟩
    have laterShut := stays isShutDown
    refine ⟨?_, WorkerPool.refuses laterShut⟩
    rw [WorkerPool.outstanding, (laterBalanced.balances.closed laterShut).2]
    rfl

/-- Adds items to the second part of a resource, unless an item is 11. -/
def countingJob : Job (Nat × Nat) Nat Unit Nat where
  work item resource :=
    if item = 11 then (.error (.nodeOutOfRange item), resource)
    else (.ok (), (resource.1, resource.2 + item))
  record _ _ store := .ok (store + 1)

/-- A submission fails while somebody else holds a resource. -/
theorem conserves_counting :
    ∃ (pool : WorkerPool (Nat × Nat)) (traffic : Traffic (Nat × Nat) Nat Unit Nat),
      WorkerPool.make [(7, 0), (8, 0)] = .ok pool ∧ Reaches Prod.fst (begin pool) traffic ∧
      traffic.held = [0] ∧
      (traffic.pool.free.map Prod.fst ++ traffic.pool.leases.map fun lent => lent.2.1).Perm
        [7, 8] ∧
      ∃ submission ∈ traffic.submissions,
        submission.result = some (.error (.nodeOutOfRange 11)) ∧
        (∀ lease ∈ submission.taken, lease ∉ traffic.pool.outstanding) ∧
        (submission.ran.map Prod.fst).Nodup := by
  let pool : WorkerPool (Nat × Nat) := ⟨2, [(8, 0), (7, 0)], [], 0, false⟩
  let lent : Traffic (Nat × Nat) Nat Unit Nat := ⟨⟨2, [(7, 0)], [(0, (8, 0))], 1, false⟩, [0], []⟩
  have made : WorkerPool.make [(7, 0), (8, 0)] = .ok pool := rfl
  have borrows : Step Prod.fst (begin pool) lent := .checkout rfl
  have sameName (item : Nat) (resource : Nat × Nat) :
      (countingJob.work item resource).2.1 = resource.1 := by
    unfold countingJob
    dsimp only
    split_ifs <;> rfl
  have submits : ∃ submission,
      submission.result = some (lent.pool.submit countingJob [10, 11, 12] 0).1 ∧
      Reaches Prod.fst lent
        { lent with
          pool := (lent.pool.submit countingJob [10, 11, 12] 0).2
          submissions := [submission] } :=
    reaches_submit rfl (List.cons_ne_nil _ _) countingJob [10, 11, 12] 0 sameName
  rcases submits with ⟨submission, returned, reaches⟩
  have failed : (lent.pool.submit countingJob [10, 11, 12] 0).1 = .error (.nodeOutOfRange 11) := rfl
  have isOpen : (lent.pool.submit countingJob [10, 11, 12] 0).2.isShutDown = false := rfl
  have reached := (Relation.ReflTransGen.single borrows).trans reaches
  rcases conserves made reached with ⟨balance, -, finished, -⟩
  rw [failed] at returned
  rcases finished submission (List.mem_cons_self ..) _ returned with ⟨back, -, once⟩
  exact ⟨pool, _, made, reached, rfl, (balance isOpen).1, submission, List.mem_cons_self ..,
    returned, back, once _ rfl⟩

end Traffic

end JourneyTimes
