import JourneyTimes.Proofs.Pool.Moves

/-!
# What a pool lends

A pool keeps books: every lease has a number that no other lease has or had before, and
until the pool is shut down its resources are free or lent, each of them once.  A
resource may change while it is lent.  It is told from the others by a name, which does
not change.

Every operation of a pool keeps these books, and no lease that has ended comes back.
-/

namespace JourneyTimes.WorkerPool

variable {ρ ι : Type} {name : ρ → ι} {names : List ι} {pool next : WorkerPool ρ} {lease : Nat}

/-- The numbers of the leases that have not ended. -/
def outstanding (pool : WorkerPool ρ) : List Nat := pool.leases.map Prod.fst

/-- The books of a pool that was made with resources of these names. -/
structure Balances (name : ρ → ι) (names : List ι) (pool : WorkerPool ρ) : Prop where
  nodup : pool.outstanding.Nodup
  lease_lt : ∀ lease ∈ pool.outstanding, lease < pool.nextLease
  names_perm : pool.isShutDown = false →
    (pool.free.map name ++ pool.leases.map fun lent => name lent.2).Perm names
  closed : pool.isShutDown = true → pool.free = [] ∧ pool.leases = []

/-- A pool gives new numbers to new leases, and is not opened again. -/
structure Follows (pool next : WorkerPool ρ) : Prop where
  nextLease_le : pool.nextLease ≤ next.nextLease
  outstanding_of_lt : ∀ lease ∈ next.outstanding, lease < pool.nextLease →
    lease ∈ pool.outstanding
  stays : pool.isShutDown = true → next.isShutDown = true

theorem Follows.refl (pool : WorkerPool ρ) : Follows pool pool :=
  ⟨Nat.le_refl _, fun _ known _ => known, id⟩

/-! ## Operations -/

/-- Everything that borrowing a resource does. -/
theorem checkout_eq_some (lent : pool.checkout = .ok (some (lease, next))) :
    pool.isShutDown = false ∧ lease = pool.nextLease ∧
      ∃ resource free, pool.free = resource :: free ∧
        next =
          { pool with
            free
            leases := (pool.nextLease, resource) :: pool.leases
            nextLease := pool.nextLease + 1 } := by
  unfold checkout at lent
  split_ifs at lent with isShutDown
  split at lent
  · cases lent
  · rename_i resource free freeEq
    cases lent
    exact ⟨Bool.eq_false_iff.mpr isShutDown, rfl, resource, free, freeEq, rfl⟩

/-- Everything that giving a resource back does. -/
theorem giveBack?_eq_some (back : pool.giveBack? lease = some next) :
    ∃ resource, pool.resource? lease = some resource ∧
      next =
        { pool with
          free := resource :: pool.free
          leases := pool.leases.filter fun (number, _) => number != lease } := by
  rcases Option.map_eq_some_iff.mp back with ⟨resource, lent, rfl⟩
  exact ⟨resource, lent, rfl⟩

theorem balances_make {resources : List ρ} (name : ρ → ι) (made : make resources = .ok pool) :
    pool.Balances name (resources.map name) ∧ pool.outstanding = [] := by
  unfold make at made
  split_ifs at made
  cases made
  refine ⟨⟨List.nodup_nil, nofun, fun _ => ?_, nofun⟩, rfl⟩
  simp [List.reverse_perm]

/-- Borrowing a resource adds a lease. -/
theorem Balances.lend {resource : ρ} {free : List ρ} (balances : pool.Balances name names)
    (isOpen : pool.isShutDown = false) (freeEq : pool.free = resource :: free)
    (nextEq : next =
      { pool with
        free
        leases := (pool.nextLease, resource) :: pool.leases
        nextLease := pool.nextLease + 1 }) :
    next.Balances name names ∧ pool.Follows next ∧
      next.outstanding = pool.nextLease :: pool.outstanding := by
  subst nextEq
  have fresh : pool.nextLease ∉ pool.outstanding := fun known =>
    absurd (balances.lease_lt _ known) (Nat.lt_irrefl _)
  refine ⟨⟨?_, ?_, ?_, ?_⟩, ⟨Nat.le_succ _, ?_, id⟩, rfl⟩
  · exact List.nodup_cons.mpr ⟨fresh, balances.nodup⟩
  · exact List.forall_mem_cons.mpr ⟨Nat.lt_succ_self _, fun lease known =>
      Nat.lt_succ_of_lt (balances.lease_lt lease known)⟩
  · intro _
    have before := balances.names_perm isOpen
    rw [freeEq] at before
    exact List.perm_middle.trans before
  · intro isShutDown
    exact absurd (isOpen.symm.trans isShutDown) Bool.false_ne_true
  · intro lease known old
    rcases List.mem_cons.mp known with rfl | known
    · exact absurd old (Nat.lt_irrefl _)
    · exact known

/-- Giving a resource back ends its lease, whatever the resource has become. -/
theorem Balances.restore {resource left : ρ} (balances : pool.Balances name names)
    (lent : pool.resource? lease = some resource) (sameName : name left = name resource)
    (nextEq : next =
      { pool with
        free := left :: pool.free
        leases := pool.leases.filter fun (number, _) => number != lease }) :
    next.Balances name names ∧ pool.Follows next ∧
      (lease :: next.outstanding).Perm pool.outstanding := by
  subst nextEq
  have member : (lease, resource) ∈ pool.leases := by
    rcases List.lookup_eq_some_iff.mp lent with ⟨before, after, leasesEq, -⟩
    rw [leasesEq]
    exact List.mem_append_right _ (List.mem_cons_self ..)
  have split := Batch.cons_filter_perm balances.nodup member
  have remains : List.Sublist ((pool.leases.filter fun (number, _) => number != lease).map Prod.fst)
      pool.outstanding := List.filter_sublist.map Prod.fst
  refine ⟨⟨balances.nodup.sublist remains, ?_, ?_, ?_⟩, ⟨Nat.le_refl _, ?_, id⟩, split.map Prod.fst⟩
  · exact fun lease known => balances.lease_lt lease (remains.subset known)
  · intro isOpen
    refine List.Perm.trans ?_ (balances.names_perm isOpen)
    refine List.perm_middle.symm.trans (List.Perm.append_left _ ?_)
    rw [sameName]
    exact split.map fun lent => name lent.2
  · intro isShutDown
    rw [(balances.closed isShutDown).2] at member
    cases member
  · exact fun lease known _ => remains.subset known

/-- Changing a resource without changing its name changes nothing in the books. -/
theorem Balances.update (balances : pool.Balances name names) (lease : Nat) {change : ρ → ρ}
    (sameName : ∀ resource, name (change resource) = name resource) :
    (pool.update lease change).Balances name names ∧ pool.Follows (pool.update lease change) ∧
      (pool.update lease change).outstanding = pool.outstanding := by
  have numbers : (pool.update lease change).outstanding = pool.outstanding := by
    rw [outstanding, WorkerPool.update, List.map_map]
    rfl
  have sameNames : ((pool.update lease change).leases.map fun lent => name lent.2) =
      pool.leases.map fun lent => name lent.2 := by
    rw [WorkerPool.update, List.map_map]
    apply List.map_congr_left
    rintro ⟨number, resource⟩ -
    show name (if number = lease then change resource else resource) = name resource
    split_ifs
    · exact sameName resource
    · rfl
  refine ⟨⟨?_, ?_, ?_, ?_⟩, ⟨Nat.le_refl _, ?_, id⟩, numbers⟩
  · rw [numbers]
    exact balances.nodup
  · rw [numbers]
    exact balances.lease_lt
  · intro isOpen
    rw [sameNames]
    exact balances.names_perm isOpen
  · intro isShutDown
    rcases balances.closed isShutDown with ⟨freeEq, leasesEq⟩
    exact ⟨freeEq, by rw [WorkerPool.update, leasesEq]; rfl⟩
  · intro lease known _
    rwa [numbers] at known

/-- A pool of which nothing is lent may be shut down. -/
theorem Balances.shutDown (balances : pool.Balances name names) (unlent : pool.leases = []) :
    pool.shutDown.Balances name names ∧ pool.Follows pool.shutDown ∧
      pool.shutDown.outstanding = pool.outstanding := by
  refine ⟨⟨balances.nodup, balances.lease_lt, nofun, fun _ => ⟨rfl, unlent⟩⟩,
    ⟨Nat.le_refl _, fun _ known _ => known, fun _ => rfl⟩, rfl⟩

/-- A pool that has been shut down lends nothing and takes no tasks. -/
theorem refuses {τ ω σ : Type} (isShutDown : pool.isShutDown = true) :
    pool.checkout = .error .poolShutDown ∧
      ∀ (job : Job ρ τ ω σ) (items : List τ) (store : σ),
        pool.submit job items store = (.error .poolShutDown, pool) := by
  constructor
  · rw [checkout, if_pos isShutDown]
  · intro job items store
    rw [submit, if_pos isShutDown]

end JourneyTimes.WorkerPool
