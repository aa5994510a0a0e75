import JourneyTimes.Pool.Batch
import JourneyTimes.Proofs.Outcome
import Mathlib.Data.List.Nodup

/-!
# The order of writes

The tasks of a batch write into one store, in the order in which they finish.  If
what two tasks write does not depend on which of them is first, then the order of
all tasks does not matter: from one order to another only neighbours change places.
-/

namespace JourneyTimes

variable {ρ τ ω σ ε κ : Type}

/-- The tasks done one after another in the order of the items, each with a resource
that has never been used. -/
def Job.inOrder (job : Job ρ τ ω σ) (fresh : ρ) (items : List τ) (store : σ) : Except Error σ :=
  items.foldlM (fun store item => Batch.outcome job item (job.work item fresh).1 store) store

/-- What tasks leave depends only on what they find. -/
theorem Job.inOrder_congr {job : Job ρ τ ω σ} {fresh other : ρ} {items : List τ}
    (agrees : ∀ item ∈ items, (job.work item fresh).1 = (job.work item other).1) (store : σ) :
    job.inOrder fresh items store = job.inOrder other items store := by
  induction items generalizing store with
  | nil => rfl
  | cons item items ih =>
      rcases List.forall_mem_cons.mp agrees with ⟨first, rest⟩
      rw [inOrder, inOrder, List.foldlM_cons, List.foldlM_cons, first]
      exact bind_congr (ih rest)

/-- If every task succeeds and keeps what it needs of the store, they leave one. -/
theorem Job.inOrder_ok {job : Job ρ τ ω σ} {fresh : ρ} {items : List τ} {Keeps : σ → Prop}
    (succeeds : ∀ item ∈ items, ∀ store, Keeps store → ∃ next,
      Batch.outcome job item (job.work item fresh).1 store = .ok next ∧ Keeps next)
    {store : σ} (begins : Keeps store) : ∃ last, job.inOrder fresh items store = .ok last := by
  induction items generalizing store with
  | nil => exact ⟨store, rfl⟩
  | cons item items ih =>
      rcases List.forall_mem_cons.mp succeeds with ⟨first, rest⟩
      rcases first store begins with ⟨next, written, kept⟩
      rw [inOrder, List.foldlM_cons, written]
      exact ih rest kept

/-- What holds before the first task and is kept by every task holds after the last
one. -/
theorem Job.inOrder_keeps {job : Job ρ τ ω σ} {fresh : ρ} {items : List τ} {first last : σ}
    (Keeps : List τ → σ → Prop) (begins : Keeps [] first)
    (step : ∀ {done item rest store next}, items = done ++ item :: rest → Keeps done store →
      Batch.outcome job item (job.work item fresh).1 store = .ok next →
      Keeps (done ++ [item]) next)
    (finished : job.inOrder fresh items first = .ok last) : Keeps items last := by
  suffices ∀ rest done store, items = done ++ rest → Keeps done store →
      job.inOrder fresh rest store = .ok last → Keeps items last from
    this items [] first rfl begins finished
  intro rest
  induction rest with
  | nil =>
      intro done store split keeps finished
      cases finished
      rw [split, List.append_nil]
      exact keeps
  | cons item rest ih =>
      intro done store split keeps finished
      rw [inOrder, List.foldlM_cons] at finished
      rcases bind_eq_ok.mp finished with ⟨next, written, finished⟩
      exact ih _ next (by simpa using split) (step split keeps written) finished

/-- What the task at a position makes of the store. -/
def Job.write (job : Job ρ τ ω σ) (fresh : ρ) (items : List τ) (store : σ) (position : Nat) :
    Except Error σ :=
  match items[position]? with
  | some item => Batch.outcome job item (job.work item fresh).1 store
  | none => .ok store

theorem Job.foldlM_write_range (job : Job ρ τ ω σ) (fresh : ρ) (items : List τ) (store : σ) :
    (List.range items.length).foldlM (job.write fresh items) store =
      job.inOrder fresh items store := by
  have looked : (List.range items.length).map (items[·]?) = items.map some := by
    apply List.ext_getElem?
    intro position
    by_cases inside : position < items.length
    · simp [inside]
    · simp [inside]
  let write (store : σ) : Option τ → Except Error σ
    | some item => Batch.outcome job item (job.work item fresh).1 store
    | none => .ok store
  calc (List.range items.length).foldlM (job.write fresh items) store
      = ((List.range items.length).map (items[·]?)).foldlM write store := by
        rw [List.foldlM_map]
        rfl
    _ = (items.map some).foldlM write store := by rw [looked]
    _ = job.inOrder fresh items store := List.foldlM_map

/-- What tasks do with a resource does not depend on it, as long as it is fit, and
they leave it fit. -/
structure Job.IsUniform (job : Job ρ τ ω σ) (Fit : ρ → Prop) (fresh : ρ) : Prop where
  found_eq : ∀ {item resource}, Fit resource →
    (job.work item resource).1 = (job.work item fresh).1
  left_fit : ∀ {item resource}, Fit resource → Fit (job.work item resource).2

/-- Tasks of items with different keys may change places, and no two items have the
same key.  Something holds of every store. -/
structure Job.WritesApart (job : Job ρ τ ω σ) (fresh : ρ) (items : List τ) (Keeps : σ → Prop)
    (key : τ → κ) : Prop where
  nodup : (items.map key).Nodup
  keeps : ∀ {item store next}, Keeps store →
    Batch.outcome job item (job.work item fresh).1 store = .ok next → Keeps next
  swap : ∀ {first second store next last}, key first ≠ key second → Keeps store →
    Batch.outcome job first (job.work first fresh).1 store = .ok next →
    Batch.outcome job second (job.work second fresh).1 next = .ok last →
    ∃ other, Batch.outcome job second (job.work second fresh).1 store = .ok other ∧
      Batch.outcome job first (job.work first fresh).1 other = .ok last

/-- If steps may change places, they may be done in any order. -/
theorem foldlM_perm {step : σ → κ → Except ε σ} {Keeps : σ → Prop}
    (keeps : ∀ {store key next}, Keeps store → step store key = .ok next → Keeps next)
    (swap : ∀ {first second store next last}, first ≠ second → Keeps store →
      step store first = .ok next → step next second = .ok last →
      ∃ other, step store second = .ok other ∧ step other first = .ok last)
    {left right : List κ} (perm : left.Perm right) (nodup : left.Nodup) {store last : σ}
    (holds : Keeps store) (done : left.foldlM step store = .ok last) :
    right.foldlM step store = .ok last := by
  -- One order leads to another by exchanging neighbours, behind a common beginning.
  induction perm generalizing store with
  | nil => exact done
  | cons key _ ih =>
      rw [List.foldlM_cons] at done ⊢
      rcases bind_eq_ok.mp done with ⟨next, first, rest⟩
      rw [first, ok_bind]
      exact ih (List.nodup_cons.mp nodup).2 (keeps holds first) rest
  | swap second first keys =>
      rw [List.foldlM_cons] at done
      rcases bind_eq_ok.mp done with ⟨next, firstDone, done⟩
      rw [List.foldlM_cons] at done
      rcases bind_eq_ok.mp done with ⟨both, secondDone, rest⟩
      have apart : first ≠ second := by
        rintro rfl
        simp at nodup
      rcases swap apart holds firstDone secondDone with ⟨other, secondFirst, firstSecond⟩
      rw [List.foldlM_cons, secondFirst, ok_bind, List.foldlM_cons, firstSecond, ok_bind]
      exact rest
  | trans first _ ihFirst ihSecond =>
      exact ihSecond (first.nodup nodup) holds (ihFirst nodup holds done)

/-- Tasks that write apart may be done in any order. -/
theorem Job.WritesApart.foldlM_write {job : Job ρ τ ω σ} {fresh : ρ} {items : List τ}
    {Keeps : σ → Prop} {key : τ → κ} (apart : job.WritesApart fresh items Keeps key)
    {left right : List Nat} (perm : left.Perm right) (nodup : left.Nodup) {store last : σ}
    (holds : Keeps store) (done : left.foldlM (job.write fresh items) store = .ok last) :
    right.foldlM (job.write fresh items) store = .ok last := by
  refine foldlM_perm ?_ ?_ perm nodup holds done
  · intro store position next holds written
    unfold write at written
    split at written
    · exact apart.keeps holds written
    · cases written
      exact holds
  · intro first second store next last different holds firstDone secondDone
    unfold write at firstDone secondDone ⊢
    cases firstFound : items[first]? with
    | none =>
        rw [firstFound] at firstDone
        cases firstDone
        exact ⟨last, secondDone, rfl⟩
    | some firstItem =>
        cases secondFound : items[second]? with
        | none =>
            rw [secondFound] at secondDone
            cases secondDone
            exact ⟨store, rfl, by rwa [firstFound] at firstDone⟩
        | some secondItem =>
            rw [firstFound] at firstDone
            rw [secondFound] at secondDone
            refine apart.swap ?_ holds firstDone secondDone
            intro sameKey
            have inside := (List.getElem?_eq_some_iff.mp firstFound).1
            refine different ((List.getElem?_inj (by simpa using inside) apart.nodup).mp ?_)
            rw [List.getElem?_map, List.getElem?_map, firstFound, secondFound, Option.map_some,
              Option.map_some, sameKey]

theorem Job.WritesApart.keeps_inOrder {job : Job ρ τ ω σ} {fresh : ρ} {items : List τ}
    {Keeps : σ → Prop} {key : τ → κ} (apart : job.WritesApart fresh items Keeps key)
    {first last : σ} (holds : Keeps first) (finished : job.inOrder fresh items first = .ok last) :
    Keeps last :=
  inOrder_keeps (fun _ => Keeps) holds (fun _ holds written => apart.keeps holds written) finished

/-- If every task writes into a slot of its own, then all that is found is in its slot at
the end. -/
theorem Job.WritesApart.read_inOrder {δ : Type} {job : Job ρ τ ω σ} {fresh : ρ} {items : List τ}
    {Keeps : σ → Prop} {key : τ → κ} (apart : job.WritesApart fresh items Keeps key)
    (read : σ → τ → Option δ) (shown : ω → δ)
    (own : ∀ {item found store next}, item ∈ items → Keeps store →
      job.record item found store = .ok next → read next item = some (shown found))
    (others : ∀ {item other found store next}, other ∈ items → key other ≠ key item →
      Keeps store → job.record item found store = .ok next → read next other = read store other)
    {first last : σ} (holds : Keeps first) (finished : job.inOrder fresh items first = .ok last) :
    ∀ item ∈ items, ∃ found, (job.work item fresh).1 = .ok found ∧
      read last item = some (shown found) := by
  suffices Keeps last ∧ ∀ item ∈ items, ∃ found, (job.work item fresh).1 = .ok found ∧
      read last item = some (shown found) from this.2
  refine inOrder_keeps (fun done store => Keeps store ∧ ∀ item ∈ done,
    ∃ found, (job.work item fresh).1 = .ok found ∧ read store item = some (shown found))
    ⟨holds, nofun⟩ ?_ finished
  rintro done item rest store next rfl ⟨holds, slots⟩ written
  refine ⟨apart.keeps holds written, ?_⟩
  rcases bind_eq_ok.mp written with ⟨found, worked, recorded⟩
  intro other member
  rcases List.mem_append.mp member with old | new
  · have different : key other ≠ key item := by
      have nodup := apart.nodup
      rw [List.map_append, List.map_cons, List.nodup_append] at nodup
      exact nodup.2.2 _ (List.mem_map_of_mem old) _ (List.mem_cons_self ..)
    rw [others (List.mem_append_left _ old) different holds recorded]
    exact slots other old
  · obtain rfl := List.mem_singleton.mp new
    exact ⟨found, worked, own (by simp) holds recorded⟩

end JourneyTimes
