import JourneyTimes.Proofs.Scalar.Exact
import JourneyTimes.Timetable.Departures

/-!
# Rides take time

Where all times of a timetable are numbers, a ride can be taken at any time of
any day if its route has a departure, and never if it has none.  Days are added
to a departure until it is no longer in the past, so waiting takes no negative
time, and a ride only does if the vehicle arrives more than a day before it
leaves.
-/

namespace JourneyTimes.Timetable

variable {K : Type} [Field K] [LinearOrder K] [FloorRing K] [Trigonometry K]

/-- All departures are numbers. -/
def HasFiniteDepartures (departures : List (Exact K)) : Prop :=
  ∀ departure ∈ departures, ∃ time : K, departure = time

/-- The seconds of a day as a number. -/
abbrev daySeconds (K : Type) [Field K] : K := ((24 * 3600 : Nat) : K)

theorem day_eq : (day : Exact K) = daySeconds K := rfl

theorem firstFrom?_mem {departures : List (Exact K)} {time departure : Exact K}
    (found : firstFrom? departures time = some departure) : departure ∈ departures := by
  unfold firstFrom? at found
  split at found
  · cases found
    rename_i first
    exact List.mem_of_find?_eq_some first
  · exact List.mem_of_mem_head? found

theorem firstFrom?_isSome {departures : List (Exact K)} (nonempty : departures ≠ [])
    (time : Exact K) : ∃ departure, firstFrom? departures time = some departure := by
  unfold firstFrom?
  split
  · exact ⟨_, rfl⟩
  · cases departures with
    | nil => exact absurd rfl nonempty
    | cons departure departures => exact ⟨departure, rfl⟩

theorem addDays_finite (time : Exact K) (fuel : Nat) (departure : K) :
    ∃ later : K, addDays time fuel departure = later := by
  induction fuel generalizing departure with
  | zero => exact ⟨departure, rfl⟩
  | succ fuel ih =>
      rw [addDays]
      split_ifs
      · rw [day_eq, Exact.finite_add_finite]
        exact ih _
      · exact ⟨departure, rfl⟩

/-- A route without departures has no next one. -/
theorem nextDeparture_nil (offset time : Exact K) :
    nextDeparture [] offset time = .infinity := rfl

theorem nextDeparture_finite {departures : List (Exact K)} (finite : HasFiniteDepartures departures)
    (nonempty : departures ≠ []) (offset : K) (time : Exact K) :
    ∃ departure : K, nextDeparture departures offset time = departure := by
  rcases firstFrom?_isSome nonempty (fold (time - offset)) with ⟨first, found⟩
  rcases finite first (firstFrom?_mem found) with ⟨value, rfl⟩
  rw [nextDeparture, found]
  dsimp only
  rw [Exact.finite_add_finite]
  exact addDays_finite time _ _

/-- A ride takes a number of seconds at any time, if the route has a departure. -/
theorem rideTime_finite {departures : List (Exact K)} (finite : HasFiniteDepartures departures)
    (nonempty : departures ≠ []) (departureOffset arrivalOffset time : K) :
    ∃ duration : K, rideTime departures departureOffset arrivalOffset time = duration := by
  rcases nextDeparture_finite finite nonempty departureOffset (time : Exact K) with
    ⟨departure, departureEq⟩
  rw [rideTime, departureEq, Exact.finite_sub_finite, Exact.finite_sub_finite,
    Exact.finite_add_finite, day_eq, Exact.finite_add_finite]
  split_ifs <;> exact ⟨_, rfl⟩

/-- A ride of a route without departures can never be taken. -/
theorem rideTime_nil (departureOffset arrivalOffset time : K) :
    rideTime [] (departureOffset : Exact K) arrivalOffset time = .infinity := by
  rw [rideTime, nextDeparture_nil]
  rfl

variable [IsStrictOrderedRing K]

omit [FloorRing K] [Trigonometry K] in
theorem daySeconds_pos : 0 < daySeconds K := by
  rw [Nat.cast_pos]
  decide

/-- Enough days are added to get to a time. -/
theorem le_addDays {time : K} (fuel : Nat) {departure : K}
    (enough : time ≤ departure + fuel * daySeconds K) :
    (time : Exact K) ≤ addDays (time : Exact K) fuel departure := by
  induction fuel generalizing departure with
  | zero => simpa [addDays] using enough
  | succ fuel ih =>
      rw [addDays]
      split_ifs with past
      · rw [day_eq, Exact.finite_add_finite]
        apply ih
        push_cast at enough ⊢
        linarith
      · rw [Exact.finite_lt_finite, not_lt] at past
        exact Exact.finite_le_finite.mpr past

theorem daysBetween_enough (departure time : K) :
    time ≤ departure + (daysBetween (departure : Exact K) time : Nat) * daySeconds K := by
  have positive := daySeconds_pos (K := K)
  have days : daysBetween (departure : Exact K) time =
      ⌊(time - departure) / daySeconds K⌋.toNat + 2 := by
    rw [daysBetween, Exact.finite_sub_finite, day_eq, Exact.finite_div_finite _ positive.ne']
    rfl
  have whole : (time - departure) / daySeconds K <
      (⌊(time - departure) / daySeconds K⌋.toNat : K) + 1 := by
    refine (Int.lt_floor_add_one _).trans_le ?_
    have atMost := Int.self_le_toNat ⌊(time - departure) / daySeconds K⌋
    have cast : (⌊(time - departure) / daySeconds K⌋ : K) ≤
        ((⌊(time - departure) / daySeconds K⌋.toNat : Int) : K) := by exact_mod_cast atMost
    push_cast at cast ⊢
    linarith
  rw [div_lt_iff₀ positive] at whole
  rw [days]
  push_cast at whole ⊢
  linarith

/-- The next departure is not in the past. -/
theorem le_nextDeparture {departures : List (Exact K)} (finite : HasFiniteDepartures departures)
    (nonempty : departures ≠ []) (offset time : K) :
    (time : Exact K) ≤ nextDeparture departures (offset : Exact K) time := by
  rcases firstFrom?_isSome nonempty (fold ((time : Exact K) - offset)) with ⟨first, found⟩
  rcases finite first (firstFrom?_mem found) with ⟨value, rfl⟩
  rw [nextDeparture, found]
  dsimp only
  rw [Exact.finite_add_finite]
  exact le_addDays _ (daysBetween_enough _ _)

/-- A ride takes no negative time, unless it arrives a day before it leaves. -/
theorem rideTime_nonneg {departures : List (Exact K)} (finite : HasFiniteDepartures departures)
    (nonempty : departures ≠ []) {departureOffset arrivalOffset : K} (time : K)
    (forward : departureOffset ≤ arrivalOffset + daySeconds K) :
    ∃ duration : K, 0 ≤ duration ∧
      rideTime departures departureOffset arrivalOffset time = duration := by
  rcases nextDeparture_finite finite nonempty departureOffset (time : Exact K) with
    ⟨departure, departureEq⟩
  have waits := le_nextDeparture finite nonempty departureOffset time
  rw [departureEq, Exact.finite_le_finite] at waits
  rw [rideTime, departureEq, Exact.finite_sub_finite, Exact.finite_sub_finite,
    Exact.finite_add_finite, day_eq, Exact.finite_add_finite, Exact.zero_eq]
  split_ifs with negative
  · exact ⟨_, by linarith, rfl⟩
  · rw [Exact.finite_lt_finite] at negative
    exact ⟨_, not_lt.mp negative, rfl⟩

/-- A ride takes no less than the time between its two stops. -/
theorem offsets_le_rideTime {departures : List (Exact K)}
    (finite : HasFiniteDepartures departures) (nonempty : departures ≠ [])
    {departureOffset arrivalOffset time duration : K}
    (takes : rideTime departures (departureOffset : Exact K) arrivalOffset time = duration) :
    arrivalOffset - departureOffset ≤ duration := by
  rcases nextDeparture_finite finite nonempty departureOffset (time : Exact K) with
    ⟨departure, departureEq⟩
  have waits := le_nextDeparture finite nonempty departureOffset time
  have positive := daySeconds_pos (K := K)
  rw [departureEq, Exact.finite_le_finite] at waits
  rw [rideTime, departureEq, Exact.finite_sub_finite, Exact.finite_sub_finite,
    Exact.finite_add_finite, day_eq, Exact.finite_add_finite, Exact.zero_eq] at takes
  split_ifs at takes <;> cases takes <;> linarith

end JourneyTimes.Timetable
