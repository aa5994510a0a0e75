import JourneyTimes.Proofs.Timetable.Departures
import Mathlib.Data.Set.List
import Mathlib.Data.List.Sort
import Mathlib.Order.Bounds.Basic

/-!
# The next departure is the next departure

Vehicles leave a stop at the departures of the day and a fixed offset, every day
again.  For a time no earlier than the offset, what is found is the first of all
these moments that is not in the past, however many days ahead.  Folding the time
into a day decides which departure of the day that is, and adding days decides
which day.

An earlier time asks for a vehicle that left on the day before, and gets the first
one of the day.
-/

namespace JourneyTimes.Timetable

variable {K : Type} [Field K] [LinearOrder K] [FloorRing K] [Trigonometry K]

/-- Vehicles leave the first stop of a route at this time of the day. -/
def Route.Departs (route : Route (Exact K)) (clock : K) : Prop :=
  ∃ departure ∈ route.departures, departure.time = clock

/-- A vehicle of some day leaves a stop with this offset at this time. -/
def Route.LeavesAt (route : Route (Exact K)) (offset leaving : K) : Prop :=
  ∃ (clock : K) (days : Nat), route.Departs clock ∧
    leaving = clock + offset + days * daySeconds K

/-- All departures are times of the day. -/
def Route.DepartsWithinDay (route : Route (Exact K)) : Prop :=
  ∀ departure ∈ route.departures, ∃ clock : K, (0 ≤ clock ∧ clock < daySeconds K) ∧
    departure.time = clock

/-- The loop that adds days to the departure of a route ends at one that is not in
the past: from some number of rounds on, more of them change nothing. -/
def Route.LoopEndsAt (route : Route (Exact K)) (offset time leaving : Exact K) : Prop :=
  ∃ first, firstFrom? route.sortedDepartures (fold (time - offset)) = some first ∧
    ¬ leaving < time ∧
    ∃ rounds, ∀ fuel, rounds ≤ fuel → addDays time fuel (first + offset) = leaving

/-! ## Sorted departures -/

theorem sortTimes_map (clocks : List K) :
    sortTimes (clocks.map Exact.finite) = (clocks.mergeSort (· ≤ ·)).map Exact.finite := by
  rw [sortTimes, List.map_mergeSort]
  intro left _ right _
  by_cases before : right < left
  · simp [before, not_le.mpr before]
  · simp [before, not_lt.mp before]

/-- Sorting keeps departures that are numbers, in the order of the clock. -/
theorem Route.exists_clocks {route : Route (Exact K)}
    (finite : ∀ departure ∈ route.departures, ∃ clock : K, departure.time = clock) :
    ∃ clocks : List K, route.sortedDepartures = clocks.map Exact.finite ∧
      clocks.Pairwise (· ≤ ·) ∧ ∀ clock, clock ∈ clocks ↔ route.Departs clock := by
  have known : route.departures.map (·.time) ∈ Set.range (List.map (Exact.finite (K := K))) := by
    rw [Set.range_list_map]
    intro time member
    rcases List.mem_map.mp member with ⟨departure, departs, rfl⟩
    rcases finite departure departs with ⟨clock, clockEq⟩
    exact ⟨clock, clockEq.symm⟩
  rcases known with ⟨clocks, clocksEq⟩
  refine ⟨clocks.mergeSort (· ≤ ·), ?_, List.pairwise_mergeSort' _ _, ?_⟩
  · rw [sortedDepartures, ← clocksEq, sortTimes_map]
  · intro clock
    have moved : (clock : Exact K) ∈ clocks.map Exact.finite ↔ clock ∈ clocks := by simp
    rw [List.mem_mergeSort, ← moved, clocksEq, List.mem_map]
    rfl

/-- Sorting keeps the departures of a day, which are times of the day. -/
theorem Route.DepartsWithinDay.exists_clocks {route : Route (Exact K)}
    (withinDay : route.DepartsWithinDay) :
    ∃ clocks : List K, route.sortedDepartures = clocks.map Exact.finite ∧
      clocks.Pairwise (· ≤ ·) ∧ (∀ clock, clock ∈ clocks ↔ route.Departs clock) ∧
      ∀ clock ∈ clocks, 0 ≤ clock ∧ clock < daySeconds K := by
  have finite : ∀ departure ∈ route.departures, ∃ clock : K, departure.time = clock := by
    intro departure departs
    rcases withinDay departure departs with ⟨clock, -, clockEq⟩
    exact ⟨clock, clockEq⟩
  rcases Route.exists_clocks finite with ⟨clocks, sortedEq, sorted, departsIff⟩
  refine ⟨clocks, sortedEq, sorted, departsIff, ?_⟩
  intro clock member
  rcases (departsIff clock).mp member with ⟨departure, departs, departureEq⟩
  rcases withinDay departure departs with ⟨other, bounds, otherEq⟩
  obtain rfl : other = clock := by
    simpa using otherEq.symm.trans departureEq
  exact bounds

/-- The first departure from a time on is the earliest of those that are not
before it, or else the earliest of all. -/
theorem firstFrom?_sorted {clocks : List K} (sorted : clocks.Pairwise (· ≤ ·))
    (nonempty : clocks ≠ []) (time : K) :
    ∃ first : K, firstFrom? (clocks.map Exact.finite) (time : Exact K) = some ↑first ∧
      (IsLeast {clock | clock ∈ clocks ∧ time ≤ clock} first ∨
        (∀ clock ∈ clocks, clock < time) ∧ IsLeast {clock | clock ∈ clocks} first) := by
  have search : firstFrom? (clocks.map Exact.finite) (time : Exact K) =
      ((clocks.find? fun clock => !decide (clock < time)).or clocks.head?).map Exact.finite := by
    rw [firstFrom?, List.find?_map, List.head?_map]
    simp only [Function.comp_def, Exact.finite_lt_finite]
    cases clocks.find? fun clock => !decide (clock < time) <;> rfl
  rw [search]
  cases found : clocks.find? fun clock => !decide (clock < time) with
  | some first =>
      refine ⟨first, rfl, .inl ⟨⟨List.mem_of_find?_eq_some found, ?_⟩, ?_⟩⟩
      · simpa using List.find?_some found
      · rintro clock ⟨member, late⟩
        rcases List.find?_eq_some_iff_append.mp found with ⟨-, before, after, rfl, early⟩
        rcases List.mem_append.mp member with isBefore | isAfter
        · exact absurd (by simpa using early clock isBefore) (not_lt.mpr late)
        · rcases List.mem_cons.mp isAfter with rfl | isLater
          · exact le_rfl
          · exact (List.pairwise_cons.mp (List.pairwise_append.mp sorted).2.1).1 clock isLater
  | none =>
      rcases List.exists_cons_of_ne_nil nonempty with ⟨first, others, rfl⟩
      refine ⟨first, rfl, .inr ⟨?_, List.mem_cons_self .., ?_⟩⟩
      · simpa using found
      · intro clock member
        rcases List.mem_cons.mp member with rfl | isLater
        · exact le_rfl
        · exact (List.pairwise_cons.mp sorted).1 clock isLater

variable [IsStrictOrderedRing K]

/-! ## Days -/

omit [Trigonometry K] in
/-- More days take longer. -/
theorem days_le_days {fewer more : Nat} (le : fewer ≤ more) :
    (fewer : K) * daySeconds K ≤ more * daySeconds K :=
  mul_le_mul_of_nonneg_right (Nat.cast_le.mpr le) daySeconds_pos.le

omit [Trigonometry K] in
theorem days_add_one_le {fewer more : Nat} (less : fewer < more) :
    ((fewer : K) + 1) * daySeconds K ≤ more * daySeconds K := by
  rw [← Nat.cast_succ]
  exact days_le_days less

omit [Trigonometry K] in
/-- A time of the day is before the next day, and all days after. -/
theorem before_later_day {clock : K} (withinDay : clock < daySeconds K) {days later : Nat}
    (before : days < later) : clock + days * daySeconds K < later * daySeconds K := by
  have counted := days_add_one_le (K := K) before
  linarith

omit [Trigonometry K] in
/-- Moments are ordered by the day, and those of one day by the clock. -/
theorem moment_le_iff {clock other : K} (bounds : 0 ≤ clock ∧ clock < daySeconds K)
    (otherBounds : 0 ≤ other ∧ other < daySeconds K) {days later : Nat} :
    clock + days * daySeconds K ≤ other + later * daySeconds K ↔
      days < later ∨ days = later ∧ clock ≤ other := by
  rcases Nat.lt_trichotomy days later with before | rfl | after
  · have ordered := before_later_day bounds.2 before
    exact iff_of_true (by linarith) (.inl before)
  · simp
  · have ordered := before_later_day otherBounds.2 after
    exact iff_of_false (by linarith) (by omega)

/-- A time that is not negative is folded into a time of the day. -/
theorem fold_of_nonneg {time : K} (nonneg : 0 ≤ time) :
    ∃ (clock : K) (days : Nat), fold (time : Exact K) = clock ∧
      (0 ≤ clock ∧ clock < daySeconds K) ∧ time = clock + days * daySeconds K := by
  have positive := daySeconds_pos (K := K)
  by_cases late : daySeconds K ≤ time
  · have quotient : 0 ≤ time / daySeconds K := div_nonneg nonneg positive.le
    have whole : ((⌊time / daySeconds K⌋.toNat : Nat) : K) = ⌊time / daySeconds K⌋ := by
      exact_mod_cast Int.toNat_of_nonneg (Int.floor_nonneg.mpr quotient)
    have atMost := (le_div_iff₀ positive).mp (Int.floor_le (time / daySeconds K))
    have less := (div_lt_iff₀ positive).mp (Int.lt_floor_add_one (time / daySeconds K))
    refine ⟨time - daySeconds K * ⌊time / daySeconds K⌋, ⌊time / daySeconds K⌋.toNat, ?_,
      ⟨?_, ?_⟩, ?_⟩
    · have folded : Scalar.remainder (time : Exact K) day =
          ↑(time - daySeconds K * Exact.truncate (time / daySeconds K)) := if_neg positive.ne'
      rw [fold, day_eq, if_pos (Exact.finite_le_finite.mpr late), ← day_eq, folded,
        Exact.truncate, if_pos quotient]
    · linarith
    · linarith
    · rw [whole]
      ring
  · refine ⟨time, 0, ?_, ⟨nonneg, not_le.mp late⟩, by simp⟩
    rw [fold, if_neg]
    rwa [day_eq, Exact.finite_le_finite]

omit [IsStrictOrderedRing K] in
theorem fold_of_lt {time : K} (less : time < daySeconds K) : fold (time : Exact K) = time := by
  rw [fold, if_neg]
  rwa [day_eq, Exact.finite_le_finite, not_le]

omit [LinearOrder K] [FloorRing K] [Trigonometry K] [IsStrictOrderedRing K] in
theorem next_day (moment : K) (days : Nat) :
    moment + daySeconds K + days * daySeconds K = moment + (days + 1 : Nat) * daySeconds K := by
  rw [Nat.cast_succ days, add_mul, one_mul, add_assoc, add_comm (daySeconds K)]

omit [IsStrictOrderedRing K] in
/-- The loop adds the fewest days after which a departure is not in the past. -/
theorem addDays_eq {time : K} {rounds : Nat} {candidate : K}
    (early : ∀ fewer < rounds, candidate + fewer * daySeconds K < time)
    (late : time ≤ candidate + rounds * daySeconds K) {fuel : Nat} (enough : rounds ≤ fuel) :
    addDays (time : Exact K) fuel candidate = ↑(candidate + rounds * daySeconds K) := by
  induction rounds generalizing candidate fuel with
  | zero =>
      rw [Nat.cast_zero, zero_mul, add_zero] at late ⊢
      cases fuel with
      | zero => rfl
      | succ fuel => rw [addDays, if_neg (by rwa [Exact.finite_lt_finite, not_lt])]
  | succ rounds ih =>
      obtain ⟨fuel, rfl⟩ := Nat.exists_eq_succ_of_ne_zero (Nat.ne_of_gt (Nat.zero_lt_of_lt enough))
      have past : candidate < time := by simpa using early 0 (Nat.zero_lt_succ rounds)
      rw [addDays, if_pos (Exact.finite_lt_finite.mpr past), day_eq, Exact.finite_add_finite]
      rw [ih _ (next_day candidate rounds ▸ late) (Nat.le_of_succ_le_succ enough), next_day]
      intro fewer less
      rw [next_day]
      exact early (fewer + 1) (Nat.succ_lt_succ less)

/-! ## The next departure -/

section

variable {route : Route (Exact K)} {offset time first : K} {rounds : Nat}

/-- The fewest days are added to the first departure from the folded time on. -/
theorem Route.nextDeparture_eq
    (found : firstFrom? route.sortedDepartures (fold ((time : Exact K) - offset)) = some ↑first)
    (early : ∀ fewer < rounds, first + offset + fewer * daySeconds K < time)
    (late : time ≤ first + offset + rounds * daySeconds K) :
    nextDeparture route.sortedDepartures (offset : Exact K) time =
        ↑(first + offset + rounds * daySeconds K) ∧
      route.LoopEndsAt offset time ↑(first + offset + rounds * daySeconds K) := by
  have loop {fuel : Nat} (enough : rounds ≤ fuel) := addDays_eq early late enough
  have bounded : rounds ≤ daysBetween ((first + offset : K) : Exact K) time := by
    by_contra few
    exact absurd (daysBetween_enough (first + offset) time) (not_le.mpr (early _ (not_le.mp few)))
  refine ⟨?_, first, found, ?_, rounds, ?_⟩
  · rw [nextDeparture, found]
    dsimp only
    rw [Exact.finite_add_finite, loop bounded]
  · rw [Exact.finite_lt_finite]
    exact not_lt.mpr late
  · intro fuel enough
    rw [Exact.finite_add_finite, loop enough]

omit [IsStrictOrderedRing K] in
theorem Route.clocks_ne_nil (departs : route.departures ≠ []) {clocks : List K}
    (sortedEq : route.sortedDepartures = clocks.map Exact.finite) : clocks ≠ [] := by
  rintro rfl
  have length := congrArg List.length sortedEq
  simp [sortedDepartures, sortTimes] at length
  exact departs length

/-- At the offset of the stop or later, the next departure is the least time at
which a vehicle of any day leaves and that is not in the past. -/
theorem Route.DepartsWithinDay.nextDeparture_isLeast (withinDay : route.DepartsWithinDay)
    (departs : route.departures ≠ []) (after : offset ≤ time) :
    ∃ leaving : K, nextDeparture route.sortedDepartures (offset : Exact K) time = leaving ∧
      route.LoopEndsAt offset time leaving ∧
      IsLeast {leaving | route.LeavesAt offset leaving ∧ time ≤ leaving} leaving := by
  rcases withinDay.exists_clocks with ⟨clocks, sortedEq, sorted, departsIff, bounds⟩
  rcases fold_of_nonneg (sub_nonneg.mpr after) with ⟨ofDay, days, folded, ofDayBounds, timeEq⟩
  rcases firstFrom?_sorted sorted (clocks_ne_nil departs sortedEq) ofDay with
    ⟨first, found, position⟩
  rw [← sortedEq, ← folded, ← Exact.finite_sub_finite] at found
  -- The vehicle that is found leaves on the day of the time, or else on the next one.
  obtain ⟨member, rounds, late, least⟩ : first ∈ clocks ∧ ∃ rounds : Nat,
      (days < rounds ∨ days = rounds ∧ ofDay ≤ first) ∧
      ∀ clock ∈ clocks, ∀ later, days < later ∨ days = later ∧ ofDay ≤ clock →
        rounds < later ∨ rounds = later ∧ first ≤ clock := by
    rcases position with ⟨⟨member, late⟩, least⟩ | ⟨early, member, least⟩
    · refine ⟨member, days, .inr ⟨rfl, late⟩, ?_⟩
      intro clock departsThen later notPast
      exact notPast.imp_right fun today => ⟨today.1, least ⟨departsThen, today.2⟩⟩
    · refine ⟨member, days + 1, .inl (Nat.lt_succ_self days), ?_⟩
      intro clock departsThen later notPast
      rcases notPast with tomorrow | ⟨-, today⟩
      · rcases Nat.eq_or_lt_of_le tomorrow with next | more
        · exact .inr ⟨next, least departsThen⟩
        · exact .inl more
      · exact absurd today (not_le.mpr (early clock departsThen))
  have notPast {clock : K} (departsThen : clock ∈ clocks) (later : Nat) :
      time ≤ clock + offset + later * daySeconds K ↔
        days < later ∨ days = later ∧ ofDay ≤ clock := by
    rw [← moment_le_iff ofDayBounds (bounds clock departsThen), ← timeEq]
    constructor <;> intro le <;> linarith
  rcases nextDeparture_eq found
      (fun fewer less => not_le.mp fun le => by
        rcases least first member fewer ((notPast member fewer).mp le) with more | ⟨same, -⟩ <;>
          omega)
      ((notPast member rounds).mpr late) with ⟨next, ends⟩
  refine ⟨_, next, ends, ⟨⟨first, rounds, (departsIff first).mp member, rfl⟩,
    (notPast member rounds).mpr late⟩, ?_⟩
  rintro _ ⟨⟨clock, later, departsThen, rfl⟩, le⟩
  have clockMember := (departsIff clock).mpr departsThen
  have ordered := (moment_le_iff (bounds first member) (bounds clock clockMember)).mpr
    (least clock clockMember later ((notPast clockMember later).mp le))
  linarith

/-- Before the offset of the stop, the next departure is the first one of the
day. -/
theorem Route.DepartsWithinDay.nextDeparture_isFirst (withinDay : route.DepartsWithinDay)
    (departs : route.departures ≠ []) (before : time < offset) :
    ∃ first : K,
      nextDeparture route.sortedDepartures (offset : Exact K) time = ↑(first + offset) ∧
      route.LoopEndsAt offset time ↑(first + offset) ∧
      IsLeast {clock | route.Departs clock} first := by
  rcases withinDay.exists_clocks with ⟨clocks, sortedEq, sorted, departsIff, bounds⟩
  have folded : fold ((time : Exact K) - offset) = ↑(time - offset) := by
    have positive := daySeconds_pos (K := K)
    rw [Exact.finite_sub_finite, fold_of_lt (by linarith)]
  rcases firstFrom?_sorted sorted (clocks_ne_nil departs sortedEq) (time - offset) with
    ⟨first, found, position⟩
  rw [← sortedEq, ← folded] at found
  have notPast {clock : K} (member : clock ∈ clocks) : time - offset ≤ clock := by
    linarith [(bounds clock member).1]
  have least : IsLeast {clock | clock ∈ clocks} first := by
    rcases position with ⟨⟨member, -⟩, least⟩ | ⟨-, least⟩
    · exact ⟨member, fun clock departsThen => least ⟨departsThen, notPast departsThen⟩⟩
    · exact least
  have late : time ≤ first + offset + (0 : Nat) * daySeconds K := by
    simpa using sub_le_iff_le_add.mp (notPast least.1)
  rcases nextDeparture_eq found (fun _ less => absurd less (Nat.not_lt_zero _)) late with
    ⟨next, ends⟩
  rw [Nat.cast_zero, zero_mul, add_zero] at next ends
  refine ⟨first, next, ends, ?_⟩
  simpa only [departsIff] using least

end

end JourneyTimes.Timetable
