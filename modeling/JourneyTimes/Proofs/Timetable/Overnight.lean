import JourneyTimes.Proofs.Timetable.NextDeparture
import Mathlib.Order.CountableDenseLinearOrder

/-!
# Departures after midnight

A timetable may list departures after the end of its day, at hour 24 or later.
Whoever comes to a stop has the time folded into a day, but these departures stay
as they are.  In the evening they are ahead, and on the next day they are not in
the list any more until the evening comes again.

So in the evening the next departure may be one that is listed after midnight,
although another vehicle leaves before it on the next day.  Someone who comes after
midnight is then gone before someone who came in the evening.  This is the only way
in which the order gets lost: it is kept exactly if the first departure that is
listed after the end of the day is not later than the first of the next day.
-/

namespace JourneyTimes.Timetable

variable {K : Type} [Field K] [LinearOrder K] [FloorRing K] [Trigonometry K]

/-- All departures are times from midnight on, possibly after the end of the day. -/
def Route.DepartsFromMidnight (route : Route (Exact K)) : Prop :=
  ∀ departure ∈ route.departures, ∃ clock : K, 0 ≤ clock ∧ departure.time = clock

/-- The first departure listed after the end of the day is not later than the first
one of the next day. -/
def Route.JoinsNextDay (route : Route (Exact K)) : Prop :=
  ∀ first after : K, IsLeast {clock | route.Departs clock} first →
    IsLeast {clock | route.Departs clock ∧ daySeconds K ≤ clock} after →
      after ≤ first + daySeconds K

/-- Whoever comes to a stop with this offset later does not leave it earlier. -/
def Route.LeavesInOrder (route : Route (Exact K)) (offset : K) : Prop :=
  ∀ early late : K, early ≤ late →
    nextDeparture route.sortedDepartures (offset : Exact K) early ≤
      nextDeparture route.sortedDepartures (offset : Exact K) late

/-- For someone who could have left the first stop at some time, and at this time of
the day, the route has this departure and adds this number of days to it. -/
structure Route.Finds (route : Route (Exact K)) (ofDay asked first : K) (rounds : Nat) :
    Prop where
  position : IsLeast {clock | route.Departs clock ∧ ofDay ≤ clock} first ∨
    (∀ clock, route.Departs clock → clock < ofDay) ∧ IsLeast {clock | route.Departs clock} first
  early : ∀ fewer < rounds, first + fewer * daySeconds K < asked
  late : asked ≤ first + rounds * daySeconds K

variable {route : Route (Exact K)}

section

omit [FloorRing K] [Trigonometry K]

theorem Route.DepartsFromMidnight.finite (fromMidnight : route.DepartsFromMidnight) :
    ∀ departure ∈ route.departures, ∃ clock : K, departure.time = clock := by
  intro departure departs
  rcases fromMidnight departure departs with ⟨clock, -, clockEq⟩
  exact ⟨clock, clockEq⟩

theorem Route.DepartsFromMidnight.nonneg (fromMidnight : route.DepartsFromMidnight) {clock : K}
    (departs : route.Departs clock) : 0 ≤ clock := by
  rcases departs with ⟨departure, member, departureEq⟩
  rcases fromMidnight departure member with ⟨other, nonneg, otherEq⟩
  obtain rfl : other = clock := by
    simpa using otherEq.symm.trans departureEq
  exact nonneg

namespace Route.Finds

variable {ofDay asked first : K} {rounds : Nat}

theorem departs (finds : route.Finds ofDay asked first rounds) : route.Departs first := by
  rcases finds.position with ⟨⟨departs, -⟩, -⟩ | ⟨-, departs, -⟩ <;> exact departs

/-- No more days are added than needed. -/
theorem rounds_le (finds : route.Finds ofDay asked first rounds) {enough : Nat}
    (late : asked ≤ first + enough * daySeconds K) : rounds ≤ enough := by
  by_contra fewer
  exact absurd (finds.early enough (not_le.mp fewer)) (not_lt.mpr late)

/-- Until the time of the first departure, that is the one which is found. -/
theorem isLeast_of_le (finds : route.Finds ofDay asked first rounds) {least : K}
    (isLeast : IsLeast {clock | route.Departs clock} least) (before : ofDay ≤ least) :
    first = least := by
  rcases finds.position with ⟨⟨departs, -⟩, atMost⟩ | ⟨early, -⟩
  · exact le_antisymm (atMost ⟨isLeast.1, before⟩) (isLeast.2 departs)
  · exact absurd (early least isLeast.1) (not_lt.mpr before)

end Route.Finds

end

variable [IsStrictOrderedRing K]

omit [Trigonometry K] in
/-- A time of the day determines the day, and so does the day. -/
theorem moment_inj {clock other : K} (bounds : 0 ≤ clock ∧ clock < daySeconds K)
    (otherBounds : 0 ≤ other ∧ other < daySeconds K) {days later : Nat}
    (same : clock + days * daySeconds K = other + later * daySeconds K) :
    clock = other ∧ days = later := by
  rcases (moment_le_iff bounds otherBounds).mp same.le with before | ⟨rfl, le⟩
  · rcases (moment_le_iff otherBounds bounds).mp same.ge with after | ⟨rfl, -⟩ <;> omega
  · exact ⟨by linarith, rfl⟩

/-- A route with departures finds one of them for anybody. -/
theorem Route.DepartsFromMidnight.exists_finds (fromMidnight : route.DepartsFromMidnight)
    (departs : route.departures ≠ []) (offset time : K) :
    ∃ (ofDay first : K) (rounds : Nat), fold ((time - offset : K) : Exact K) = ofDay ∧
      route.Finds ofDay (time - offset) first rounds ∧
      nextDeparture route.sortedDepartures (offset : Exact K) time =
        ↑(first + rounds * daySeconds K + offset) := by
  rcases Route.exists_clocks fromMidnight.finite with ⟨clocks, sortedEq, sorted, departsIff⟩
  obtain ⟨ofDay, folded⟩ : ∃ ofDay : K, fold ((time - offset : K) : Exact K) = ofDay := by
    rcases le_or_gt 0 (time - offset) with nonneg | negative
    · rcases fold_of_nonneg nonneg with ⟨ofDay, -, folded, -⟩
      exact ⟨ofDay, folded⟩
    · exact ⟨_, fold_of_lt (negative.trans daySeconds_pos)⟩
  rcases firstFrom?_sorted sorted (clocks_ne_nil departs sortedEq) ofDay with
    ⟨first, found, position⟩
  rw [← sortedEq, ← folded, ← Exact.finite_sub_finite] at found
  simp only [departsIff] at position
  have enough : ∃ rounds : Nat, time - offset ≤ first + rounds * daySeconds K :=
    ⟨_, daysBetween_enough first (time - offset)⟩
  have finds : route.Finds ofDay (time - offset) first (Nat.find enough) :=
    ⟨position, fun _ fewer => not_le.mp (Nat.find_min enough fewer), Nat.find_spec enough⟩
  refine ⟨ofDay, first, Nat.find enough, folded, finds, ?_⟩
  have next := (nextDeparture_eq found
    (fun fewer less => by linarith [finds.early fewer less]) (by linarith [finds.late])).1
  rw [next, add_right_comm]

section

variable {first : K} (fromMidnight : route.DepartsFromMidnight)
  (isLeast : IsLeast {clock | route.Departs clock} first)

/-! ## Routes that join the next day -/

include fromMidnight isLeast

omit [Trigonometry K] in
/-- On a route that joins the next day and has a departure on the first one, vehicles
leave at the departures up to the first one of the next day, every day again. -/
theorem Route.Finds.exists_joined (joins : route.JoinsNextDay) (today : first < daySeconds K)
    {ofDay found : K} {days rounds : Nat} (bounds : 0 ≤ ofDay ∧ ofDay < daySeconds K)
    (finds : route.Finds ofDay (ofDay + days * daySeconds K) found rounds) :
    ∃ clock : K, first ≤ clock ∧ clock ≤ first + daySeconds K ∧
      IsLeast {clock | (route.Departs clock ∨ clock = first + daySeconds K) ∧ ofDay ≤ clock}
        clock ∧
      found + rounds * daySeconds K = clock + days * daySeconds K := by
  have nonneg := fromMidnight.nonneg isLeast.1
  rcases finds.position with ⟨⟨departs, notPast⟩, least⟩ | ⟨past, foundLeast⟩
  · have joined : found ≤ first + daySeconds K := by
      rcases lt_or_ge found (daySeconds K) with before | after
      · linarith
      · refine joins first found isLeast ⟨⟨departs, after⟩, ?_⟩
        rintro clock ⟨departsThen, late⟩
        exact least ⟨departsThen, bounds.2.le.trans late⟩
    have sameDay : rounds = days := by
      refine le_antisymm (finds.rounds_le (by linarith)) ?_
      -- A day less would do only if the departure was tomorrow and none was left today.
      by_contra fewer
      have counted := days_add_one_le (K := K) (not_le.mp fewer)
      have late := finds.late
      have first_le : found ≤ first := least ⟨isLeast.1, by linarith⟩
      linarith
    refine ⟨found, isLeast.2 departs, joined, ⟨⟨.inl departs, notPast⟩, ?_⟩, by rw [sameDay]⟩
    rintro clock ⟨departsThen | rfl, late⟩
    · exact least ⟨departsThen, late⟩
    · exact joined
  · obtain rfl : found = first := foundLeast.unique isLeast
    have gone := past found isLeast.1
    have nextDay : rounds = days + 1 := by
      refine le_antisymm (finds.rounds_le ?_) ?_
      · rw [← next_day]
        linarith
      · by_contra fewer
        have counted := days_le_days (K := K) (show rounds ≤ days by omega)
        linarith [finds.late]
    refine ⟨found + daySeconds K, by linarith, le_rfl, ⟨⟨.inr rfl, by linarith⟩, ?_⟩, ?_⟩
    · rintro clock ⟨departsThen | rfl, late⟩
      · exact absurd (past clock departsThen) (not_lt.mpr late)
      · exact le_rfl
    · rw [nextDay, next_day]

/-- Vehicles of a route that joins the next day leave in the order in which people
come. -/
theorem Route.Finds.le_of_joins (joins : route.JoinsNextDay) {asked later : K}
    (le : asked ≤ later) {ofDay found ofLaterDay foundLater : K} {rounds laterRounds : Nat}
    (folded : fold (asked : Exact K) = ofDay) (foldedLater : fold (later : Exact K) = ofLaterDay)
    (finds : route.Finds ofDay asked found rounds)
    (findsLater : route.Finds ofLaterDay later foundLater laterRounds) :
    found + rounds * daySeconds K ≤ foundLater + laterRounds * daySeconds K := by
  have positive := daySeconds_pos (K := K)
  have nonneg := fromMidnight.nonneg isLeast.1
  have waits : 0 ≤ (laterRounds : K) * daySeconds K := by positivity
  have firstLe := isLeast.2 findsLater.departs
  rcases lt_or_ge asked 0 with negative | notNegative
  · -- Before midnight the first departure of all is found.
    obtain rfl : asked = ofDay := by
      simpa using (fold_of_lt (negative.trans positive)).symm.trans folded
    obtain rfl := finds.isLeast_of_le isLeast (by linarith)
    have noRounds : rounds = 0 :=
      Nat.le_zero.mp (finds.rounds_le (by rw [Nat.cast_zero, zero_mul]; linarith))
    rw [noRounds, Nat.cast_zero, zero_mul]
    linarith
  rcases fold_of_nonneg notNegative with ⟨clock, days, clockEq, bounds, rfl⟩
  rcases fold_of_nonneg (notNegative.trans le) with ⟨clock', days', clockEq', bounds', rfl⟩
  obtain rfl : clock = ofDay := by simpa using clockEq.symm.trans folded
  obtain rfl : clock' = ofLaterDay := by simpa using clockEq'.symm.trans foldedLater
  rcases lt_or_ge first (daySeconds K) with today | notToday
  · rcases finds.exists_joined fromMidnight isLeast joins today bounds with
      ⟨leaving, -, leavingLe, leavingLeast, leavingEq⟩
    rcases findsLater.exists_joined fromMidnight isLeast joins today bounds' with
      ⟨leaving', le_leaving', -, leavingLeast', leavingEq'⟩
    rw [leavingEq, leavingEq']
    rcases (moment_le_iff bounds bounds').mp le with before | ⟨rfl, sameDay⟩
    · have counted := days_add_one_le (K := K) before
      linarith
    · have leavingLe' := leavingLeast.2 ⟨leavingLeast'.1.1, sameDay.trans leavingLeast'.1.2⟩
      linarith
  · -- All departures are after the end of the day, and the first one is always found.
    obtain rfl := finds.isLeast_of_le isLeast (by linarith)
    obtain rfl := findsLater.isLeast_of_le isLeast (by linarith)
    have fewer := days_le_days (K := K) (finds.rounds_le (le.trans findsLater.late))
    linarith

end

omit [IsStrictOrderedRing K] in
theorem Route.DepartsFromMidnight.exists_isLeast (fromMidnight : route.DepartsFromMidnight)
    (departs : route.departures ≠ []) : ∃ first, IsLeast {clock | route.Departs clock} first := by
  rcases Route.exists_clocks fromMidnight.finite with ⟨clocks, sortedEq, sorted, departsIff⟩
  rcases List.exists_cons_of_ne_nil (clocks_ne_nil departs sortedEq) with ⟨first, others, rfl⟩
  refine ⟨first, (departsIff first).mp (List.mem_cons_self ..), ?_⟩
  intro clock departsThen
  rcases List.mem_cons.mp ((departsIff clock).mpr departsThen) with rfl | isLater
  · exact le_rfl
  · exact (List.pairwise_cons.mp sorted).1 clock isLater

/-! ## Routes that do not -/

/-- There is a time after the last departure of the day and before its end. -/
theorem Route.DepartsFromMidnight.exists_evening (fromMidnight : route.DepartsFromMidnight) :
    ∃ evening : K, (∀ clock, route.Departs clock → clock < daySeconds K → clock < evening) ∧
      evening < daySeconds K := by
  rcases Route.exists_clocks fromMidnight.finite with ⟨clocks, -, -, departsIff⟩
  have separate : ∀ clock ∈ clocks.toFinset.filter (· < daySeconds K),
      ∀ midnight ∈ ({daySeconds K} : Finset K), clock < midnight := by
    simp
  rcases Order.exists_between_finsets _ _ separate with ⟨evening, above, below⟩
  refine ⟨evening, fun clock departsThen before => above clock ?_, below _ (by simp)⟩
  exact Finset.mem_filter.mpr
    ⟨List.mem_toFinset.mpr ((departsIff clock).mpr departsThen), before⟩

/-- In the evening the first departure after the end of the day is found. -/
theorem Route.Finds.after_le {evening after : K}
    (afterLast : ∀ clock, route.Departs clock → clock < daySeconds K → clock < evening)
    (beforeEnd : evening < daySeconds K)
    (afterLeast : IsLeast {clock | route.Departs clock ∧ daySeconds K ≤ clock} after)
    {ofDay found : K} {rounds : Nat} (folded : fold (evening : Exact K) = ofDay)
    (finds : route.Finds ofDay evening found rounds) : after ≤ found := by
  obtain rfl : evening = ofDay := by
    simpa using (fold_of_lt beforeEnd).symm.trans folded
  rcases finds.position with ⟨⟨departsThen, notPast⟩, -⟩ | ⟨past, -⟩
  · refine afterLeast.2 ⟨departsThen, ?_⟩
    by_contra before
    exact absurd (afterLast found departsThen (not_le.mp before)) (not_lt.mpr notPast)
  · exact absurd (past after afterLeast.1.1) (by linarith [afterLeast.1.2])

/-- Whoever comes for the first departure of the next day takes it. -/
theorem Route.Finds.le_nextDay {first : K} (isLeast : IsLeast {clock | route.Departs clock} first)
    (nonneg : 0 ≤ first) (today : first < daySeconds K) {ofDay found : K} {rounds : Nat}
    (folded : fold ((first + daySeconds K : K) : Exact K) = ofDay)
    (finds : route.Finds ofDay (first + daySeconds K) found rounds) :
    found + rounds * daySeconds K ≤ first + daySeconds K := by
  rcases fold_of_nonneg (add_nonneg nonneg daySeconds_pos.le) with
    ⟨clock, days, clockEq, bounds, momentEq⟩
  have nextDay : first + (1 : Nat) * daySeconds K = clock + days * daySeconds K := by
    rw [Nat.cast_one, one_mul, momentEq]
  obtain rfl : first = clock := (moment_inj ⟨nonneg, today⟩ bounds nextDay).1
  obtain rfl : first = ofDay := by simpa using clockEq.symm.trans folded
  obtain rfl := finds.isLeast_of_le isLeast le_rfl
  have oneRound : rounds ≤ 1 := finds.rounds_le (by rw [Nat.cast_one, one_mul])
  have atMost := days_le_days (K := K) oneRound
  rw [Nat.cast_one, one_mul] at atMost
  linarith

/-- Someone who comes after the last departure of the day and before its end takes the
first one listed after that, and someone who comes for the first of the next day
takes that. -/
theorem Route.LeavesInOrder.joinsNextDay {offset : K} (inOrder : route.LeavesInOrder offset)
    (fromMidnight : route.DepartsFromMidnight) : route.JoinsNextDay := by
  intro first after isLeast afterLeast
  have departs : route.departures ≠ [] := by
    rcases isLeast.1 with ⟨departure, member, -⟩
    exact List.ne_nil_of_mem member
  have nonneg := fromMidnight.nonneg isLeast.1
  rcases lt_or_ge first (daySeconds K) with today | notToday
  · rcases fromMidnight.exists_evening with ⟨evening, afterLast, beforeEnd⟩
    rcases fromMidnight.exists_finds departs offset (evening + offset) with
      ⟨ofDay, found, rounds, folded, finds, next⟩
    rcases fromMidnight.exists_finds departs offset (first + daySeconds K + offset) with
      ⟨ofNextDay, foundNext, roundsNext, foldedNext, findsNext, nextNext⟩
    rw [add_sub_cancel_right] at folded finds foldedNext findsNext
    have ordered := inOrder (evening + offset) (first + daySeconds K + offset) (by linarith)
    rw [next, nextNext, Exact.finite_le_finite, add_le_add_iff_right] at ordered
    have inEvening := finds.after_le afterLast beforeEnd afterLeast folded
    have onNextDay := findsNext.le_nextDay isLeast nonneg today foldedNext
    have waits : 0 ≤ (rounds : K) * daySeconds K :=
      mul_nonneg (Nat.cast_nonneg _) daySeconds_pos.le
    linarith
  · linarith [afterLeast.2 ⟨isLeast.1, notToday⟩, daySeconds_pos (K := K)]

/-- People leave a stop in the order in which they come exactly if the route joins the
next day. -/
theorem Route.DepartsFromMidnight.leavesInOrder_iff (fromMidnight : route.DepartsFromMidnight)
    (offset : K) : route.LeavesInOrder offset ↔ route.JoinsNextDay := by
  refine ⟨fun inOrder => inOrder.joinsNextDay fromMidnight, ?_⟩
  intro joins early late le
  by_cases departs : route.departures = []
  · simp [sortedDepartures, departs, sortTimes, nextDeparture_nil, Exact.le_iff, Exact.isAtMost]
  rcases fromMidnight.exists_isLeast departs with ⟨first, isLeast⟩
  rcases fromMidnight.exists_finds departs offset early with
    ⟨ofDay, found, rounds, folded, finds, next⟩
  rcases fromMidnight.exists_finds departs offset late with
    ⟨ofLaterDay, foundLater, roundsLater, foldedLater, findsLater, nextLater⟩
  rw [next, nextLater, Exact.finite_le_finite, add_le_add_iff_right]
  exact finds.le_of_joins fromMidnight isLeast joins (sub_le_sub_right le offset) folded
    foldedLater findsLater

omit [FloorRing K] [IsStrictOrderedRing K] [Trigonometry K] in
/-- A route whose departures are times of the day has none to join the next day with. -/
theorem Route.DepartsWithinDay.joinsNextDay (withinDay : route.DepartsWithinDay) :
    route.JoinsNextDay := by
  intro first after _ afterLeast
  rcases afterLeast.1 with ⟨⟨departure, member, departureEq⟩, late⟩
  rcases withinDay departure member with ⟨clock, bounds, clockEq⟩
  obtain rfl : after = clock := by
    simpa using departureEq.symm.trans clockEq
  exact absurd bounds.2 (not_lt.mpr late)

/-- People leave a stop in the order in which they come if all vehicles leave within the day. -/
theorem Route.DepartsWithinDay.leavesInOrder (withinDay : route.DepartsWithinDay) (offset : K) :
    route.LeavesInOrder offset := by
  have fromMidnight : route.DepartsFromMidnight := fun departure member =>
    (withinDay departure member).imp fun _ known => ⟨known.1.1, known.2⟩
  exact (fromMidnight.leavesInOrder_iff offset).mpr withinDay.joinsNextDay

/-! ## Rides -/

/-- Riding on takes as long for everybody, if the vehicle does not arrive before it
leaves. -/
theorem add_rideTime {departures : List (Exact K)} (finite : HasFiniteDepartures departures)
    {departureOffset arrivalOffset : K} (forward : departureOffset ≤ arrivalOffset) (time : K) :
    (time : Exact K) + rideTime departures departureOffset arrivalOffset time =
      nextDeparture departures (departureOffset : Exact K) time +
        ↑(arrivalOffset - departureOffset) := by
  by_cases none : departures = []
  · rw [none, rideTime_nil, nextDeparture_nil]
    rfl
  rcases nextDeparture_finite finite none departureOffset (time : Exact K) with
    ⟨departure, departureEq⟩
  have waits := le_nextDeparture finite none departureOffset time
  rw [departureEq, Exact.finite_le_finite] at waits
  have notBack : ¬ ((departure - time + (arrivalOffset - departureOffset) : K) : Exact K) < 0 := by
    rw [Exact.zero_eq, Exact.finite_lt_finite]
    linarith
  simp only [rideTime, departureEq, Exact.finite_sub_finite, Exact.finite_add_finite]
  rw [if_neg notBack, Exact.finite_add_finite]
  congr 1
  ring

end JourneyTimes.Timetable
