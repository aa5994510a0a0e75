import JourneyTimes.Geometry.Nearby
import JourneyTimes.Proofs.Outcome
import JourneyTimes.Proofs.Scalar.Exact

/-!
# Places with finite coordinates

Places are collected and asked about only if their coordinates are finite.  The distance of
two such places is a number, and not a negative one if square roots are not negative.
-/

namespace JourneyTimes

namespace Places

variable {α β : Type} [Scalar α]

theorem check_eq_ok {point : Point α} {result : Unit} :
    check point = .ok result ↔ point.isFinite = true := by
  unfold check
  split_ifs with finite <;> simp [finite]

/-- Places that are collected have finite coordinates. -/
theorem ofList_eq_ok {entries : List (Point α × β)} {places : Places α β}
    (collected : ofList entries = .ok places) :
    places.entries = entries ∧ ∀ entry ∈ entries, entry.1.isFinite = true := by
  rcases bind_eq_ok.mp collected with ⟨⟨⟩, checked, made⟩
  cases made
  exact ⟨rfl, fun entry member => check_eq_ok.mp (forall_of_forM_eq_ok checked entry member)⟩

/-- What is found around a place with finite coordinates is found somewhere. -/
theorem within_eq_ok {places : Places α β} {point : Point α} {radius : α} {found : List β}
    (asked : places.within point radius = .ok found) :
    point.isFinite = true ∧ ∀ content ∈ found, ∃ place, (place, content) ∈ places.entries := by
  rcases bind_eq_ok.mp asked with ⟨⟨⟩, checked, made⟩
  cases made
  refine ⟨check_eq_ok.mp checked, ?_⟩
  intro content member
  rcases List.mem_map.mp member with ⟨entry, entryMember, rfl⟩
  exact ⟨entry.1, List.mem_of_mem_filter entryMember⟩

end Places

variable {K : Type} [Field K] [LinearOrder K] [FloorRing K] [Trigonometry K]
  [IsStrictOrderedRing K]

/-- The distance of two places with finite coordinates is a number. -/
theorem Point.distance_finite
    (roots : ∀ value : K, 0 ≤ value → 0 ≤ Trigonometry.squareRoot value)
    {left right : Point (Exact K)} (leftFinite : left.isFinite = true)
    (rightFinite : right.isFinite = true) :
    ∃ length : K, 0 ≤ length ∧ left.distance right = length := by
  rw [isFinite, Bool.and_eq_true, Exact.isFinite_iff, Exact.isFinite_iff] at leftFinite rightFinite
  rcases leftFinite with ⟨⟨leftX, leftXEq⟩, ⟨leftY, leftYEq⟩⟩
  rcases rightFinite with ⟨⟨rightX, rightXEq⟩, ⟨rightY, rightYEq⟩⟩
  have nonneg : 0 ≤ (leftX - rightX) * (leftX - rightX) + (leftY - rightY) * (leftY - rightY) :=
    add_nonneg (mul_self_nonneg _) (mul_self_nonneg _)
  refine ⟨_, roots _ nonneg, ?_⟩
  rw [distance, squaredDistance, minus, leftXEq, leftYEq, rightXEq, rightYEq]
  simp only [Scalar.square, Exact.finite_sub_finite, Exact.finite_mul_finite,
    Exact.finite_add_finite]
  exact if_neg (not_lt.mpr nonneg)

end JourneyTimes
