import JourneyTimes.Scalar
import Mathlib.Order.Lattice

/-!
# Scalars in one order

Scalars are compared as if each one stood at a fixed place in one order.  Those that are
undefined stand nowhere, so that every comparison with them fails.  Comparisons can
therefore be put together as in any linear order, but an undefined scalar is not even at
most itself.
-/

namespace JourneyTimes.Scalar

/-- The places of scalars in a linear order, and how scalars are compared by them. -/
structure Ranking (α β : Type) [Scalar α] [LinearOrder β] where
  rank? : α → Option β
  le_iff {left right : α} : left ≤ right ↔
    ∃ first ∈ rank? left, ∃ second ∈ rank? right, first ≤ second
  lt_iff {left right : α} : left < right ↔
    ∃ first ∈ rank? left, ∃ second ∈ rank? right, first < second

namespace Ranking

variable {α β : Type} [Scalar α] [LinearOrder β] (ranking : Ranking α β)
  {left middle right : α}

include ranking

protected theorem lt_irrefl (scalar : α) : ¬ scalar < scalar := by
  intro less
  rcases ranking.lt_iff.mp less with ⟨first, isFirst, second, isSecond, below⟩
  exact below.ne (Option.mem_unique isFirst isSecond)

protected theorem le_of_lt (less : left < right) : left ≤ right := by
  rcases ranking.lt_iff.mp less with ⟨first, isFirst, second, isSecond, below⟩
  exact ranking.le_iff.mpr ⟨first, isFirst, second, isSecond, below.le⟩

/-- What is compared with something is at most itself. -/
protected theorem le_self_of_le (atMost : left ≤ right) : right ≤ right := by
  rcases ranking.le_iff.mp atMost with ⟨-, -, rank, isRank, -⟩
  exact ranking.le_iff.mpr ⟨rank, isRank, rank, isRank, le_rfl⟩

protected theorem le_trans (lower : left ≤ middle) (upper : middle ≤ right) : left ≤ right := by
  rcases ranking.le_iff.mp lower with ⟨first, isFirst, second, isSecond, below⟩
  rcases ranking.le_iff.mp upper with ⟨same, isSame, third, isThird, above⟩
  obtain rfl := Option.mem_unique isSecond isSame
  exact ranking.le_iff.mpr ⟨first, isFirst, third, isThird, below.trans above⟩

protected theorem lt_of_lt_of_le (lower : left < middle) (upper : middle ≤ right) :
    left < right := by
  rcases ranking.lt_iff.mp lower with ⟨first, isFirst, second, isSecond, below⟩
  rcases ranking.le_iff.mp upper with ⟨same, isSame, third, isThird, above⟩
  obtain rfl := Option.mem_unique isSecond isSame
  exact ranking.lt_iff.mpr ⟨first, isFirst, third, isThird, below.trans_le above⟩

protected theorem lt_of_le_of_lt (lower : left ≤ middle) (upper : middle < right) :
    left < right := by
  rcases ranking.le_iff.mp lower with ⟨first, isFirst, second, isSecond, below⟩
  rcases ranking.lt_iff.mp upper with ⟨same, isSame, third, isThird, above⟩
  obtain rfl := Option.mem_unique isSecond isSame
  exact ranking.lt_iff.mpr ⟨first, isFirst, third, isThird, below.trans_lt above⟩

/-- A comparison that fails holds the other way, unless a side is undefined. -/
protected theorem le_of_not_lt (leftDefined : left ≤ left) (rightDefined : right ≤ right)
    (notLess : ¬ left < right) : right ≤ left := by
  rcases ranking.le_iff.mp leftDefined with ⟨first, isFirst, -⟩
  rcases ranking.le_iff.mp rightDefined with ⟨second, isSecond, -⟩
  refine ranking.le_iff.mpr ⟨second, isSecond, first, isFirst, not_lt.mp fun below => ?_⟩
  exact notLess (ranking.lt_iff.mpr ⟨first, isFirst, second, isSecond, below⟩)

end Ranking

end JourneyTimes.Scalar
