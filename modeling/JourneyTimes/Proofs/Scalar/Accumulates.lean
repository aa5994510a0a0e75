import JourneyTimes.Proofs.Scalar.Exact

/-!
# Scalars that costs are added up in

A search compares costs and adds costs to them, and does nothing else with them.  A few
laws are all that it needs to come to an end.  They hold of exact scalars, and they do not ask
for sums to be exact: a sum may be rounded, as long as adding what is not negative
never takes anything away.  Comparisons with undefined scalars fail, as they do for doubles.
-/

namespace JourneyTimes.Scalar

/-- Comparisons of costs can be put together, and costs do not fall when something is
added to them that is not negative. -/
class Accumulates (α : Type) [Scalar α] : Prop where
  zero_le_zero : (0 : α) ≤ 0
  lt_irrefl (scalar : α) : ¬ scalar < scalar
  le_of_lt {left right : α} : left < right → left ≤ right
  le_self_of_le {bound scalar : α} : bound ≤ scalar → scalar ≤ scalar
  le_trans {left middle right : α} : left ≤ middle → middle ≤ right → left ≤ right
  lt_of_lt_of_le {left middle right : α} : left < middle → middle ≤ right → left < right
  le_add {scalar more : α} : 0 ≤ scalar → 0 ≤ more → scalar ≤ scalar + more

namespace Accumulates

variable {α : Type} [Scalar α]

/-- Scalars in one order accumulate if what is added to them takes nothing away. -/
theorem of_ranking {β : Type} [LinearOrder β] (ranking : Ranking α β)
    (zero_le_zero : (0 : α) ≤ 0)
    (le_add : ∀ {scalar more : α}, 0 ≤ scalar → 0 ≤ more → scalar ≤ scalar + more) :
    Accumulates α where
  zero_le_zero := zero_le_zero
  lt_irrefl := ranking.lt_irrefl
  le_of_lt := ranking.le_of_lt
  le_self_of_le := ranking.le_self_of_le
  le_trans := ranking.le_trans
  lt_of_lt_of_le := ranking.lt_of_lt_of_le
  le_add := le_add

variable [Accumulates α]

theorem lt_trans {left middle right : α} (first : left < middle) (second : middle < right) :
    left < right :=
  lt_of_lt_of_le first (le_of_lt second)

instance : IsStrictOrder α (· < ·) where
  irrefl := lt_irrefl
  trans _ _ _ := lt_trans

theorem not_lt_of_le {left right : α} (atMost : left ≤ right) : ¬ right < left := by
  intro less
  exact lt_irrefl right (lt_of_lt_of_le less atMost)

end Accumulates

end JourneyTimes.Scalar

namespace JourneyTimes.Exact

variable {K : Type} [Field K] [LinearOrder K] [FloorRing K] [Trigonometry K]
  [IsStrictOrderedRing K]

instance : Scalar.Accumulates (Exact K) :=
  .of_ranking ranking (finite_nonneg.mpr le_rfl) le_add_right_of_nonneg

end JourneyTimes.Exact
