import JourneyTimes.Text.Quoted

/-!
# Names of zones

A matrix is addressed by zones.  What a zone is does not matter, as long as it
can be written into a table and into a message, and as long as zones have an
order.
-/

namespace JourneyTimes

/-- What can name a zone of a matrix. -/
class ZoneName (ζ : Type) where
  /-- The zone in a table. -/
  written : ζ → String
  /-- The zone in a message. -/
  shown : ζ → String
  /-- Whether a zone is the same as another or comes before it. -/
  atMost : ζ → ζ → Bool

/-- Texts name zones, in the order of their code points. -/
instance : ZoneName String where
  written := id
  shown := Text.quoted
  atMost left right := !decide (right < left)

end JourneyTimes
