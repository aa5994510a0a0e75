/-!
# Progress

Long work reports how far it is: after 1, 2, 4, 8 and so on finished tasks,
and when all is done.
-/

namespace JourneyTimes

/-- How important a line of the log is. -/
inductive LogLevel where
  | information
deriving Repr, DecidableEq

/-- A line of the log. -/
structure LogLine where
  level : LogLevel
  text : String
deriving Repr, DecidableEq

/-- The name of a level. -/
def LogLevel.name : LogLevel → String
  | .information => "INFO"

/-- The line with the name of its level in front. -/
def LogLine.render (line : LogLine) : String :=
  line.level.name ++ " " ++ line.text

/-- How many of some number of tasks are finished. -/
structure ProgressCounter where
  label : String
  total : Nat
  count : Nat
deriving Repr, DecidableEq

namespace ProgressCounter

/-- No task is finished. -/
def make (label : String) (total : Nat) : ProgressCounter := ⟨label, total, 0⟩

/-- Whether a number is a power of two. -/
def isPowerOfTwo (number : Nat) : Bool :=
  number ≠ 0 && Nat.pow 2 number.log2 = number

/-- The count out of the total. -/
def ratio (counter : ProgressCounter) : String :=
  toString counter.count ++ " of " ++ toString counter.total

/-- Count one more task, and report it if the new count is a power of two. -/
def increment (counter : ProgressCounter) :
    ProgressCounter × Option LogLine :=
  let counter := { counter with count := counter.count + 1 }
  (counter,
    if isPowerOfTwo counter.count then
      some ⟨.information, counter.label ++ ": " ++ counter.ratio⟩
    else none)

/-- Report that the work is done. -/
def finish (counter : ProgressCounter) : LogLine :=
  ⟨.information, counter.label ++ ": done, " ++ counter.ratio⟩

end ProgressCounter

end JourneyTimes
