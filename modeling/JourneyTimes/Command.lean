import JourneyTimes.Numeral.Shortest
import JourneyTimes.Run

/-!
# The command

The command takes the path of a configuration, runs it and ends with a status
that says whether the run succeeded.  It prints nothing but messages about
what went wrong; the results are in the tables that the run wrote.
-/

namespace JourneyTimes

/-- How the command ends. -/
structure Outcome where
  status : UInt32
  /-- What is said about a failure. -/
  message : Option String
deriving Repr, DecidableEq

namespace Outcome

/-- All went well. -/
def success : Outcome := ⟨0, none⟩

/-- How the command is used. -/
def usage : Outcome := ⟨1, some "usage: journey-times <config.yaml>"⟩

/-- The end after an error.  A cost model that does not fit its graph is a
fault of the program and has a status of its own. -/
def ofError (error : Error) : Outcome :=
  ⟨if error = .unpriced then 101 else 1, some error.message⟩

end Outcome

/-- The number of workers where a configuration gives none.  It does not
change any result. -/
def usualWorkers : Nat := 1

/-- Run the configuration in a file. -/
def runFile {m : Type → Type} [Monad m] [FileAccess m] (workers : Nat)
    (path : String) : ExceptT Error m (Results Float) := do
  let configuration : Configuration Float ← Configuration.ofFile workers path
  configuration.run

/-- Run the command with its arguments. -/
def command {m : Type → Type} [Monad m] [FileAccess m]
    (arguments : List String) : m Outcome := do
  match arguments with
  | [path] =>
    match ← (runFile usualWorkers path).run with
    | .ok _ => pure .success
    | .error error => pure (.ofError error)
  | _ => pure .usage

end JourneyTimes
