import JourneyTimes.Command

/-!
# The program

The command on the files of the machine.
-/

namespace JourneyTimes

/-- What there is to read under a path. -/
def readContent (path : String) : IO FileContent := do
  match ← (IO.FS.Handle.mk path .read).toBaseIO with
  | .error _ => pure .missing
  | .ok handle =>
    match ← handle.readBinToEnd.toBaseIO with
    | .error _ => pure .unreadable
    | .ok bytes =>
      match String.fromUTF8? bytes with
      | some content => pure (.text content)
      | none => pure .unreadable

/-- Whether a path leads to a folder, which can be opened but not read. -/
def leadsToFolder (path : String) : IO Bool := do
  match ← (IO.FS.Handle.mk path .read).toBaseIO with
  | .error _ => pure false
  | .ok handle =>
    match ← handle.readBinToEnd.toBaseIO with
    | .error _ => pure true
    | .ok _ => pure false

/-- Whether an action succeeds. -/
def succeeds (action : IO Unit) : IO Bool := do
  match ← action.toBaseIO with
  | .error _ => pure false
  | .ok _ => pure true

instance : FileAccess IO where
  read := readContent
  isFolder := leadsToFolder
  makeFolder path := succeeds (IO.FS.createDir path)
  write path text := succeeds (IO.FS.writeFile path text)

end JourneyTimes

/-- Run the command; a message about a failure goes to the standard error. -/
def main (arguments : List String) : IO UInt32 := do
  let outcome ← JourneyTimes.command arguments
  match outcome.message with
  | some message => IO.eprintln message
  | none => pure ()
  pure outcome.status
