import JourneyTimes.Files.PathText

/-!
# Access to files

A run reads and writes files without knowing where they are kept.  All it
needs is listed here: to read and write a file as a whole, and to make
folders one at a time.
-/

namespace JourneyTimes

/-- What there is to read under a path. -/
inductive FileContent where
  /-- No file, or none that may be opened. -/
  | missing
  /-- A file that has no text, such as a folder. -/
  | unreadable
  | text (content : String)
deriving Repr, DecidableEq

/-- The ways to deal with files.  What changes something says whether it
succeeded. -/
class FileAccess (m : Type → Type) where
  read : String → m FileContent
  isFolder : String → m Bool
  /-- Make a folder inside a folder that exists. -/
  makeFolder : String → m Bool
  /-- Write a text to a file in the place of what it held. -/
  write : String → String → m Bool

namespace FileAccess

variable {m : Type → Type} [Monad m] [FileAccess m]

instance {ε : Type} : FileAccess (ExceptT ε m) where
  read path := ExceptT.lift (read path)
  isFolder path := ExceptT.lift (isFolder path)
  makeFolder path := ExceptT.lift (makeFolder path)
  write path text := ExceptT.lift (write path text)

/-- Make a folder, unless it is there. -/
def ensureFolder (path : String) : m Bool := do
  if ← makeFolder path then pure true else isFolder path

/-- Make a folder and all folders around it, as far as they are missing;
`fuel` bounds their number. -/
def makeFoldersWithin : Nat → String → m Bool
  | 0, _ => pure false
  | fuel + 1, path => do
    if path.isEmpty then pure true
    else if ← ensureFolder path then pure true
    else
      match PathText.folder? path with
      | none => pure false
      | some folder =>
        if ← makeFoldersWithin fuel folder then ensureFolder path
        else pure false

/-- Make a folder and all folders around it, as far as they are missing. -/
def makeFolders (path : String) : m Bool :=
  makeFoldersWithin (path.length + 1) path

end FileAccess

end JourneyTimes
