/-!
# Paths of files

A path is a text with slashes between its parts.  A path that begins with a
slash is complete; any other path is continued from some folder.  Paths are
joined as they are, and nothing is left out of them.
-/

namespace JourneyTimes.PathText

/-- Whether a path begins at the root. -/
def isComplete (path : String) : Bool := path.toList.head? == some '/'

/-- A path that is continued from a folder. -/
def join (folder path : String) : String :=
  if isComplete path then path
  else if folder.isEmpty ∨ folder.toList.getLast? = some '/' then folder ++ path
  else folder ++ "/" ++ path

/-- The parts of a path.  Between two slashes there may be nothing. -/
def pieces (path : List Char) : List (List Char) :=
  match path with
  | [] => [[]]
  | character :: rest =>
    if character = '/' then [] :: pieces rest
    else
      match pieces rest with
      | piece :: more => (character :: piece) :: more
      | [] => [[character]]

/-- Whether a part of a path leads nowhere: it is empty or a single dot. -/
def isIdle (piece : List Char) : Bool := piece == [] || piece == ['.']

/-- How many parts at the beginning of a path always count: the one in front
of the slash at the root, or a single dot. -/
def fixedParts (parts : List (List Char)) : Nat :=
  match parts with
  | [] :: _ :: _ | ['.'] :: _ => 1
  | _ => 0

/-- The folder that a path lies in, if there is a last part to leave out. -/
def folder? (path : String) : Option String :=
  let parts := pieces path.toList
  let fixed := fixedParts parts
  match (parts.drop fixed).reverse.dropWhile isIdle with
  | _ :: outer =>
    let kept := parts.take fixed ++ (outer.dropWhile isIdle).reverse
    let characters := if kept = [[]] then ['/'] else ['/'].intercalate kept
    some (String.ofList characters)
  | [] => if parts.head? = some ['.'] then some "" else none

end JourneyTimes.PathText
