import JourneyTimes.Files.Access

/-!
# File trees

A file tree keeps folders and files in memory, by their names from the root
on.  It gives access to files to a run that is to leave no trace elsewhere,
and shows which files a run writes.
-/

namespace JourneyTimes

/-- The names that lead to a place in a tree, from the root on. -/
abbrev Location := List String

/-- Folders and files. -/
structure FileTree where
  /-- The folders besides the root. -/
  folders : List Location
  files : List (Location × String)
  /-- The folder from which relative paths are continued. -/
  current : Location
deriving Repr

namespace FileTree

/-- Whether there is a folder at a location. -/
def hasFolder (tree : FileTree) (location : Location) : Bool :=
  location.isEmpty || tree.folders.contains location

/-- The text of the file at a location. -/
def text? (tree : FileTree) (location : Location) : Option String :=
  tree.files.lookup location

/-- Whether there is anything at a location. -/
def hasAny (tree : FileTree) (location : Location) : Bool :=
  tree.hasFolder location || (tree.text? location).isSome

/-- Go on by one part of a path, out of a folder. -/
def step (tree : FileTree) (location : Location) (piece : List Char) :
    Option Location :=
  if !tree.hasFolder location then none
  else if PathText.isIdle piece then some location
  else if piece = ['.', '.'] then some location.dropLast
  else some (location ++ [String.ofList piece])

/-- The location that the parts of a path lead to, if there are folders on the
way. -/
def locate (tree : FileTree) (path : String) (pieces : List (List Char)) :
    Option Location :=
  if path.isEmpty ∨ path.toList.contains '\x00' then none
  else
    let start := if PathText.isComplete path then [] else tree.current
    pieces.foldlM tree.step start

/-- The location that a path leads to.  A slash at its end stands behind a
folder. -/
def location? (tree : FileTree) (path : String) : Option Location :=
  tree.locate path (PathText.pieces path.toList)

/-- The location of a folder that need not be there. -/
def folderLocation? (tree : FileTree) (path : String) : Option Location :=
  let pieces := (PathText.pieces path.toList).reverse.dropWhile (· == [])
  tree.locate path pieces.reverse

/-- What there is to read under a path. -/
def read (tree : FileTree) (path : String) : FileContent :=
  match tree.location? path with
  | none => .missing
  | some location =>
    if tree.hasFolder location then .unreadable
    else ((tree.text? location).map .text).getD .missing

/-- Whether a path leads to a folder. -/
def isFolder (tree : FileTree) (path : String) : Bool :=
  (tree.location? path).any tree.hasFolder

/-- The tree with one more folder, if nothing is in its place. -/
def makeFolder? (tree : FileTree) (path : String) : Option FileTree :=
  match tree.folderLocation? path with
  | none => none
  | some location =>
    if tree.hasAny location then none
    else some { tree with folders := location :: tree.folders }

/-- The tree with a text in the file at a location. -/
def putFile (tree : FileTree) (location : Location) (text : String) :
    FileTree :=
  { tree with
    files := (location, text) ::
      tree.files.filter fun file => file.1 != location }

/-- The tree with a text in a file, unless a folder is in its place. -/
def write? (tree : FileTree) (path text : String) : Option FileTree :=
  match tree.location? path with
  | none => none
  | some location =>
    if tree.hasFolder location then none else some (tree.putFile location text)

/-- Keep a changed tree, if the change was possible. -/
def change (change? : FileTree → Option FileTree) : StateM FileTree Bool :=
  modifyGet fun tree =>
    match change? tree with
    | some changed => (true, changed)
    | none => (false, tree)

instance : FileAccess (StateM FileTree) where
  read path := return (← get).read path
  isFolder path := return (← get).isFolder path
  makeFolder path := change (·.makeFolder? path)
  write path text := change (·.write? path text)

/-- The folders that a location lies in. -/
def foldersAround (location : Location) : List Location :=
  (List.range location.length).map location.take

/-- Add a file, with the folders it lies in. -/
def addFile (tree : FileTree) (name : String × String) : FileTree :=
  let location := tree.current ++ name.1.splitOn "/"
  let missing := (foldersAround location).filter fun folder =>
    !tree.hasFolder folder
  { tree.putFile location name.2 with folders := missing ++ tree.folders }

/-- A tree of some files in the current folder, by their names in it. -/
def ofFiles (current : Location) (files : List (String × String)) : FileTree :=
  files.foldl addFile { folders := [current], files := [], current }

/-- The files in the current folder and below it, by their names in it. -/
def filesBelow (tree : FileTree) : List (String × String) :=
  tree.files.filterMap fun (location, text) =>
    if tree.current.isPrefixOf location then
      some ("/".intercalate (location.drop tree.current.length), text)
    else none

end FileTree

end JourneyTimes
