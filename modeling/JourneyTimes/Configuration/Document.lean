import JourneyTimes.Configuration.Basic
import JourneyTimes.Files.PathText
import JourneyTimes.Text.Clock
import JourneyTimes.Yaml.Document

/-!
# Reading configurations

A configuration is the mapping in the first document of a configuration file.
Keys that it does not know are ignored, and so are values of the wrong kind
where there is something to fall back on.  Relative paths are continued from
the folder of the file.
-/

namespace JourneyTimes.Configuration

open JourneyTimes.Yaml (Value)

variable {α : Type} [Scalar α] [Numeric α]

/-- The number under a key, if there is one.  A value that is there must be a
number. -/
def number? (value : Value) (key : String) : Except Error (Option α) :=
  match value.get key with
  | .real digits => .ok ((Yaml.readReal digits).map Numeric.ofNumeral)
  | .whole number =>
    .ok (some (Numeric.ofNumeral (.decimal (number < 0) number.natAbs 0)))
  | .absent | .null => .ok none
  | other => .error (.config (.notNumber key other.shown))

/-- The number under a key that must be there. -/
def number (value : Value) (key : String) : Except Error α := do
  match ← number? value key with
  | some number => pure number
  | none => throw (.config (.missing key))

/-- A whole number as a count, which is a word of 64 bits. -/
def countOf (number : Int) : Nat := (UInt64.ofInt number).toNat

/-- The count under a key that must be there. -/
def count (value : Value) (key : String) : Except Error Nat :=
  match (value.get key).whole? with
  | some number => .ok (countOf number)
  | none => .error (.config (.missing key))

/-- The path under a key. -/
def path? (folder : String) (value : Value) (key : String) : Option String :=
  (value.get key).text?.map (PathText.join folder)

/-- The plan of a grid city. -/
def readGrid (value : Value) : Except Error (Network.GridPlan α) := do
  let columns ← count value "num_x_nodes"
  let rows ← count value "num_y_nodes"
  let spacing ← number value "spacing_m"
  let freeSpeed ← number value "freespeed_mps"
  pure { columns, rows, spacing, freeSpeed }

/-- The files of a dataset, of which there must be one. -/
def readDataset (folder : String) (value : Value) : Except Error Dataset :=
  let files : Dataset :=
    { network := path? folder value "network_path"
      timetable := path? folder value "schedule_path"
      mode := (value.get "network_mode").text? }
  if files.network.isNone ∧ files.timetable.isNone then
    .error (.config .noDatasetPath)
  else .ok files

/-- Where the links come from. -/
def readSource (folder : String) (value : Value) :
    Except Error (Source α) := do
  if !(value.get "grid_city").isAbsent then
    pure (.grid (← readGrid (value.get "grid_city")))
  else if !(value.get "dataset").isAbsent then
    pure (.dataset (← readDataset folder (value.get "dataset")))
  else throw (.config .noSource)

/-- When journeys depart: a time of the clock or a number of seconds. -/
def readDeparture (value : Value) : Except Error α :=
  match value.get "departure_time" with
  | .text time => Clock.read time
  | _ => number value "departure_time"

/-- The number of workers, which is not zero. -/
def readWorkers (otherwise : Nat) (value : Value) : Except Error Nat :=
  match (value.get "num_threads").whole? with
  | some number =>
    if 0 < number then .ok number.toNat
    else .error (.config (.threadCount number))
  | none => .ok otherwise

/-- The seed of landmarks that are drawn at random. -/
def readSeed (value : Value) : UInt64 :=
  UInt64.ofInt ((value.get "landmark_seed").whole?.getD 0)

/-- How landmarks are chosen. -/
def readSelection (value : Value) : Except Error Selection :=
  match (value.get "landmark_selection").text? with
  | none => .ok .pieSlices
  | some name =>
    if name = "pie_slices" then .ok .pieSlices
    else if name = "farthest" then .ok .farthest
    else if name = "random" then .ok (.random (readSeed value))
    else .error (.config (.unknownSelection name))

/-- The settings of the router.  Those that are not given keep their
defaults; people must walk forwards. -/
def readRouter (value : Value) : Except Error (RouterSettings α) := do
  let settings ← RouterSettings.entries.foldlM
    (fun settings entry => do
      let given ← number? value entry.key
      pure ((given.map (entry.put settings)).getD settings))
    RouterSettings.default
  if settings.walkSpeed ≤ 0 ∨ settings.beelineFactor ≤ 0 then
    throw (.config .walkingParameters)
  pure settings

/-- The number of landmarks of a run that asks for nothing else. -/
def defaultLandmarks : Nat := 16

/-- The configuration in a mapping. -/
def ofValue (folder : String) (workers : Nat) (value : Value) :
    Except Error (Configuration α) := do
  let source ← readSource folder value
  let departure ← readDeparture value
  let workers ← readWorkers workers value
  let selection ← readSelection value
  let maxDistance ← number? value "max_distance_m"
  let router ← readRouter (value.get "router")
  let landmarks := (value.get "num_landmarks").whole?.map countOf
  pure
    { source, departure, workers, selection, maxDistance, router
      zones := path? folder (value.get "dataset") "zones_path"
      pairs := path? folder value "od_pairs_path"
      output := (path? folder value "output_dir").getD folder
      landmarks := landmarks.getD defaultLandmarks }

/-- Read a configuration whose file lies in a folder, with the number of
workers where none is given. -/
def ofDocument (folder : String) (workers : Nat) (document : String) :
    Except Error (Configuration α) :=
  match Yaml.documents document with
  | none => .error .malformedYaml
  | some [] => .error (.config .empty)
  | some (value :: _) => ofValue folder workers value

end JourneyTimes.Configuration
