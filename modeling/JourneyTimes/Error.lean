import JourneyTimes.Numeral
import JourneyTimes.Text.Quoted
import JourneyTimes.Text.WholeNumber

/-!
# Errors

Everything that can go wrong while inputs are loaded or journey times are
computed, as causes rather than as sentences.  The sentence for a cause is
made by `Error.message`, in one place.
-/

namespace JourneyTimes

open JourneyTimes.Text (quoted)

/-- What is wrong with the content of an input file. -/
inductive InputFault where
  | number (fault : Numeral.Fault)
  | wholeNumber (fault : WholeNumber.Fault)
  /-- A text that is not a time of the clock. -/
  | clockTime (text : String)
  /-- A time of the clock with more seconds than a word of 32 bits holds. -/
  | clockOverflow
  | missingAttribute (element name : String)
  /-- A transport mode element that is not followed by text. -/
  | modeWithoutText
  | stopWithoutOffset (facility : String)
  /-- A column that a table lacks; the table is named as in the message. -/
  | missingColumn (table column : String)
deriving DecidableEq, Repr

/-- What is wrong with a configuration, or with values that do not fit. -/
inductive ConfigFault where
  | empty
  | noSource
  | noDatasetPath
  | missing (key : String)
  /-- A value that is not a number, with the value as it is shown. -/
  | notNumber (key shown : String)
  | threadCount (count : Int)
  | unknownSelection (name : String)
  | walkingParameters
  /-- A matrix row of the wrong length. -/
  | rowLength (values zones : Nat)
  | noNodeNear (zone : String)
  /-- Negative costs with which a search goes on for ever.  It is told apart
  from every answer, but nobody ever hears of it. -/
  | endless
deriving DecidableEq, Repr

/-- Everything that can go wrong. -/
inductive Error where
  /-- A journey between two nodes that a complete matrix needs does not
  exist. -/
  | disconnected (origin destination : String)
  | poolShutDown
  | emptyPool
  | nodeOutOfRange (node : Nat)
  | unknownNode (id : String)
  /-- A zone that is not in a matrix, as it is shown. -/
  | unknownZone (shown : String)
  | input (fault : InputFault)
  | config (fault : ConfigFault)
  /-- A coordinate that is infinite or undefined where a place is needed. -/
  | nonFiniteCoordinate
  /-- A file that cannot be read or written. -/
  | fileAccess
  /-- A document that is not well-formed markup. -/
  | malformedMarkup
  /-- A table with records of unequal length. -/
  | malformedTable
  /-- A document that is not well-formed configuration text. -/
  | malformedYaml
  /-- A link or a stretch of a route that its cost model knows no price of:
  the stretch is not in the timetable. -/
  | unpriced
deriving DecidableEq, Repr

/-- The words for a text that is not a number. -/
def Numeral.Fault.message : Numeral.Fault → String
  | .empty => "cannot parse float from empty string"
  | .malformed => "invalid float literal"

/-- The words for a text that is not a whole number. -/
def WholeNumber.Fault.message : WholeNumber.Fault → String
  | .empty => "cannot parse integer from empty string"
  | .badDigit => "invalid digit found in string"
  | .outOfRange => "number too large to fit in target type"

/-- The words for a fault of an input file. -/
def InputFault.message : InputFault → String
  | .number fault => fault.message
  | .wholeNumber fault => fault.message
  | .clockTime text => quoted text ++ " is not a HH:MM:SS time"
  | .clockOverflow => "a time is too late to be counted"
  | .missingAttribute element name =>
    "<" ++ element ++ "> element has no " ++ quoted name ++ " attribute"
  | .modeWithoutText => "transportMode element contained no text"
  | .stopWithoutOffset facility =>
    "stop at " ++ facility ++ " has neither an arrival nor a departure offset"
  | .missingColumn table column =>
    table ++ " file has no " ++ quoted column ++ " column"

/-- The words for a fault of a configuration. -/
def ConfigFault.message : ConfigFault → String
  | .empty => "config file is empty"
  | .noSource => "no grid_city or dataset given in config"
  | .noDatasetPath => "dataset needs a network_path or a schedule_path"
  | .missing key => "no " ++ key ++ " given"
  | .notNumber key shown => key ++ " should be a number, got " ++ shown
  | .threadCount count =>
    "num_threads must be positive, got " ++ toString count
  | .unknownSelection name => "unknown landmark selection " ++ quoted name
  | .walkingParameters =>
    "walk_speed_mps and beeline_dist_factor must be positive"
  | .rowLength values zones =>
    "a row of " ++ toString values ++ " values does not fit a matrix of " ++
      toString zones ++ " zones"
  | .noNodeNear zone =>
    "no graph node near zone " ++ zone ++ ": the graph is empty"
  | .endless => "negative costs keep a search from ending"

/-- The words for an error.  Faults of files and their formats have no more
words than their name. -/
def Error.message : Error → String
  | .disconnected origin destination =>
    "undefined time from node " ++ origin ++ " to node " ++ destination ++
      ": the routing network is probably not fully connected, please check" ++
      " and/or clean it"
  | .poolShutDown => "the worker pool has been shut down"
  | .emptyPool => "a worker pool needs at least one worker"
  | .nodeOutOfRange node =>
    "node index " ++ toString node ++ " is out of range"
  | .unknownNode id => "unknown node id " ++ quoted id
  | .unknownZone shown => "zone " ++ shown ++ " is not part of this matrix"
  | .input fault => "could not parse input: " ++ fault.message
  | .config fault => "invalid configuration: " ++ fault.message
  | .nonFiniteCoordinate => "spatial index error: NonFiniteCoordinate"
  | .fileAccess => "file access failed"
  | .malformedMarkup => "malformed markup"
  | .malformedTable => "malformed table"
  | .malformedYaml => "malformed configuration text"
  | .unpriced => "no price for a stretch that is not in the timetable"

end JourneyTimes
