import JourneyTimes.Markup.Character

/-!
# Skipped markup

Comments, verbatim sections and processing instructions hold nothing that
networks and timetables are made of, so they only have to be skipped.
-/

namespace JourneyTimes.Markup

/-- The rest of a text behind some characters that it begins with. -/
def after? : List Char → List Char → Option (List Char)
  | [], text => some text
  | _, [] => none
  | mark :: marks, character :: text =>
    if mark = character then after? marks text else none

/-- Skip a comment from behind its opening.  Two hyphens in a row end it and
must be followed by an angle bracket. -/
def skipComment : List Char → Option (List Char)
  | [] => none
  | '-' :: '-' :: '>' :: rest => some rest
  | '-' :: '-' :: _ => none
  | character :: rest => if isAllowed character then skipComment rest else none

/-- Skip a verbatim section from behind its opening. -/
def skipVerbatim : List Char → Option (List Char)
  | [] => none
  | ']' :: ']' :: '>' :: rest => some rest
  | character :: rest => if isAllowed character then skipVerbatim rest else none

/-- Skip what belongs to a processing instruction. -/
def skipInstruction : List Char → Option (List Char)
  | [] => none
  | '?' :: '>' :: rest => some rest
  | _ :: rest => skipInstruction rest

end JourneyTimes.Markup
