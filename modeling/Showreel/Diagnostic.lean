/-!
Contract: what is reported about a script.

Owns:
- the problems and notices, one constructor per reason, with their wording;
- diagnostics, which pair a reason with the text it is about.

Does not own: when a reason applies. A notice accompanies a command that was carried
out; every other problem means that a command, or a part of one, was not.
-/

namespace Showreel

/-- What an argument is called in a report. -/
inductive ArgumentName where
  | argument
  | name
  | red
  | green
  | blue
  | state
  | coordinate
  | zoom
deriving DecidableEq, Repr

def ArgumentName.word : ArgumentName → String
  | argument => "argument"
  | name => "name"
  | red => "RED"
  | green => "GREEN"
  | blue => "BLUE"
  | state => "STATE"
  | coordinate => "coordinate"
  | zoom => "zoom"

/-- What an argument has to be. -/
inductive ArgumentKind where
  | numeric
  | axis
  | pasteMode
  | string
  | alignment
  | name
  | quotedString
deriving DecidableEq, Repr

def ArgumentKind.phrase : ArgumentKind → String
  | numeric => "numeric"
  | axis => "X, Y, ZOOM or ALL"
  | pasteMode => "a paste mode name, 4-digit table or 0..15"
  | string => "a string"
  | alignment => "LEFT, CENTER or RIGHT"
  | name => "a name"
  | quotedString => "a quoted string"

/-- Why something is reported. -/
inductive Problem where
  | unknownCommand
  | missing (item : ArgumentName)
  | mustBe (item : ArgumentName) (kind : ArgumentKind)
  | outOfRange (item : ArgumentName)
  | secondBelowFirst
  | thirdAbove (limit : Int)
  | tooFewCorners
  | missingPair
  | invalidRunLength
  | invalidNameOrRunLength
  | unknownTheme
  | unknownElement
  | unknownColour
  | badHexColour
  | noCustomTheme
  | alreadyInScript
  | initialMustFollow
  | initialAlone
  | offAlone
  | settingOutsidePoi
  | actionOutsidePoi
  | noInitialWaypoint
  | notCopyable
  | westAboveEast
  | northAboveSouth
  | trackWithWaypoints
  | viewOnly
  | generationNotLater (previous : Int)
  | oneLineOnly
  | twoLinesOnly
  | unterminatedString
  /-- A value was replaced; the text describes the one before. -/
  | overwrites (previous : String)
  | alreadyDefined
  | overridesInitialPoi
deriving DecidableEq, Repr

namespace Problem

def message : Problem → String
  | unknownCommand => "unknown or misspelt command"
  | missing item => item.word ++ " missing"
  | mustBe item kind => item.word ++ " must be " ++ kind.phrase
  | outOfRange item => item.word ++ " out of range"
  | secondBelowFirst => "second argument must be >= first"
  | thirdAbove limit => "third argument must from 0 to " ++ toString limit
  | tooFewCorners => "requires at least 2 coordinate pairs"
  | missingPair => "missing number pair"
  | invalidRunLength => "invalid rle"
  | invalidNameOrRunLength => "invalid name or rle"
  | unknownTheme => "unknown theme name"
  | unknownElement => "illegal element"
  | unknownColour => "name not known"
  | badHexColour => "bad hex definition"
  | noCustomTheme => "no custom THEME defined"
  | alreadyInScript => "already in a script block"
  | initialMustFollow => "must be followed by INITIAL"
  | initialAlone => "must follow POI, ALL or a POI setting"
  | offAlone => "must follow LOOP or STOP"
  | settingOutsidePoi => "only valid at a POI"
  | actionOutsidePoi => "only valid at POI"
  | noInitialWaypoint => "no initial waypoint defined"
  | notCopyable => "illegal command before INITIAL"
  | westAboveEast => "W is greater than E"
  | northAboveSouth => "N is greater than S"
  | trackWithWaypoints => "can not be used with Waypoints"
  | viewOnly => "not possible due to VIEWONLY"
  | generationNotLater previous =>
      "target generation must be later than previous (" ++ toString previous ++ ")"
  | oneLineOnly => "only one line allowed"
  | twoLinesOnly => "only two lines allowed"
  | unterminatedString => "unterminated string"
  | overwrites previous => "overwrites " ++ previous
  | alreadyDefined => "already defined"
  | overridesInitialPoi => "overrides previous initial POI"

/-- Whether the command it is about was carried out all the same. -/
def isNotice : Problem → Bool
  | overwrites _ | alreadyDefined | overridesInitialPoi => true
  | _ => false

end Problem

/-- A reason together with the text it is about. -/
structure Diagnostic where
  source : String
  problem : Problem
deriving DecidableEq, Repr

def Diagnostic.reason (diagnostic : Diagnostic) : String :=
  diagnostic.problem.message

/-- Source and reason in one line. -/
def Diagnostic.text (diagnostic : Diagnostic) : String :=
  diagnostic.source ++ ": " ++ diagnostic.reason

end Showreel
