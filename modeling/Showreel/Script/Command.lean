import Showreel.Callout.Style
import Showreel.Pattern.Symmetry
import Showreel.Waypoint.Setting

/-!
Contract: the words of scripts.

Owns:
- the commands, one constructor each, with their words and second words;
- the argument words that are reserved, so that a missing argument can be told from a
  bad one;
- the markers of script blocks.

Does not own: what a command reads and does.
-/

namespace Showreel.Script

open Waypoint

/-- The three families of callouts that have a style of their own. -/
inductive StyleFamily where
  | label
  | arrow
  | polygon
deriving DecidableEq, Repr

namespace StyleFamily

def all : List StyleFamily := [label, arrow, polygon]

def word : StyleFamily → String
  | label => "LABEL"
  | arrow => "ARROW"
  | polygon => "POLY"

def ofWord? (text : String) : Option StyleFamily :=
  all.find? fun family => family.word == text

end StyleFamily

/-- The settings of a style that every family has. -/
inductive StyleSetting where
  | window
  | alpha
  | size
  | angle
  | drift
  | viewDistance
  | zoomRange
  | shadow
  | target
deriving DecidableEq, Repr

namespace StyleSetting

def all : List StyleSetting :=
  [window, alpha, size, angle, drift, viewDistance, zoomRange, shadow, target]

/-- What follows the word of the family. -/
def suffix : StyleSetting → String
  | window => "T"
  | alpha => "ALPHA"
  | size => "SIZE"
  | angle => "ANGLE"
  | drift => "TRACK"
  | viewDistance => "VIEWDIST"
  | zoomRange => "ZOOMRANGE"
  | shadow => "SHADOW"
  | target => "TARGET"

end StyleSetting

/-- The commands of a script. -/
inductive Command where
  | scriptStart
  | scriptEnd
  | generation
  | pause
  | poi
  | poiStart
  | poiPlay
  | poiStop
  | poiReset
  | poiSpeed
  | poiAddLabels
  | all
  | initial
  | off
  /-- A field of a waypoint. -/
  | field (field : Field)
  /-- The way in which axes move: straight or eased. -/
  | motion (linear : Bool)
  | autofit
  | grid
  | gridMajor
  | stars
  | time
  | track
  | trackBox
  | trackLoop
  | runLength
  | paste
  | pasteTime
  | pasteDrift
  | pasteMode
  | pasteEvolve
  | recipe
  | label
  | arrow
  | polygon (filled : Bool)
  | style (family : StyleFamily) (setting : StyleSetting)
  | labelAlign
  | colour
  | title
  | suppress
  | viewerWidth
  | viewerHeight
  | maxGridSize
  | autostart
  | startFrom
  | noStepBack
  | noReport
  | viewOnly
deriving DecidableEq, Repr

namespace Command

/-- The word that reports use for a command. -/
def word : Command → String
  | scriptStart => "[["
  | scriptEnd => "]]"
  | generation => "T"
  | pause => "PAUSE"
  | poi => "POI"
  | poiStart => "POIT"
  | poiPlay => "POIPLAY"
  | poiStop => "POISTOP"
  | poiReset => "POIRESET"
  | poiSpeed => "POITRANS"
  | poiAddLabels => "POIADDLABELS"
  | all => "ALL"
  | initial => "INITIAL"
  | off => "OFF"
  | field name => name.word
  | motion linear => if linear then "LINEAR" else "BEZIER"
  | autofit => "AUTOFIT"
  | grid => "GRID"
  | gridMajor => "GRIDMAJOR"
  | stars => "STARS"
  | time => "TIME"
  | track => "TRACK"
  | trackBox => "TRACKBOX"
  | trackLoop => "TRACKLOOP"
  | runLength => "RLE"
  | paste => "PASTE"
  | pasteTime => "PASTET"
  | pasteDrift => "PASTEDELTA"
  | pasteMode => "PASTEMODE"
  | pasteEvolve => "PASTEEVOLVE"
  | recipe => "RECIPE"
  | label => "LABEL"
  | arrow => "ARROW"
  | polygon filled => if filled then "POLYFILL" else "POLYLINE"
  | style family setting => family.word ++ setting.suffix
  | labelAlign => "LABELALIGN"
  | colour => "COLOR"
  | title => "TITLE"
  | suppress => "SUPPRESS"
  | viewerWidth => "WIDTH"
  | viewerHeight => "HEIGHT"
  | maxGridSize => "MAXGRIDSIZE"
  | autostart => "AUTOSTART"
  | startFrom => "STARTFROM"
  | noStepBack => "NOSTEPBACK"
  | noReport => "NOREPORT"
  | viewOnly => "VIEWONLY"

/-- Every command. -/
def every : List Command :=
  [scriptStart, scriptEnd, generation, pause, poi, poiStart, poiPlay, poiStop, poiReset,
    poiSpeed, poiAddLabels, all, initial, off]
  ++ Field.all.map field
  ++ [motion true, motion false, autofit, grid, gridMajor, stars, time, track, trackBox,
    trackLoop, runLength, paste, pasteTime, pasteDrift, pasteMode, pasteEvolve, recipe, label,
    arrow, polygon false, polygon true]
  ++ StyleFamily.all.flatMap (fun family => StyleSetting.all.map (style family))
  ++ [labelAlign, colour, title, suppress, viewerWidth, viewerHeight, maxGridSize, autostart,
    startFrom, noStepBack, noReport, viewOnly]

/-- Second words of some commands. -/
def secondWords : List (String × Command) :=
  [("SCRIPT", scriptStart), ("ENDSCRIPT", scriptEnd), ("Z", field .zoom), ("COLOUR", colour)]

/-- Every command under each of its words. -/
def words : List (String × Command) :=
  every.map (fun command => (command.word, command)) ++ secondWords

def ofWord? (token : String) : Option Command :=
  words.lookup token

end Command

/-- The words that open a script block. -/
def startMarkers : List String := ["[[", "SCRIPT"]

/-- The argument words that may not be taken for a name or a value. -/
def reservedWords : List String :=
  ["OFF", "INITIAL", "ALL", "EVERY", "XT", "YT",
    "ZERO", "AND", "X", "DIFF", "Y", "XOR", "OR", "NOR",
    "XNOR", "NOTY", "NOTX", "NAND", "ONE", "COPY", "NOT"]

/-- Whether a word starts or qualifies a command. -/
def isScriptWord (token : String) : Bool :=
  (Command.ofWord? token).isSome || reservedWords.contains token

/-- The elements of a theme that a script can colour. -/
def themeElements : List String :=
  ["BACKGROUND", "ALIVE", "DEAD", "GRID", "GRIDMAJOR", "LABEL", "ARROW", "POLY", "STARS"]

end Showreel.Script
