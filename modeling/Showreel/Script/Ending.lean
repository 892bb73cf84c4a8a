import Showreel.Script.Draft
import Showreel.Settings
import Showreel.Timeline
import Showreel.Waypoint.Resolution

/-!
Contract: turning the draft of a whole script into a timeline.

Owns:
- what only the end of a script settles: the track, the loop of a track, the initial
  point of interest, the custom theme, and the effects of a view-only script;
- the points of interest made of labels;
- the timeline, and which evolutions it took.

Does not own: reading.
-/

namespace Showreel.Script

open Number Paste Waypoint

variable {α : Type}

/-- The waypoints of a script at its end. -/
structure Cast (α : Type) where
  first : Waypoint α
  later : List (Waypoint α)
  pois : List (Waypoint α)

namespace Cast

/-- All waypoints and points of interest. -/
def all (cast : Cast α) : List (Waypoint α) :=
  cast.first :: cast.later ++ cast.pois

/-- The waypoints of a closed draft, which has at least one. -/
def ofDraft (draft : Draft α) : Except Fault (Cast α) :=
  match draft.waypoints.toList with
  | [] => .error .emptyChain
  | first :: later => .ok ⟨first, later, draft.pois.toList⟩

/-- The fields that the first waypoint takes from the initial point of interest. -/
def initialFields : List Field :=
  [.x, .y, .zoom, .angle, .tilt, .layers, .depth, .theme, .gps, .step]

/-- A waypoint with a field of another one, if that sets it. -/
def adoptField (source waypoint : Waypoint α) (field : Field) : Waypoint α :=
  if (source.get field).isSome then waypoint.put field (source.get field) else waypoint

/-- A waypoint with the fields that another one sets. -/
def adopt (waypoint source : Waypoint α) : Waypoint α :=
  initialFields.foldl (adoptField source) waypoint

/-- Playback without waypoints starts at the initial point of interest. -/
def startAtPoi (cast : Cast α) (draft : Draft α) : Except Fault (Cast α) :=
  if draft.hasPois && !draft.hasWaypoints then
    match draft.defaultPoi with
    | none => .ok cast
    | some index =>
        match cast.pois[index]? with
        | some initial => .ok { cast with first := adopt cast.first initial }
        | none => .error (.poiOutOfRange index cast.pois.length)
  else .ok cast

/-- Whether a waypoint asks for the custom theme. -/
def wantsCustomTheme (waypoint : Waypoint α) : Bool :=
  waypoint.theme.any fun setting => setting.value == some Theme.custom

/-- A waypoint that does not ask for the custom theme. -/
def withoutCustomTheme (waypoint : Waypoint α) : Waypoint α :=
  if wantsCustomTheme waypoint then { waypoint with theme := none } else waypoint

/-- Without colours there is no custom theme; with colours it is the theme of a first
waypoint that sets none. -/
def settleTheme (cast : Cast α) (hasColours : Bool) : Cast α × List Diagnostic :=
  if hasColours then
    match cast.first.theme with
    | some _ => (cast, [])
    | none =>
        let setting := some (Setting.written (some Theme.custom) "COLOR")
        ({ cast with first := { cast.first with theme := setting } }, [])
  else
    let reported : List Diagnostic :=
      if cast.all.any wantsCustomTheme then [⟨"THEME CUSTOM", .noCustomTheme⟩] else []
    ({ first := withoutCustomTheme cast.first
       later := cast.later.map withoutCustomTheme
       pois := cast.pois.map withoutCustomTheme }, reported)

end Cast

variable [Scalar α]

/-- The point of interest at a label. -/
def poiOfLabel (item : Callout.Item α) : Waypoint α :=
  let place := item.shape.points.1
  let text :=
    match item.shape with
    | .label _ text => text
    | _ => ""
  let source := "POIADDLABELS"
  { Waypoint.blank true with
    x := some (.written (some place.x) source)
    y := some (.written (some place.y) source)
    zoom := some (.written (some item.zoom) source)
    message := some (.written text source) }

/-- A track is dropped when there are waypoints. -/
def Draft.settleTrack (draft : Draft α) : Draft α × List Diagnostic :=
  match draft.track with
  | some track =>
      if draft.hasWaypoints then
        ({ draft with track := none }, [⟨track.mode.word, .trackWithWaypoints⟩])
      else (draft, [])
  | none => (draft, [])

/-- A track over a loop sets the loop generation of the first waypoint: its period, in major
grid lines if there are any. -/
def Draft.settleLoop (draft : Draft α) : Draft α :=
  match draft.track with
  | some track =>
      if track.mode = .loop then
        let period :=
          if 0 < draft.gridMajor then track.period * draft.gridMajor else track.period
        let setting := some (Setting.written (some period) TrackMode.loop.word)
        draft.updateFirst { draft.first with loop := setting }
      else draft
  | none => draft

/-- What a view-only script may not ask for. -/
structure Restricted (α : Type) where
  first : Waypoint α
  autostart : Bool
  startFrom : Option Int
  reported : List Diagnostic

/-- The report that a view-only script sets a limit. -/
def limitReport (α : Type) [Scalar α] (word : String) (limit : Open Int) :
    Except Fault (List Diagnostic) :=
  match limit with
  | none => .ok []
  | some setting => do
      let text ← Scalar.wholeText α (← settled setting)
      return [⟨word ++ " " ++ text, .viewOnly⟩]

/-- A view-only script does not start, and has no start, stop and loop generations. -/
def restrict (first : Waypoint α) (autostart : Bool) (startFrom : Option Int) :
    Except Fault (Restricted α) := do
  let stopReport ← limitReport α "STOP" first.stop
  let loopReport ← limitReport α "LOOP" first.loop
  return {
    first := { first with stop := none, loop := none }
    autostart := false
    startFrom := none
    reported :=
      (if autostart then [⟨"AUTOSTART", .viewOnly⟩] else [])
        ++ (startFrom.elim [] fun generation =>
          [⟨"STARTFROM " ++ toString generation, .viewOnly⟩])
        ++ stopReport ++ loopReport }

/-- What is left of a script's start and of its first waypoint: all of it, unless the script is
view-only. -/
def restrictIf (viewOnly : Bool) (first : Waypoint α) (autostart : Bool) (startFrom : Option Int) :
    Except Fault (Restricted α) :=
  if viewOnly then restrict first autostart startFrom
  else .ok ⟨first, autostart, startFrom, []⟩

/-- The timeline of a draft, and the evolutions that were computed for it. -/
structure Interpretation (α : Type) where
  timeline : Timeline α
  evolutions : Schedule.Evolutions

/-- The timeline of a whole script. `reported` is what reading reported, and `camera` is the
live view from which the first keyframe takes what the script leaves open. -/
def Draft.finish (draft : Draft α) (reported : List Diagnostic) (commands : Nat)
    (settings : ViewerSettings α) (camera : Camera α) : Except Fault (Interpretation α) := do
  let (tracked, trackReport) := draft.settleTrack
  let closed := tracked.settleLoop.close false
  let cast ← (← Cast.ofDraft closed).startAtPoi closed
  let fitReport ← checkAutofit (cast.first :: cast.later)
  let starts := closed.autostart
    || (cast.pois.head?.any fun poi => decide (poi.action = .play))
  let (themed, themeReport) := cast.settleTheme (!closed.elementColours.isEmpty)
  let restricted ← restrictIf closed.viewOnly themed.first starts closed.startFrom
  let labelPois := if closed.addPoiLabels then closed.labels.toList.map poiOfLabel else []
  let gps ← (Scalar.ofInt settings.refreshRate : Except Fault α)
  let live := Keyframe.ofCamera camera gps 1
  let resolved ← Chain.build restricted.first themed.later (themed.pois ++ labelPois) live
    settings.refreshRate
  closed.pastes.toList.forM Entry.roomToEvolve
  let (entries, evolutions) := Schedule.evolveAll [] closed.pastes.toList
  return {
    timeline := {
      keyframes := resolved.chain
      pois := resolved.pois
      pastes := entries
      snippets := closed.snippets
      recipes := closed.recipes
      callouts := ⟨closed.labels.toList, closed.arrows.toList, closed.polygons.toList⟩
      diagnostics := reported ++ trackReport ++ fitReport ++ themeReport ++ restricted.reported
        ++ resolved.reported
      title := closed.title
      track := closed.track
      stateColours := closed.stateColours
      elementColours := closed.elementColours
      autostart := restricted.autostart
      startFrom := restricted.startFrom
      viewOnly := closed.viewOnly
      noStepBack := closed.noStepBack
      noReport := closed.noReport
      gridMajor := closed.gridMajor
      maxGridPower := closed.maxGridPower
      width := closed.width
      height := closed.height
      defaultPoi := closed.defaultPoi
      commands := commands }
    evolutions := evolutions }

end Showreel.Script
