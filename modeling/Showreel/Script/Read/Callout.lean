import Showreel.Script.Statement

/-!
Contract: reading the commands for labels, arrows, polygons and their styles.

Owns: their argument order, ranges and reports.

Does not own: what their statements do.
-/

namespace Showreel.Script.Read

open Number Scalar Callout Reading

variable {α : Type} [Scalar α]

/-- A label: place, zoom, and the string that follows. -/
def label (draft : Draft α) (word : String) : Reading (Option (Statement α)) := do
  let gridSize ← draft.maxGridSize
  match ← (coordinate word gridSize : Reading (Option α)) with
  | none => return none
  | some x =>
      let source := word ++ " " ++ plainText x
      match ← (coordinate source gridSize : Reading (Option α)) with
      | none => return none
      | some y =>
          let source := source ++ " " ++ plainText y
          match ← (Reading.zoom source : Reading (Option α)) with
          | none => return none
          | some zoom =>
              let source := source ++ " " ++ plainText zoom
              let isFixed ← fixed
              if (← peek).toList.head? == some '\x22' then
                return some (.openLabel ⟨.label ⟨x, y⟩ "", zoom, draft.labelStyle, isFixed⟩)
              else refuseArgument source .string

/-- An arrow: its tail, its tip and its zoom. -/
def arrow (draft : Draft α) (word : String) : Reading (Option (Statement α)) := do
  let gridSize ← draft.maxGridSize
  let (places, source) ← (coordinates gridSize 4 word : Reading (Option (List α) × String))
  match places with
  | some [x1, y1, x2, y2] =>
      match ← (Reading.zoom source : Reading (Option α)) with
      | none => return none
      | some zoom =>
          let isFixed ← fixed
          return some (.addArrow ⟨.arrow ⟨x1, y1⟩ ⟨x2, y2⟩, zoom, draft.arrowStyle, isFixed⟩)
  | _ => return none

/-- The corners and the zoom of a polygon: numbers in pairs are corners, and a number
without a partner is the zoom. `none` when a number is out of range. `fuel` is at least
the number of tokens left. -/
def corners (word : String) (gridSize : Int) :
    Nat → Option α → Reading (Option (List (Point α) × Option α))
  | 0, zoom => return some ([], zoom)
  | fuel + 1, zoom => do
      if ← nextIsNumeric α then
        let x : α ← takeNumber
        if ← nextIsNumeric α then
          let y : α ← takeNumber
          if isCoordinate gridSize x && isCoordinate gridSize y then
            let others ← corners word gridSize fuel zoom
            return others.map fun (found, final) => (⟨x, y⟩ :: found, final)
          else
            refuse (word ++ " " ++ plainText x ++ " " ++ plainText y) (.outOfRange .coordinate)
        else
          match magnification x with
          | none => refuse (word ++ " " ++ plainText x) (.outOfRange .zoom)
          | some found => corners word gridSize fuel (some found)
      else return some ([], zoom)

/-- A polygon of at least two corners. -/
def polygon (draft : Draft α) (filled : Bool) (word : String) :
    Reading (Option (Statement α)) := do
  let gridSize ← draft.maxGridSize
  match ← (corners word gridSize (← remaining) none :
      Reading (Option (List (Point α) × Option α))) with
  | none => return none
  | some (first :: second :: others, some zoom) =>
      let isFixed ← fixed
      return some
        (.addPolygon ⟨.polygon filled first (second :: others), zoom, draft.polygonStyle, isFixed⟩)
  | some (_ :: _ :: _, none) => refuseArgument word .numeric
  | some _ => refuse word .tooFewCorners

/-- The new style of a family, if the arguments are right. -/
def restyle (family : StyleFamily) (style : Option (Style α)) : Option (Statement α) :=
  style.map (.setStyle family)

/-- The generations in which a callout shows, and the length of its fades, which is at most
half of them. -/
def window (style : Style α) (word : String) : Reading (Option (Style α)) := do
  if ← accept "ALL" then return some { style with opens := -1, closes := -1, fade := 0 }
  else
    match ← whole α word (.atLeast 0) with
    | none => return none
    | some opens =>
        let source := word ++ " " ++ toString opens
        if ← nextIsNumeric α then
          let closes ← takeWhole α
          let source := source ++ " " ++ toString closes
          if closes < opens then refuse source .secondBelowFirst
          else
            let limit := (closes - opens) / 2
            if ← nextIsNumeric α then
              let fade ← takeWhole α
              if 0 ≤ fade ∧ fade ≤ limit then
                return some { style with opens := opens, closes := closes, fade := fade }
              else refuse (source ++ " " ++ toString fade) (.thirdAbove limit)
            else refuseArgument source .numeric
        else refuseArgument source .numeric

def alpha (style : Style α) (word : String) : Reading (Option (Style α)) := do
  let given : Option α ← number word (.between 0 1)
  return given.map fun value => { style with alpha := value }

/-- The size of labels, which may be fixed. -/
def labelSize (style : Style α) (word : String) : Reading (Option (Style α)) := do
  match ← (number word (.between 4 128) : Reading (Option α)) with
  | none => return none
  | some value =>
      let isFixed ← fixed
      return some { style with size := value, sizeFixed := isFixed }

/-- The width of lines; arrows may give the size of their head as well. -/
def lineSize (style : Style α) (hasHead : Bool) (word : String) : Reading (Option (Style α)) := do
  match ← (number word (.between 1 16) : Reading (Option α)) with
  | none => return none
  | some value =>
      if ← (if hasHead then nextIsNumeric α else pure false) then
        let head : Option α ← number (word ++ " " ++ plainText value) (.between 0 1)
        return head.map fun given => { style with size := value, head := given }
      else return some { style with size := value }

def angle (style : Style α) (word : String) : Reading (Option (Style α)) := do
  match ← (number word (.upTo 0 360) : Reading (Option α)) with
  | none => return none
  | some value =>
      let isFixed ← fixed
      return some { style with angle := value, angleFixed := isFixed }

/-- The drift of callouts. -/
def drift (style : Style α) (word : String) : Reading (Option (Style α)) := do
  if ← fixed then return some { style with driftX := 0, driftY := 0 }
  else
    let (speeds, _) ← numbers (speedBounds : Bounds α) 2 word
    match speeds with
    | some [dx, dy] => return some { style with driftX := dx, driftY := dy }
    | _ => return none

def viewDistance (draft : Draft α) (style : Style α) (word : String) :
    Reading (Option (Style α)) := do
  if ← off then return some { style with viewDistance := -1 }
  else
    let half : α ← draft.halfGrid
    let given : Option α ← number word (.between 0 half)
    return given.map fun value => { style with viewDistance := value }

/-- The zooms between which callouts show. -/
def zoomRange (style : Style α) (word : String) : Reading (Option (Style α)) := do
  if ← off then return some { style with minZoom := none, maxZoom := none }
  else
    match ← (Reading.zoom word : Reading (Option α)) with
    | none => return none
    | some low =>
        let source := word ++ " " ++ plainText low
        match ← (Reading.zoom source : Reading (Option α)) with
        | none => return none
        | some high =>
            if high < low then refuse (source ++ " " ++ plainText high) .secondBelowFirst
            else return some { style with minZoom := some low, maxZoom := some high }

def shadow (style : Style α) : Reading (Option (Style α)) := do
  return some { style with shadow := !(← off) }

/-- The point that callouts look at, and how far from it they are held. -/
def target (draft : Draft α) (style : Style α) (word : String) : Reading (Option (Style α)) := do
  if ← off then return some { style with target := none, standoff := 0 }
  else
    let gridSize ← draft.maxGridSize
    match ← (coordinate word gridSize : Reading (Option α)) with
    | none => return none
    | some x =>
        let source := word ++ " " ++ plainText x
        match ← (coordinate source gridSize : Reading (Option α)) with
        | none => return none
        | some y =>
            if ← nextIsNumeric α then
              let standoff : Option α ← number (source ++ " " ++ plainText y) (.atLeast 0)
              return standoff.map fun given =>
                { style with target := some ⟨x, y⟩, standoff := given }
            else return some { style with target := some ⟨x, y⟩, standoff := 0 }

/-- A setting of a style. -/
def styleSetting (draft : Draft α) (family : StyleFamily) (setting : StyleSetting)
    (word : String) : Reading (Option (Statement α)) := do
  let style := draft.style family
  let changed ←
    match setting with
    | .window => window style word
    | .alpha => alpha style word
    | .size =>
        if family = .label then labelSize style word
        else lineSize style (decide (family = .arrow)) word
    | .angle => angle style word
    | .drift => drift style word
    | .viewDistance => viewDistance draft style word
    | .zoomRange => zoomRange style word
    | .shadow => shadow style
    | .target => target draft style word
  return restyle family changed

def labelAlign (draft : Draft α) (word : String) : Reading (Option (Statement α)) := do
  match Align.ofWord? (← peek) with
  | none => refuseArgument word .alignment
  | some align =>
      advance
      return restyle .label (some { draft.labelStyle with align := align })

end Showreel.Script.Read
