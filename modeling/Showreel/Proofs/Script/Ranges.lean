import Showreel.Proofs.Script.Closing
import Showreel.Proofs.Script.Steps
import Showreel.Proofs.Waypoint.Law

/-!
Contract: the ranges of what a script can write.

Owns:
- the range of each field, of the frames of a journey and of a start generation;
- the pace that a command is read as, with the steps that go with it;
- that the reading of every command keeps to the ranges;
- waypoints and drafts within the ranges, and that every statement, string and step keeps them
  there.

Does not own: the fields that a script leaves open, and the ends of the ranges as exact numbers.
-/

namespace Showreel.Script

open Number Scalar Waypoint

variable {α : Type} [Scalar α] {refreshRate : Int}

/-! ### Ranges -/

/-- A number that a token can stand for. -/
def IsRead (value : α) : Prop :=
  ∃ token, readToken? token = some value

/-- A magnification that a token can stand for. -/
def IsReadZoom (zoom : α) : Prop :=
  ∃ literal : α, IsRead literal ∧ Reading.magnification literal = some zoom

/-- A value in the range in which a script can write a field. Numbers are in the range in which
their token is accepted; a pace is a whole number, at most the refresh rate. -/
def Ranged (refreshRate : Int) : (field : Field) → field.Value α → Prop
  | .zoom, zoom => @IsReadZoom α _ zoom
  | .angle, angle => ∃ count : Int, 0 ≤ count ∧ count ≤ 359 ∧ angle = Angle.whole (α := α) count
  | .tilt, tilt => @IsRead α _ tilt ∧ (Bounds.between (1 : α) 5).contains tilt = true
  | .layers, count => 1 ≤ count ∧ count ≤ 10
  | .depth, depth => @IsRead α _ depth ∧ (Bounds.between (0 : α) 1).contains depth = true
  | .theme, theme => 0 ≤ theme ∧ theme ≤ Theme.custom
  | .gps, gps => 1 ≤ refreshRate → ∃ count : Int, 1 ≤ count ∧ count ≤ refreshRate
      ∧ (ofInt count : Except Fault α) = .ok gps
  | .step, count => 1 ≤ count ∧ count ≤ Read.mostSteps
  | .loop, generation | .stop, generation => generation = -1 ∨ 1 ≤ generation
  | .x, _ | .y, _ => True

/-- The ranges of all that a script can write for a waypoint. -/
def ranges (α : Type) [Scalar α] (refreshRate : Int) : Law α where
  field := Ranged refreshRate
  speed frames := 0 ≤ frames ∧ frames ≤ Read.mostFrames
  start generation := -1 ≤ generation
  target generation := 0 ≤ generation

/-- A track over a loop has a period of one generation at least. -/
def RangedTrack (track : Track α) : Prop :=
  track.mode = .loop → 1 ≤ track.period

/-- What the reading of a command vouches for: all values are in their ranges. -/
def Statement.Ranged (refreshRate : Int) : Statement α → Prop
  | .generation target | .poiStart target => 0 ≤ target
  | .poiSpeed frames => 0 ≤ frames ∧ frames ≤ Read.mostFrames
  | .setField field value _ => Script.Ranged refreshRate field value
  | .setPace steps gps _ => (∀ count ∈ steps, @Script.Ranged α _ refreshRate .step count)
      ∧ @Script.Ranged α _ refreshRate .gps gps
  | .setLimit _ limit _ => @Script.Ranged α _ refreshRate .loop limit
  | .setTrack track _ => RangedTrack track
  | .openLabel item => IsReadZoom item.zoom
  | _ => True

/-! ### Readings -/

theorem Yields.takeNumber : Yields (Reading.takeNumber : Reading α) IsRead :=
  fun scan => (Ensures.takeNumber scan).mono fun _ _ taken => ⟨scan.reader.peek, taken.1⟩

/-- A number is read from a token and passes the test. -/
theorem Yields.numberIn (source : String) (inside : α → Bool) :
    Offers (fun value => IsRead value ∧ inside value = true) (Reading.numberIn source inside) := by
  refine .bind fun isNumber => .branch ?_ (.refuseArgument _ _)
  refine .andThen .takeNumber fun value read => ?_
  by_cases holds : inside value = true
  · rw [if_pos holds]
    exact .some ⟨read, holds⟩
  · rw [if_neg holds]
    exact .refuse _ _

theorem Yields.whole (source : String) (bounds : Bounds Int) :
    Offers (fun count => bounds.contains count = true) (Reading.whole α source bounds) := by
  refine .bind fun isNumber => .branch (.bind fun count => ?_) (.refuseArgument _ _)
  by_cases holds : bounds.contains count = true
  · rw [if_pos holds]
    exact .some holds
  · rw [if_neg holds]
    exact .refuse _ _

theorem Yields.zoom (source : String) :
    Offers IsReadZoom (Reading.zoom source : Reading (Option α)) := by
  refine .bind fun isNumber => .branch ?_ (.refuseArgument _ _)
  refine .andThen .takeNumber fun literal read => ?_
  cases zoomed : Reading.magnification literal with
  | none => exact .refuse _ _
  | some value => exact .some ⟨literal, read, zoomed⟩

theorem bounded_atLeast {low count : Int} (bounded : (Bounds.atLeast low).contains count = true) :
    low ≤ count := by
  simp [Bounds.contains, Bounds.atLeast] at bounded
  exact bounded

/-- The steps that go with a pace: several for each displayed generation, if it is at least twice the
refresh rate. -/
def paceSteps (refreshRate count : Int) : Option Int :=
  if refreshRate < count ∧ 2 ≤ count.fdiv refreshRate then
    some (min (count.fdiv refreshRate) Read.mostSteps)
  else none

theorem two_le_of_mem_paceSteps {count steps : Int} (given : steps ∈ paceSteps refreshRate count) :
    2 ≤ steps ∧ steps ≤ Read.mostSteps := by
  unfold paceSteps at given
  split at given
  · cases given
    simp only [Read.mostSteps]
    omega
  · cases given

/-- A pace that is read: at most the refresh rate, with the steps that make up for the rest. -/
def Statement.IsPace (refreshRate : Int) (statement : Statement α) : Prop :=
  ∃ count gps, 1 ≤ count ∧ (ofInt (min count refreshRate) : Except Fault α) = .ok gps
    ∧ statement = .setPace (paceSteps refreshRate count) gps ("GPS " ++ toString count)

theorem Yields.pace (word : String) :
    Offers (Statement.IsPace refreshRate)
      (Read.pace refreshRate word : Reading (Option (Statement α))) := by
  refine .andThen (.whole word _) fun count bounded => ?_
  cases count with
  | none => exact .none
  | some count =>
      have positive : 1 ≤ count := bounded_atLeast (bounded count rfl)
      have fast (above : refreshRate < count) : Offers (Statement.IsPace refreshRate) (do
          let gps ← (ofInt refreshRate : Except Fault α)
          return Option.some (.setPace (if 2 ≤ count.fdiv refreshRate then
            Option.some (min (count.fdiv refreshRate) Read.mostSteps) else Option.none) gps
            ("GPS " ++ toString count))) := by
        refine .andThen (.lift _) fun gps known => .some ⟨count, gps, positive, ?_, ?_⟩
        · rwa [Int.min_eq_right above.le]
        · simp only [paceSteps, above, true_and]
      refine .branchOn (fun above => .branch (.bind fun _ => fast above) (fast above)) fun within => ?_
      refine .andThen (.lift _) fun gps known => .some ⟨count, gps, positive, ?_, ?_⟩
      · rwa [Int.min_eq_left (Int.not_lt.mp within)]
      · rw [paceSteps, if_neg fun both => within both.1]

/-- The number of a named theme is below that of the custom theme. -/
theorem ofName?_bounds {text : String} {theme : Int} (found : Theme.ofName? text = some theme) :
    0 ≤ theme ∧ theme ≤ Theme.custom := by
  obtain ⟨index, known, rfl⟩ := Option.map_eq_some_iff.mp found
  obtain ⟨within, -⟩ := List.findIdx?_eq_some_iff_getElem.mp known
  exact ⟨Int.natCast_nonneg index, Int.ofNat_le.mpr (Nat.le_of_lt within)⟩

/-! ### Commands -/

/-- The reading comes to a statement within the ranges, or to none. -/
abbrev ReadsRanged (refreshRate : Int) (reading : Reading (Option (Statement α))) : Prop :=
  Offers (Statement.Ranged refreshRate) reading

namespace ReadsRanged

theorem generation (word : String) :
    ReadsRanged refreshRate (Read.generation word : Reading (Option (Statement α))) :=
  .andThen (.whole word _) fun _ bounded =>
    .map fun count given => nonnegative_of_contains (bounded count given)

theorem poiStart (draft : Draft α) (word : String) :
    ReadsRanged refreshRate (Read.poiStart draft word) := by
  refine .andThen (.whole word _) fun target bounded => ?_
  cases target with
  | none => exact .none
  | some target =>
      exact .branch (.some (nonnegative_of_contains (bounded target rfl))) (.refuse _ _)

theorem poiSpeed (word : String) :
    ReadsRanged refreshRate (Read.poiSpeed word : Reading (Option (Statement α))) :=
  .andThen (.whole word _) fun _ bounded =>
    .map fun count given => between_of_contains (bounded count given)

theorem position (draft : Draft α) (field : Field) (toValue : α → field.Value α) (word : String)
    (free : ∀ value, Ranged refreshRate field (toValue value)) :
    ReadsRanged refreshRate (Read.position draft field toValue word) :=
  .bind fun _ => .bind fun _ => .map fun value _ => free value

theorem zoom (word : String) :
    ReadsRanged refreshRate (Read.zoom word : Reading (Option (Statement α))) := by
  refine .bind fun isNumber => .branch ?_ (.refuseArgument _ _)
  refine .andThen .takeNumber fun literal read => ?_
  cases zoomed : Reading.magnification literal with
  | none => exact .refuse _ _
  | some value => exact .some ⟨literal, read, zoomed⟩

theorem wholeField (field : Field) (toValue : Int → field.Value α) (bounds : Bounds Int)
    (word : String) (ranged : ∀ count, bounds.contains count = true →
      Ranged refreshRate field (toValue count)) :
    ReadsRanged refreshRate (Read.wholeField field toValue bounds word) :=
  .andThen (.whole word bounds) fun _ bounded =>
    .map fun count given => ranged count (bounded count given)

theorem numberField (field : Field) (toValue : α → field.Value α) (bounds : Bounds α)
    (word : String) (ranged : ∀ value, IsRead value → bounds.contains value = true →
      Ranged refreshRate field (toValue value)) :
    ReadsRanged refreshRate (Read.numberField field toValue bounds word) := by
  refine .andThen (.numberIn word _) fun result accepted => ?_
  exact .map fun value given => ranged value (accepted value given).1 (accepted value given).2

/-- A pace is at most the refresh rate, and its steps are as many as a script can write. -/
theorem pace (word : String) :
    ReadsRanged refreshRate (Read.pace refreshRate word : Reading (Option (Statement α))) := by
  refine (Yields.pace word).mono fun result isPace statement given => ?_
  obtain ⟨count, gps, positive, known, rfl⟩ := isPace statement given
  constructor
  · intro steps given
    obtain ⟨several, most⟩ := two_le_of_mem_paceSteps given
    exact ⟨one_le_two.trans several, most⟩
  · intro rate
    exact ⟨min count refreshRate, by omega, by omega, known⟩

theorem limit (stops : Bool) (word : String) :
    ReadsRanged refreshRate (Read.limit stops word : Reading (Option (Statement α))) := by
  refine .bind fun off => .branch (.some (.inl rfl)) ?_
  refine .andThen (.whole word _) fun result bounded => ?_
  exact .map fun generation given => .inr (bounded_atLeast (bounded generation given))

theorem theme (word : String) :
    ReadsRanged refreshRate (Read.theme word : Reading (Option (Statement α))) := by
  refine .bind fun token => .bind fun isNumber => .branch ?_ (.branch ?_ ?_)
  · refine .andThen (.whole word _) fun result bounded => .map fun theme given => ?_
    obtain ⟨low, high⟩ := between_of_contains (bounded theme given)
    exact ⟨low, Int.le_trans high (Int.sub_le_self _ (by decide))⟩
  · exact .bind fun _ => .some (show 0 ≤ Theme.custom ∧ Theme.custom ≤ Theme.custom by decide)
  · cases found : Theme.ofName? token with
    | none => exact .branch (.refuse _ _) (.bind fun _ => .refuse _ _)
    | some theme => exact .bind fun _ => .some (ofName?_bounds found)

theorem fieldValue (draft : Draft α) (word : String) (field : Field) :
    ReadsRanged refreshRate (Read.fieldValue draft refreshRate word field) := by
  cases field with
  | x => exact position draft .x id word fun _ => trivial
  | y => exact position draft .y id word fun _ => trivial
  | zoom => exact zoom word
  | angle =>
      apply wholeField .angle .whole _ word
      intro count bounded
      obtain ⟨low, high⟩ := between_of_contains bounded
      exact ⟨count, low, high, rfl⟩
  | tilt => exact numberField .tilt id _ word fun _ read bounded => ⟨read, bounded⟩
  | layers => exact wholeField .layers id _ word fun _ => between_of_contains
  | depth => exact numberField .depth id _ word fun _ read bounded => ⟨read, bounded⟩
  | theme => exact theme word
  | gps => exact pace word
  | step => exact wholeField .step id _ word fun _ => between_of_contains
  | loop => exact limit false word
  | stop => exact limit true word

theorem field (draft : Draft α) (word : String) (name : Field) :
    ReadsRanged refreshRate (Read.field draft refreshRate word name) :=
  .bind fun _ => .branch (.branch (.some trivial) (.refuse _ _)) (fieldValue draft word name)

theorem track (word : String) :
    ReadsRanged refreshRate (Read.track word : Reading (Option (Statement α))) := by
  refine .bind fun (speeds, source) => ?_
  dsimp only
  split
  · exact .some fun impossible => nomatch impossible
  · exact .none

theorem trackLoop (word : String) :
    ReadsRanged refreshRate (Read.trackLoop word : Reading (Option (Statement α))) := by
  refine .andThen (.whole word _) fun period bounded => ?_
  cases period with
  | none => exact .none
  | some period =>
      refine .bind fun (speeds, source) => ?_
      dsimp only
      split
      · exact .some fun _ => bounded_atLeast (bounded period rfl)
      · exact .none

theorem trackBox (word : String) :
    ReadsRanged refreshRate (Read.trackBox word : Reading (Option (Statement α))) := by
  refine .bind fun (speeds, source) => ?_
  dsimp only
  split
  · refine .branch (.refuse _ _) (.branch (.refuse _ _) (.some ?_))
    exact fun impossible => nomatch impossible
  · exact .none

theorem label (draft : Draft α) (word : String) :
    ReadsRanged refreshRate (Read.label draft word) := by
  refine .bind fun gridSize => .bind fun x => ?_
  cases x with
  | none => exact .none
  | some x =>
      refine .bind fun y => ?_
      cases y with
      | none => exact .none
      | some y =>
          refine .andThen (.zoom _) fun zoom read => ?_
          cases zoom with
          | none => exact .none
          | some zoom =>
              exact .bind fun isFixed => .bind fun token =>
                .branch (.some (read zoom rfl)) (.refuseArgument _ _)

/-- **Every command is read as a statement within the ranges, or as none.** -/
theorem every (draft : Draft α) (word : String) (command : Command) :
    ReadsRanged refreshRate (command.read draft refreshRate word) := by
  cases command with
  | generation => exact generation word
  | poiStart => exact poiStart draft word
  | poiSpeed => exact poiSpeed word
  | field name => exact field draft word name
  | track => exact track word
  | trackLoop => exact trackLoop word
  | trackBox => exact trackBox word
  | label => exact label draft word
  | _ =>
      -- no statement of the other commands has a value with a range
      intro scan result after done statement given
      cases Reads.every draft refreshRate word _ scan result after done statement given
      all_goals exact trivial

end ReadsRanged

end Showreel.Script
