import Showreel.Proofs.Script.ArgumentLists

/-!
Contract: what the commands for waypoints, points of interest and tracks read.

Owns: for each of them, that a statement is given without a report, and is sound.

Does not own: what the statements do.
-/

namespace Showreel.Script

open Number Scalar Waypoint Reading

variable {α : Type} [Scalar α] {outlook : Outlook α}
  {expects : List String → List String → Prop}

namespace Gives

theorem generation (word : String) :
    Gives outlook expects (Read.generation word) outlook.Sound :=
  Gives.map (Gives.whole word _) fun _ ⟨whole, bounded⟩ =>
    ⟨nonnegative_of_contains bounded, whole⟩

theorem pause (word : String) :
    Gives outlook expects (Read.pause word) outlook.Sound :=
  Gives.map (Gives.numberIn word _) fun _ _ => trivial

theorem openPoi : Gives outlook expects Read.openPoi outlook.Sound :=
  Passes.bind (Passes.accept "INITIAL" (by decide)) fun _ _ => Gives.known trivial

theorem poiStart (word : String) :
    Gives outlook expects (Read.poiStart outlook.draft word) outlook.Sound := by
  refine Gives.bind (Gives.whole word _) Withholds.none fun target _ => ?_
  exact Twins.branch (fun _ => Gives.known trivial) fun _ => (Withholds.refuse _ _).gives

theorem poiSpeed (word : String) :
    Gives outlook expects (Read.poiSpeed word) outlook.Sound :=
  Gives.map (Gives.whole word _) fun _ _ => trivial

theorem copyAll (word : String) :
    Gives outlook expects (Read.copyAll outlook.draft word) outlook.Sound := by
  refine Passes.bind (Passes.accept "INITIAL" (by decide)) fun given _ => ?_
  refine Twins.branch (fun _ => ?_) fun _ => (Withholds.refuse _ _).gives
  exact Twins.branch (fun inPoi => Gives.known inPoi) fun _ => (Withholds.refuse _ _).gives

theorem copyField (field : Field) :
    Gives outlook expects (Read.copyField outlook.draft field)
      outlook.Sound :=
  Twins.branch (fun inPoi => Gives.known inPoi) fun _ => (Withholds.refuse _ _).gives

theorem position (field : Field) (toValue : α → field.Value α) (word : String)
    (written : ∀ value, Written outlook.refreshRate field (toValue value)) :
    Gives outlook expects (Read.position outlook.draft field toValue word)
      outlook.Sound :=
  Twins.ofExcept (fun _ failed => .grid failed) fun _ _ =>
    Gives.map (Gives.numberIn word _) fun value _ => written value

theorem zoomField (word : String) :
    Gives outlook expects (Read.zoom word) outlook.Sound := by
  refine Twins.ifNumeric ?_ (Withholds.refuseArgument _ _).gives
  refine Passes.bind (Passes.takeNumber numeric_head) fun literal _ => ?_
  cases zoomed : magnification literal with
  | none => exact (Withholds.refuse _ _).gives
  | some value => exact Gives.known ⟨literal, zoomed⟩

theorem wholeField (field : Field) (toValue : Int → field.Value α) (bounds : Bounds Int)
    (word : String)
    (written : ∀ count, IsWhole α count → bounds.contains count = true →
      Written outlook.refreshRate field (toValue count)) :
    Gives outlook expects (Read.wholeField field toValue bounds word)
      outlook.Sound :=
  Gives.map (Gives.whole word bounds) fun count ⟨whole, bounded⟩ => written count whole bounded

theorem numberField (field : Field) (toValue : α → field.Value α) (bounds : Bounds α)
    (word : String) (written : ∀ value, Written outlook.refreshRate field (toValue value)) :
    Gives outlook expects (Read.numberField field toValue bounds word)
      outlook.Sound :=
  Gives.map (Gives.numberIn word _) fun value _ => written value

/-- A pace is a positive whole number, at most the one that was written. -/
theorem pace (word : String) :
    Gives outlook expects (Read.pace outlook.refreshRate word) outlook.Sound := by
  refine Gives.bind (Gives.whole word _) Withholds.none fun count read => ?_
  obtain ⟨⟨value, whole⟩, bounded⟩ := read
  have positive : 1 ≤ count := by
    simp [Bounds.contains, Bounds.atLeast] at bounded
    exact bounded
  refine Twins.branch (fun faster => ?_) fun slower => ?_
  · have finite : ∀ fault, (ofInt outlook.refreshRate : Except Fault α) = .error fault →
        outlook.Excused fault := by
      intro fault failed
      by_cases low : outlook.refreshRate < 1
      · exact .rate low
      · exact .uncountable whole (by omega) failed
    refine Twins.branch (fun zero => Twins.throw (.rate (by omega))) fun _ => ?_
    refine Twins.ofExcept finite fun gps known => Gives.known ?_
    refine And.intro (fun steps taken => ?_) fun shown => ⟨outlook.refreshRate, shown, known⟩
    split at taken
    · obtain rfl := Option.some.inj taken
      have steps : ∀ pace : Int, 2 ≤ pace →
          1 ≤ min pace Read.mostSteps ∧ min pace Read.mostSteps ≤ Read.mostSteps := by
        intro pace several
        simp only [Read.mostSteps]
        omega
      exact steps _ ‹_›
    · cases taken
  · refine Twins.ofExcept (fun fault failed => ?_) fun gps known => Gives.known ?_
    · exact .uncountable whole (by omega) failed
    · refine And.intro (fun _ impossible => ?_) fun _ => ⟨count, positive, known⟩
      cases impossible

theorem limit (stops : Bool) (word : String) :
    Gives outlook expects (Read.limit stops word) outlook.Sound := by
  refine Passes.bind Passes.off fun given _ => ?_
  cases given with
  | true => exact Gives.known (.inr rfl)
  | false => exact Gives.map (Gives.whole word _) fun _ ⟨whole, _⟩ => .inl whole

theorem theme (word : String) :
    Gives outlook expects (Read.theme word) outlook.Sound := by
  refine Meets.peek fun token => ?_
  refine Twins.ifNumeric (Gives.map (Gives.whole word _) fun _ _ => trivial) ?_
  refine Twins.branch (fun custom => ?_) fun _ => ?_
  · have passable : token ∉ outlook.stops := by
      obtain rfl : token = "CUSTOM" := by simpa using custom
      exact outlook.literal_passes (by decide)
    exact Meets.advance passable (Gives.known trivial)
  · cases found : Theme.ofName? token with
    | some theme =>
        refine Meets.advance ?_ (Gives.known trivial)
        exact outlook.passes (fun token => (Theme.ofName? token).isSome) (by decide) (by simp [found])
    | none =>
        refine Twins.branch (fun _ => (Withholds.refuseMissing _).gives) fun named => ?_
        exact Meets.advance (visible_passes named) (Withholds.refuse _ _).gives

theorem fieldValue (word : String) (field : Field) :
    Gives outlook expects (Read.fieldValue outlook.draft outlook.refreshRate word field)
      outlook.Sound := by
  cases field with
  | x => exact position .x id word fun _ => trivial
  | y => exact position .y id word fun _ => trivial
  | zoom => exact zoomField word
  | angle => exact wholeField .angle .whole _ word fun count whole _ => ⟨count, whole, rfl⟩
  | tilt => exact numberField .tilt id _ word fun _ => trivial
  | layers => exact wholeField .layers id _ word fun _ whole _ => whole
  | depth => exact numberField .depth id _ word fun _ => trivial
  | theme => exact theme word
  | gps => exact pace word
  | step => exact wholeField .step id _ word fun _ _ bounded => between_of_contains bounded
  | loop => exact limit false word
  | stop => exact limit true word

theorem field (word : String) (name : Field) :
    Gives outlook expects (Read.field outlook.draft outlook.refreshRate word name)
      outlook.Sound :=
  Passes.bind (Passes.accept "INITIAL" (by decide)) fun _ _ =>
    Twins.branch (fun _ => copyField name) fun _ => fieldValue word name

theorem motion (linear : Bool) (word : String) :
    Gives outlook expects (Read.motion linear word) outlook.Sound := by
  refine Meets.peek fun axis => ?_
  cases found : Read.axisSwitches.lookup axis with
  | none => exact (Withholds.refuseArgument _ _).gives
  | some switches =>
      refine Meets.advance ?_ (Gives.known trivial)
      exact outlook.passes (fun axis => (Read.axisSwitches.lookup axis).isSome) (by decide)
        (by simp [found])

theorem autofit : Gives outlook expects Read.autofit outlook.Sound :=
  Passes.bind Passes.off fun _ _ => Gives.known trivial

theorem switch (name : Switch) (word : String) :
    Gives outlook expects (Read.switch name word) outlook.Sound :=
  Passes.bind Passes.off fun _ _ => Gives.known trivial

theorem gridMajor (word : String) :
    Gives outlook expects (Read.gridMajor word) outlook.Sound :=
  Gives.map (Gives.whole word _) fun _ _ => trivial

theorem track (word : String) :
    Gives outlook expects (Read.track word) outlook.Sound := by
  refine ofList (Meets.numbersIn _ 2 word) (fun _ => Withholds.none) fun values source => ?_
  dsimp only
  split
  · exact Gives.known trivial
  · exact Withholds.none.gives

theorem trackLoop (word : String) :
    Gives outlook expects (Read.trackLoop word) outlook.Sound := by
  refine Gives.bind (Gives.whole word _) Withholds.none fun period _ => ?_
  refine ofList (Meets.numbersIn _ 2 _) (fun _ => Withholds.none) fun values source => ?_
  dsimp only
  split
  · exact Gives.known trivial
  · exact Withholds.none.gives

theorem trackBox (word : String) :
    Gives outlook expects (Read.trackBox word) outlook.Sound := by
  refine ofList (Meets.numbersIn _ 4 word) (fun _ => Withholds.none) fun values source => ?_
  dsimp only
  split
  · refine Twins.branch (fun _ => (Withholds.refuse _ _).gives) fun _ => ?_
    exact Twins.branch (fun _ => (Withholds.refuse _ _).gives) fun _ => Gives.known trivial
  · exact Withholds.none.gives

end Gives

end Showreel.Script
