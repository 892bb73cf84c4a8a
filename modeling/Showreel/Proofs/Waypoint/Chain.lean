import Showreel.Proofs.Number.Lawful
import Showreel.Proofs.Waypoint.Change
import Showreel.Waypoint.Resolution

/-!
Contract: chains of keyframes can be built.

Owns:
- the paces and generations between which travel takes a time that can be computed;
- that keyframes have such paces and generations if the settings of their waypoints do;
- that the keyframes of such waypoints can be linked.

Does not own: which settings a script can make.
-/

namespace Showreel

open Number Scalar Waypoint

variable {α : Type} [Scalar α]

/-! ### Paces and generations -/

/-- A positive whole number of generations in a second. -/
def IsPace (gps : α) : Prop :=
  ∃ count : Int, 1 ≤ count ∧ (ofInt count : Except Fault α) = .ok gps

/-- A positive number of steps in a frame, in the range of scalars. -/
def IsStep (α : Type) [Scalar α] (step : Int) : Prop :=
  1 ≤ step ∧ Completes (ofInt step : Except Fault α)

/-- A generation whose distance from every earlier one is in the range of scalars. -/
def IsTarget (α : Type) [Scalar α] (generation : Int) : Prop :=
  0 ≤ generation
    ∧ ∀ count : Int, |count| ≤ generation → Completes (ofInt count : Except Fault α)

/-- A keyframe from which travel can be timed. -/
structure Keyframe.Paced (keyframe : Keyframe α) : Prop where
  gps : IsPace keyframe.gps
  step : IsStep α keyframe.step
  target : IsTarget α keyframe.targetGeneration

/-- A waypoint whose pace and target, where it has them, are those of a script. -/
structure Waypoint.Paced (waypoint : Waypoint α) : Prop where
  gps : ∀ setting value, waypoint.gps = some setting → setting.value = some value → IsPace value
  step : ∀ setting value, waypoint.step = some setting → setting.value = some value →
    IsStep α value
  target : ∀ setting, waypoint.targetGeneration = some setting → IsTarget α setting.value

theorem IsTarget.sub {generation other : Int} (first : IsTarget α generation)
    (second : IsTarget α other) : Completes (ofInt (generation - other) : Except Fault α) := by
  obtain ⟨nonnegative, inRange⟩ := first
  obtain ⟨nonnegativeToo, inRangeToo⟩ := second
  rcases le_total other generation with below | above
  · apply inRange
    rw [abs_of_nonneg (by omega)]
    omega
  · apply inRangeToo
    rw [abs_of_nonpos (by omega)]
    omega

section Values

variable [LawfulScalar α]

theorem isStep_one : IsStep α 1 :=
  ⟨le_refl 1, exists_ofInt_of_small (by norm_num)⟩

theorem isTarget_zero : IsTarget α 0 := by
  refine ⟨le_refl 0, fun count none => exists_ofInt_of_small ?_⟩
  exact none.trans (by norm_num)

/-! ### Travel -/

/-- Neither factor of the pace vanishes, and so the time of travel is defined. -/
theorem completes_travelTime {pace : Keyframe α} (gps : IsPace pace.gps)
    (step : IsStep α pace.step) {generation other : Int} (target : IsTarget α generation)
    (targetToo : IsTarget α other) : Completes (Chain.travelTime (generation - other) pace) := by
  obtain ⟨count, positive, known⟩ := gps
  obtain ⟨atLeast, steps, knownSteps⟩ := step
  obtain ⟨span, knownSpan⟩ := target.sub targetToo
  have nonzero : (pace.gps * steps == (0 : α)) = false :=
    LawfulScalar.product positive atLeast known knownSteps
  have divided : Completes (divide (span * 1000) (pace.gps * steps)) := by
    rw [divide, nonzero]
    exact ⟨_, rfl⟩
  unfold Chain.travelTime
  rw [knownSpan, knownSteps]
  exact divided

end Values

/-! ### Keyframes -/

theorem settle_holds {β : Type} {holds : β → Prop} {setting : Open β} {base : β}
    (set : ∀ given value, setting = some given → given.value = some value → holds value)
    (based : holds base) : holds (settle setting base none).1 := by
  unfold settle
  split
  · exact based
  · rename_i given
    split
    · rename_i impossible
      cases impossible
    · split
      · exact based
      · rename_i value present
        exact set given value rfl present

section Keyframes

variable {waypoint : Waypoint α} {base : Keyframe α} {pinned : α}

theorem resolve_gps (paced : waypoint.Paced) (based : IsPace base.gps)
    (rate : waypoint.step.isSome = true → IsPace pinned) :
    IsPace (waypoint.resolve base pinned none).gps := by
  change IsPace (if waypoint.step.isSome then pinned else (settle waypoint.gps base.gps none).1)
  split
  · exact rate ‹_›
  · exact settle_holds paced.gps based

theorem resolve_step [LawfulScalar α] (paced : waypoint.Paced) (based : IsStep α base.step) :
    IsStep α (waypoint.resolve base pinned none).step := by
  change IsStep α (if waypoint.gps.isSome && waypoint.step.isNone then 1
    else (settle waypoint.step base.step none).1)
  split
  · exact isStep_one
  · exact settle_holds paced.step based

end Keyframes

namespace Chain

variable [LawfulScalar α] {pinned : α}

omit [LawfulScalar α] in
theorem target_holds {waypoint : Waypoint α} (paced : waypoint.Paced) {before : Int}
    (based : IsTarget α before) :
    IsTarget α (waypoint.targetGeneration.elim before Setting.value) := by
  cases found : waypoint.targetGeneration with
  | none => exact based
  | some setting => exact paced.target setting found

theorem start_paced {first : Waypoint α} {live : Keyframe α} (paced : first.Paced)
    (based : live.Paced) (rate : first.step.isSome = true → IsPace pinned) :
    (start first live pinned).Paced where
  gps := resolve_gps paced based.gps rate
  step := @resolve_step _ _ _ _ pinned _ paced based.step
  target := target_holds paced isTarget_zero

/-- One waypoint can be linked to a paced keyframe, and its keyframe is paced again. -/
theorem exists_link {previous : Keyframe α} {waypoint : Waypoint α} (paced : waypoint.Paced)
    (based : previous.Paced) (rate : waypoint.step.isSome = true → IsPace pinned) :
    ∃ keyframe reported, link previous pinned waypoint = .ok (keyframe, reported)
      ∧ keyframe.Paced := by
  have gps : IsPace (waypoint.resolve previous pinned none).gps :=
    resolve_gps paced based.gps rate
  have step : IsStep α (waypoint.resolve previous pinned none).step :=
    resolve_step paced based.step
  have target := target_holds paced based.target
  unfold link
  dsimp only
  cases waypoint.pauseSeconds with
  | some pause => exact ⟨_, _, rfl, gps, step, target⟩
  | none =>
      obtain ⟨span, travelled⟩ := completes_travelTime gps step target based.target
      dsimp only
      rw [travelled]
      exact ⟨_, _, rfl, gps, step, target⟩

theorem completes_linkAll {waypoints : List (Waypoint α)}
    (paced : ∀ waypoint ∈ waypoints, waypoint.Paced) {previous : Keyframe α}
    (based : previous.Paced)
    (rate : ∀ waypoint ∈ waypoints, waypoint.step.isSome = true → IsPace pinned) :
    Completes (linkAll pinned previous waypoints) := by
  -- each keyframe that is linked is paced, and so the next one can be linked to it
  induction waypoints generalizing previous with
  | nil => exact ⟨_, rfl⟩
  | cons waypoint rest inductionHypothesis =>
      obtain ⟨pacedHere, pacedRest⟩ := List.forall_mem_cons.mp paced
      obtain ⟨rateHere, rateRest⟩ := List.forall_mem_cons.mp rate
      obtain ⟨keyframe, reported, linked, pacedToo⟩ := exists_link pacedHere based rateHere
      have linkedRest := inductionHypothesis pacedRest pacedToo rateRest
      rw [linkAll]
      exact (completes_bind_of_ok linked).mpr (completes_bind_pure_iff.mpr linkedRest)

omit [LawfulScalar α] in
/-- What a step count is pinned to is the refresh rate. -/
theorem ofInt_of_pinnedRate {waypoints : List (Waypoint α)} {refreshRate : Int}
    (pins : pinnedRate waypoints refreshRate = .ok pinned) {waypoint : Waypoint α}
    (member : waypoint ∈ waypoints) (steps : waypoint.step.isSome = true) :
    (ofInt refreshRate : Except Fault α) = .ok pinned := by
  have needed : (waypoints.any fun waypoint => waypoint.step.isSome) = true :=
    List.any_eq_true.mpr ⟨waypoint, member, steps⟩
  rwa [pinnedRate, if_pos needed] at pins

/-- **The keyframes of paced waypoints can be linked**, whatever the points of interest beside
them. -/
theorem completes_build {first : Waypoint α} {later pois : List (Waypoint α)} {live : Keyframe α}
    {refreshRate : Int} (paced : first.Paced) (pacedToo : ∀ waypoint ∈ later, waypoint.Paced)
    (based : live.Paced) (atLeast : 1 ≤ refreshRate)
    (known : Completes (ofInt refreshRate : Except Fault α)) :
    Completes (build first later pois live refreshRate) := by
  obtain ⟨pinned, pins⟩ : Completes (pinnedRate (first :: later ++ pois) refreshRate : Except Fault α) := by
    unfold pinnedRate
    split
    · exact known
    · exact ⟨0, rfl⟩
  have rate : ∀ waypoint ∈ first :: later, waypoint.step.isSome = true → IsPace pinned :=
    fun waypoint member steps =>
      ⟨refreshRate, atLeast, ofInt_of_pinnedRate pins (List.mem_append_left pois member) steps⟩
  obtain ⟨rateFirst, rateLater⟩ := List.forall_mem_cons.mp rate
  have linked := completes_linkAll pacedToo (start_paced paced based rateFirst) rateLater
  unfold build
  exact (completes_bind_of_ok pins).mpr (completes_bind_pure_iff.mpr linked)

end Chain

end Showreel
