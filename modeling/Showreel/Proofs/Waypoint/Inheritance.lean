import Mathlib.Data.List.Forall2
import Showreel.Proofs.Waypoint.ClosedForm

/-!
Contract: what a keyframe takes from its waypoint, and what from the keyframe before it.

Owns:
- the fields of a keyframe that comes from a waypoint over a base, with the coupling of its pace;
- that a point of interest takes what it leaves open, and what it copies, from the first keyframe;
- that the keyframes of a chain, and the points of interest beside it, come from their waypoints;
- that a field which all later waypoints of a chain leave open is the same in all its keyframes.

Does not own: which settings a script can make.
-/

namespace Showreel

open Number Waypoint

variable {α : Type}

namespace Waypoint

/-! ### Single settings -/

section Settings

variable {β : Type}

/-- The same setting over what it came to before, and copied from there, comes to the same. -/
theorem settle_again (setting : Open β) (base : β) :
    (settle setting (settle setting base none).1 (some (settle setting base none).1)).1
      = (settle setting base none).1 := by
  unfold settle
  cases setting with
  | none => rfl
  | some given =>
      rcases given with ⟨value, source, origin⟩
      cases origin <;> cases value <;> rfl

/-- What is left open or copied comes to the value of the first keyframe. -/
theorem settle_copied {setting : Open β} (value : β)
    (copied : ∀ given, setting = some given → given.origin = .initial) :
    (settle setting value (some value)).1 = value := by
  unfold settle
  cases setting with
  | none => rfl
  | some given => simp [copied given rfl]

theorem settle_written (value base : β) (source : String) (initial : Option β) :
    (settle (some ⟨some value, source, .script⟩) base initial).1 = value := by
  simp [settle]

end Settings

/-! ### Keyframes -/

variable [Scalar α]

/-- A keyframe that comes from a waypoint over a base. Steps pin the generations per second to the
refresh rate, and generations per second without steps are taken one by one. -/
structure Resolves (refreshRate : Int) (waypoint : Waypoint α) (base : Keyframe α)
    (initial : Option (Keyframe α)) (keyframe : Keyframe α) : Prop where
  field : ∀ field, field ≠ .gps → field ≠ .step → keyframe.get field
    = (settle (waypoint.get field) (base.get field) (initial.map fun first => first.get field)).1
  pinned : waypoint.step.isSome = true →
    (Scalar.ofInt refreshRate : Except Fault α) = .ok keyframe.gps
  gps : waypoint.step = none → keyframe.gps
    = (settle waypoint.gps base.gps (initial.map Keyframe.gps)).1
  single : waypoint.gps.isSome = true → waypoint.step = none → keyframe.step = 1
  step : waypoint.gps = none ∨ waypoint.step.isSome = true → keyframe.step
    = (settle waypoint.step base.step (initial.map Keyframe.step)).1

namespace Resolves

variable {refreshRate : Int} {waypoint : Waypoint α} {base keyframe other : Keyframe α}
  {initial : Option (Keyframe α)}

theorem resolve (base : Keyframe α) (initial : Option (Keyframe α)) {pinned : α}
    (rate : waypoint.step.isSome = true → (Scalar.ofInt refreshRate : Except Fault α) = .ok pinned) :
    Resolves refreshRate waypoint base initial (waypoint.resolve base pinned initial) where
  field field notGps notStep := by
    cases field with
    | gps => exact absurd rfl notGps
    | step => exact absurd rfl notStep
    | _ => rfl
  pinned stepped := by simp [Waypoint.resolve, stepped, rate stepped]
  gps unstepped := by
    simp only [Waypoint.resolve, unstepped, Option.isSome_none]
    rfl
  single paced unstepped := by simp [Waypoint.resolve, paced, unstepped]
  step either := by
    have coupled : (waypoint.gps.isSome && waypoint.step.isNone) = false := by
      rcases either with unpaced | stepped
      · simp [unpaced]
      · simp [← Option.not_isSome, stepped]
    simp only [Waypoint.resolve, coupled]
    rfl

/-- Only the fields of a keyframe count. -/
theorem congr (resolves : Resolves refreshRate waypoint base initial keyframe)
    (same : ∀ field, other.get field = keyframe.get field) :
    Resolves refreshRate waypoint base initial other where
  field field notGps notStep := (same field).trans (resolves.field field notGps notStep)
  pinned stepped := by
    rw [show other.gps = keyframe.gps from same .gps]
    exact resolves.pinned stepped
  gps unstepped := (same .gps : other.gps = keyframe.gps).trans (resolves.gps unstepped)
  single paced unstepped :=
    (same .step : other.step = keyframe.step).trans (resolves.single paced unstepped)
  step either := (same .step : other.step = keyframe.step).trans (resolves.step either)

/-- A pace without steps is the pace of the keyframe. -/
theorem pace_written (resolves : Resolves refreshRate waypoint base initial keyframe) {gps : α}
    {source : String} (paced : waypoint.gps = some ⟨some gps, source, .script⟩)
    (unstepped : waypoint.step = none) : keyframe.gps = gps ∧ keyframe.step = 1 := by
  have own := resolves.gps unstepped
  rw [paced, settle_written] at own
  exact ⟨own, resolves.single (by simp [paced]) unstepped⟩

theorem step_written (resolves : Resolves refreshRate waypoint base initial keyframe) {count : Int}
    {source : String} (stepped : waypoint.step = some ⟨some count, source, .script⟩) :
    keyframe.step = count := by
  have own := resolves.step (.inr (by simp [stepped]))
  rwa [stepped, settle_written] at own

end Resolves

/-! ### Points of interest -/

section Pois

variable {refreshRate : Int} {first poi : Waypoint α} {live zero keyframe : Keyframe α}

/-- What a point of interest leaves open or copies agrees with the first keyframe. -/
theorem Resolves.agrees_of_copied (resolves : Resolves refreshRate poi zero (some zero) keyframe)
    {field : Field} (notGps : field ≠ .gps) (notStep : field ≠ .step)
    (copied : ∀ given, poi.get field = some given → given.origin = .initial) :
    keyframe.get field = zero.get field := by
  rw [resolves.field field notGps notStep, Option.map_some]
  exact settle_copied _ copied

/-- The first waypoint has the settings of a point of interest, or the point of interest leaves them
open. -/
def TakesOver (first poi : Waypoint α) (field : Field) : Prop :=
  poi.get field = none ∨ first.get field = poi.get field

theorem Resolves.agrees_of_takesOver (resolves : Resolves refreshRate first live none zero)
    (poiResolves : Resolves refreshRate poi zero (some zero) keyframe) {field : Field}
    (notGps : field ≠ .gps) (notStep : field ≠ .step) (takesOver : first.TakesOver poi field) :
    keyframe.get field = zero.get field := by
  have own := resolves.field field notGps notStep
  rw [poiResolves.field field notGps notStep, Option.map_some]
  rcases takesOver with unset | same
  · rw [unset]
    rfl
  · rw [own, same]
    exact settle_again _ _

/-- Without a pace of its own the point of interest has that of the first keyframe. -/
theorem Resolves.pace_of_open (poiResolves : Resolves refreshRate poi zero (some zero) keyframe)
    (unpaced : poi.gps = none) (unstepped : poi.step = none) :
    keyframe.gps = zero.gps ∧ keyframe.step = zero.step := by
  rw [poiResolves.gps unstepped, poiResolves.step (.inl unpaced), unpaced, unstepped]
  exact ⟨rfl, rfl⟩

variable (resolves : Resolves refreshRate first live none zero)
  (poiResolves : Resolves refreshRate poi zero (some zero) keyframe)

include resolves poiResolves

/-- Steps of the point of interest are those of the first keyframe, and both are pinned alike. -/
theorem Resolves.pace_of_steps (takesOver : first.TakesOver poi .step)
    (stepped : poi.step.isSome = true) : keyframe.gps = zero.gps ∧ keyframe.step = zero.step := by
  have same : first.step = poi.step :=
    takesOver.resolve_left (Option.isSome_iff_ne_none.mp stepped)
  have firstStepped : first.step.isSome = true := same ▸ stepped
  have pinned := (poiResolves.pinned stepped).symm.trans (resolves.pinned firstStepped)
  refine ⟨Except.ok.inj pinned, ?_⟩
  have own := resolves.step (.inr firstStepped)
  rw [poiResolves.step (.inr stepped), Option.map_some, own, same]
  exact settle_again _ _

/-- Without steps on either side the generations per second are the same, taken one by one. -/
theorem Resolves.pace_of_unstepped (takesOver : first.TakesOver poi .gps)
    (paced : poi.gps.isSome = true) (unstepped : poi.step = none)
    (firstUnstepped : first.step = none) :
    keyframe.gps = zero.gps ∧ keyframe.step = zero.step := by
  have same : first.gps = poi.gps :=
    takesOver.resolve_left (Option.isSome_iff_ne_none.mp paced)
  have own := resolves.gps firstUnstepped
  rw [poiResolves.single paced unstepped, resolves.single (same ▸ paced) firstUnstepped,
    poiResolves.gps unstepped, Option.map_some, own, same]
  exact ⟨settle_again _ _, rfl⟩

/-- Steps of the first keyframe that the point of interest lacks agree with its own pace only if they
are one by one. -/
theorem Resolves.agrees_iff_of_stepped {count : Int} {source : String}
    (stepped : first.step = some ⟨some count, source, .script⟩) (paced : poi.gps.isSome = true)
    (unstepped : poi.step = none) :
    (keyframe.gps = zero.gps ∧ keyframe.step = zero.step)
      ↔ count = 1 ∧ (settle poi.gps zero.gps (some zero.gps)).1 = zero.gps := by
  rw [resolves.step_written stepped, poiResolves.single paced unstepped, poiResolves.gps unstepped,
    Option.map_some, eq_comm (a := 1), and_comm]

end Pois

end Waypoint

/-! ### Chains -/

namespace Chain

variable [Scalar α] {refreshRate : Int} {pinned : α}

theorem linkAll_resolves {waypoints : List (Waypoint α)} {previous : Keyframe α}
    {keyframes : List (Keyframe α)} {reported : List Diagnostic}
    (rate : ∀ waypoint ∈ waypoints, waypoint.step.isSome = true →
      (Scalar.ofInt refreshRate : Except Fault α) = .ok pinned)
    (done : linkAll pinned previous waypoints = .ok (keyframes, reported)) :
    List.Forall₂ (fun waypoint keyframe => ∃ base, Resolves refreshRate waypoint base none keyframe)
      waypoints keyframes := by
  induction waypoints generalizing previous keyframes reported with
  | nil =>
      cases done
      exact .nil
  | cons waypoint rest inductionHypothesis =>
      rcases linkAll_cons_ok done with ⟨keyframe, here, later, others, linked, linkedRest, rfl, rfl⟩
      rcases List.forall_mem_cons.mp rate with ⟨rateHere, rateRest⟩
      rcases link_ok linked with ⟨time, rfl, -, -⟩
      apply List.Forall₂.cons ?_ (inductionHypothesis rateRest linkedRest)
      exact ⟨previous, (Resolves.resolve previous none rateHere).congr fun field => by
        cases field <;> rfl⟩

/-- What the waypoints that follow a keyframe leave open is the same in all of their keyframes. -/
theorem linkAll_get_of_open {field : Field} (notGps : field ≠ .gps) (notStep : field ≠ .step)
    {waypoints : List (Waypoint α)} {previous : Keyframe α} {keyframes : List (Keyframe α)}
    {reported : List Diagnostic} (unset : ∀ waypoint ∈ waypoints, waypoint.get field = none)
    (done : linkAll pinned previous waypoints = .ok (keyframes, reported)) :
    ∀ keyframe ∈ keyframes, keyframe.get field = previous.get field := by
  induction waypoints generalizing previous keyframes reported with
  | nil =>
      cases done
      exact fun _ impossible => nomatch impossible
  | cons waypoint rest inductionHypothesis =>
      rcases linkAll_cons_ok done with ⟨keyframe, here, later, others, linked, linkedRest, rfl, rfl⟩
      rcases List.forall_mem_cons.mp unset with ⟨unsetHere, unsetRest⟩
      rcases link_ok linked with ⟨time, rfl, -, -⟩
      have resolved : (waypoint.resolve previous pinned none).get field = previous.get field := by
        have settled : (waypoint.resolve previous pinned none).get field
            = (settle (waypoint.get field) (previous.get field) none).1 := by
          cases field with
          | gps => exact absurd rfl notGps
          | step => exact absurd rfl notStep
          | _ => rfl
        rw [settled, unsetHere]
        rfl
      have same : ∀ keyframe ∈ later, keyframe.get field
          = (waypoint.resolve previous pinned none).get field := by
        intro keyframe member
        rw [inductionHypothesis unsetRest linkedRest keyframe member]
        cases field <;> rfl
      rw [List.forall_mem_cons, ← resolved]
      exact ⟨by cases field <;> rfl, same⟩

/-- What the later waypoints of a chain leave open is the same in all of its keyframes. -/
theorem build_get_of_open {field : Field} (notGps : field ≠ .gps) (notStep : field ≠ .step)
    {first : Waypoint α} {later pois : List (Waypoint α)} {live : Keyframe α} {resolved : Resolved α}
    (unset : ∀ waypoint ∈ later, waypoint.get field = none)
    (done : build first later pois live refreshRate = .ok resolved) :
    ∀ keyframe ∈ resolved.chain.toList,
      keyframe.get field = resolved.chain.first.get field := by
  rcases build_ok done with ⟨pinned, others, reported, -, linked, rfl⟩
  exact List.forall_mem_cons.mpr ⟨rfl, linkAll_get_of_open notGps notStep unset linked⟩

/-- **Every keyframe of a chain comes from its waypoint**, over the live view or over the keyframe
before it, and every point of interest over the first keyframe. -/
theorem build_resolves {first : Waypoint α} {later pois : List (Waypoint α)} {live : Keyframe α}
    {resolved : Resolved α} (done : build first later pois live refreshRate = .ok resolved) :
    Resolves refreshRate first live none resolved.chain.first
      ∧ List.Forall₂ (fun waypoint keyframe =>
          ∃ base, Resolves refreshRate waypoint base none keyframe) later resolved.chain.later
      ∧ List.Forall₂ (fun poi keyframe =>
          Resolves refreshRate poi resolved.chain.first (some resolved.chain.first) keyframe)
        pois resolved.pois := by
  rcases build_ok done with ⟨pinned, others, reported, pins, linked, rfl⟩
  have rate : ∀ waypoint ∈ first :: later ++ pois, waypoint.step.isSome = true →
      (Scalar.ofInt refreshRate : Except Fault α) = .ok pinned :=
    fun waypoint member steps => ofInt_of_pinnedRate pins member steps
  rcases List.forall_mem_append.mp rate with ⟨rateChain, ratePois⟩
  rcases List.forall_mem_cons.mp rateChain with ⟨rateFirst, rateLater⟩
  refine ⟨?_, linkAll_resolves rateLater linked, ?_⟩
  · exact (Resolves.resolve live none rateFirst).congr fun field => by cases field <;> rfl
  · rw [List.forall₂_map_right_iff, List.forall₂_same]
    exact fun poi member => .resolve _ _ (ratePois poi member)

end Chain

end Showreel
