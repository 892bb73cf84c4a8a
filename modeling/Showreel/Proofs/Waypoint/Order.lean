import Showreel.Proofs.Waypoint.ClosedForm

/-!
Contract: the order of the keyframes of a chain.

Owns:
- the pace of a keyframe, over exact rationals, and the time of a travel at it;
- that generations do not go down, unless a report says so;
- that times go up, over exact rationals, if every waypoint behind the first has a target or a pause;
- the step from one keyframe to the next, and the run along a chain.

Does not own: which waypoints a script makes.
-/

namespace Showreel

open Number Scalar Waypoint

/-- No report is about a target generation that is not later than the one before. -/
def InOrder (reported : List Diagnostic) : Prop :=
  ∀ diagnostic ∈ reported, ∀ previous, diagnostic.problem ≠ .generationNotLater previous

theorem InOrder.of_append {first second : List Diagnostic} (ordered : InOrder (first ++ second)) :
    InOrder first ∧ InOrder second :=
  List.forall_mem_append.mp ordered

theorem InOrder.of_suffix {reported all : List Diagnostic} (ordered : InOrder all)
    (within : reported <:+ all) : InOrder reported :=
  fun diagnostic member => ordered diagnostic (within.mem member)

/-- A waypoint that moves the chain on: it has a target or a pause, and the pause is positive. -/
structure Waypoint.Timed (waypoint : Waypoint ℚ) : Prop where
  given : waypoint.targetGeneration ≠ none ∨ waypoint.pauseSeconds ≠ none
  pause : ∀ setting, waypoint.pauseSeconds = some setting → (0 : ℚ) < setting.value

/-! ### Paces -/

/-- The generations in a second at a keyframe. -/
def Keyframe.pace (keyframe : Keyframe ℚ) : ℚ :=
  keyframe.gps * keyframe.step

theorem Keyframe.pace_pos {keyframe : Keyframe ℚ} (gps : IsPace keyframe.gps)
    (step : IsStep ℚ keyframe.step) : 0 < keyframe.pace := by
  rcases gps with ⟨count, atLeast, known⟩
  rcases step with ⟨steps, -⟩
  have paced : (count : ℚ) = keyframe.gps := Except.ok.inj known
  have countPositive : (0 : ℚ) < count := mod_cast atLeast
  have stepPositive : (0 : ℚ) < keyframe.step := mod_cast steps
  rw [Keyframe.pace, ← paced]
  positivity

/-! ### From one keyframe to the next -/

namespace Chain

section Links

variable {α : Type} [Scalar α] {previous keyframe : Keyframe α} {pinned : α} {waypoint : Waypoint α}
  {reported : List Diagnostic}

theorem link_isPoi (done : link previous pinned waypoint = .ok (keyframe, reported)) :
    keyframe.isPoi = waypoint.isPoi := by
  rcases link_ok done with ⟨time, rfl, -, -⟩
  rfl

/-- Without a report a target is later than the generation before, and without a target the
generation stays. -/
theorem link_generation (done : link previous pinned waypoint = .ok (keyframe, reported))
    (ordered : InOrder reported) :
    (waypoint.targetGeneration = none ∧ keyframe.targetGeneration = previous.targetGeneration)
      ∨ previous.targetGeneration < keyframe.targetGeneration := by
  rcases link_ok done with ⟨time, rfl, rfl, -⟩
  cases given : waypoint.targetGeneration with
  | none => exact .inl ⟨rfl, rfl⟩
  | some setting =>
      right
      by_contra early
      have notLater : setting.value ≤ previous.targetGeneration := not_lt.mp early
      simp [InOrder, given, notLater] at ordered

end Links

section Times

variable {previous keyframe : Keyframe ℚ} {pinned : ℚ} {waypoint : Waypoint ℚ}
  {reported : List Diagnostic}

theorem travelTime_eq_ok {pace : Keyframe ℚ} {generations : ℤ} {span : ℚ}
    (done : travelTime generations pace = .ok span) :
    pace.pace ≠ 0 ∧ span = (generations : ℚ) * 1000 / pace.pace := by
  change divide ((generations : ℚ) * 1000) pace.pace = .ok span at done
  unfold divide at done
  split at done
  · cases done
  · rename_i moving
    exact ⟨fun resting => moving (beq_iff_eq.mpr resting), (Except.ok.inj done).symm⟩

theorem travelTime_pos {pace : Keyframe ℚ} (gps : IsPace pace.gps) (step : IsStep ℚ pace.step)
    {generations : ℤ} (positive : 0 < generations) {span : ℚ}
    (done : travelTime generations pace = .ok span) : (0 : ℚ) < span := by
  rw [(travelTime_eq_ok done).2]
  have pacePositive := Keyframe.pace_pos gps step
  have generationsPositive : (0 : ℚ) < generations := mod_cast positive
  positivity

/-- A waypoint that is timed is reached later than the one before it. -/
theorem link_later (done : link previous pinned waypoint = .ok (keyframe, reported))
    (ordered : InOrder reported) (timed : waypoint.Timed) (gps : IsPace keyframe.gps)
    (step : IsStep ℚ keyframe.step) : previous.targetTime < keyframe.targetTime := by
  have generations := link_generation done ordered
  rcases link_ok done with
    ⟨time, rfl, -, ⟨pause, pausing, paused⟩ | ⟨span, pauseless, travelled, arrived⟩⟩
  · have positive := timed.pause pause pausing
    have paces : (0 : ℚ) < pause.value * 1000 := by positivity
    show previous.targetTime < time
    rw [paused]
    exact lt_add_of_pos_left previous.targetTime paces
  · have positive : (0 : ℚ) < span := by
      apply travelTime_pos gps step ?_ travelled
      rcases generations with ⟨targetless, -⟩ | later
      · rcases timed.given with targeted | pausing
        · exact absurd targetless targeted
        · exact absurd pauseless pausing
      · exact sub_pos.mpr later
    show previous.targetTime < time
    rw [arrived]
    exact lt_add_of_pos_right previous.targetTime positive

end Times

/-! ### Along a chain -/

section Chains

variable {α : Type} [Scalar α] {pinned : α} {previous : Keyframe α} {waypoints : List (Waypoint α)}
  {keyframes : List (Keyframe α)} {reported : List Diagnostic}

theorem linkAll_isPoi (done : linkAll pinned previous waypoints = .ok (keyframes, reported)) :
    keyframes.map Keyframe.isPoi = waypoints.map Waypoint.isPoi := by
  induction waypoints generalizing previous keyframes reported with
  | nil =>
      cases done
      rfl
  | cons waypoint rest inductionHypothesis =>
      rcases linkAll_cons_ok done with ⟨keyframe, here, later, others, linked, linkedRest, rfl, rfl⟩
      simp [link_isPoi linked, inductionHypothesis linkedRest]

/-- What holds from one keyframe to the next holds along the chain, together with what every link
keeps of its keyframe. -/
theorem linkAll_isChain {related : Keyframe α → Keyframe α → Prop} (good : Keyframe α → Prop)
    (fine : Waypoint α → Prop)
    (step : ∀ previous waypoint keyframe reported, good previous → fine waypoint →
      link previous pinned waypoint = .ok (keyframe, reported) → InOrder reported →
      related previous keyframe ∧ good keyframe)
    (start : good previous) (allFine : ∀ waypoint ∈ waypoints, fine waypoint)
    (done : linkAll pinned previous waypoints = .ok (keyframes, reported))
    (ordered : InOrder reported) : (previous :: keyframes).IsChain related := by
  induction waypoints generalizing previous keyframes reported with
  | nil =>
      cases done
      exact .singleton previous
  | cons waypoint rest inductionHypothesis =>
      rcases List.forall_mem_cons.mp allFine with ⟨fineHere, fineRest⟩
      rcases linkAll_cons_ok done with ⟨keyframe, here, later, others, linked, linkedRest, rfl, rfl⟩
      rcases ordered.of_append with ⟨orderedHere, orderedRest⟩
      rcases step previous waypoint keyframe here start fineHere linked orderedHere with ⟨holds, kept⟩
      exact .cons_cons holds (inductionHypothesis kept fineRest linkedRest orderedRest)

variable {first : Waypoint α} {later pois : List (Waypoint α)} {live : Keyframe α}
  {refreshRate : Int} {resolved : Resolved α}

theorem build_isPoi (done : build first later pois live refreshRate = .ok resolved) :
    resolved.chain.toList.map Keyframe.isPoi = (first :: later).map Waypoint.isPoi
      ∧ resolved.pois.map Keyframe.isPoi = pois.map Waypoint.isPoi := by
  rcases build_ok done with ⟨pinned, others, reported, -, linked, rfl⟩
  constructor
  · show first.isPoi :: others.map Keyframe.isPoi = _
    rw [linkAll_isPoi linked]
    rfl
  · rw [List.map_map]
    rfl

theorem build_first (done : build first later pois live refreshRate = .ok resolved) :
    resolved.chain.first.targetGeneration = first.targetGeneration.elim 0 Setting.value
      ∧ resolved.chain.first.targetTime = 0 := by
  rcases build_ok done with ⟨pinned, others, reported, -, -, rfl⟩
  exact ⟨rfl, rfl⟩

/-- **Generations do not go down** along a chain about which nothing of the kind is reported. -/
theorem build_generations (done : build first later pois live refreshRate = .ok resolved)
    (ordered : InOrder resolved.reported) :
    resolved.chain.toList.Pairwise fun earlier later =>
      earlier.targetGeneration ≤ later.targetGeneration := by
  rcases build_ok done with ⟨pinned, others, reported, -, linked, rfl⟩
  have transitive : IsTrans (Keyframe α) fun earlier later =>
      earlier.targetGeneration ≤ later.targetGeneration := ⟨fun _ _ _ => le_trans⟩
  apply List.isChain_iff_pairwise.mp
  apply linkAll_isChain (fun _ => True) (fun _ => True) ?_ trivial (fun _ _ => trivial) linked ordered
  intro previous waypoint keyframe reported _ _ linked ordered
  rcases link_generation linked ordered with ⟨-, same⟩ | later
  · exact ⟨same.ge, trivial⟩
  · exact ⟨later.le, trivial⟩

end Chains

/-- **Times go up** along a chain whose waypoints behind the first are timed, if nothing is reported
about the order of its generations. -/
theorem build_times {first : Waypoint ℚ} {later pois : List (Waypoint ℚ)} {live : Keyframe ℚ}
    {refreshRate : Int} {resolved : Resolved ℚ} (rate : 1 ≤ refreshRate) (pacedFirst : first.Paced)
    (fine : ∀ waypoint ∈ later, waypoint.Paced ∧ waypoint.Timed) (based : live.Paced)
    (done : build first later pois live refreshRate = .ok resolved)
    (ordered : InOrder resolved.reported) :
    resolved.chain.toList.Pairwise fun earlier later => earlier.targetTime < later.targetTime := by
  rcases build_ok done with ⟨pinned, others, reported, pins, linked, rfl⟩
  have rates : ∀ waypoint ∈ first :: later, waypoint.step.isSome = true → IsPace pinned :=
    fun waypoint member steps =>
      ⟨refreshRate, rate, ofInt_of_pinnedRate pins (List.mem_append_left pois member) steps⟩
  rcases List.forall_mem_cons.mp rates with ⟨rateFirst, rateLater⟩
  have start : (Chain.start first live pinned).Paced := start_paced pacedFirst based rateFirst
  have transitive : IsTrans (Keyframe ℚ) fun earlier later => earlier.targetTime < later.targetTime :=
    ⟨fun _ _ _ => lt_trans⟩
  apply List.isChain_iff_pairwise.mp
  -- each keyframe has to be paced for the next one to be, so that is carried along the chain
  apply linkAll_isChain Keyframe.Paced
    (fun waypoint => waypoint.Paced ∧ waypoint.Timed ∧ (waypoint.step.isSome = true → IsPace pinned))
    ?_ start ?_ linked ordered
  · rintro previous waypoint keyframe reported basedHere ⟨paced, timed, rateHere⟩ linked ordered
    rcases exists_link paced basedHere rateHere with ⟨same, sameReport, linkedToo, pacedToo⟩
    cases linked.symm.trans linkedToo
    exact ⟨link_later linked ordered timed pacedToo.gps pacedToo.step, pacedToo⟩
  · intro waypoint member
    exact ⟨(fine waypoint member).1, (fine waypoint member).2, rateLater waypoint member⟩

end Chain

end Showreel
