import Showreel.Proofs.Waypoint.Chain

/-!
Contract: the keyframes of a chain in closed form.

Owns:
- the last waypoint of a list that sets a field, a switch or the pace;
- the keyframe at each place of a chain: what is inherited comes from the last waypoint that sets
  it, up to that place, and the rest from the waypoint at that place alone;
- the origins of the values of a keyframe.

Does not own: target generations and times.
-/

namespace Showreel

open Number Waypoint

variable {α : Type}

/-! ### The last setting -/

section Last

variable {β γ : Type}

/-- The last value that is picked from a list, or else a base value. -/
def lastOr (pick : β → Option γ) (items : List β) (base : γ) : γ :=
  (items.filterMap pick).getLast?.getD base

@[simp] theorem lastOr_nil (pick : β → Option γ) (base : γ) : lastOr pick [] base = base := rfl

theorem lastOr_concat (pick : β → Option γ) (items : List β) (item : β) (base : γ) :
    lastOr pick (items ++ [item]) base = (pick item).getD (lastOr pick items base) := by
  unfold lastOr
  cases picked : pick item with
  | none => simp [picked]
  | some value => simp [picked]

end Last

/-! ### Waypoints -/

namespace Waypoint

/-- Every setting of a field has a value. -/
def Valued (waypoint : Waypoint α) : Prop :=
  ∀ (field : Field) (setting : Setting (Option (field.Value α))),
    waypoint.get field = some setting → setting.value.isSome = true

/-- No setting claims to come from a keyframe or from the live view. -/
structure Scripted (waypoint : Waypoint α) : Prop where
  field : ∀ (field : Field) (setting : Setting (Option (field.Value α))),
    waypoint.get field = some setting → setting.origin.isExplicit = true
  switch : ∀ switch setting, waypoint.getSwitch switch = some setting →
    setting.origin.isExplicit = true

/-- The value that a waypoint sets for a field. -/
def valueOf (field : Field) (waypoint : Waypoint α) : Option (field.Value α) :=
  (waypoint.get field).bind Setting.value

/-- The value that a waypoint sets for a switch. -/
def switchOf (switch : Switch) (waypoint : Waypoint α) : Option Bool :=
  (waypoint.getSwitch switch).map Setting.value

/-- Whether a waypoint sets the pace: the generations per second, or the steps. -/
def setsPace (waypoint : Waypoint α) : Bool :=
  waypoint.gps.isSome || waypoint.step.isSome

theorem settle_none {β : Type} (setting : Open β) (base : β)
    (valued : ∀ given, setting = some given → given.value.isSome = true) :
    settle setting base none
      = ((setting.bind Setting.value).getD base, setting.elim .inherited Setting.origin) := by
  cases setting with
  | none => rfl
  | some given =>
      obtain ⟨value, present⟩ := Option.isSome_iff_exists.mp (valued given rfl)
      unfold settle
      cases decide (given.origin = .initial) <;> simp [present]

namespace Valued

variable {waypoint : Waypoint α}

theorem blank (isPoi : Bool) : (Waypoint.blank isPoi : Waypoint α).Valued := by
  intro field _ found
  cases field <;> cases found

theorem put (valued : waypoint.Valued) {field : Field} {setting : Setting (Option (field.Value α))}
    (present : setting.value.isSome = true) : (waypoint.put field (some setting)).Valued := by
  intro other found known
  by_cases same : other = field
  · subst same
    rw [get_put_self] at known
    exact Option.some.inj known ▸ present
  · rw [get_put_of_ne _ _ same] at known
    exact valued other found known

theorem settle_value (valued : waypoint.Valued) (field : Field) (base : field.Value α) :
    (settle (waypoint.get field) base none).1 = (waypoint.valueOf field).getD base :=
  congrArg Prod.fst (settle_none (waypoint.get field) base (valued field))

theorem settle_origin (valued : waypoint.Valued) (field : Field) (base : field.Value α) :
    (settle (waypoint.get field) base none).2
      = (waypoint.get field).elim .inherited Setting.origin :=
  congrArg Prod.snd (settle_none (waypoint.get field) base (valued field))

theorem exists_valueOf (valued : waypoint.Valued) (field : Field)
    (set : (waypoint.get field).isSome = true) : ∃ value, waypoint.valueOf field = some value := by
  obtain ⟨setting, given⟩ := Option.isSome_iff_exists.mp set
  obtain ⟨value, present⟩ := Option.isSome_iff_exists.mp (valued field setting given)
  exact ⟨value, by rw [valueOf, given, Option.bind_some, present]⟩

end Valued

end Waypoint

/-- What a keyframe has of its own waypoint. What the waypoint leaves open has the origin
`unset`. -/
structure Owns (unset : Origin) (waypoint : Waypoint α) (keyframe : Keyframe α) : Prop where
  message : keyframe.message = waypoint.message.elim "" Setting.value
  autofit : keyframe.autofit = waypoint.autofit
  interval : keyframe.interval = waypoint.interval
  action : keyframe.action = waypoint.action
  field : ∀ field, keyframe.provenance.field field = (waypoint.get field).elim unset Setting.origin
  switch : ∀ switch,
    keyframe.provenance.switch switch = (waypoint.getSwitch switch).elim unset Setting.origin

/-- The live view is the origin of what the first waypoint leaves open, and of nothing else. -/
theorem Owns.live_iff {first : Prop} [Decidable first] {waypoint : Waypoint α} {keyframe : Keyframe α}
    (owns : Owns (if first then .live else .inherited) waypoint keyframe)
    (scripted : waypoint.Scripted) :
    (∀ field, keyframe.provenance.field field = .live ↔ first ∧ waypoint.get field = none)
      ∧ ∀ switch, keyframe.provenance.switch switch = .live
        ↔ first ∧ waypoint.getSwitch switch = none := by
  have set : ∀ origin : Origin, origin.isExplicit = true → origin ≠ .live := by
    rintro _ explicit rfl
    cases explicit
  constructor
  · intro field
    rw [owns.field field]
    cases given : waypoint.get field with
    | none => simp
    | some setting => simpa using set setting.origin (scripted.field field setting given)
  · intro switch
    rw [owns.switch switch]
    cases given : waypoint.getSwitch switch with
    | none => simp
    | some setting => simpa using set setting.origin (scripted.switch switch setting given)

variable [Scalar α]

namespace Waypoint.Scripted

variable {waypoint : Waypoint α}

omit [Scalar α] in
theorem blank (isPoi : Bool) : (Waypoint.blank isPoi : Waypoint α).Scripted where
  field field _ found := by cases field <;> cases found
  switch switch _ found := by cases switch <;> cases found

omit [Scalar α] in
theorem put (scripted : waypoint.Scripted) {field : Field}
    {setting : Setting (Option (field.Value α))} (explicit : setting.origin.isExplicit = true) :
    (waypoint.put field (some setting)).Scripted where
  field other found known := by
    by_cases same : other = field
    · subst same
      rw [get_put_self] at known
      exact Option.some.inj known ▸ explicit
    · rw [get_put_of_ne _ _ same] at known
      exact scripted.field other found known
  switch switch found known := by
    refine scripted.switch switch found ?_
    rw [← known]
    cases field <;> cases switch <;> rfl

/-- What a script sets or copies is known to come from it. -/
theorem setField (scripted : waypoint.Scripted) {field : Field} {value : Option (field.Value α)}
    {source : String} {suppression left : Suppression} {change : Change α}
    (done : waypoint.setField field value source suppression = .ok (change, left)) :
    change.waypoint.Scripted := by
  rw [(setField_ok done).1]
  exact scripted.put rfl

theorem copyField (scripted : waypoint.Scripted) {first : Waypoint α} {field : Field}
    {change : Change α} (done : waypoint.copyField first field = .ok change) :
    change.waypoint.Scripted := by
  rw [(copyField_ok done).1]
  exact scripted.put rfl

end Waypoint.Scripted

/-- The pace of a waypoint that sets it: steps go with the refresh rate, and generations per second
alone with single steps. -/
inductive Waypoint.HasPace (refreshRate : Int) (waypoint : Waypoint α) : α → Int → Prop
  | steps {gps : α} {step : Int} (rate : (Scalar.ofInt refreshRate : Except Fault α) = .ok gps)
      (set : waypoint.valueOf .step = some step) : HasPace refreshRate waypoint gps step
  | single {gps : α} (without : waypoint.step = none) (set : waypoint.valueOf .gps = some gps) :
      HasPace refreshRate waypoint gps 1

/-- What a keyframe has taken over from the waypoints up to its place, or from the live view. -/
structure Inherits (refreshRate : Int) (live : Keyframe α) (waypoints : List (Waypoint α))
    (keyframe : Keyframe α) : Prop where
  field : ∀ field, field ≠ .gps → field ≠ .step →
    keyframe.get field = lastOr (Waypoint.valueOf field) waypoints (live.get field)
  switch : ∀ switch,
    keyframe.getSwitch switch = lastOr (Waypoint.switchOf switch) waypoints (live.getSwitch switch)
  pace : match (waypoints.filter Waypoint.setsPace).getLast? with
    | none => keyframe.gps = live.gps ∧ keyframe.step = live.step
    | some waypoint => waypoint.HasPace refreshRate keyframe.gps keyframe.step

namespace Inherits

variable {refreshRate : Int} {live base keyframe : Keyframe α} {waypoints : List (Waypoint α)}

/-- The live view has taken nothing over. -/
theorem refl (refreshRate : Int) (live : Keyframe α) : Inherits refreshRate live [] live where
  field _ _ _ := rfl
  switch _ := rfl
  pace := ⟨rfl, rfl⟩

/-- Only the fields and the switches of a keyframe count. -/
theorem congr {other : Keyframe α} (inherits : Inherits refreshRate live waypoints keyframe)
    (fields : ∀ field, other.get field = keyframe.get field)
    (switches : ∀ switch, other.getSwitch switch = keyframe.getSwitch switch) :
    Inherits refreshRate live waypoints other where
  field field notGps notStep := (fields field).trans (inherits.field field notGps notStep)
  switch switch := (switches switch).trans (inherits.switch switch)
  pace := by
    rw [show other.gps = keyframe.gps from fields .gps,
      show other.step = keyframe.step from fields .step]
    exact inherits.pace

end Inherits

/-! ### One waypoint more -/

section Resolve

variable {waypoint : Waypoint α} {base : Keyframe α} {pinned : α}

theorem resolve_get (valued : waypoint.Valued) {field : Field} (notGps : field ≠ .gps)
    (notStep : field ≠ .step) :
    (waypoint.resolve base pinned none).get field
      = (waypoint.valueOf field).getD (base.get field) := by
  rw [← valued.settle_value field (base.get field)]
  cases field with
  | gps => exact absurd rfl notGps
  | step => exact absurd rfl notStep
  | _ => rfl

theorem resolve_getSwitch (switch : Switch) :
    (waypoint.resolve base pinned none).getSwitch switch
      = (waypoint.switchOf switch).getD (base.getSwitch switch) := by
  have settled : (settleSwitch (waypoint.getSwitch switch) (base.getSwitch switch)).1
      = (waypoint.switchOf switch).getD (base.getSwitch switch) := by
    unfold Waypoint.switchOf
    cases waypoint.getSwitch switch <;> rfl
  rw [← settled]
  cases switch <;> rfl

/-- A waypoint that does not set the pace keeps it. -/
theorem resolve_pace_of_not_setsPace (base : Keyframe α) (pinned : α)
    (without : waypoint.setsPace = false) :
    (waypoint.resolve base pinned none).gps = base.gps
      ∧ (waypoint.resolve base pinned none).step = base.step := by
  obtain ⟨noGps, noStep⟩ := Bool.or_eq_false_iff.mp without
  rw [Option.isSome_eq_false_iff, Option.isNone_iff_eq_none] at noGps noStep
  constructor
  · change (if waypoint.step.isSome then pinned else (settle waypoint.gps base.gps none).1) = _
    rw [noStep, noGps]
    rfl
  · change (if waypoint.gps.isSome && waypoint.step.isNone then 1
      else (settle waypoint.step base.step none).1) = _
    rw [noStep, noGps]
    rfl

/-- A waypoint that sets the pace leaves nothing of the pace before. -/
theorem resolve_hasPace {refreshRate : Int} (valued : waypoint.Valued)
    (sets : waypoint.setsPace = true)
    (rate : waypoint.step.isSome = true → (Scalar.ofInt refreshRate : Except Fault α) = .ok pinned) :
    waypoint.HasPace refreshRate (waypoint.resolve base pinned none).gps
      (waypoint.resolve base pinned none).step := by
  have gpsIs : (waypoint.resolve base pinned none).gps
      = if waypoint.step.isSome then pinned else (waypoint.valueOf .gps).getD base.gps := by
    rw [← valued.settle_value .gps base.gps]
    rfl
  have stepIs : (waypoint.resolve base pinned none).step
      = if waypoint.gps.isSome && waypoint.step.isNone then 1
        else (waypoint.valueOf .step).getD base.step := by
    rw [← valued.settle_value .step base.step]
    rfl
  cases given : waypoint.step with
  | some setting =>
      have steps : waypoint.step.isSome = true := given ▸ rfl
      obtain ⟨step, set⟩ := valued.exists_valueOf .step steps
      have single : (waypoint.gps.isSome && waypoint.step.isNone) = false := by simp [given]
      rw [gpsIs, stepIs, if_pos steps, single, set]
      exact .steps (rate steps) set
  | none =>
      have steps : waypoint.step.isSome = false := given ▸ rfl
      have paced : waypoint.gps.isSome = true := by simpa [Waypoint.setsPace, steps] using sets
      obtain ⟨gps, set⟩ := valued.exists_valueOf .gps paced
      have single : (waypoint.gps.isSome && waypoint.step.isNone) = true := by simp [given, paced]
      rw [gpsIs, stepIs, steps, single, set]
      exact .single given set

theorem Inherits.resolve {refreshRate : Int} {live : Keyframe α} {waypoints : List (Waypoint α)}
    (inherits : Inherits refreshRate live waypoints base) (valued : waypoint.Valued)
    (rate : waypoint.step.isSome = true → (Scalar.ofInt refreshRate : Except Fault α) = .ok pinned) :
    Inherits refreshRate live (waypoints ++ [waypoint]) (waypoint.resolve base pinned none) where
  field field notGps notStep := by
    rw [resolve_get valued notGps notStep, lastOr_concat, inherits.field field notGps notStep]
  switch switch := by
    rw [resolve_getSwitch, lastOr_concat, inherits.switch switch]
  pace := by
    rw [List.filter_append]
    cases sets : waypoint.setsPace with
    | false =>
        obtain ⟨sameGps, sameStep⟩ := resolve_pace_of_not_setsPace base pinned sets
        rw [sameGps, sameStep, List.filter_singleton, sets]
        simpa using inherits.pace
    | true =>
        rw [List.filter_singleton, sets]
        simpa using resolve_hasPace valued sets rate

theorem owns_resolve (base : Keyframe α) (pinned : α) (valued : waypoint.Valued) :
    Owns .inherited waypoint (waypoint.resolve base pinned none) where
  message := rfl
  autofit := rfl
  interval := rfl
  action := rfl
  field field := valued.settle_origin field (base.get field)
  switch switch := by
    change (settleSwitch (waypoint.getSwitch switch) (base.getSwitch switch)).2 = _
    cases waypoint.getSwitch switch <;> rfl

end Resolve

/-! ### Chains -/

namespace Chain

variable {refreshRate : Int} {live : Keyframe α} {pinned : α}

theorem inherits_start {first : Waypoint α} (valued : first.Valued)
    (rate : first.step.isSome = true → (Scalar.ofInt refreshRate : Except Fault α) = .ok pinned) :
    Inherits refreshRate live [first] (start first live pinned) :=
  ((Inherits.refl refreshRate live).resolve valued rate).congr (fun field => by cases field <;> rfl)
    fun switch => by cases switch <;> rfl

theorem owns_start {first : Waypoint α} (valued : first.Valued) :
    Owns .live first (start first live pinned) := by
  have owns := owns_resolve live pinned valued
  refine ⟨rfl, rfl, rfl, rfl, fun field => ?_, fun switch => ?_⟩
  · have own := owns.field field
    change (if (first.get field).isNone then Origin.live
      else (first.resolve live pinned none).provenance.field field) = _
    rw [own]
    cases first.get field <;> rfl
  · have own := owns.switch switch
    change (if (first.getSwitch switch).isNone then Origin.live
      else (first.resolve live pinned none).provenance.switch switch) = _
    rw [own]
    cases first.getSwitch switch <;> rfl

/-- A keyframe that is linked to another one is that of its waypoint, but for its target. It is
reached after its pause, or after the travel to it. -/
theorem link_ok {previous keyframe : Keyframe α} {waypoint : Waypoint α}
    {reported : List Diagnostic} (done : link previous pinned waypoint = .ok (keyframe, reported)) :
    let settled := waypoint.resolve previous pinned none
    let generation := waypoint.targetGeneration.elim previous.targetGeneration Setting.value
    ∃ time, keyframe = { settled with targetGeneration := generation, targetTime := time }
      ∧ reported = (if waypoint.targetGeneration.isSome
          && decide (generation ≤ previous.targetGeneration) then
        [⟨"T " ++ toString generation, .generationNotLater previous.targetGeneration⟩] else [])
      ∧ ((∃ pause, waypoint.pauseSeconds = some pause
            ∧ time = pause.value * 1000 + previous.targetTime)
          ∨ ∃ span, waypoint.pauseSeconds = none
            ∧ travelTime (generation - previous.targetGeneration) settled = .ok span
            ∧ time = previous.targetTime + span) := by
  unfold link at done
  dsimp only at done
  cases pausing : waypoint.pauseSeconds with
  | some pause =>
      rw [pausing] at done
      cases done
      exact ⟨_, rfl, rfl, .inl ⟨pause, rfl, rfl⟩⟩
  | none =>
      rw [pausing] at done
      obtain ⟨span, travelled, done⟩ := bind_eq_ok done
      cases done
      exact ⟨_, rfl, rfl, .inr ⟨span, rfl, travelled, rfl⟩⟩

theorem linkAll_cons_ok {previous : Keyframe α} {waypoint : Waypoint α} {rest : List (Waypoint α)}
    {keyframes : List (Keyframe α)} {reported : List Diagnostic}
    (done : linkAll pinned previous (waypoint :: rest) = .ok (keyframes, reported)) :
    ∃ keyframe here later others, link previous pinned waypoint = .ok (keyframe, here)
      ∧ linkAll pinned keyframe rest = .ok (later, others)
      ∧ keyframes = keyframe :: later ∧ reported = here ++ others := by
  rw [linkAll] at done
  rcases bind_eq_ok done with ⟨⟨keyframe, here⟩, linked, done⟩
  rcases bind_eq_ok done with ⟨⟨later, others⟩, linkedRest, done⟩
  cases done
  exact ⟨keyframe, here, later, others, linked, linkedRest, rfl, rfl⟩

/-- A chain that is built starts in front of the live view, and is linked from there. -/
theorem build_ok {first : Waypoint α} {later pois : List (Waypoint α)} {resolved : Resolved α}
    (done : build first later pois live refreshRate = .ok resolved) :
    ∃ pinned others reported, pinnedRate (first :: later ++ pois) refreshRate = .ok pinned
      ∧ linkAll pinned (start first live pinned) later = .ok (others, reported)
      ∧ resolved = {
        chain := ⟨start first live pinned, others⟩
        pois := pois.map fun poi =>
          poi.resolve (start first live pinned) pinned (some (start first live pinned))
        reported := reported } := by
  rcases bind_eq_ok done with ⟨pinned, pins, done⟩
  rcases bind_eq_ok done with ⟨⟨others, reported⟩, linked, done⟩
  cases done
  exact ⟨pinned, others, reported, pins, linked, rfl⟩

theorem link_closedForm {previous keyframe : Keyframe α} {waypoint : Waypoint α}
    {seen : List (Waypoint α)} {reported : List Diagnostic} (valued : waypoint.Valued)
    (rate : waypoint.step.isSome = true → (Scalar.ofInt refreshRate : Except Fault α) = .ok pinned)
    (inherits : Inherits refreshRate live seen previous)
    (done : link previous pinned waypoint = .ok (keyframe, reported)) :
    Inherits refreshRate live (seen ++ [waypoint]) keyframe ∧ Owns .inherited waypoint keyframe := by
  obtain ⟨time, rfl, -, -⟩ := link_ok done
  obtain ⟨message, autofit, interval, action, field, switch⟩ := owns_resolve previous pinned valued
  refine ⟨?_, message, autofit, interval, action, field, switch⟩
  exact (inherits.resolve valued rate).congr (fun field => by cases field <;> rfl)
    fun switch => by cases switch <;> rfl

/-- Every keyframe that is linked has its closed form, if the one before it has. -/
theorem linkAll_closedForm {previous : Keyframe α} {seen waypoints : List (Waypoint α)}
    {keyframes : List (Keyframe α)} {reported : List Diagnostic}
    (valued : ∀ waypoint ∈ waypoints, waypoint.Valued)
    (rate : ∀ waypoint ∈ waypoints, waypoint.step.isSome = true →
      (Scalar.ofInt refreshRate : Except Fault α) = .ok pinned)
    (inherits : Inherits refreshRate live seen previous)
    (done : linkAll pinned previous waypoints = .ok (keyframes, reported)) :
    keyframes.length = waypoints.length
      ∧ ∀ index waypoint keyframe, waypoints[index]? = some waypoint →
          keyframes[index]? = some keyframe →
          Inherits refreshRate live (seen ++ waypoints.take (index + 1)) keyframe
            ∧ Owns .inherited waypoint keyframe := by
  induction waypoints generalizing previous seen keyframes reported with
  | nil =>
      cases done
      exact ⟨rfl, fun _ _ _ impossible => nomatch impossible⟩
  | cons next rest inductionHypothesis =>
      obtain ⟨valuedNext, valuedRest⟩ := List.forall_mem_cons.mp valued
      obtain ⟨rateNext, rateRest⟩ := List.forall_mem_cons.mp rate
      obtain ⟨keyframe, here, later, others, linked, linkedRest, rfl, -⟩ := linkAll_cons_ok done
      obtain ⟨inheritsNext, ownsNext⟩ := link_closedForm valuedNext rateNext inherits linked
      obtain ⟨sameLength, closed⟩ := inductionHypothesis valuedRest rateRest inheritsNext linkedRest
      refine ⟨congrArg Nat.succ sameLength, fun index waypoint found known reached => ?_⟩
      cases index with
      | zero =>
          cases known
          cases reached
          exact ⟨inheritsNext, ownsNext⟩
      | succ index =>
          have closedHere := closed index waypoint found known reached
          rwa [List.append_assoc, List.singleton_append, ← List.take_succ_cons] at closedHere

/-- **The keyframes of a chain in closed form.** There is one for each waypoint. What is inherited
comes from the last waypoint that sets it, up to the place of the keyframe, or from the live view;
the rest comes from the waypoint at that place; and the live view is the origin of what the first
waypoint leaves open, and of nothing else. -/
theorem build_closedForm (first : Waypoint α) (later pois : List (Waypoint α)) (live : Keyframe α)
    (refreshRate : Int) (resolved : Resolved α)
    (valued : ∀ waypoint ∈ first :: later, waypoint.Valued)
    (done : build first later pois live refreshRate = .ok resolved) :
    resolved.chain.toList.length = (first :: later).length
      ∧ ∀ index waypoint keyframe, (first :: later)[index]? = some waypoint →
          resolved.chain.toList[index]? = some keyframe →
          Inherits refreshRate live ((first :: later).take (index + 1)) keyframe
            ∧ Owns (if index = 0 then .live else .inherited) waypoint keyframe
            ∧ (waypoint.Scripted →
              (∀ field, keyframe.provenance.field field = .live
                  ↔ index = 0 ∧ waypoint.get field = none)
                ∧ ∀ switch, keyframe.provenance.switch switch = .live
                  ↔ index = 0 ∧ waypoint.getSwitch switch = none) := by
  obtain ⟨pinned, others, reported, pins, linked, rfl⟩ := build_ok done
  have rate : ∀ waypoint ∈ first :: later, waypoint.step.isSome = true →
      (Scalar.ofInt refreshRate : Except Fault α) = .ok pinned := fun waypoint member =>
    ofInt_of_pinnedRate pins (List.mem_append_left pois member)
  obtain ⟨valuedFirst, valuedLater⟩ := List.forall_mem_cons.mp valued
  obtain ⟨rateFirst, rateLater⟩ := List.forall_mem_cons.mp rate
  have inheritsFirst : Inherits refreshRate live [first] (start first live pinned) :=
    inherits_start valuedFirst rateFirst
  obtain ⟨sameLength, closed⟩ := linkAll_closedForm valuedLater rateLater inheritsFirst linked
  refine ⟨congrArg Nat.succ sameLength, fun index waypoint keyframe known reached => ?_⟩
  have forms : Inherits refreshRate live ((first :: later).take (index + 1)) keyframe
      ∧ Owns (if index = 0 then .live else .inherited) waypoint keyframe := by
    cases index with
    | zero =>
        cases known
        cases reached
        exact ⟨inheritsFirst, owns_start valuedFirst⟩
    | succ index => exact closed index waypoint keyframe known reached
  exact ⟨forms.1, forms.2, fun scripted => forms.2.live_iff scripted⟩

/-- A second waypoint with a step count. -/
theorem build_closedForm_steps :
    let first : Waypoint Float := .blank false
    let second := first.put .step (some (.written (some 2) "STEP 2"))
    ∃ resolved keyframe, build first [second] [] .standard 60 = .ok resolved
      ∧ resolved.chain.toList[1]? = some keyframe
      ∧ Inherits 60 .standard [first, second] keyframe ∧ Owns .inherited second keyframe
      ∧ ∀ field, keyframe.provenance.field field ≠ .live := by
  intro first second
  have valued : ∀ waypoint ∈ [first, second], waypoint.Valued :=
    List.forall_mem_cons.mpr ⟨.blank false, List.forall_mem_singleton.mpr (.put (.blank false) rfl)⟩
  obtain ⟨resolved, done⟩ : Completes (build first [second] [] .standard 60) :=
    completes_of_isOk (by decide +kernel)
  obtain ⟨sameLength, closed⟩ := build_closedForm first [second] [] .standard 60 resolved valued done
  have within : 1 < resolved.chain.toList.length := sameLength ▸ by decide
  have reached := List.getElem?_eq_getElem within
  have scripted : second.Scripted := (Waypoint.Scripted.blank false).put rfl
  obtain ⟨inherits, owns, live⟩ := closed 1 second _ rfl reached
  refine ⟨resolved, _, done, reached, inherits, owns, fun field claims => ?_⟩
  exact absurd (((live scripted).1 field).mp claims).1 one_ne_zero

end Chain

end Showreel
