import Showreel.Proofs.Script.Shape
import Showreel.Proofs.Waypoint.Resumption

/-!
Contract: resuming at a generation of the chain that a script comes to.

Owns:
- that no waypoint of a script travels and pauses at once;
- exactly when playback resumes at the time at which a generation is reached.

Does not own: the times along a chain.
-/

namespace Showreel.Script

open Number Scalar Waypoint

variable {α : Type}

/-! ### Pauses and targets -/

/-- A timing that does not travel if it pauses: it has no target then, or none behind the start. -/
def Timing.Apart (timing : Timing α) : Prop :=
  ∀ pause target, timing.pause = some pause → timing.target = some target → target.value ≤ 0

theorem Retimed.apart {statement : Statement α} {timings after : List (Timing α)}
    (retimed : Retimed statement timings after) (apart : ∀ timing ∈ timings, timing.Apart) :
    ∀ timing ∈ after, timing.Apart := by
  cases retimed with
  | same opens => exact apart
  | opened source positive =>
      refine List.forall_mem_append.mpr ⟨apart, List.forall_mem_singleton.mpr ?_⟩
      exact fun _ _ pausing _ => nomatch pausing
  | paused seconds source =>
      refine List.forall_mem_append.mpr ⟨apart, List.forall_mem_singleton.mpr ?_⟩
      exact fun _ _ _ targeted => nomatch targeted
  | retargeted source early front last =>
      obtain ⟨apartFront, -⟩ := List.forall_mem_append.mp apart
      refine List.forall_mem_append.mpr ⟨apartFront, List.forall_mem_singleton.mpr ?_⟩
      rintro pause _ - ⟨⟩
      exact not_lt.mp early

theorem Draft.finishString_timings (draft : Draft α) (info : PatternInfo) (text : String) :
    (draft.finishString info text).1.timings = draft.timings := by
  unfold Draft.finishString
  dsimp only
  split
  · exact timings_congr rfl rfl
  · split
    · exact timings_congr rfl rfl
    · exact timings_congr rfl rfl
  · exact timings_congr rfl rfl

variable [Scalar α]

theorem Session.step_apart {context : Context α} {session after : Session α}
    (apart : ∀ timing ∈ session.draft.timings, timing.Apart)
    (done : session.step context = .ok after) :
    ∀ timing ∈ after.draft.timings, timing.Apart := by
  cases step_takes done with
  | kept new draft reported without =>
      rw [draft]
      exact apart
  | joined text draft reported without =>
      rw [draft, session.draft.finishString_timings]
      exact apart
  | performed new given read makes sound performed draft reported =>
      rw [draft]
      exact (Draft.perform_becomes performed).retimes.apart apart

/-- **No waypoint of a script travels and pauses at once.** -/
theorem readAll_apart {context : Context α} {text : String} {session : Session α}
    (done : readAll context text = .ok session) :
    ∀ timing ∈ session.draft.timings, timing.Apart := by
  have start : ∀ timing ∈ (Session.start context text).draft.timings, timing.Apart := by
    refine List.forall_mem_singleton.mpr ?_
    exact fun _ _ pausing _ => nomatch pausing
  unfold readAll at done
  exact Session.run_keeps context (fun _ _ => Session.step_apart) start done

/-! ### Resuming -/

/-- **When playback resumes at the time of a generation.** On the chain of a script about which
nothing is reported it does so unless the chain ends with a pause and the generation lies behind its
end, if the refresh rate is positive. At any other rate a keyframe may have no pace. -/
theorem interpret_resumes (context : Context ℚ) (text : String) (interpretation : Interpretation ℚ)
    (generation : ℤ) (done : interpret context text = .ok interpretation)
    (ordered : InOrder interpretation.timeline.diagnostics)
    (several : 2 ≤ interpretation.timeline.keyframes.toList.length) (begun : 0 ≤ generation) :
    let chain := interpretation.timeline.keyframes
    (∃ time, chain.resumeAt generation = .ok (chain.indexNear generation, time))
      ∧ (chain.Agrees generation ↔ (chain.get (chain.indexNear generation)).pace ≠ 0
        ∧ (chain.PausesBefore generation → chain.timeOf generation = .ok 0))
      ∧ (1 ≤ context.settings.refreshRate →
        (chain.Agrees generation ↔ ¬chain.PausesBefore generation)) := by
  intro chain
  obtain ⟨session, read, done⟩ := bind_eq_ok done
  have sound := readAll_sound read
  obtain ⟨cast, gps, resolved, settles, known, ends⟩ := Draft.exists_endsAs sound done
  obtain ⟨starts, -, moves⟩ := settles.outline sound (readAll_outlined read)
  have timings : ∀ waypoint ∈ cast.later, (timing waypoint).Apart := by
    have apart := readAll_apart read
    rw [← settles.timed sound, List.map_cons, List.forall_mem_cons, List.forall_mem_map] at apart
    exact apart.2
  have same : chain = resolved.chain := ends.keyframes
  have reported : InOrder resolved.reported := ordered.of_suffix ends.reported
  have clocked : chain.Clocked := by
    rw [same]
    refine Chain.build_clocked ends.built reported ?_ ?_ timings
    · rw [← same]
      exact Nat.lt_of_succ_lt_succ several
    · cases target : cast.first.targetGeneration with
      | none => rfl
      | some setting => exact starts.target setting target
  refine ⟨⟨_, clocked.resumeAt_eq begun⟩, clocked.agrees_iff begun, fun rate => ?_⟩
  obtain ⟨pacedFirst, pacedLater⟩ := settles.paced sound rate
  have based := paced_ofCamera context.camera rate known
  apply clocked.agrees_iff_of_paced ?_ ?_ begun
  · rw [same]
    exact Chain.build_paced rate pacedFirst pacedLater based ends.built
  · rw [same]
    refine Chain.build_times rate pacedFirst (fun waypoint member => ?_) based ends.built reported
    exact ⟨pacedLater waypoint member, Draft.timed_of_moves (moves waypoint member)⟩

/-- Behind a chain with a pause on its way, and between its keyframes, playback resumes in time. -/
theorem interpret_resumes_in_time :
    let context : Context ℚ := ⟨.standard, .standard, .standard⟩
    let text := "[[ GPS 10 T 10 PAUSE 1 T 20 ]]"
    ∃ interpretation, interpret context text = .ok interpretation
      ∧ interpretation.timeline.keyframes.toList.length = 4
      ∧ interpretation.timeline.keyframes.Agrees 15
      ∧ interpretation.timeline.keyframes.Agrees 40 := by
  intro context text
  have checked : (interpret context text).toOption.any (fun interpretation =>
      interpretation.timeline.diagnostics.isEmpty
        && interpretation.timeline.keyframes.toList.length == 4
        && decide (¬interpretation.timeline.keyframes.PausesBefore 15)
        && decide (¬interpretation.timeline.keyframes.PausesBefore 40)) = true := by decide +kernel
  obtain ⟨interpretation, done, facts⟩ := exists_interpretation checked
  simp only [Bool.and_eq_true, beq_iff_eq, decide_eq_true_eq] at facts
  obtain ⟨⟨⟨clean, four⟩, movesBetween⟩, movesBehind⟩ := facts
  have ordered : InOrder interpretation.timeline.diagnostics := by
    rw [List.isEmpty_iff.mp clean]
    exact fun _ impossible => nomatch impossible
  have several : 2 ≤ interpretation.timeline.keyframes.toList.length := four ▸ by decide
  obtain ⟨-, -, between⟩ :=
    interpret_resumes context text interpretation 15 done ordered several (by decide)
  obtain ⟨-, -, behind⟩ :=
    interpret_resumes context text interpretation 40 done ordered several (by decide)
  exact ⟨interpretation, done, four, (between (by decide)).mpr movesBetween,
    (behind (by decide)).mpr movesBehind⟩

/-- Behind a chain that ends with a pause playback resumes at the start. -/
theorem interpret_resumes_too_early :
    let context : Context ℚ := ⟨.standard, .standard, .standard⟩
    let text := "[[ GPS 10 T 10 PAUSE 1 ]]"
    ∃ interpretation, interpret context text = .ok interpretation
      ∧ interpretation.timeline.diagnostics = []
      ∧ interpretation.timeline.keyframes.toList.length = 3
      ∧ (interpretation.timeline.keyframes.resumeAt 20).toOption = some (2, 0)
      ∧ (interpretation.timeline.keyframes.timeOf 20).toOption = some 3000 := by
  intro context text
  have checked : (interpret context text).toOption.any (fun interpretation =>
      interpretation.timeline.diagnostics.isEmpty
        && interpretation.timeline.keyframes.toList.length == 3
        && decide ((interpretation.timeline.keyframes.resumeAt 20).toOption = some (2, 0))
        && decide ((interpretation.timeline.keyframes.timeOf 20).toOption = some 3000)) = true := by
    decide +kernel
  obtain ⟨interpretation, done, facts⟩ := exists_interpretation checked
  simp only [Bool.and_eq_true, beq_iff_eq, decide_eq_true_eq] at facts
  obtain ⟨⟨⟨clean, three⟩, resumes⟩, reaches⟩ := facts
  exact ⟨interpretation, done, List.isEmpty_iff.mp clean, three, resumes, reaches⟩

end Showreel.Script
