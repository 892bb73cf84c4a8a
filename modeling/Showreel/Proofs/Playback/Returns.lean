import Showreel.Proofs.Playback.Diary

/-!
Contract: the generation zero to which playback returns.

Owns:
- the picture of every return to generation zero, by the host, by a loop, by a point of interest or
  by a job of history;
- when it is the snapshot of the world with the pastes of generation zero.

Does not own: what happens between two returns.
-/

namespace Showreel

open Number Paste Pattern

/-- Whether a deed takes the world back to generation zero. -/
def Deed.restarts : Deed → Bool
  | .returned | .rewound => true
  | _ => false

theorem Deed.act_of_restarts {deed : Deed} (restarts : deed.restarts = true)
    (entries : List Entry) (world : World) : deed.act entries world = world.reset := by
  cases deed with
  | returned | rewound => rfl
  | stepped | computed | told => cases restarts

namespace Playback

variable {α : Type} [Scalar α] [Transcendental α]

/-- Every return to generation zero, however it comes about, shows one picture. -/
def ReturnsTo (playback : Playback α) (picture : Cells) : Prop :=
  ∀ calls earlier deed later, playback.diary calls = earlier ++ deed :: later →
    deed.restarts = true →
    let returned := playback.world.replay playback.timeline.pastes (earlier ++ [deed])
    returned.generation = 0 ∧ returned.picture = picture

/-- Returns show the snapshot, which nothing changes once playback has started. -/
theorem returnsTo_iff (playback : Playback α) (picture : Cells) :
    playback.ReturnsTo picture ↔ playback.world.snapshot = picture := by
  constructor
  · intro returns
    have hosted : playback.diary [.reset] = [] ++ .returned :: [] := rfl
    exact (returns [.reset] [] .returned [] hosted rfl).2
  · intro same calls earlier deed later _ restarts
    dsimp only
    rw [World.replay_concat, Deed.act_of_restarts restarts]
    have unchanged := World.reset_replay playback.timeline.pastes playback.world earlier
    exact ⟨rfl, (congrArg World.picture unchanged).trans same⟩

omit [Transcendental α] in
/-- Only a world at generation zero has the pastes of generation zero put into its snapshot. -/
theorem snapshot_start (timeline : Timeline α) (world : World) (settings : ViewerSettings α) :
    (start timeline world settings).world.snapshot =
      if world.generation = 0 ∧ Schedule.due timeline.pastes 0 ≠ [] then
        (history timeline.pastes world 0).picture
      else world.snapshot := by
  rw [start_world]
  by_cases fresh : world.generation = 0
  · rw [if_pos fresh]
    by_cases none : Schedule.due timeline.pastes 0 = []
    · rw [if_pos (List.isEmpty_iff.mpr none), if_neg (fun due => due.2 none)]
      exact congrArg World.picture (Schedule.reset_apply timeline.pastes world 0)
    · rw [if_neg (fun empty => none (List.isEmpty_iff.mp empty)), if_pos ⟨fresh, none⟩]
      rfl
  · rw [if_neg fresh, if_neg (fun due => fresh due.1)]

omit [Transcendental α] in
/-- The history of a world that was marked begins as that of its generation zero. -/
theorem picture_history_reset {world : World} (marked : world.initial = world.grid)
    (entries : List Entry) :
    (history entries world.reset 0).picture = (history entries world 0).picture := by
  have alike : world.reset.bare = world.bare := by
    unfold World.bare
    show ({ World.ofSize world.size world.size_ge world.wraps with grid := world.initial } : World)
      = _
    rw [marked]
  apply World.picture_eq_of_bare_eq
  unfold history
  rw [Schedule.bare_apply, alike, ← Schedule.bare_apply]

omit [Transcendental α] in
theorem history_of_due_eq_nil {entries : List Entry} (none : Schedule.due entries 0 = [])
    (world : World) : history entries world 0 = world := by
  unfold history Schedule.apply
  rw [none]
  rfl

/-- **When playback returns to generation zero with its pastes blended in.** Playback that starts
at generation zero does if its world was marked there, or if nothing is pasted at generation zero,
or if the marked grid and the present one are one picture with these pastes. Playback that starts
later does only if these pastes draw nothing new. -/
theorem returnsTo_beginning_iff (timeline : Timeline α) (world : World)
    (settings : ViewerSettings α) :
    let playback := start timeline world settings
    let beginning := (history timeline.pastes world.reset 0).picture
    (playback.ReturnsTo beginning ↔
      if world.generation = 0 then
        Schedule.due timeline.pastes 0 = [] ∨ (history timeline.pastes world 0).picture = beginning
      else world.snapshot = beginning)
    ∧ (world.generation = 0 → world.initial = world.grid → playback.ReturnsTo beginning) := by
  intro playback beginning
  have decides : playback.ReturnsTo beginning ↔
      if world.generation = 0 then
        Schedule.due timeline.pastes 0 = [] ∨ (history timeline.pastes world 0).picture = beginning
      else world.snapshot = beginning := by
    rw [returnsTo_iff, snapshot_start]
    by_cases fresh : world.generation = 0
    · rw [if_pos fresh]
      by_cases none : Schedule.due timeline.pastes 0 = []
      · have undrawn : world.snapshot = beginning :=
          congrArg World.picture (history_of_due_eq_nil none world.reset).symm
        rw [if_neg (fun due => due.2 none)]
        exact ⟨fun _ => .inl none, fun _ => undrawn⟩
      · rw [if_pos ⟨fresh, none⟩, or_iff_right none]
    · rw [if_neg fresh, if_neg (fun due => fresh due.1)]
  refine ⟨decides, fun fresh marked => ?_⟩
  rw [decides, if_pos fresh]
  exact .inr (picture_history_reset marked timeline.pastes).symm

/-- A script with a paste at generation zero and a loop, in a world that was just loaded. -/
theorem returnsTo_beginning_iff_marked :
    let context : Script.Context Float := ⟨.standard, .standard, .standard⟩
    let script := "[[ AUTOSTART LOOP 3 PASTEMODE XOR PASTE 3o! ]]"
    let world := (World.ofSize 16 (by decide) true).load (Cells.ofFn 1 3 fun _ _ => 1) true
    ∃ interpretation, Script.interpret context script = .ok interpretation
      ∧ world.generation = 0 ∧ world.initial = world.grid
      ∧ let playback := start interpretation.timeline world .standard
        let beginning := (history interpretation.timeline.pastes world.reset 0).picture
        (playback.ReturnsTo beginning ↔
          if world.generation = 0 then
            Schedule.due interpretation.timeline.pastes 0 = []
              ∨ (history interpretation.timeline.pastes world 0).picture = beginning
          else world.snapshot = beginning)
        ∧ playback.ReturnsTo beginning := by
  intro context script world
  have checked : (Script.interpret context script).toOption.any (fun _ => true) = true := by
    decide +kernel
  obtain ⟨interpretation, interpreted, -⟩ := Script.exists_interpretation checked
  obtain ⟨decides, returns⟩ :=
    returnsTo_beginning_iff interpretation.timeline world .standard
  exact ⟨interpretation, interpreted, rfl, rfl, decides, returns rfl rfl⟩

/-- Playback that starts at a later generation loses the pastes of generation zero: the host
starts over, and three cells live where the script draws a fourth. -/
theorem not_returnsTo_beginning_later :
    let context : Script.Context Float := ⟨.standard, .standard, .standard⟩
    let script := "[[ PASTE o! 5 5 ]]"
    let loaded := (World.ofSize 32 (by decide) true).load (Cells.ofFn 1 3 fun _ _ => 1) true
    let world := { loaded with generation := 5 }
    ∃ interpretation, Script.interpret context script = .ok interpretation
      ∧ let playback := start interpretation.timeline world .standard
        let beginning := history interpretation.timeline.pastes world.reset 0
        (playback.afterCalls [.reset]).world.generation = 0
          ∧ (playback.afterCalls [.reset]).world.grid.population = 3
          ∧ beginning.grid.population = 4
          ∧ ¬ playback.ReturnsTo beginning.picture := by
  intro context script loaded world
  have checked : (Script.interpret context script).toOption.any (fun interpretation =>
      let playback := start interpretation.timeline world .standard
      let beginning := history interpretation.timeline.pastes world.reset 0
      decide ((playback.afterCalls [.reset]).world.generation = 0)
        && decide ((playback.afterCalls [.reset]).world.grid.population = 3)
        && decide (beginning.grid.population = 4)
        && decide (playback.world.snapshot ≠ beginning.picture)) = true := by
    decide +kernel
  obtain ⟨interpretation, interpreted, facts⟩ := Script.exists_interpretation checked
  simp only [Bool.and_eq_true, decide_eq_true_eq] at facts
  obtain ⟨⟨⟨home, three⟩, four⟩, differs⟩ := facts
  exact ⟨interpretation, interpreted, home, three, four, fun returns =>
    differs ((returnsTo_iff _ _).mp returns)⟩

end Playback

end Showreel
