import Showreel.Proofs.Paste.Effect

/-!
Contract: what a world reports of its living cells.

Owns:
- the calls that change the cells of a world, and a run of them;
- that every call counts the cells that it changed;
- that after any calls on a new world the population and the bounding box are those of its living
  cells.

Does not own: steps that keep no count.
-/

namespace Showreel.World

open Pattern

/-! ### Calls -/

/-- A call that changes the cells of a world or its generation zero. A step counts the cells. -/
inductive Call where
  | setCell (x y : Int) (state : UInt8)
  | setRegion (x y : Int) (cells : Cells)
  | load (cells : Cells) (centred : Bool)
  | clear
  | markInitial
  | reset
  | paste (entries : List Paste.Entry) (generation : Int)
  | step (keepsPopulation remembersGrid : Bool)

def perform (world : World) : Call → Except Fault World
  | .setCell x y state => world.setCell x y state.toNat
  | .setRegion x y cells => .ok (world.setRegion x y cells)
  | .load cells centred => .ok (world.load cells centred)
  | .clear => .ok world.clear
  | .markInitial => .ok world.markInitial
  | .reset => .ok world.reset
  | .paste entries generation => .ok (Paste.Schedule.apply entries world generation)
  | .step keepsPopulation remembersGrid => .ok (world.step ⟨true, keepsPopulation, remembersGrid⟩)

def afterCalls (world : World) (calls : List Call) : Except Fault World :=
  calls.foldlM perform world

/-! ### Counting -/

theorem population_dead (height width : Nat) : (Block.dead height width).population = 0 := by
  rw [Block.population_eq_card, Finset.card_eq_zero, Finset.filter_eq_empty_iff]
  intro place _
  rw [Block.state_dead]
  decide

theorem counted_ofSize (size : Nat) (size_ge : 8 ≤ size) (wraps : Bool) :
    (ofSize size size_ge wraps).Counted :=
  counted_iff.mpr (population_dead size size).symm

theorem counted_of_create {size : Int} {wraps : Bool} {world : World}
    (created : create size wraps = .ok world) : world.Counted := by
  unfold create at created
  split at created
  case isTrue admissible =>
    cases room : Cells.roomFor size.toNat size.toNat with
    | error fault =>
        rw [room] at created
        cases created
    | ok _ =>
        rw [room] at created
        cases created
        exact counted_ofSize size.toNat admissible wraps
  case isFalse => cases created

theorem counted_recount (world : World) : world.recount.Counted :=
  counted_iff.mpr rfl

theorem counted_clear (world : World) : world.clear.Counted :=
  counted_iff.mpr (population_dead world.size world.size).symm

theorem counted_markInitial (world : World) : world.markInitial.Counted :=
  counted_iff.mpr rfl

theorem counted_reset (world : World) : world.reset.Counted :=
  counted_iff.mpr rfl

theorem counted_step {record : StepRecord} (counts : record.counts = true) (world : World) :
    (world.step record).Counted :=
  counted_iff.mpr (if_pos counts)

theorem Counted.setRegion {world : World} (counted : world.Counted) (x y : Int) (cells : Cells) :
    (world.setRegion x y cells).Counted := by
  cases overlap : world.overlaps x y cells.height cells.width with
  | true => exact counted_setRegion overlap
  | false => rwa [setRegion_of_not_overlaps overlap]

theorem Counted.applySchedule {world : World} (counted : world.Counted) (entries : List Paste.Entry)
    (generation : Int) : (Paste.Schedule.apply entries world generation).Counted :=
  Paste.Schedule.apply_keeps Counted entries generation
    (fun entry current countedThen => by
      rw [entry.paste_eq]
      exact countedThen.setRegion ..) world counted

/-- A state of a byte can be set wherever there is a cell. -/
theorem setCell_byte (world : World) (x y : Int) (state : UInt8) :
    world.setCell x y state.toNat =
      .ok (if world.contains x y then
        let grid := world.grid.write (y + world.half).toNat (x + world.half).toNat state
        { world with grid := grid }.recount
      else world) := by
  have value : Cells.stateOf? state.toNat = .ok state := by
    have below := state.toNat_lt
    unfold Cells.stateOf?
    rw [if_pos (by omega), Int.toNat_natCast, UInt8.ofNat_toNat]
  unfold setCell
  rw [value]
  split <;> rfl

/-- Every call ends, with the cells counted if they were counted before. -/
theorem Counted.perform {world : World} (counted : world.Counted) (call : Call) :
    ∃ now, world.perform call = .ok now ∧ now.Counted := by
  cases call with
  | setCell x y state =>
      refine ⟨_, world.setCell_byte x y state, ?_⟩
      split
      · exact counted_recount _
      · exact counted
  | setRegion x y cells => exact ⟨_, rfl, counted.setRegion x y cells⟩
  | load cells centred => exact ⟨_, rfl, counted_markInitial _⟩
  | clear => exact ⟨_, rfl, counted_clear world⟩
  | markInitial => exact ⟨_, rfl, counted_markInitial world⟩
  | reset => exact ⟨_, rfl, counted_reset world⟩
  | paste entries generation => exact ⟨_, rfl, counted.applySchedule entries generation⟩
  | step keepsPopulation remembersGrid => exact ⟨_, rfl, counted_step rfl world⟩

theorem Counted.afterCalls {world : World} (counted : world.Counted) (calls : List Call) :
    ∃ now, world.afterCalls calls = .ok now ∧ now.Counted := by
  induction calls generalizing world with
  | nil => exact ⟨world, rfl, counted⟩
  | cons call rest inductionHypothesis =>
      obtain ⟨next, performed, countedNext⟩ := counted.perform call
      obtain ⟨now, ended, countedNow⟩ := inductionHypothesis countedNext
      refine ⟨now, ?_, countedNow⟩
      unfold World.afterCalls at ended ⊢
      rw [List.foldlM_cons, performed]
      exact ended

/-! ### The report -/

/-- A counted world has no living cell exactly if its population is zero. -/
theorem Counted.population_eq_zero_iff {world : World} (counted : world.Counted) :
    world.population = 0 ↔ ∀ x y, world.living x y = false := by
  rw [counted_iff.mp counted, Block.population_eq_card, Finset.card_eq_zero,
    Finset.filter_eq_empty_iff]
  constructor
  · intro dead x y
    apply Bool.eq_false_iff.mpr
    intro lives
    obtain ⟨row, column, rowInside, columnInside, _, _, alive⟩ := exists_place_of_living lives
    exact dead (Finset.mem_univ (⟨row, rowInside⟩, ⟨column, columnInside⟩)) alive
  · intro dead place _
    rw [← living_at world place.1.isLt place.2.isLt, dead]
    exact Bool.false_ne_true

/-- **After any calls on a new world its population is the number of its living cells, and its
bounding box is the smallest rectangle that holds them, missing exactly if the population is
zero.** The calls made so far are calls too, so this holds after each one of a run. -/
theorem afterCalls_report {size : Int} {wraps : Bool} {world : World}
    (created : create size wraps = .ok world) (calls : List Call) :
    ∃ now, world.afterCalls calls = .ok now
      ∧ now.population = {place : ℤ × ℤ | now.living place.1 place.2 = true}.ncard
      ∧ (now.boundingBox = none ↔ now.population = 0)
      ∧ ∀ box, now.boundingBox = some box → now.living.BoundedBy box := by
  obtain ⟨now, ended, counted⟩ := (counted_of_create created).afterCalls calls
  refine ⟨now, ended, counted, ?_, fun box => boundingBox_eq_some_iff.mp⟩
  rw [boundingBox_eq_none_iff, counted.population_eq_zero_iff]

/-- A pattern over a corner, a cell beyond an edge, a step, a paste that clears the grid, and the
return to generation zero; before that return nothing lives. -/
theorem afterCalls_report_calls :
    let entry : Paste.Entry :=
      { cells := Cells.ofFn 8 8 fun _ _ => 1
        x := -4, y := -4, trigger := .once 1, mode := ⟨0⟩, driftX := 0, driftY := 0, evolve := 0
        source := "" }
    let world := ofSize 8 (by decide) true
    let calls : List Call := [.setRegion (-5) (-5) (Cells.ofRows [[9, 9, 9], [9, 0, 7], [9, 2, 3]]),
      .setCell 4 0 255, .markInitial, .step true false, .paste [entry] 1]
    create 8 true = .ok world
      ∧ (∃ now, world.afterCalls calls = .ok now
        ∧ now.population = 0 ∧ now.boundingBox = none)
      ∧ ∃ now, world.afterCalls (calls ++ [.reset]) = .ok now
        ∧ now.population = 3 ∧ now.living.BoundedBy ⟨-4, -4, -3, -3⟩ := by
  intro entry world calls
  have created : create 8 true = .ok world := rfl
  refine ⟨created, ?_, ?_⟩
  · obtain ⟨now, ended, _, missing, _⟩ := afterCalls_report created calls
    have shown : (world.afterCalls calls).map population = .ok 0 := by decide +kernel
    rw [ended] at shown
    have empty : now.population = 0 := Except.ok.inj shown
    exact ⟨now, ended, empty, missing.mpr empty⟩
  · obtain ⟨now, ended, _, _, smallest⟩ := afterCalls_report created (calls ++ [.reset])
    have shown : (world.afterCalls (calls ++ [.reset])).map
        (fun now => (now.population, now.boundingBox)) = .ok (3, some ⟨-4, -4, -3, -3⟩) := by
      decide +kernel
    rw [ended] at shown
    have reported := Prod.mk.inj (Except.ok.inj shown)
    exact ⟨now, ended, reported.1, smallest _ reported.2⟩

end Showreel.World
