import Showreel.Proofs.Waypoint.WalkCalls

/-!
Contract: when a walk ends.

Owns:
- that the walk remembers only what it has done since it was last begun anew: some scan ran past
  the last keyframe;
- that an update which reports the end is for a time beyond the last keyframe and for its
  generation, outside a blend, and not the first that runs past it.

Does not own: what playback makes of the end.
-/

namespace Showreel.Waypoint.Cursor

open Number Scalar

variable {α : Type} [Scalar α] {cursor : Cursor α}

/-- The scan of a call runs past the last keyframe. -/
def RunsPast (cursor : Cursor α) (call : WalkCall α) : Prop :=
  cursor.activeBlend = none
    ∧ ∃ elapsed, call.elapsed? = some elapsed ∧ cursor.scan elapsed = none

theorem lastReached_of_moves {elapsed : α} {answered : Bool} {moved : Cursor α}
    (moves : Moves cursor elapsed answered moved) (reached : moved.lastReached = true) :
    cursor.lastReached = true ∨ cursor.activeBlend = none ∧ cursor.scan elapsed = none := by
  cases moves with
  | blends _ => exact .inl reached
  | runsPast walking past => exact .inr ⟨walking, past⟩
  | @reaches place view _ _ =>
      obtain ⟨fitted, same, -⟩ := cursor.exists_aim place view
      rw [same] at reached
      exact .inl reached
  | @misses place view _ _ =>
      obtain ⟨fitted, same, -⟩ := cursor.exists_aim place view
      rw [same] at reached
      exact .inl reached

variable [Transcendental α]

/-- That the last keyframe was reached is known from before, unless the call itself runs past it;
nothing is known after a restart. -/
theorem lastReached_perform {call : WalkCall α}
    (reached : (call.perform cursor).lastReached = true) :
    call ≠ .restart ∧ (cursor.lastReached = true ∨ cursor.RunsPast call) := by
  rcases cursor.perform_cases call with ⟨elapsed, moved, blending, blend, timed, moves, same, -⟩
    | ⟨elapsed, rfl⟩ | rfl
  · have goesOn : call ≠ .restart := by
      rintro rfl
      cases timed
    rw [same] at reached
    refine ⟨goesOn, (lastReached_of_moves moves reached).imp_right ?_⟩
    rintro ⟨walking, past⟩
    exact ⟨walking, elapsed, timed, past⟩
  · obtain ⟨index, processed, same, -⟩ := cursor.exists_steppedBack elapsed
    rw [WalkCall.perform, same] at reached
    refine ⟨?_, .inl reached⟩
    rintro ⟨⟩
  · cases reached

/-- **A walk that knows of its end has run past its last keyframe** since it was last begun anew. -/
theorem exists_runsPast (chain : Chain α) (calls : List (WalkCall α))
    (reached : ((ofChain chain).afterCalls calls).lastReached = true) :
    ∃ before call after, calls = before ++ call :: after
      ∧ ((ofChain chain).afterCalls before).RunsPast call ∧ .restart ∉ after := by
  induction calls using List.reverseRecOn with
  | nil => cases reached
  | append_singleton calls last inductionHypothesis =>
      rw [afterCalls_concat] at reached
      obtain ⟨goesOn, earlier | now⟩ := lastReached_perform reached
      · obtain ⟨before, call, after, rfl, past, since⟩ := inductionHypothesis earlier
        refine ⟨before, call, after ++ [last], by simp, past, ?_⟩
        simp [since, goesOn.symm]
      · exact ⟨calls, last, [], rfl, now, List.not_mem_nil⟩

/-- **An update that reports the end** is for the generation of the last keyframe or a later one and
for a time that is not at most its own, so for a later time if both are numbers. The last keyframe
was a destination, no blend is in force, and a scan has run past the last keyframe before. -/
theorem update_ended [OrderedScalar α] (chain : Chain α) (calls : List (WalkCall α)) {elapsed : α}
    {generation : Int} {view : Option (Keyframe α)} {moved : Cursor α} {position : Keyframe α}
    (ended : ((ofChain chain).afterCalls calls).update elapsed generation view
      = .ok (moved, position, true)) :
    ¬elapsed ≤ chain.last.targetTime
      ∧ ( denotation elapsed ≠ .undefined → denotation chain.last.targetTime ≠ .undefined →
        chain.last.targetTime < elapsed)
      ∧ chain.last.targetGeneration ≤ generation
      ∧ chain.lastIndex ∈ ((ofChain chain).afterCalls calls).processed
      ∧ ((ofChain chain).afterCalls calls).blending = false
      ∧ ∃ before call after, calls = before ++ call :: after
        ∧ ((ofChain chain).afterCalls before).RunsPast call ∧ .restart ∉ after := by
  have standing := standing_afterCalls chain calls
  have memory := exists_runsPast chain calls
  have same := chain_afterCalls chain calls
  generalize (ofChain chain).afterCalls calls = walk at *
  subst same
  rcases update_cases ended with ⟨_, _, impossible, _⟩ | ⟨walking, past, rfl, reported⟩
    | ⟨_, _, _, impossible, _⟩
  · cases impossible
  · obtain ⟨generations, reached⟩ := Bool.and_eq_true_iff.mp reported.symm
    have inside := standing.inside
    obtain ⟨beyond, processed⟩ := stopsAt_eq_false_iff.mp
      (scan_eq_none_iff.mp past walk.chain.lastIndex (Nat.lt_succ_iff.mp inside)
        (Nat.lt_succ_self _))
    rw [(standing.keyframe _).1] at beyond
    rw [(standing.keyframe _).2, decide_eq_true_eq] at generations
    refine ⟨beyond, ?_, generations, processed, ?_, memory reached⟩
    · intro number numberToo
      by_contra notBelow
      exact beyond (OrderedScalar.total numberToo number notBelow)
    · rw [← Bool.not_eq_true]
      intro blends
      unfold activeBlend at walking
      rw [if_pos blends] at walking
      exact standing.blended ⟨blends, walking⟩
  · cases impossible

/-- A step back over the last keyframe forgets that it was a destination, but not that the walk ran
past it: the walk then ends at once when it has come there again. -/
theorem update_ended_afterStepBack :
    let final : Keyframe Float :=
      { Keyframe.standard with targetTime := Motion.frameTime, targetGeneration := 1 }
    let chain : Chain Float := ⟨.standard, [final]⟩
    let calls : List (WalkCall Float) :=
      [.update 0 0 none, .update 20 1 none, .update 20 1 none, .stepBack 5, .update 20 1 none]
    let walk := (ofChain chain).afterCalls calls
    ∃ moved position, walk.update 20 1 none = .ok (moved, position, true)
      ∧ chain.last.targetTime < 20
      ∧ ∃ before call after, calls = before ++ call :: after
        ∧ ((ofChain chain).afterCalls before).RunsPast call ∧ .restart ∉ after := by
  intro final chain calls walk
  have ends : (walk.update 20 1 none).toOption.map (fun answer => answer.2.2) = some true := by
    decide +kernel
  cases done : walk.update 20 1 none with
  | error fault =>
      rw [done] at ends
      cases ends
  | ok answer =>
      obtain ⟨moved, position, ended⟩ := answer
      rw [done] at ends
      cases ends
      obtain ⟨-, beyond, -, -, -, earlier⟩ := update_ended chain calls done
      exact ⟨moved, position, rfl, beyond (by decide +kernel) (by decide +kernel), earlier⟩

/-- A time that is no number lies behind every keyframe and before none. A walk that is moved to it
ends all the same, though it is not beyond the last keyframe. -/
theorem not_beyond_of_undefined :
    let chain : Chain Float := ⟨.standard, []⟩
    let undefined := Float.ofBits 0x7FF8000000000000
    let walk := (ofChain chain).afterCalls [.update 0 0 none, .update undefined 0 none]
    (walk.update undefined 0 none).toOption.map (fun answer => answer.2.2) = some true
      ∧ ¬chain.last.targetTime < undefined := by
  decide +kernel

end Showreel.Waypoint.Cursor
