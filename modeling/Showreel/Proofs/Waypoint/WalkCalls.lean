import Mathlib.Data.List.Induction
import Showreel.Proofs.Number.Ordered
import Showreel.Proofs.Waypoint.Walk

/-!
Contract: everything that is done to a walk along a chain of keyframes.

Owns:
- the calls on a walk, and the walk after any sequence of them. A call that has no answer leaves
  the walk as far as it came, and the next call goes on from there;
- what one call can do to a walk;
- that a walk stays on its chain, and that a fitted view changes no time and no generation.

Does not own: the order in which keyframes are passed; the end of a walk.
-/

namespace Showreel.Waypoint

open Number Scalar

/-- A call on a walk. -/
inductive WalkCall (α : Type) where
  | update (elapsed : α) (generation : Int) (view : Option (Keyframe α))
  | beginBlend (view : Keyframe α) (generation : Int) (elapsed : α)
  | stepBack (elapsed : α)
  | restart

namespace WalkCall

variable {α : Type}

/-- The time for which a call moves a walk that is not in a blend. The beginning of a blend moves
the walk first, to where the blend is to lead. -/
def elapsed? : WalkCall α → Option α
  | update elapsed _ _ | beginBlend _ _ elapsed => some elapsed
  | stepBack _ | restart => none

variable [Scalar α] [Transcendental α]

/-- Whether a call has an answer. -/
def answers (cursor : Cursor α) : WalkCall α → Bool
  | update elapsed generation view => (cursor.update elapsed generation view).isOk
  | beginBlend view generation elapsed => (cursor.beginBlend view generation elapsed).isOk
  | stepBack _ | restart => true

/-- The walk after one call. -/
def perform (cursor : Cursor α) : WalkCall α → Cursor α
  | update elapsed generation view =>
      match cursor.update elapsed generation view with
      | .ok (moved, _) => moved
      | .error _ => cursor.approach elapsed view
  | beginBlend view generation elapsed =>
      match cursor.beginBlend view generation elapsed with
      | .ok (moved, _) => moved
      | .error _ => cursor.approach elapsed none
  | stepBack elapsed => cursor.steppedBack elapsed
  | restart => cursor.restart

end WalkCall

namespace Cursor

variable {α : Type}

/-! ### Noting and fitting -/

/-- What noting and fitting a destination changes, and that no time and no generation is fitted. -/
theorem exists_aim (cursor : Cursor α) (place : Nat) (view : Option (Keyframe α)) :
    ∃ fitted, cursor.aim place view
        = { cursor with processed := (cursor.note place).processed, fitted := fitted }
      ∧ ∀ entry ∈ fitted, entry ∈ cursor.fitted
        ∨ entry.2.targetTime = (cursor.chain.get entry.1).targetTime
          ∧ entry.2.targetGeneration = (cursor.chain.get entry.1).targetGeneration := by
  have noted : cursor.note place = { cursor with processed := (cursor.note place).processed } := by
    unfold note
    split <;> rfl
  have unfitted : ∀ entry ∈ cursor.fitted, entry ∈ cursor.fitted
      ∨ entry.2.targetTime = (cursor.chain.get entry.1).targetTime
        ∧ entry.2.targetGeneration = (cursor.chain.get entry.1).targetGeneration :=
    fun _ member => .inl member
  unfold aim
  split
  · exact ⟨cursor.fitted, noted, unfitted⟩
  · rw [noted]
    unfold fit
    cases view with
    | none => exact ⟨cursor.fitted, rfl, unfitted⟩
    | some view =>
        dsimp only
        split
        · refine ⟨_, rfl, List.forall_mem_cons.mpr ⟨.inr ⟨rfl, rfl⟩, ?_⟩⟩
          exact fun entry member => .inl (List.mem_of_mem_filter member)
        · exact ⟨cursor.fitted, rfl, unfitted⟩

theorem blending_of_activeBlend {cursor : Cursor α} (active : cursor.activeBlend ≠ none) :
    cursor.blending = true := by
  rw [← Bool.not_eq_false]
  exact fun walking => active (activeBlend_of_not_blending walking)

variable [Scalar α]

/-! ### Calls -/

section Calls

variable [Transcendental α]

/-- The walk after calls, in order. -/
def afterCalls (cursor : Cursor α) (calls : List (WalkCall α)) : Cursor α :=
  calls.foldl WalkCall.perform cursor

@[simp] theorem afterCalls_nil (cursor : Cursor α) : cursor.afterCalls [] = cursor := rfl

@[simp] theorem afterCalls_concat (cursor : Cursor α) (calls : List (WalkCall α))
    (call : WalkCall α) :
    cursor.afterCalls (calls ++ [call]) = call.perform (cursor.afterCalls calls) :=
  List.foldl_concat _ _ _ _

/-- What holds at the start and is kept by every call holds after all calls. -/
theorem afterCalls_keeps (kept : Cursor α → Prop)
    (performed : ∀ (cursor : Cursor α) (call : WalkCall α),
      kept cursor → kept (call.perform cursor))
    (cursor : Cursor α) (calls : List (WalkCall α)) (holds : kept cursor) :
    kept (cursor.afterCalls calls) := by
  induction calls using List.reverseRecOn with
  | nil => exact holds
  | append_singleton calls call inductionHypothesis =>
      rw [afterCalls_concat]
      exact performed _ _ inductionHypothesis

end Calls

/-! ### The scan -/

variable {cursor : Cursor α} {elapsed : α}

theorem scan_eq_some_iff {place : Nat} :
    cursor.scan elapsed = some place ↔
      cursor.stopsAt elapsed place = true
        ∧ (cursor.index ≤ place ∧ place < cursor.chain.length)
        ∧ ∀ before, cursor.index ≤ before → before < place →
          cursor.stopsAt elapsed before = false := by
  unfold scan
  rw [List.find?_range'_eq_some, List.mem_range'_1]
  simp only [Bool.not_eq_true', and_congr_right_iff, and_congr_left_iff]
  omega

theorem scan_eq_none_iff :
    cursor.scan elapsed = none ↔
      ∀ place, cursor.index ≤ place → place < cursor.chain.length →
        cursor.stopsAt elapsed place = false := by
  unfold scan
  simp only [List.find?_eq_none, List.mem_range'_1, Bool.not_eq_true]
  constructor
  · intro passed place ahead inside
    exact passed place ⟨ahead, by omega⟩
  · rintro passed place ⟨ahead, inside⟩
    exact passed place ahead (by omega)

/-- The scan runs past a keyframe that was a destination and does not lie ahead. -/
theorem stopsAt_eq_false_iff {place : Nat} :
    cursor.stopsAt elapsed place = false
      ↔ ¬elapsed ≤ (cursor.keyframe place).targetTime ∧ place ∈ cursor.processed := by
  simp [stopsAt]

/-! ### What one call can do -/

/-- Where a walk comes to when it is moved to a time, apart from its blend, and whether that has an
answer. Without one the destination is noted and fitted, but not reached. -/
inductive Moves (cursor : Cursor α) (elapsed : α) : Bool → Cursor α → Prop
  | blends {answered : Bool} (active : cursor.activeBlend ≠ none) :
      Moves cursor elapsed answered cursor
  | runsPast (walking : cursor.activeBlend = none) (past : cursor.scan elapsed = none) :
      Moves cursor elapsed true
        { cursor with index := cursor.chain.lastIndex, lastReached := true }
  | reaches {place : Nat} (view : Option (Keyframe α)) (walking : cursor.activeBlend = none)
      (found : cursor.scan elapsed = some place) :
      Moves cursor elapsed true { cursor.aim place view with index := place }
  | misses {place : Nat} (view : Option (Keyframe α)) (walking : cursor.activeBlend = none)
      (found : cursor.scan elapsed = some place) :
      Moves cursor elapsed false (cursor.aim place view)

/-- The walk with another blend, in force or not. -/
def withBlending (cursor : Cursor α) (blending : Bool) (blend : Option (Blend α)) : Cursor α :=
  { cursor with blending := blending, blend := blend }

theorem approach_of_blend (view : Option (Keyframe α)) (active : cursor.activeBlend ≠ none) :
    cursor.approach elapsed view = cursor := by
  unfold approach
  split
  · exact absurd ‹_› active
  · rfl

theorem approach_of_scan {place : Nat} (view : Option (Keyframe α))
    (walking : cursor.activeBlend = none) (found : cursor.scan elapsed = some place) :
    cursor.approach elapsed view = cursor.aim place view := by
  unfold approach
  rw [walking, found]

variable [Transcendental α]

/-- **What an update does**, in one place: it goes on in a blend, runs past the last keyframe, or
reaches the keyframe at which the scan stops. -/
theorem update_cases {generation : Int} {view : Option (Keyframe α)} {moved : Cursor α}
    {position : Keyframe α} {ended : Bool}
    (done : cursor.update elapsed generation view = .ok (moved, position, ended)) :
    (∃ blend, cursor.activeBlend = some blend ∧ ended = false
        ∧ moved = cursor.withBlending (!decide (blend.finish.targetTime ≤ elapsed)) cursor.blend)
      ∨ (cursor.activeBlend = none ∧ cursor.scan elapsed = none
        ∧ moved = { cursor with index := cursor.chain.lastIndex, lastReached := true }
        ∧ ended = (decide ((cursor.keyframe cursor.chain.lastIndex).targetGeneration ≤ generation)
          && cursor.lastReached))
      ∨ ∃ place, cursor.activeBlend = none ∧ cursor.scan elapsed = some place ∧ ended = false
        ∧ moved = { cursor.aim place view with index := place } := by
  unfold update at done
  split at done
  · rename_i blend active
    obtain ⟨between, -, done⟩ := bind_eq_ok done
    cases done
    exact .inl ⟨blend, active, rfl, rfl⟩
  · rename_i walking
    split at done
    · rename_i past
      cases done
      exact .inr (.inl ⟨walking, past, rfl, rfl⟩)
    · rename_i found
      cases done
      exact .inr (.inr ⟨0, walking, found, rfl, rfl⟩)
    · rename_i place found
      obtain ⟨between, -, done⟩ := bind_eq_ok done
      cases done
      exact .inr (.inr ⟨place + 1, walking, found, rfl, rfl⟩)

theorem scan_of_update_error {generation : Int} {view : Option (Keyframe α)} {fault : Fault}
    (failed : cursor.update elapsed generation view = .error fault)
    (walking : cursor.activeBlend = none) : ∃ place, cursor.scan elapsed = some place := by
  cases scanned : cursor.scan elapsed with
  | none =>
      unfold update at failed
      rw [walking] at failed
      dsimp only at failed
      rw [scanned] at failed
      cases failed
  | some place => exact ⟨place, rfl⟩

/-- An update, with or without an answer, moves the walk. A blend that is in force afterwards was so
before. -/
theorem moves_update (cursor : Cursor α) (elapsed : α) (generation : Int)
    (view : Option (Keyframe α)) :
    ∃ moved blending, Moves cursor elapsed (cursor.update elapsed generation view).isOk moved
      ∧ (WalkCall.update elapsed generation view).perform cursor
        = moved.withBlending blending cursor.blend
      ∧ (blending = true → cursor.blending = true) := by
  have alone : ∀ place, (cursor.aim place view).withBlending cursor.blending cursor.blend
      = cursor.aim place view := by
    intro place
    obtain ⟨fitted, same, -⟩ := cursor.exists_aim place view
    rw [same]
    rfl
  cases done : cursor.update elapsed generation view with
  | error fault =>
      simp only [WalkCall.perform, done]
      by_cases walking : cursor.activeBlend = none
      · obtain ⟨place, found⟩ := scan_of_update_error done walking
        refine ⟨_, cursor.blending, .misses view walking found, ?_, id⟩
        rw [approach_of_scan view walking found, alone]
      · exact ⟨cursor, cursor.blending, .blends walking, approach_of_blend view walking, id⟩
  | ok answer =>
      obtain ⟨moved, position, ended⟩ := answer
      simp only [WalkCall.perform, done]
      rcases update_cases done with ⟨blend, active, -, rfl⟩ | ⟨walking, past, rfl, -⟩
        | ⟨place, walking, found, -, rfl⟩
      · have blends : cursor.activeBlend ≠ none := by simp [active]
        exact ⟨cursor, _, .blends blends, rfl, fun _ => blending_of_activeBlend blends⟩
      · exact ⟨_, cursor.blending, .runsPast walking past, rfl, id⟩
      · refine ⟨_, cursor.blending, .reaches view walking found, ?_, id⟩
        rw [← alone]
        rfl

theorem beginBlend_of_blend {blend : Blend α} (active : cursor.activeBlend = some blend)
    (view : Keyframe α) (generation : Int) (elapsed : α) :
    ∃ next now, cursor.beginBlend view generation elapsed
      = .ok (cursor.withBlending true (some next), now) := by
  unfold beginBlend
  rw [active]
  exact ⟨_, _, rfl⟩

/-- Outside a blend the beginning of one is an update without a view, and a blend from there. -/
theorem beginBlend_of_walking (walking : cursor.activeBlend = none) (view : Keyframe α)
    (generation : Int) (elapsed : α) :
    (∃ fault, cursor.update elapsed generation none = .error fault
        ∧ cursor.beginBlend view generation elapsed = .error fault)
      ∨ ∃ moved answer next now, cursor.update elapsed generation none = .ok (moved, answer)
        ∧ cursor.beginBlend view generation elapsed
          = .ok (moved.withBlending true (some next), now) := by
  unfold beginBlend
  rw [walking]
  cases done : cursor.update elapsed generation none with
  | error fault => exact .inl ⟨fault, rfl, rfl⟩
  | ok answer => exact .inr ⟨answer.1, answer.2, _, _, rfl, rfl⟩

/-- **Every call that is for a time moves the walk**, and sets no blend in force that is not
there. -/
theorem moves_perform (cursor : Cursor α) {call : WalkCall α}
    (timed : call.elapsed? = some elapsed) :
    ∃ moved blending blend, Moves cursor elapsed (call.answers cursor) moved
      ∧ call.perform cursor = moved.withBlending blending blend
      ∧ (blending = true → blend = none → cursor.blending = true ∧ cursor.blend = none) := by
  cases call with
  | stepBack _ | restart => cases timed
  | update _ generation view =>
      cases timed
      obtain ⟨moved, blending, moves, same, inForce⟩ :=
        moves_update cursor elapsed generation view
      exact ⟨moved, blending, cursor.blend, moves, same,
        fun blends missing => ⟨inForce blends, missing⟩⟩
  | beginBlend view generation _ =>
      cases timed
      by_cases walking : cursor.activeBlend = none
      · obtain ⟨moved, blending, moves, same, inForce⟩ :=
          moves_update cursor elapsed generation none
        rcases beginBlend_of_walking walking view generation elapsed with
          ⟨fault, failed, failedToo⟩ | ⟨walked, answer, next, now, done, begun⟩
        · simp only [WalkCall.perform, WalkCall.answers, failed, failedToo] at moves same ⊢
          exact ⟨moved, blending, cursor.blend, moves, same,
            fun blends missing => ⟨inForce blends, missing⟩⟩
        · simp only [WalkCall.perform, WalkCall.answers, done, begun] at moves same ⊢
          refine ⟨moved, true, some next, moves, ?_, fun _ => nofun⟩
          rw [same]
          rfl
      · obtain ⟨blend, active⟩ := Option.ne_none_iff_exists'.mp walking
        obtain ⟨next, now, begun⟩ := beginBlend_of_blend active view generation elapsed
        simp only [WalkCall.perform, WalkCall.answers, begun]
        exact ⟨cursor, true, some next, .blends walking, rfl, fun _ => nofun⟩

/-- A call moves the walk to its time, steps back, or begins the walk anew. -/
theorem perform_cases (cursor : Cursor α) (call : WalkCall α) :
    (∃ elapsed moved blending blend, call.elapsed? = some elapsed
        ∧ Moves cursor elapsed (call.answers cursor) moved
        ∧ call.perform cursor = moved.withBlending blending blend
        ∧ (blending = true → blend = none → cursor.blending = true ∧ cursor.blend = none))
      ∨ (∃ elapsed, call = .stepBack elapsed) ∨ call = .restart := by
  cases timed : call.elapsed? with
  | some elapsed =>
      obtain ⟨moved, blending, blend, does⟩ := moves_perform cursor timed
      exact .inl ⟨elapsed, moved, blending, blend, rfl, does⟩
  | none =>
      cases call with
      | update _ _ _ | beginBlend _ _ _ => cases timed
      | stepBack elapsed => exact .inr (.inl ⟨elapsed, rfl⟩)
      | restart => exact .inr (.inr rfl)

omit [Transcendental α] in
/-- A step back changes where the walk is and what it has processed. It stays on the chain, and
processes nothing. -/
theorem exists_steppedBack (cursor : Cursor α) (elapsed : α) :
    ∃ index processed, cursor.steppedBack elapsed
        = { cursor with index := index, processed := processed }
      ∧ (index = cursor.index ∨ index < cursor.chain.length)
      ∧ ∀ place ∈ processed, place ∈ cursor.processed := by
  have folded : ∀ places : List Nat, (∀ place ∈ places, place < cursor.chain.length) →
      ∃ index processed, places.foldl (forget elapsed) cursor
          = { cursor with index := index, processed := processed }
        ∧ (index = cursor.index ∨ index < cursor.chain.length)
        ∧ ∀ place ∈ processed, place ∈ cursor.processed := by
    intro places inside
    induction places using List.reverseRecOn with
    | nil => exact ⟨_, _, rfl, .inl rfl, fun _ => id⟩
    | append_singleton places place inductionHypothesis =>
        obtain ⟨insideBefore, insideHere⟩ := List.forall_mem_append.mp inside
        obtain ⟨index, processed, same, stands, known⟩ := inductionHypothesis insideBefore
        rw [List.foldl_concat, same]
        unfold forget
        split
        · exact ⟨_, _, rfl, .inr (insideHere place (by simp)),
            fun other member => known other (List.mem_of_mem_filter member)⟩
        · exact ⟨_, _, rfl, stands, known⟩
  apply folded
  simp

/-! ### What every call keeps -/

theorem chain_perform (cursor : Cursor α) (call : WalkCall α) :
    (call.perform cursor).chain = cursor.chain := by
  cases call with
  | update elapsed generation view =>
      simp only [WalkCall.perform]
      split
      · exact chain_update ‹_›
      · exact cursor.chain_approach elapsed view
  | beginBlend view generation elapsed =>
      simp only [WalkCall.perform]
      split
      · exact chain_beginBlend ‹_›
      · exact cursor.chain_approach elapsed none
  | stepBack elapsed =>
      obtain ⟨index, processed, same, -⟩ := cursor.exists_steppedBack elapsed
      rw [WalkCall.perform, same]
  | restart => rfl

theorem chain_afterCalls (chain : Chain α) (calls : List (WalkCall α)) :
    ((ofChain chain).afterCalls calls).chain = chain :=
  afterCalls_keeps (fun walk => walk.chain = chain)
    (fun walk call same => (walk.chain_perform call).trans same) _ calls rfl

/-- A walk that stands on its chain. A fitted view has changed no time and no generation, and a
blend that is in force is there. -/
structure Standing (cursor : Cursor α) : Prop where
  inside : cursor.index < cursor.chain.length
  faithful : ∀ entry ∈ cursor.fitted,
    entry.2.targetTime = (cursor.chain.get entry.1).targetTime
      ∧ entry.2.targetGeneration = (cursor.chain.get entry.1).targetGeneration
  blended : ¬(cursor.blending = true ∧ cursor.blend = none)

omit [Scalar α] [Transcendental α] in
theorem Standing.keyframe (standing : cursor.Standing) (place : Nat) :
    (cursor.keyframe place).targetTime = (cursor.chain.get place).targetTime
      ∧ (cursor.keyframe place).targetGeneration = (cursor.chain.get place).targetGeneration := by
  unfold Cursor.keyframe
  cases found : cursor.fitted.lookup place with
  | none => exact ⟨rfl, rfl⟩
  | some view =>
      obtain ⟨before, after, split, -⟩ := List.lookup_eq_some_iff.mp found
      exact standing.faithful (place, view) (by simp [split])

omit [Scalar α] [Transcendental α] in
theorem standing_ofChain (chain : Chain α) : (ofChain chain).Standing :=
  ⟨chain.later.length.succ_pos, List.forall_mem_nil _, fun both => Bool.false_ne_true both.1⟩

omit [Transcendental α] in
theorem Standing.of_moves {answered : Bool} {moved : Cursor α} (standing : cursor.Standing)
    (moves : Moves cursor elapsed answered moved) :
    moved.index < moved.chain.length
      ∧ ∀ entry ∈ moved.fitted,
        entry.2.targetTime = (moved.chain.get entry.1).targetTime
          ∧ entry.2.targetGeneration = (moved.chain.get entry.1).targetGeneration := by
  cases moves with
  | blends _ => exact ⟨standing.inside, standing.faithful⟩
  | runsPast _ _ => exact ⟨Nat.lt_succ_self _, standing.faithful⟩
  | @reaches place view _ found =>
      obtain ⟨fitted, same, faithful⟩ := cursor.exists_aim place view
      rw [same]
      exact ⟨(scan_eq_some_iff.mp found).2.1.2,
        fun entry member => (faithful entry member).elim (standing.faithful entry) id⟩
  | @misses place view _ _ =>
      obtain ⟨fitted, same, faithful⟩ := cursor.exists_aim place view
      rw [same]
      exact ⟨standing.inside,
        fun entry member => (faithful entry member).elim (standing.faithful entry) id⟩

theorem Standing.perform (standing : cursor.Standing) (call : WalkCall α) :
    (call.perform cursor).Standing := by
  rcases cursor.perform_cases call with ⟨elapsed, moved, blending, blend, -, moves, same, inForce⟩
    | ⟨elapsed, rfl⟩ | rfl
  · obtain ⟨inside, faithful⟩ := standing.of_moves moves
    rw [same]
    exact ⟨inside, faithful, fun both => standing.blended (inForce both.1 both.2)⟩
  · obtain ⟨index, processed, same, stands, -⟩ := cursor.exists_steppedBack elapsed
    rw [WalkCall.perform, same]
    refine ⟨?_, standing.faithful, standing.blended⟩
    rcases stands with rfl | inside
    · exact standing.inside
    · exact inside
  · exact ⟨cursor.chain.later.length.succ_pos, List.forall_mem_nil _,
      fun both => Bool.false_ne_true both.1⟩

theorem standing_afterCalls (chain : Chain α) (calls : List (WalkCall α)) :
    ((ofChain chain).afterCalls calls).Standing :=
  afterCalls_keeps Standing (fun _ call standing => standing.perform call) _ calls
    (standing_ofChain chain)

end Cursor

end Showreel.Waypoint
