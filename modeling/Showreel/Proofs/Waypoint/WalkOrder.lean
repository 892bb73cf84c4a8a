import Showreel.Proofs.Number.Ordered
import Showreel.Proofs.Waypoint.WalkCalls

/-!
Contract: the order in which a walk passes its keyframes.

Owns:
- the destination of a call, and the keyframes that a walk has visited;
- that whatever is processed has been visited, on any chain;
- that on a chain in order of time the processed keyframes are the first ones of the chain, up to
  the current one or the next, and that a call without an answer adds at most one more;
- that no keyframe is left out.

Does not own: where a walk stands between two keyframes.
-/

namespace Showreel.Waypoint

open Number Scalar

namespace WalkCall

variable {α : Type} [Scalar α]

/-- The keyframe that a call makes the current destination. In a blend there is none. -/
def destination? (cursor : Cursor α) (call : WalkCall α) : Option Nat :=
  match cursor.activeBlend, call.elapsed? with
  | none, some elapsed => some ((cursor.scan elapsed).getD cursor.chain.lastIndex)
  | _, _ => none

theorem destination?_walking {cursor : Cursor α} {call : WalkCall α} {elapsed : α}
    (walking : cursor.activeBlend = none) (timed : call.elapsed? = some elapsed) :
    call.destination? cursor = some ((cursor.scan elapsed).getD cursor.chain.lastIndex) := by
  unfold destination?
  rw [walking, timed]

theorem exists_of_destination? {cursor : Cursor α} {call : WalkCall α} {place : Nat}
    (leads : call.destination? cursor = some place) :
    ∃ elapsed, cursor.activeBlend = none ∧ call.elapsed? = some elapsed
      ∧ place = (cursor.scan elapsed).getD cursor.chain.lastIndex := by
  unfold destination? at leads
  split at leads
  · rename_i elapsed walking timed
    cases leads
    exact ⟨elapsed, walking, timed, rfl⟩
  · cases leads

variable [Transcendental α]

/-- How many calls have had no answer since the walk was last begun anew, with one more call. -/
def stillUnanswered (cursor : Cursor α) (unanswered : Nat) : WalkCall α → Nat
  | restart => 0
  | call => if call.answers cursor then unanswered else unanswered + 1

theorem stillUnanswered_of_timed {cursor : Cursor α} {call : WalkCall α} {elapsed : α}
    (timed : call.elapsed? = some elapsed) (unanswered : Nat) :
    call.stillUnanswered cursor unanswered
      = if call.answers cursor then unanswered else unanswered + 1 := by
  cases call with
  | update _ _ _ | beginBlend _ _ _ => rfl
  | stepBack _ | restart => cases timed

/-- The walk after a call, with the count of calls that have had no answer. -/
def performCounting (state : Cursor α × Nat) (call : WalkCall α) : Cursor α × Nat :=
  (call.perform state.1, call.stillUnanswered state.1 state.2)

end WalkCall

namespace Cursor

variable {α : Type} [Scalar α] {cursor : Cursor α} {elapsed : α}

section Unanswered

variable [Transcendental α]

/-- How many of the calls since the walk was last begun anew have had no answer. -/
def unanswered (cursor : Cursor α) (calls : List (WalkCall α)) : Nat :=
  (calls.foldl WalkCall.performCounting (cursor, 0)).2

theorem foldl_performCounting_fst (cursor : Cursor α) (calls : List (WalkCall α)) :
    (calls.foldl WalkCall.performCounting (cursor, 0)).1 = cursor.afterCalls calls := by
  induction calls using List.reverseRecOn with
  | nil => rfl
  | append_singleton calls call inductionHypothesis =>
      rw [List.foldl_concat, afterCalls_concat, ← inductionHypothesis]
      rfl

@[simp] theorem unanswered_nil (cursor : Cursor α) : cursor.unanswered [] = 0 := rfl

@[simp] theorem unanswered_concat (cursor : Cursor α) (calls : List (WalkCall α))
    (call : WalkCall α) :
    cursor.unanswered (calls ++ [call])
      = call.stillUnanswered (cursor.afterCalls calls) (cursor.unanswered calls) := by
  unfold unanswered
  rw [List.foldl_concat, ← foldl_performCounting_fst]
  rfl

end Unanswered

/-! ### What has been processed has been visited -/

omit [Scalar α] in
theorem mem_processed_note {place noted : Nat} :
    place ∈ (cursor.note noted).processed ↔ place ∈ cursor.processed ∨ place = noted := by
  unfold note
  split
  · rename_i known
    rw [List.contains_iff_mem] at known
    constructor
    · exact .inl
    · rintro (before | rfl)
      · exact before
      · exact known
  · simp

omit [Scalar α] in
theorem mem_processed_aim {place aimed : Nat} {view : Option (Keyframe α)} :
    place ∈ (cursor.aim aimed view).processed ↔ place ∈ cursor.processed ∨ place = aimed := by
  obtain ⟨fitted, same, -⟩ := cursor.exists_aim aimed view
  rw [same]
  exact mem_processed_note

/-- A move processes nothing but its destination. -/
theorem mem_processed_of_moves {answered : Bool} {moved : Cursor α} {place : Nat}
    (moves : Moves cursor elapsed answered moved) (member : place ∈ moved.processed) :
    place ∈ cursor.processed ∨ cursor.activeBlend = none ∧ cursor.scan elapsed = some place := by
  cases moves with
  | blends _ | runsPast _ _ => exact .inl member
  | reaches view walking found | misses view walking found =>
      rcases mem_processed_aim.mp member with before | rfl
      · exact .inl before
      · exact .inr ⟨walking, found⟩

variable [Transcendental α]

theorem mem_processed_perform {call : WalkCall α} {place : Nat}
    (member : place ∈ (call.perform cursor).processed) :
    place ∈ cursor.processed ∨ call.destination? cursor = some place := by
  rcases cursor.perform_cases call with ⟨elapsed, moved, blending, blend, timed, moves, same, -⟩
    | ⟨elapsed, rfl⟩ | rfl
  · rw [same] at member
    refine (mem_processed_of_moves moves member).imp_right ?_
    rintro ⟨walking, found⟩
    rw [WalkCall.destination?_walking walking timed, found]
    rfl
  · obtain ⟨index, processed, same, -, known⟩ := cursor.exists_steppedBack elapsed
    rw [WalkCall.perform, same] at member
    exact .inl (known place member)
  · cases member

/-- A keyframe was the destination of a call, and has not been forgotten since. -/
def Visited (cursor : Cursor α) (calls : List (WalkCall α)) (place : Nat) : Prop :=
  ∃ before call after, calls = before ++ call :: after
    ∧ call.destination? (cursor.afterCalls before) = some place
    ∧ ∀ further, further <+: after →
      place ∈ (cursor.afterCalls (before ++ call :: further)).processed

/-- **What has been processed has been visited.** -/
theorem visited_of_mem (chain : Chain α) (calls : List (WalkCall α)) (place : Nat)
    (member : place ∈ ((ofChain chain).afterCalls calls).processed) :
    (ofChain chain).Visited calls place := by
  induction calls using List.reverseRecOn with
  | nil => cases member
  | append_singleton calls last inductionHypothesis =>
      -- the last call made it a destination, or an earlier one did and the last one kept it
      have performed := member
      rw [afterCalls_concat] at performed
      rcases mem_processed_perform performed with known | leads
      · obtain ⟨before, call, after, rfl, leads, kept⟩ := inductionHypothesis known
        refine ⟨before, call, after ++ [last], by simp, leads, fun further start => ?_⟩
        rcases List.prefix_concat_iff.mp start with rfl | start
        · simpa using member
        · exact kept further start
      · refine ⟨calls, last, [], rfl, leads, fun further start => ?_⟩
        rw [List.prefix_nil.mp start]
        exact member

/-! ### The processed keyframes of a chain in order -/

omit [Transcendental α]

/-- The first keyframes of the chain are processed, up to the current one or the next, and one more
at most for each call that has had no answer. -/
structure Passed (cursor : Cursor α) (unanswered count : Nat) : Prop where
  processed : ∀ place, place ∈ cursor.processed ↔ place < count
  reached : cursor.index ≤ count
  ahead : count ≤ cursor.index + 1 + unanswered
  inside : count ≤ cursor.chain.length

variable {unanswered count : Nat}

theorem Passed.of_scan {place : Nat} (passed : cursor.Passed unanswered count)
    (found : cursor.scan elapsed = some place) :
    cursor.index ≤ place ∧ place ≤ count ∧ place < cursor.chain.length := by
  obtain ⟨-, ⟨ahead, inside⟩, skipped⟩ := scan_eq_some_iff.mp found
  refine ⟨ahead, ?_, inside⟩
  by_contra beyond
  have first := (stopsAt_eq_false_iff.mp (skipped count passed.reached (by omega))).2
  exact Nat.lt_irrefl _ ((passed.processed count).mp first)

theorem Passed.of_scan_none (passed : cursor.Passed unanswered count)
    (past : cursor.scan elapsed = none) : count = cursor.chain.length := by
  refine passed.inside.antisymm ?_
  by_contra beyond
  have first := (stopsAt_eq_false_iff.mp
    (scan_eq_none_iff.mp past count passed.reached (by omega))).2
  exact Nat.lt_irrefl _ ((passed.processed count).mp first)

omit [Scalar α] in
theorem Passed.aim {place : Nat} (passed : cursor.Passed unanswered count)
    (view : Option (Keyframe α)) (next : place ≤ count) (other : Nat) :
    other ∈ (cursor.aim place view).processed ↔ other < max count (place + 1) := by
  rw [mem_processed_aim, passed.processed]
  omega

/-- **A move** keeps the processed keyframes together, and does not go back. -/
theorem Passed.of_moves {answered : Bool} {moved : Cursor α}
    (passed : cursor.Passed unanswered count) (standing : cursor.Standing)
    (moves : Moves cursor elapsed answered moved) :
    (∃ next, moved.Passed (if answered then unanswered else unanswered + 1) next)
      ∧ cursor.index ≤ moved.index ∧ moved.index ≤ cursor.index + 1 + unanswered := by
  have ahead := passed.ahead
  have here := standing.inside
  cases moves with
  | blends _ =>
      refine ⟨⟨count, passed.processed, passed.reached, ?_, passed.inside⟩, le_rfl, by omega⟩
      split <;> omega
  | runsPast _ past =>
      have all : count = cursor.chain.lastIndex + 1 := passed.of_scan_none past
      have here : cursor.index ≤ cursor.chain.lastIndex := Nat.lt_succ_iff.mp standing.inside
      refine ⟨⟨count, passed.processed, ?_, ?_, passed.inside⟩, here, ?_⟩
      · show cursor.chain.lastIndex ≤ count
        omega
      · show count ≤ cursor.chain.lastIndex + 1 + unanswered
        omega
      · show cursor.chain.lastIndex ≤ cursor.index + 1 + unanswered
        omega
  | @reaches place view _ found =>
      obtain ⟨forward, next, within⟩ := passed.of_scan found
      obtain ⟨fitted, same, -⟩ := cursor.exists_aim place view
      have processed := passed.aim view next
      rw [same] at processed ⊢
      refine ⟨⟨max count (place + 1), processed, ?_, ?_, max_le passed.inside within⟩, forward, ?_⟩
      · show place ≤ max count (place + 1)
        omega
      · show max count (place + 1) ≤ place + 1 + unanswered
        omega
      · show place ≤ cursor.index + 1 + unanswered
        omega
  | @misses place view _ found =>
      obtain ⟨forward, next, within⟩ := passed.of_scan found
      obtain ⟨fitted, same, -⟩ := cursor.exists_aim place view
      have processed := passed.aim view next
      rw [same] at processed ⊢
      refine ⟨⟨max count (place + 1), processed, ?_, ?_, max_le passed.inside within⟩, le_rfl, ?_⟩
      · show cursor.index ≤ max count (place + 1)
        omega
      · show max count (place + 1) ≤ cursor.index + 1 + (unanswered + 1)
        omega
      · show cursor.index ≤ cursor.index + 1 + unanswered
        omega

/-- What lies beyond a time, on a chain in order, is an end of the chain. -/
def Ordered (cursor : Cursor α) : Prop :=
  ∀ elapsed : α, ∀ first last, first ≤ last → last < cursor.chain.length →
    elapsed < (cursor.keyframe first).targetTime → elapsed < (cursor.keyframe last).targetTime

theorem Standing.ordered [TransitiveScalar α] (standing : cursor.Standing)
    (ordered : cursor.chain.toList.Pairwise fun earlier later =>
      earlier.targetTime ≤ later.targetTime) : cursor.Ordered := by
  intro elapsed first last order inside beyond
  rw [(standing.keyframe _).1] at beyond ⊢
  rcases order.eq_or_lt with rfl | before
  · exact beyond
  · refine TransitiveScalar.below beyond ?_
    rw [Chain.get_eq_getElem (before.trans inside), Chain.get_eq_getElem inside]
    exact List.pairwise_iff_getElem.mp ordered _ _ _ _ before

theorem chain_forget (elapsed : α) (place : Nat) :
    (forget elapsed cursor place).chain = cursor.chain := by
  unfold forget
  split <;> rfl

theorem Ordered.forget (ordered : cursor.Ordered) (elapsed : α) (place : Nat) :
    (forget elapsed cursor place).Ordered := by
  unfold Cursor.forget
  split <;> exact ordered

/-- The last processed keyframe is forgotten if it lies beyond the time. -/
theorem Passed.forget_last {place : Nat} (passed : cursor.Passed unanswered (place + 1))
    (beyond : elapsed < (cursor.keyframe place).targetTime) :
    (forget elapsed cursor place).Passed unanswered place := by
  have known : place ∈ cursor.processed := (passed.processed place).mpr (Nat.lt_succ_self _)
  unfold forget
  rw [if_pos (by simp [beyond, known])]
  refine ⟨fun other => ?_, le_rfl, ?_, Nat.le_of_succ_le passed.inside⟩
  · simp only [List.mem_filter, passed.processed, bne_iff_ne]
    omega
  · show place ≤ place + 1 + unanswered
    omega

/-- Forgetting the keyframes beyond a time, the last one first, keeps the processed ones together.
The count falls with each one that is forgotten, until the first one that does not lie beyond. -/
theorem Passed.forgets (passed : cursor.Passed unanswered count) (ordered : cursor.Ordered)
    (elapsed : α) {length : Nat} (within : length ≤ cursor.chain.length)
    (undone : count ≤ length
      ∨ ∀ place < length, ¬elapsed < (cursor.keyframe place).targetTime) :
    ∃ next, ((List.range length).reverse.foldl (forget elapsed) cursor).Passed unanswered next := by
  induction length generalizing cursor count with
  | zero => exact ⟨count, passed⟩
  | succ place inductionHypothesis =>
      rw [List.range_succ, List.reverse_concat, List.foldl_cons]
      have inside : place ≤ cursor.chain.length := Nat.le_of_succ_le within
      -- below the first keyframe that does not lie beyond, none does
      by_cases beyond : elapsed < (cursor.keyframe place).targetTime
      · have few : count ≤ place + 1 :=
          undone.resolve_right fun noneBeyond => noneBeyond place (Nat.lt_succ_self _) beyond
        rcases few.eq_or_lt with rfl | fewer
        · apply inductionHypothesis (passed.forget_last beyond) (ordered.forget elapsed place)
          · rwa [chain_forget]
          · exact .inl le_rfl
        · have unknown : place ∉ cursor.processed := fun known =>
            ((passed.processed place).mp known).not_ge (Nat.le_of_lt_succ fewer)
          have kept : forget elapsed cursor place = cursor := by
            simp [forget, unknown]
          rw [kept]
          exact inductionHypothesis passed ordered inside (.inl (Nat.le_of_lt_succ fewer))
      · have kept : forget elapsed cursor place = cursor := by
          simp [forget, beyond]
        rw [kept]
        apply inductionHypothesis passed ordered inside
        right
        intro earlier before early
        exact beyond (ordered elapsed earlier place before.le within early)

variable [Transcendental α]

omit [Scalar α] [Transcendental α] in
theorem Passed.withBlending (passed : cursor.Passed unanswered count) (blending : Bool)
    (blend : Option (Blend α)) : (cursor.withBlending blending blend).Passed unanswered count :=
  ⟨passed.processed, passed.reached, passed.ahead, passed.inside⟩

/-- **Every call keeps the processed keyframes together.** -/
theorem Passed.perform (passed : cursor.Passed unanswered count) (standing : cursor.Standing)
    (ordered : cursor.Ordered) (call : WalkCall α) :
    ∃ next, (call.perform cursor).Passed (call.stillUnanswered cursor unanswered) next := by
  rcases cursor.perform_cases call with ⟨elapsed, moved, blending, blend, timed, moves, same, -⟩
    | ⟨elapsed, rfl⟩ | rfl
  · obtain ⟨⟨next, passedNext⟩, -⟩ := passed.of_moves standing moves
    rw [same, WalkCall.stillUnanswered_of_timed timed]
    exact ⟨next, passedNext.withBlending blending blend⟩
  · exact passed.forgets ordered elapsed le_rfl (.inl passed.inside)
  · refine ⟨0, fun place => ?_, le_rfl, Nat.zero_le _, Nat.zero_le _⟩
    simp [WalkCall.perform, restart]

/-- A call that is for a time does not go back, and not beyond the keyframe that comes next but for
the calls without an answer. -/
theorem Passed.index_perform (passed : cursor.Passed unanswered count) (standing : cursor.Standing)
    {call : WalkCall α} (timed : call.elapsed? = some elapsed) :
    cursor.index ≤ (call.perform cursor).index
      ∧ (call.perform cursor).index ≤ cursor.index + 1 + unanswered := by
  obtain ⟨moved, blending, blend, moves, same, -⟩ := moves_perform cursor timed
  rw [same]
  exact (passed.of_moves standing moves).2

section InOrder

variable [TransitiveScalar α] {chain : Chain α}
  (ordered : chain.toList.Pairwise fun earlier later => earlier.targetTime ≤ later.targetTime)
  (calls : List (WalkCall α))

include ordered

theorem ordered_afterCalls : ((ofChain chain).afterCalls calls).Ordered := by
  apply (standing_afterCalls chain calls).ordered
  rwa [chain_afterCalls]

theorem passed_afterCalls : ∃ count,
    ((ofChain chain).afterCalls calls).Passed ((ofChain chain).unanswered calls) count := by
  induction calls using List.reverseRecOn with
  | nil => exact ⟨0, fun _ => by simp [ofChain], le_rfl, Nat.zero_le _, Nat.zero_le _⟩
  | append_singleton calls call inductionHypothesis =>
      obtain ⟨count, passed⟩ := inductionHypothesis
      rw [afterCalls_concat, unanswered_concat]
      have standing := standing_afterCalls chain calls
      exact passed.perform standing (ordered_afterCalls ordered calls) call

end InOrder

/-- Where a call with an answer leads, there the walk is then. -/
theorem index_perform {call : WalkCall α} {place : Nat}
    (leads : call.destination? cursor = some place) (answered : call.answers cursor = true) :
    (call.perform cursor).index = place := by
  obtain ⟨elapsed, walking, timed, rfl⟩ := WalkCall.exists_of_destination? leads
  obtain ⟨moved, blending, blend, moves, same, -⟩ := moves_perform cursor timed
  rw [same]
  rw [answered] at moves
  cases moves with
  | blends active => exact absurd walking active
  | runsPast _ past =>
      rw [past]
      rfl
  | reaches _ _ found =>
      rw [found]
      rfl

/-- A call without an answer does not move the walk, whether it is for a blend or for a keyframe. -/
theorem index_perform_unanswered {call : WalkCall α} (timed : call.elapsed? = some elapsed)
    (failed : call.answers cursor = false) : (call.perform cursor).index = cursor.index := by
  obtain ⟨moved, blending, blend, moves, same, -⟩ := moves_perform cursor timed
  rw [same]
  rw [failed] at moves
  cases moves with
  | blends _ => rfl
  | @misses place view _ _ =>
      obtain ⟨fitted, aimed, -⟩ := cursor.exists_aim place view
      rw [aimed]
      rfl

/-- A call without an answer processes its destination all the same. -/
theorem mem_processed_unanswered {call : WalkCall α} {place : Nat}
    (leads : call.destination? cursor = some place) (failed : call.answers cursor = false) :
    place ∈ (call.perform cursor).processed := by
  obtain ⟨elapsed, walking, timed, rfl⟩ := WalkCall.exists_of_destination? leads
  obtain ⟨moved, blending, blend, moves, same, -⟩ := moves_perform cursor timed
  rw [same]
  rw [failed] at moves
  cases moves with
  | blends active => exact absurd walking active
  | misses view _ found =>
      rw [found]
      exact mem_processed_aim.mpr (.inr rfl)

omit [Transcendental α] in
/-- Whatever lies before the destination of a call has been processed. -/
theorem Passed.before_destination {call : WalkCall α} {place : Nat}
    (passed : cursor.Passed unanswered count) (leads : call.destination? cursor = some place)
    {earlier : Nat} (before : earlier < place) : earlier ∈ cursor.processed := by
  obtain ⟨elapsed, walking, timed, rfl⟩ := WalkCall.exists_of_destination? leads
  apply (passed.processed earlier).mpr
  cases scanned : cursor.scan elapsed with
  | none =>
      rw [scanned] at before
      have all := passed.of_scan_none scanned
      exact before.trans (all ▸ Nat.lt_succ_self cursor.chain.later.length)
  | some place =>
      rw [scanned] at before
      exact before.trans_le (passed.of_scan scanned).2.1

/-- **A walk leaves no keyframe out.** On a chain in order of time the processed keyframes are the
first ones of the chain, up to the current one or the next, and one more at most for each call that
has had no answer since the walk was last begun anew. A call that is for a time goes on as far as
that, and never back; without an answer it does not move, and its destination is processed all the
same. Each keyframe before a destination has been a destination before, and has not been forgotten
since. -/
theorem afterCalls_inOrder [TransitiveScalar α] (chain : Chain α)
    (ordered : chain.toList.Pairwise fun earlier later => earlier.targetTime ≤ later.targetTime)
    (calls : List (WalkCall α)) :
    let walk := (ofChain chain).afterCalls calls
    let unanswered := (ofChain chain).unanswered calls
    walk.index < chain.length
      ∧ (∃ count, (∀ place, place ∈ walk.processed ↔ place < count)
        ∧ walk.index ≤ count ∧ count ≤ walk.index + 1 + unanswered)
      ∧ (∀ (call : WalkCall α) elapsed, call.elapsed? = some elapsed →
        walk.index ≤ (call.perform walk).index
          ∧ (call.perform walk).index ≤ walk.index + 1 + unanswered
          ∧ (call.answers walk = false → (call.perform walk).index = walk.index))
      ∧ ∀ (call : WalkCall α) place, call.destination? walk = some place →
        (call.answers walk = true → (call.perform walk).index = place)
          ∧ (call.answers walk = false → (call.perform walk).index = walk.index
            ∧ place ∈ (call.perform walk).processed)
          ∧ ∀ earlier < place, (ofChain chain).Visited calls earlier := by
  intro walk unanswered
  have standing : walk.Standing := standing_afterCalls chain calls
  obtain ⟨count, passed⟩ := passed_afterCalls ordered calls
  refine ⟨?_, ⟨count, passed.processed, passed.reached, passed.ahead⟩, ?_, ?_⟩
  · have same : walk.chain = chain := chain_afterCalls chain calls
    rw [← same]
    exact standing.inside
  · intro call elapsed timed
    obtain ⟨forward, near⟩ := passed.index_perform standing timed
    exact ⟨forward, near, index_perform_unanswered timed⟩
  · intro call place leads
    obtain ⟨elapsed, -, timed, -⟩ := WalkCall.exists_of_destination? leads
    refine ⟨index_perform leads, fun failed => ?_, fun earlier before => ?_⟩
    · exact ⟨index_perform_unanswered timed failed, mem_processed_unanswered leads failed⟩
    · exact visited_of_mem chain calls earlier (passed.before_destination leads before)

/-- A walk that stepped back over two keyframes of the same time goes over them again. -/
theorem afterCalls_inOrder_steppedBack :
    let final : Keyframe Float := { Keyframe.standard with targetTime := Motion.frameTime }
    let chain : Chain Float := ⟨.standard, [final, final]⟩
    let calls : List (WalkCall Float) :=
      [.update 0 0 none, .update 20 1 none, .update 20 1 none, .stepBack 5]
    let call : WalkCall Float := .update 20 1 none
    (chain.toList.Pairwise fun earlier later => earlier.targetTime ≤ later.targetTime)
      ∧ call.destination? ((ofChain chain).afterCalls calls) = some 1
      ∧ (ofChain chain).Visited calls 0 := by
  intro final chain calls call
  have ordered : chain.toList.Pairwise fun earlier later =>
      earlier.targetTime ≤ later.targetTime := by
    decide +kernel
  have leads : call.destination? ((ofChain chain).afterCalls calls) = some 1 := by
    decide +kernel
  obtain ⟨-, -, -, visited⟩ := afterCalls_inOrder chain ordered calls
  exact ⟨ordered, leads, (visited call 1 leads).2.2 0 Nat.zero_lt_one⟩

/-- Two keyframes can be so far apart that the way between them has no length in numbers. An update
on that way notes its destination, has no answer and does not move, and the next one moves the walk
on by two. -/
theorem index_skips_unanswered :
    let far : Keyframe Float :=
      { Keyframe.standard with targetTime := 1e308, targetGeneration := 60 }
    let chain : Chain Float := ⟨{ Keyframe.standard with targetTime := -1e308 }, [far, far]⟩
    let walk := (ofChain chain).afterCalls [.update 0 0 none, .update 1e308 30 none]
    (chain.toList.Pairwise fun earlier later => earlier.targetTime ≤ later.targetTime)
      ∧ walk.index = 0 ∧ walk.processed = [0, 1]
      ∧ (walk.update 1.5e308 90 none).toOption.map (fun answer => answer.1.index) = some 2 := by
  decide +kernel

end Cursor

end Showreel.Waypoint
