import Showreel.Proofs.Number.Spans
import Showreel.Proofs.Waypoint.WalkCalls

/-!
Contract: the blend from a view under the user's hand back to the scripted position.

Owns:
- that all of the way is done at the end of a blend, in doubles, and that the position is then the
  second keyframe of the blend;
- that a blend leads back over a second to its end, whatever is called;
- that no call in the course of a blend changes where it ends or where the walk stands.

Does not own: the way between the ends of a blend.
-/

namespace Showreel.Waypoint

open Number Scalar

/-! ### All of the way -/

namespace Motion

section Done

variable {α : Type} [Scalar α] {done : α} (some : ¬done ≤ 0) (all : 1 ≤ done)

include some all

theorem mix_done (start finish : α) : mix start finish done = finish := by
  rw [mix, if_neg some, if_pos all]

theorem mixWhole_done (start finish : ℤ) : mixWhole start finish done = .ok finish := by
  rw [mixWhole, if_neg some, if_pos all]

theorem mixAngle_done (start finish : Angle α) : mixAngle start finish done = finish := by
  rw [mixAngle, if_neg some, if_pos all]

variable [Transcendental α]

theorem mixZoom_done (start finish : Option α) (linear : Bool) :
    mixZoom start finish done linear = .ok finish := by
  unfold mixZoom
  rw [if_neg some, if_pos all]

/-- **Where all of the way is done, the position is the second keyframe**, at the time that it
is. -/
theorem interpolate_done {start finish : Keyframe α} {elapsed : α}
    (progress : progressAt start.targetTime finish.targetTime
      (smaller elapsed finish.targetTime) = .ok (done, done)) :
    interpolate start finish elapsed
      = .ok { finish with targetTime := smaller elapsed finish.targetTime } := by
  unfold interpolate
  dsimp only
  rw [progress]
  have zoom : finish.zoom?.getD finish.zoom = finish.zoom ∧ finish.zoom?.isNone = finish.zoomLost := by
    unfold Keyframe.zoom?
    cases finish.zoomLost <;> exact ⟨rfl, rfl⟩
  dsimp only [bind, Except.bind]
  simp only [ite_self, mix_done some all, mixWhole_done some all, mixAngle_done some all,
    mixZoom_done some all, zoom]
  rfl

end Done

/-- At its end, the part of a second that has passed is one. -/
theorem secondBack_quotient {goal elapsed : Float} (past : goal ≤ elapsed)
    (apart : (goal == goal - Cursor.blendTime) = false) :
    (smaller elapsed goal - (goal - Cursor.blendTime)) / (goal - (goal - Cursor.blendTime))
      = Scalar.ofRat 1 := by
  rcases Binary64.reads_or_lost goal with ⟨exact, finite, -⟩ | lost
  · have whole := Binary64.span_div_span finite apart
    unfold smaller
    split
    · exact whole
    · rename_i notBelow
      have same := Binary64.beq_of_le_of_not_lt past notBelow
      rw [Float.beq_iff_ne_nan_and_eq] at same
      -- equal doubles are one, but for the sign of a zero
      rcases same.2.2 with rfl | ⟨rfl, rfl⟩ | ⟨rfl, rfl⟩
      · exact whole
      · rfl
      · rfl
  · have same := Binary64.beq_thousandBack_of_lost (Binary64.number_of_le_left past) lost
    exact absurd (same.symm.trans apart) (by decide)

/-- **A second after its start a way is done**, in doubles. -/
theorem progressAt_secondBack {goal elapsed : Float} (past : goal ≤ elapsed) :
    progressAt (goal - Cursor.blendTime) goal (smaller elapsed goal)
      = .ok (Scalar.ofRat 1, Scalar.ofRat 1) := by
  have settled : settleProgress (Scalar.ofRat 1 : Float) = .ok (Scalar.ofRat 1) := by
    decide +kernel
  have eased : ease (Scalar.ofRat 1 : Float) = .ok (Scalar.ofRat 1) := by decide +kernel
  have itself : (goal == goal) = true := Binary64.beq_self (Binary64.number_of_le_left past)
  unfold progressAt
  dsimp only
  split
  · rfl
  · split
    · rfl
    · rename_i apart
      rw [secondBack_quotient past (Bool.eq_false_iff.mpr apart), settled]
      change (ease (Scalar.ofRat 1 : Float)).map _ = _
      rw [eased]
      rfl

end Motion

/-! ### Blends that lead back -/

namespace WalkCall

variable {α : Type} [Scalar α]

/-- A call that leaves a blend under way: the beginning of another one, or an update before the
blend ends. -/
def GoesOn (ending : α) : WalkCall α → Prop
  | update elapsed _ _ => ¬ending ≤ elapsed
  | beginBlend _ _ _ => True
  | stepBack _ | restart => False

end WalkCall

namespace Cursor

/-- A blend that takes a second, and ends at a keyframe which fits no view. -/
structure LeadsBack {α : Type} [Scalar α] (blend : Blend α) : Prop where
  time : blend.start.targetTime = blend.finish.targetTime - blendTime
  unfitted : blend.finish.autofit = false

theorem approach_blend {α : Type} [Scalar α] (cursor : Cursor α) (elapsed : α)
    (view : Option (Keyframe α)) : (cursor.approach elapsed view).blend = cursor.blend := by
  unfold approach
  split
  · rename_i place _ _
    obtain ⟨fitted, same, -⟩ := cursor.exists_aim place view
    rw [same]
  · rfl

section Calls

variable {α : Type} [Scalar α] [Transcendental α] {cursor : Cursor α}

/-- **What the beginning of a blend does.** It leads back to the end of the blend under way, if there
is one, and the walk has not moved then. -/
theorem beginBlend_cases {view : Keyframe α} {generation : ℤ} {elapsed : α}
    {answer : Cursor α × α} (done : cursor.beginBlend view generation elapsed = .ok answer) :
    ∃ walked next, answer = (walked.withBlending true (some next),
        next.finish.targetTime - blendTime) ∧ LeadsBack next
      ∧ ∀ blend, cursor.activeBlend = some blend → walked = cursor
        ∧ next.finish = { blend.finish with autofit := false } := by
  unfold beginBlend at done
  dsimp only at done
  split at done
  · rename_i blend active
    cases done
    refine ⟨cursor, _, rfl, ⟨rfl, rfl⟩, ?_⟩
    intro other activeToo
    obtain rfl : blend = other := Option.some.inj (active.symm.trans activeToo)
    exact ⟨rfl, rfl⟩
  · rename_i walking
    obtain ⟨⟨walked, position, ended⟩, -, done⟩ := bind_eq_ok done
    cases done
    exact ⟨walked, _, rfl, ⟨rfl, rfl⟩, fun _ active => nomatch walking.symm.trans active⟩

theorem leadsBack_perform (call : WalkCall α)
    (leads : ∀ blend, cursor.blend = some blend → LeadsBack blend) :
    ∀ blend, (call.perform cursor).blend = some blend → LeadsBack blend := by
  cases call with
  | update elapsed generation view =>
      obtain ⟨moved, blending, -, same, -⟩ := moves_update cursor elapsed generation view
      rw [same]
      exact leads
  | beginBlend view generation elapsed =>
      simp only [WalkCall.perform]
      split
      · rename_i moved now done
        obtain ⟨walked, next, same, leadsNext, -⟩ := beginBlend_cases done
        cases same
        rintro _ ⟨⟩
        exact leadsNext
      · rw [approach_blend]
        exact leads
  | stepBack elapsed =>
      obtain ⟨index, processed, same, -⟩ := cursor.exists_steppedBack elapsed
      rw [WalkCall.perform, same]
      exact leads
  | restart => exact leads

/-- If the last blend leads back, then so does every one that is begun. -/
theorem leadsBack_afterCalls (cursor : Cursor α) (calls : List (WalkCall α))
    (leads : ∀ blend, cursor.blend = some blend → LeadsBack blend) :
    ∀ blend, (cursor.afterCalls calls).blend = some blend → LeadsBack blend :=
  afterCalls_keeps (fun walk => ∀ blend, walk.blend = some blend → LeadsBack blend)
    (fun _ call leads => leadsBack_perform call leads) cursor calls leads

/-! ### The course of a blend -/

omit [Scalar α] [Transcendental α] in
theorem underWay_of_activeBlend {blend : Blend α} (active : cursor.activeBlend = some blend) :
    cursor.blending = true ∧ cursor.blend = some blend := by
  unfold activeBlend at active
  split at active
  · exact ⟨‹_›, active⟩
  · cases active

omit [Scalar α] [Transcendental α] in
theorem withBlending_activeBlend {blend : Blend α} (active : cursor.activeBlend = some blend) :
    cursor.withBlending true (some blend) = cursor := by
  obtain ⟨blending, begun⟩ := underWay_of_activeBlend active
  rw [withBlending, ← blending, ← begun]

/-- **A call in the course of a blend** leaves the walk where it stands and the blend to its end. -/
theorem perform_goesOn {blend : Blend α} (active : cursor.activeBlend = some blend)
    (unfitted : blend.finish.autofit = false) {call : WalkCall α}
    (goesOn : call.GoesOn blend.finish.targetTime) :
    ∃ next, call.perform cursor = cursor.withBlending true (some next)
      ∧ next.finish = blend.finish := by
  have stays := withBlending_activeBlend active
  cases call with
  | update elapsed generation view =>
      refine ⟨blend, ?_, rfl⟩
      simp only [WalkCall.perform]
      split
      · rename_i moved answer done
        obtain ⟨position, ended⟩ := answer
        rcases update_cases done with ⟨other, activeToo, -, rfl⟩ | ⟨walking, -⟩ | ⟨_, walking, -⟩
        · obtain rfl : blend = other := Option.some.inj (active.symm.trans activeToo)
          rw [decide_eq_false goesOn, (underWay_of_activeBlend active).2]
          rfl
        · cases active.symm.trans walking
        · cases active.symm.trans walking
      · rw [stays, approach_of_blend view (by simp [active])]
  | beginBlend view generation elapsed =>
      simp only [WalkCall.perform]
      obtain ⟨_, _, begun⟩ := beginBlend_of_blend active view generation elapsed
      obtain ⟨walked, next, same, -, leads⟩ := beginBlend_cases begun
      obtain ⟨rfl, finish⟩ := leads blend active
      rw [begun, same]
      refine ⟨next, rfl, finish.trans ?_⟩
      rw [← unfitted]
  | stepBack elapsed => cases goesOn
  | restart => cases goesOn

/-- **The course of a blend** leaves the walk where it stands and the blend to its end, whatever is
called. -/
theorem afterCalls_goesOn {blend : Blend α} (active : cursor.activeBlend = some blend)
    (unfitted : blend.finish.autofit = false) {calls : List (WalkCall α)}
    (goesOn : ∀ call ∈ calls, call.GoesOn blend.finish.targetTime) :
    ∃ next, cursor.afterCalls calls = cursor.withBlending true (some next)
      ∧ next.finish = blend.finish := by
  induction calls using List.reverseRecOn with
  | nil => exact ⟨blend, (withBlending_activeBlend active).symm, rfl⟩
  | append_singleton calls call inductionHypothesis =>
      obtain ⟨goesOn, last⟩ := List.forall_mem_append.mp goesOn
      obtain ⟨before, same, finish⟩ := inductionHypothesis goesOn
      have under : (cursor.withBlending true (some before)).activeBlend = some before := rfl
      rw [← finish] at unfitted last
      obtain ⟨next, performed, finishToo⟩ :=
        perform_goesOn under unfitted (last call (List.mem_singleton.mpr rfl))
      rw [afterCalls_concat, same]
      exact ⟨next, performed, finishToo.trans finish⟩

end Calls

/-- **A blend comes back to the scripted position.** In its course, whatever blends are begun over it
and however the walk is updated before it ends, it keeps its end, the walk stays where it stands,
every beginning of a blend gives the time a second before the end, and the first update from the end
on gives the camera there and leaves the blend. -/
theorem blend_comesBack (chain : Chain Float) (calls more : List (WalkCall Float))
    {blend : Blend Float} (active : ((ofChain chain).afterCalls calls).activeBlend = some blend)
    (goesOn : ∀ call ∈ more, call.GoesOn blend.finish.targetTime) :
    let walk := (ofChain chain).afterCalls calls
    ∃ next, walk.afterCalls more = walk.withBlending true (some next)
      ∧ next.finish = blend.finish
      ∧ (∀ view generation elapsed, ∃ moved,
        (walk.afterCalls more).beginBlend view generation elapsed
          = .ok (moved, blend.finish.targetTime - blendTime))
      ∧ ∀ elapsed generation view, blend.finish.targetTime ≤ elapsed → ∃ position,
        (walk.afterCalls more).update elapsed generation view
            = .ok (walk.withBlending false (some next), position, false)
          ∧ position.camera = blend.finish.camera := by
  intro walk
  have leads : ∀ blend, walk.blend = some blend → LeadsBack blend :=
    leadsBack_afterCalls (ofChain chain) calls fun _ begun =>
      nomatch (show none = some _ from begun)
  have unfitted := (leads blend (underWay_of_activeBlend active).2).unfitted
  obtain ⟨next, same, finish⟩ := afterCalls_goesOn active unfitted goesOn
  have leadsNext : LeadsBack next := leadsBack_afterCalls walk more leads next (by rw [same]; rfl)
  have under : (walk.withBlending true (some next)).activeBlend = some next := rfl
  rw [same]
  refine ⟨next, rfl, finish, fun view generation elapsed => ?_,
    fun elapsed generation view past => ?_⟩
  · obtain ⟨_, _, begun⟩ := beginBlend_of_blend under view generation elapsed
    obtain ⟨_, later, answer, -, leadsOn⟩ := beginBlend_cases begun
    obtain ⟨-, ending⟩ := leadsOn next rfl
    have time : later.finish.targetTime = blend.finish.targetTime := by rw [ending, finish]
    rw [(Prod.mk.inj answer).2, time] at begun
    exact ⟨_, begun⟩
  · have progress := Motion.progressAt_secondBack past
    rw [← finish, ← leadsNext.time] at progress
    have position := Motion.interpolate_done (by decide) (by decide) progress
    have ended : decide (next.finish.targetTime ≤ elapsed) = true := by
      rw [finish]
      exact decide_eq_true past
    rw [← finish]
    refine ⟨{ next.finish with targetTime := smaller elapsed next.finish.targetTime }, ?_, rfl⟩
    unfold update
    rw [under]
    dsimp only
    rw [position, ended]
    rfl

/-- A view that is dragged twice before the start of a chain comes back to its first keyframe. -/
theorem blend_comesBack_from_two_drags :
    let start : Keyframe Float := { Keyframe.standard with x := 5 }
    let chain : Chain Float := ⟨start, [{ Keyframe.standard with targetTime := 4000 }]⟩
    let view : Keyframe Float := { Keyframe.standard with x := 70 }
    let more : List (WalkCall Float) :=
      [.update (-500) 0 none, .beginBlend { view with x := 90 } 0 (-400), .update (-900) 0 none]
    let walk := (ofChain chain).afterCalls [.beginBlend view 0 0]
    ∃ blend next, walk.activeBlend = some blend
      ∧ (∀ call ∈ more, call.GoesOn blend.finish.targetTime)
      ∧ walk.afterCalls more = walk.withBlending true (some next)
      ∧ ∃ position, (walk.afterCalls more).update 0 0 none
          = .ok (walk.withBlending false (some next), position, false)
        ∧ position.camera.x = 5 := by
  intro start chain view more walk
  have shown : walk.activeBlend.map (fun blend => (blend.finish.targetTime, blend.finish.x))
      = some (0, 5) := by
    decide +kernel
  obtain ⟨blend, active, ends⟩ := Option.map_eq_some_iff.mp shown
  obtain ⟨time, x⟩ := Prod.mk.inj ends
  have goesOn : ∀ call ∈ more, call.GoesOn blend.finish.targetTime := by
    rw [time]
    have first : ¬(0 : Float) ≤ -500 := by decide
    have last : ¬(0 : Float) ≤ -900 := by decide
    simp [more, WalkCall.GoesOn, first, last]
  obtain ⟨next, same, -, -, back⟩ := blend_comesBack chain [.beginBlend view 0 0] more active goesOn
  obtain ⟨position, done, camera⟩ := back 0 0 none (by rw [time]; decide)
  refine ⟨blend, next, active, goesOn, same, position, done, ?_⟩
  rw [camera]
  exact x

end Cursor

end Showreel.Waypoint
