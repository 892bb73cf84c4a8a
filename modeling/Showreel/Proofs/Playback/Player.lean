import Mathlib.Order.Defs.Unbundled
import Showreel.Playback.Frame

/-!
Contract: what a change of playback answers, what it leaves behind, and everything a host does.

Owns:
- the answer of a change, and the playback after it, also where there is no answer;
- the way of both through the steps of a change;
- changes that stay within a relation between playbacks;
- the calls of a host, and playback after any sequence of them. A call that has no answer leaves
  playback as far as it came, and the next call goes on from there.

Does not own: what the changes and the calls do.
-/

namespace Showreel.Player

variable {α β γ : Type} [Number.Scalar α]

/-- What a change answers. -/
def answer (player : Player α β) (playback : Playback α) : Except Fault β :=
  (player.run.run playback).1

/-- Playback after a change, as far as the change came. -/
def after (player : Player α β) (playback : Playback α) : Playback α :=
  (player.run.run playback).2

@[simp] theorem answer_pure (value : β) (playback : Playback α) :
    answer (pure value) playback = .ok value :=
  rfl

@[simp] theorem after_pure (value : β) (playback : Playback α) :
    after (pure value) playback = playback :=
  rfl

@[simp] theorem answer_get (playback : Playback α) :
    answer (get : Player α (Playback α)) playback = .ok playback :=
  rfl

@[simp] theorem after_get (playback : Playback α) :
    after (get : Player α (Playback α)) playback = playback :=
  rfl

@[simp] theorem answer_set (next playback : Playback α) :
    answer (set next : Player α PUnit) playback = .ok () :=
  rfl

@[simp] theorem after_set (next playback : Playback α) :
    after (set next : Player α PUnit) playback = next :=
  rfl

@[simp] theorem answer_modify (change : Playback α → Playback α) (playback : Playback α) :
    answer (modify change : Player α PUnit) playback = .ok () :=
  rfl

@[simp] theorem after_modify (change : Playback α → Playback α) (playback : Playback α) :
    after (modify change : Player α PUnit) playback = change playback :=
  rfl

@[simp] theorem answer_ofExcept (result : Except Fault β) (playback : Playback α) :
    answer (ofExcept result) playback = result :=
  rfl

@[simp] theorem after_ofExcept (result : Except Fault β) (playback : Playback α) :
    after (ofExcept result : Player α β) playback = playback :=
  rfl

/-! ### One step after another -/

section Bind

variable (first : Player α β) (next : β → Player α γ)

private theorem run_bind (playback : Playback α) :
    (answer (first >>= next) playback, after (first >>= next) playback) =
      match answer first playback with
      | .ok value => (answer (next value) (after first playback),
          after (next value) (after first playback))
      | .error fault => (.error fault, after first playback) := by
  change (first.run >>= ExceptT.bindCont next).run playback = _
  unfold answer after
  rcases outcome : first.run.run playback with ⟨result, passed⟩
  cases result with
  | ok value => simp [StateT.run_bind, outcome, ExceptT.bindCont]; rfl
  | error fault => simp [StateT.run_bind, outcome, ExceptT.bindCont]; rfl

theorem answer_bind (playback : Playback α) :
    answer (first >>= next) playback =
      match answer first playback with
      | .ok value => answer (next value) (after first playback)
      | .error fault => .error fault := by
  have both := congrArg Prod.fst (run_bind first next playback)
  cases answered : answer first playback <;> simpa [answered] using both

theorem after_bind (playback : Playback α) :
    after (first >>= next) playback =
      match answer first playback with
      | .ok value => after (next value) (after first playback)
      | .error _ => after first playback := by
  have both := congrArg Prod.snd (run_bind first next playback)
  cases answered : answer first playback <;> simpa [answered] using both

theorem after_bind_of_ok {playback : Playback α} {value : β}
    (answered : answer first playback = .ok value) :
    after (first >>= next) playback = after (next value) (after first playback) := by
  rw [after_bind, answered]

theorem after_bind_of_error {playback : Playback α} {fault : Fault}
    (failed : answer first playback = .error fault) :
    after (first >>= next) playback = after first playback := by
  rw [after_bind, failed]

theorem answer_bind_eq_ok {playback : Playback α} {result : γ} :
    answer (first >>= next) playback = .ok result ↔
      ∃ value, answer first playback = .ok value
        ∧ answer (next value) (after first playback) = .ok result := by
  rw [answer_bind]
  cases answer first playback with
  | ok value => simp
  | error fault => simp

/-- Reading playback changes nothing, so the rest of a change starts where it does. -/
@[simp] theorem after_get_bind (rest : Playback α → Player α γ) (playback : Playback α) :
    after (get >>= rest) playback = after (rest playback) playback :=
  after_bind_of_ok get rest (answer_get playback)

@[simp] theorem answer_get_bind (rest : Playback α → Player α γ) (playback : Playback α) :
    answer (get >>= rest) playback = answer (rest playback) playback := by
  rw [answer_bind, answer_get, after_get]

theorem answer_bind_of_ok {playback : Playback α} {value : β}
    (answered : answer first playback = .ok value) :
    answer (first >>= next) playback = answer (next value) (after first playback) := by
  rw [answer_bind, answered]

end Bind

/-! ### Changes within a relation -/

/-- Whatever a change answers, the playback after it is related to the one before. -/
def Within (relation : Playback α → Playback α → Prop) (player : Player α β) : Prop :=
  ∀ playback, relation playback (after player playback)

section Within

variable {relation : Playback α → Playback α → Prop} [IsPreorder (Playback α) relation]

theorem Within.bind {first : Player α β} {next : β → Player α γ}
    (begins : Within relation first) (goesOn : ∀ value, Within relation (next value)) :
    Within relation (first >>= next) := by
  intro playback
  rw [after_bind]
  split
  · exact IsTrans.trans _ _ _ (begins playback) (goesOn _ _)
  · exact begins playback

end Within

end Showreel.Player

namespace Showreel

/-! ### The calls of a host -/

/-- A call of the host. Each frame brings its own readings of the clock. -/
inductive HostCall (α : Type) where
  | play
  | pause
  | reset
  | goTo (poi : Int)
  | moveByHand (camera : Camera α)
  | tick (clock : Nat → α) (delta : α)

variable {α : Type} [Number.Scalar α] [Number.Transcendental α]

/-- Playback after one call. -/
def HostCall.perform (playback : Playback α) : HostCall α → Playback α
  | .play => playback.play
  | .pause => playback.pause
  | .reset => playback.reset
  | .goTo poi => Player.after (Player.goTo poi) playback
  | .moveByHand camera => Player.after (Player.moveByHand camera) playback
  | .tick clock delta => Player.after (Player.tick clock delta) playback

namespace Playback

/-- Playback after calls of the host, in order. -/
def afterCalls (playback : Playback α) (calls : List (HostCall α)) : Playback α :=
  calls.foldl HostCall.perform playback

theorem afterCalls_append (playback : Playback α) (calls others : List (HostCall α)) :
    playback.afterCalls (calls ++ others) = (playback.afterCalls calls).afterCalls others :=
  List.foldl_append

/-- What holds at the start and is kept by every call holds after all calls. -/
theorem afterCalls_keeps (kept : Playback α → Prop)
    (performed : ∀ (playback : Playback α) (call : HostCall α),
      kept playback → kept (call.perform playback))
    (playback : Playback α) (calls : List (HostCall α)) (holds : kept playback) :
    kept (playback.afterCalls calls) := by
  unfold afterCalls
  induction calls generalizing playback with
  | nil => exact holds
  | cons call rest inductionHypothesis =>
      exact inductionHypothesis _ (performed playback call holds)

/-- Playback after frames with no other call between them, each with its clock and its time. -/
def afterFrames (playback : Playback α) (frames : List ((Nat → α) × α)) : Playback α :=
  playback.afterCalls (frames.map fun frame => .tick frame.1 frame.2)

theorem afterFrames_concat (playback : Playback α) (frames : List ((Nat → α) × α))
    (frame : (Nat → α) × α) : playback.afterFrames (frames ++ [frame])
      = Player.after (Player.tick frame.1 frame.2) (playback.afterFrames frames) := by
  simp [afterFrames, afterCalls, HostCall.perform]

/-- What every frame keeps is kept by any number of frames. -/
theorem afterFrames_keeps (kept : Playback α → Prop)
    (shown : ∀ (playback : Playback α) (clock : Nat → α) (delta : α),
      kept playback → kept (Player.after (Player.tick clock delta) playback))
    (playback : Playback α) (frames : List ((Nat → α) × α)) (holds : kept playback) :
    kept (playback.afterFrames frames) := by
  unfold afterFrames afterCalls
  induction frames generalizing playback with
  | nil => exact holds
  | cons frame rest inductionHypothesis =>
      exact inductionHypothesis _ (shown playback frame.1 frame.2 holds)

end Playback

end Showreel
