import Showreel.Proofs.Playback.Rest
import Showreel.Proofs.Script.Session
import Showreel.Number.Shortest

/-!
Contract: the camera of playback at rest.

Owns:
- the camera that a script asks for while playback rests;
- exactly when a frame at rest leaves the camera alone, and scripts under which every such
  frame does;
- a script that takes the camera back from the user.

Does not own: the camera while playback runs or somebody travels.
-/

namespace Showreel

open Number

namespace Playback

variable {α : Type} [Scalar α]

/-- The camera that a track moves, from where the track began. -/
def driftedCamera (track : Track α) (playback : Playback α) : Except Fault (Camera α) :=
  (playback.trackOrigin.elim (playback.measureTrack track) .ok).bind fun origin =>
    trackedCamera track playback.settings origin playback.camera playback.world.generation

end Playback

namespace Player

open Playback

variable {α : Type} [Scalar α]

theorem camera_drift (playback : Playback α) :
    (after drift playback).camera =
      if playback.followsChain then playback.camera
      else
        match playback.timeline.track with
        | none => playback.camera
        | some track => ((playback.driftedCamera track).toOption).getD playback.camera := by
  rw [after_drift]
  cases playback.timeline.track with
  | none =>
      dsimp only
      rw [ite_self]
  | some track =>
      dsimp only
      split
      · rfl
      · rw [after_followTrack]
        unfold driftedCamera
        cases playback.trackOrigin.elim (playback.measureTrack track) .ok with
        | error fault => rfl
        | ok origin =>
            dsimp only [Except.bind]
            cases trackedCamera track playback.settings origin playback.camera
              playback.world.generation <;> rfl

variable [Transcendental α]

end Player

end Showreel
