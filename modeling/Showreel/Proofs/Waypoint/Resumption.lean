import Showreel.Proofs.Waypoint.Order
import Showreel.Waypoint.Query

/-!
Contract: resuming at a generation, over exact rationals.

Owns:
- the keyframe near a generation;
- how one keyframe follows another, at rest or by a travel, and that chains are built like this;
- the time at which a generation is reached, as the extrapolation from the keyframe near it;
- exactly when playback resumes at that time.

Does not own: the scripts that chains are built from.
-/

namespace Showreel

open Number Scalar Waypoint

namespace Chain

/-! ### The keyframe near a generation -/

section Near

variable {α : Type} {chain : Chain α} {generation : Int}

/-- The keyframe near a generation: all before it lie before the generation, and it does so itself
only at the end of the chain. -/
structure Near (chain : Chain α) (generation : Int) (index : Nat) : Prop where
  within : index ≤ chain.lastIndex
  before : ∀ place < index, (chain.get place).targetGeneration < generation
  beyond : (chain.get index).targetGeneration < generation → index = chain.lastIndex

theorem indexNear_near (chain : Chain α) (generation : Int) :
    chain.Near generation (chain.indexNear generation) := by
  unfold indexNear
  cases found : chain.toList.findIdx? fun keyframe =>
      decide (generation ≤ keyframe.targetGeneration) with
  | none =>
      have passed := List.findIdx?_eq_none_iff.mp found
      refine ⟨le_rfl, fun place _ => ?_, fun _ => rfl⟩
      exact not_le.mp (of_decide_eq_false (passed _ (chain.get_mem place)))
  | some index =>
      obtain ⟨within, reached, passed⟩ := List.findIdx?_eq_some_iff_getElem.mp found
      refine ⟨Nat.le_of_lt_succ within, fun place before => ?_, fun beyond => ?_⟩
      · have notReached := passed place before
        rw [decide_eq_true_eq, not_le] at notReached
        rwa [get_eq_getElem (before.trans within)]
      · rw [Option.getD_some, get_eq_getElem within] at beyond
        exact absurd (of_decide_eq_true reached) (not_le.mpr beyond)

end Near

end Chain

/-! ### From one keyframe to the next -/

/-- A waypoint that does not travel if it pauses: it has no target then, or none behind the
start. -/
def Waypoint.Apart {α : Type} (waypoint : Waypoint α) : Prop :=
  ∀ pause target, waypoint.pauseSeconds = some pause → waypoint.targetGeneration = some target →
    target.value ≤ 0

namespace Keyframe

/-- The time at which a generation is reached from a keyframe at some pace. -/
def reachesAt (keyframe : Keyframe ℚ) (pace : ℚ) (generation : ℤ) : ℚ :=
  keyframe.targetTime + (generation - keyframe.targetGeneration : ℤ) * 1000 / pace

/-- How one keyframe follows another: at the same generation, or by a travel at its own pace. -/
inductive Follows (previous keyframe : Keyframe ℚ) : Prop
  | rests (same : keyframe.targetGeneration = previous.targetGeneration)
  | travels (later : previous.targetGeneration < keyframe.targetGeneration)
      (moving : keyframe.pace ≠ 0)
      (arrives : keyframe.targetTime = previous.reachesAt keyframe.pace keyframe.targetGeneration)

theorem Follows.le {previous keyframe : Keyframe ℚ} (follows : Follows previous keyframe) :
    previous.targetGeneration ≤ keyframe.targetGeneration := by
  cases follows with
  | rests same => exact same.ge
  | travels later moving arrives => exact later.le

section Travels

variable {previous keyframe : Keyframe ℚ}

/-- On a travel a generation is reached at one time, whichever of its ends that is counted from. -/
theorem reachesAt_of_arrives (moving : keyframe.pace ≠ 0)
    (arrives : keyframe.targetTime = previous.reachesAt keyframe.pace keyframe.targetGeneration)
    (generation : ℤ) :
    keyframe.reachesAt keyframe.pace generation = previous.reachesAt keyframe.pace generation := by
  rw [reachesAt, arrives, reachesAt, reachesAt]
  push_cast
  field_simp
  ring

/-- The same time is the one in proportion to the generations between the ends of the travel. -/
theorem reachesAt_of_proportion (later : previous.targetGeneration < keyframe.targetGeneration)
    (moving : keyframe.pace ≠ 0)
    (arrives : keyframe.targetTime = previous.reachesAt keyframe.pace keyframe.targetGeneration)
    (generation : ℤ) :
    (keyframe.targetTime - previous.targetTime)
          * ((generation - previous.targetGeneration : ℤ) : ℚ)
        / ((keyframe.targetGeneration - previous.targetGeneration : ℤ) : ℚ)
      + previous.targetTime = keyframe.reachesAt keyframe.pace generation := by
  have span : ((keyframe.targetGeneration - previous.targetGeneration : ℤ) : ℚ) ≠ 0 :=
    Int.cast_ne_zero.mpr (sub_ne_zero.mpr later.ne')
  rw [reachesAt_of_arrives moving arrives, arrives, reachesAt, reachesAt]
  field_simp
  ring

end Travels

end Keyframe

namespace Chain

open Keyframe (Follows)

/-- A chain of keyframes that follow one another from the start, with two of them at least. -/
structure Clocked (chain : Chain ℚ) : Prop where
  several : 0 < chain.lastIndex
  generation : chain.first.targetGeneration = 0
  time : chain.first.targetTime = 0
  follows : chain.toList.IsChain Follows

/-- The chain ends at rest, and a generation lies behind its end. -/
def PausesBefore (chain : Chain ℚ) (generation : ℤ) : Prop :=
  chain.last.targetGeneration < generation
    ∧ (chain.get (chain.lastIndex - 1)).targetGeneration = chain.last.targetGeneration

instance (chain : Chain ℚ) (generation : ℤ) : Decidable (chain.PausesBefore generation) :=
  inferInstanceAs (Decidable (_ ∧ _))

/-- Playback resumes at a generation when it is reached. -/
def Agrees (chain : Chain ℚ) (generation : ℤ) : Prop :=
  ∃ time, chain.resumeAt generation = .ok (chain.indexNear generation, time)
    ∧ chain.timeOf generation = .ok time

theorem divide_of_ne (dividend : ℚ) {divisor : ℚ} (apart : divisor ≠ 0) :
    divide dividend divisor = .ok (dividend / divisor) := by
  rw [divide, beq_false_of_ne apart]
  rfl

theorem duration_eq (generations : ℤ) (keyframe : Keyframe ℚ) :
    duration generations keyframe.pace
      = if keyframe.pace = 0 then .error .divisionByZero
        else .ok ((generations : ℚ) * 1000 / keyframe.pace) := by
  change divide ((generations : ℚ) * 1000) keyframe.pace = _
  simp only [divide, beq_iff_eq]

section Code

variable {chain : Chain ℚ} {generation : ℤ} {place : Nat}

theorem resumeAt_of_first (found : chain.indexNear generation = 0) :
    chain.resumeAt generation = .ok (0, 0) := by
  unfold resumeAt
  rw [found]
  rfl

theorem resumeAt_of_rests (found : chain.indexNear generation = place + 1)
    (same : (chain.get (place + 1)).targetGeneration = (chain.get place).targetGeneration) :
    chain.resumeAt generation = .ok (place + 1, 0) := by
  unfold resumeAt
  rw [found]
  dsimp only
  rw [if_neg (Nat.succ_ne_zero place), Nat.add_sub_cancel, if_pos (sub_eq_zero.mpr same)]
  rfl

/-- The time to resume at, in proportion to the generations between two keyframes. -/
theorem resumeAt_of_later (found : chain.indexNear generation = place + 1)
    (later : (chain.get place).targetGeneration < (chain.get (place + 1)).targetGeneration) :
    chain.resumeAt generation = .ok (place + 1,
      ((chain.get (place + 1)).targetTime - (chain.get place).targetTime)
          * ((generation - (chain.get place).targetGeneration : ℤ) : ℚ)
        / (((chain.get (place + 1)).targetGeneration - (chain.get place).targetGeneration : ℤ) : ℚ)
      + (chain.get place).targetTime) := by
  have span : (chain.get (place + 1)).targetGeneration - (chain.get place).targetGeneration ≠ 0 :=
    sub_ne_zero.mpr later.ne'
  unfold resumeAt
  rw [found]
  dsimp only
  rw [if_neg (Nat.succ_ne_zero place), Nat.add_sub_cancel, if_neg span]
  change (divide _ (((chain.get (place + 1)).targetGeneration
    - (chain.get place).targetGeneration : ℤ) : ℚ) >>= fun part => _) = _
  rw [divide_of_ne _ (Int.cast_ne_zero.mpr span)]
  rfl

end Code

namespace Clocked

variable {chain : Chain ℚ} {generation : ℤ}

theorem follows_get (clocked : chain.Clocked) {place : Nat} (within : place < chain.lastIndex) :
    Follows (chain.get place) (chain.get (place + 1)) := by
  have inside : place + 1 < chain.toList.length := Nat.succ_lt_succ within
  rw [get_eq_getElem (Nat.lt_of_succ_lt inside), get_eq_getElem inside]
  exact clocked.follows.getElem place inside

theorem le_last (clocked : chain.Clocked) {place : Nat} (within : place ≤ chain.lastIndex) :
    (chain.get place).targetGeneration ≤ chain.last.targetGeneration := by
  have transitive : IsTrans (Keyframe ℚ) fun earlier later =>
      earlier.targetGeneration ≤ later.targetGeneration := ⟨fun _ _ _ => le_trans⟩
  have ordered := List.isChain_iff_pairwise.mp (clocked.follows.imp fun _ _ follows => follows.le)
  rcases within.eq_or_lt with rfl | before
  · exact le_rfl
  · have inside : chain.lastIndex < chain.toList.length := Nat.lt_succ_self _
    rw [last, get_eq_getElem (before.trans inside), get_eq_getElem inside]
    exact List.pairwise_iff_getElem.mp ordered _ _ _ _ before

theorem reachesAt_first (clocked : chain.Clocked) (pace : ℚ) (generation : ℤ) :
    chain.first.reachesAt pace generation = generation * 1000 / pace := by
  rw [Keyframe.reachesAt, clocked.generation, clocked.time, zero_add, sub_zero]

/-- **The time of a generation is that at which the keyframe near it reaches it.** There is none
only if that keyframe has no pace. -/
theorem timeOf_eq (clocked : chain.Clocked) (generation : ℤ) :
    chain.timeOf generation
      = if (chain.get (chain.indexNear generation)).pace = 0 then .error .divisionByZero
        else .ok ((chain.get (chain.indexNear generation)).reachesAt
          (chain.get (chain.indexNear generation)).pace generation) := by
  obtain ⟨within, before, -⟩ := indexNear_near chain generation
  unfold timeOf
  generalize chain.indexNear generation = index at within before ⊢
  change (if (chain.get index).targetGeneration < generation then
      (duration (generation - (chain.get index).targetGeneration) (chain.get index).pace
        >>= fun span => .ok ((chain.get index).targetTime + span))
    else if 0 < index then
      (duration (generation - (chain.get (index - 1)).targetGeneration) (chain.get index).pace
        >>= fun span => .ok ((chain.get (index - 1)).targetTime + span))
    else duration generation (chain.get index).pace) = _
  simp only [duration_eq]
  by_cases resting : (chain.get index).pace = 0
  · simp only [if_pos resting]
    split
    · rfl
    · split <;> rfl
  · simp only [if_neg resting]
    split
    · rfl
    · rename_i reached
      cases index with
      | zero =>
          have start : chain.get 0 = chain.first := rfl
          rw [if_neg (lt_irrefl 0), start, clocked.reachesAt_first]
      | succ place =>
          rw [if_pos (Nat.succ_pos place), Nat.add_sub_cancel]
          cases clocked.follows_get within with
          | rests same =>
              have early := before place (Nat.lt_succ_self place)
              rw [← same] at early
              exact absurd early reached
          | travels later moving arrives =>
              rw [Keyframe.reachesAt_of_arrives moving arrives]
              rfl

/-- Behind the first keyframe, a chain ends at rest before a generation exactly if the keyframe near
it rests. -/
theorem pausesBefore_iff (clocked : chain.Clocked) {place : Nat}
    (near : chain.Near generation (place + 1)) :
    chain.PausesBefore generation
      ↔ (chain.get (place + 1)).targetGeneration = (chain.get place).targetGeneration := by
  obtain ⟨within, before, beyond⟩ := near
  constructor
  · rintro ⟨behind, rests⟩
    have atEnd := beyond ((clocked.le_last within).trans_lt behind)
    rw [last, ← atEnd, Nat.add_sub_cancel] at rests
    exact rests.symm
  · intro same
    have early := before place (Nat.lt_succ_self place)
    have atEnd := beyond (same ▸ early)
    rw [PausesBefore, last, ← atEnd, Nat.add_sub_cancel]
    exact ⟨same ▸ early, same.symm⟩

/-- **Playback resumes when the keyframe near a generation reaches it**, except behind a chain that
ends at rest, where it resumes at the start. -/
theorem resumeAt_eq (clocked : chain.Clocked) (begun : 0 ≤ generation) :
    chain.resumeAt generation = .ok (chain.indexNear generation,
      if chain.PausesBefore generation then 0
      else (chain.get (chain.indexNear generation)).reachesAt
        (chain.get (chain.indexNear generation)).pace generation) := by
  have near := indexNear_near chain generation
  cases found : chain.indexNear generation with
  | zero =>
      have start : chain.get 0 = chain.first := rfl
      have none : generation = 0 := by
        refine le_antisymm (not_lt.mp fun positive => ?_) begun
        have beyond := near.beyond
        rw [found, start, clocked.generation] at beyond
        exact clocked.several.ne (beyond positive)
      rw [resumeAt_of_first found, start, clocked.reachesAt_first, none, Int.cast_zero, zero_mul,
        zero_div, ite_self]
  | succ place =>
      rw [found] at near
      have pauses := clocked.pausesBefore_iff near
      cases clocked.follows_get near.within with
      | rests same => rw [resumeAt_of_rests found same, if_pos (pauses.mpr same)]
      | travels later moving arrives =>
          rw [resumeAt_of_later found later, if_neg (mt pauses.mp later.ne'),
            Keyframe.reachesAt_of_proportion later moving arrives]

/-- **When playback resumes at the time of a generation**: that time is there, and behind a chain
that ends at rest it happens to be the start. -/
theorem agrees_iff (clocked : chain.Clocked) (begun : 0 ≤ generation) :
    chain.Agrees generation
      ↔ (chain.get (chain.indexNear generation)).pace ≠ 0
        ∧ (chain.PausesBefore generation → chain.timeOf generation = .ok 0) := by
  unfold Agrees
  rw [clocked.resumeAt_eq begun, clocked.timeOf_eq]
  by_cases resting : (chain.get (chain.indexNear generation)).pace = 0
  · simp [resting]
  · by_cases pauses : chain.PausesBefore generation
    · simp [resting, pauses, eq_comm]
    · simp [resting, pauses]

/-- **A chain that is paced resumes at the time of a generation unless it ends at rest before.** -/
theorem agrees_iff_of_paced (clocked : chain.Clocked)
    (paced : ∀ keyframe ∈ chain.toList, keyframe.Paced)
    (times : chain.toList.Pairwise fun earlier later => earlier.targetTime < later.targetTime)
    (begun : 0 ≤ generation) :
    chain.Agrees generation ↔ ¬chain.PausesBefore generation := by
  have positive (place : Nat) : 0 < (chain.get place).pace :=
    have pacedHere := paced _ (chain.get_mem place)
    Keyframe.pace_pos pacedHere.gps pacedHere.step
  rw [clocked.agrees_iff begun, and_iff_right (positive _).ne']
  refine ⟨fun agrees pauses => ?_, fun moves pauses => absurd pauses moves⟩
  have atEnd : chain.indexNear generation = chain.lastIndex := by
    obtain ⟨within, -, beyond⟩ := indexNear_near chain generation
    exact beyond ((clocked.le_last within).trans_lt pauses.1)
  have known := agrees pauses
  rw [clocked.timeOf_eq, if_neg (positive _).ne', atEnd, Except.ok.injEq] at known
  -- the last keyframe comes after the start, and the generation after that
  have afterStart : (0 : ℚ) < chain.last.targetTime := by
    have inside : chain.lastIndex < chain.toList.length := Nat.lt_succ_self _
    rw [← clocked.time, last, get_eq_getElem inside]
    exact List.pairwise_iff_getElem.mp times 0 _ (clocked.several.trans inside) inside
      clocked.several
  have travelled : (0 : ℚ) < (generation - chain.last.targetGeneration : ℤ) * 1000
      / (chain.get chain.lastIndex).pace := by
    have later : (0 : ℚ) < (generation - chain.last.targetGeneration : ℤ) :=
      Int.cast_pos.mpr (sub_pos.mpr pauses.1)
    have pace := positive chain.lastIndex
    positivity
  exact (add_pos afterStart travelled).ne' known

end Clocked

/-! ### Chains that are built -/

section Built

variable {previous keyframe live : Keyframe ℚ} {pinned : ℚ} {waypoint first : Waypoint ℚ}
  {later pois : List (Waypoint ℚ)} {reported : List Diagnostic} {refreshRate : Int}
  {resolved : Resolved ℚ}

/-- A keyframe that is linked follows the one before it. -/
theorem link_follows (done : link previous pinned waypoint = .ok (keyframe, reported))
    (ordered : InOrder reported) (apart : waypoint.Apart) (begun : 0 ≤ previous.targetGeneration) :
    Follows previous keyframe ∧ 0 ≤ keyframe.targetGeneration := by
  rcases link_generation done ordered with ⟨-, same⟩ | later
  · exact ⟨.rests same, begun.trans same.ge⟩
  · refine ⟨?_, begun.trans later.le⟩
    rcases link_ok done with
      ⟨time, rfl, -, ⟨pause, pausing, -⟩ | ⟨span, -, travelled, arrived⟩⟩
    · -- with a pause there is no target that is later
      change previous.targetGeneration
        < waypoint.targetGeneration.elim previous.targetGeneration Setting.value at later
      cases targeted : waypoint.targetGeneration with
      | none =>
          rw [targeted] at later
          exact absurd later (lt_irrefl _)
      | some target =>
          rw [targeted] at later
          exact absurd (begun.trans_lt later) (not_lt.mpr (apart pause target pausing targeted))
    · obtain ⟨moving, spans⟩ := travelTime_eq_ok travelled
      exact .travels later moving (arrived.trans (congrArg _ spans))

theorem build_clocked (done : build first later pois live refreshRate = .ok resolved)
    (ordered : InOrder resolved.reported) (several : 0 < resolved.chain.lastIndex)
    (starts : first.targetGeneration.elim 0 Setting.value = 0)
    (apart : ∀ waypoint ∈ later, waypoint.Apart) : resolved.chain.Clocked := by
  obtain ⟨generation, time⟩ := build_first done
  refine ⟨several, generation.trans starts, time, ?_⟩
  obtain ⟨pinned, others, reported, -, linked, rfl⟩ := build_ok done
  refine linkAll_isChain (fun keyframe => 0 ≤ keyframe.targetGeneration) Waypoint.Apart ?_
    starts.ge apart linked ordered
  intro previous waypoint keyframe reported begun apart linked ordered
  exact link_follows linked ordered apart begun

theorem linkAll_paced {keyframes : List (Keyframe ℚ)}
    (paced : ∀ waypoint ∈ later, waypoint.Paced) (based : previous.Paced)
    (rate : ∀ waypoint ∈ later, waypoint.step.isSome = true → IsPace pinned)
    (done : linkAll pinned previous later = .ok (keyframes, reported)) :
    ∀ keyframe ∈ previous :: keyframes, keyframe.Paced := by
  induction later generalizing previous keyframes reported with
  | nil =>
      cases done
      exact List.forall_mem_singleton.mpr based
  | cons waypoint rest inductionHypothesis =>
      rcases List.forall_mem_cons.mp paced with ⟨pacedHere, pacedRest⟩
      rcases List.forall_mem_cons.mp rate with ⟨rateHere, rateRest⟩
      rcases linkAll_cons_ok done with ⟨keyframe, here, later, others, linked, linkedRest, rfl, rfl⟩
      rcases exists_link pacedHere based rateHere with ⟨same, sameReport, linkedToo, pacedToo⟩
      cases linked.symm.trans linkedToo
      have pacedLater := inductionHypothesis pacedRest pacedToo rateRest linkedRest
      exact List.forall_mem_cons.mpr ⟨based, pacedLater⟩

theorem build_paced (rate : 1 ≤ refreshRate) (pacedFirst : first.Paced)
    (paced : ∀ waypoint ∈ later, waypoint.Paced) (based : live.Paced)
    (done : build first later pois live refreshRate = .ok resolved) :
    ∀ keyframe ∈ resolved.chain.toList, keyframe.Paced := by
  rcases build_ok done with ⟨pinned, others, reported, pins, linked, rfl⟩
  have rates : ∀ waypoint ∈ first :: later, waypoint.step.isSome = true → IsPace pinned :=
    fun waypoint member steps =>
      ⟨refreshRate, rate, ofInt_of_pinnedRate pins (List.mem_append_left pois member) steps⟩
  rcases List.forall_mem_cons.mp rates with ⟨rateFirst, rateLater⟩
  exact linkAll_paced paced (start_paced pacedFirst based rateFirst) rateLater linked

end Built

end Chain

end Showreel
