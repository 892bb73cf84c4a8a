import Mathlib.Algebra.Order.BigOperators.Group.List
import Mathlib.Data.List.Sort
import Mathlib.Order.Bounds.Basic
import Mathlib.Tactic.Linarith
import Showreel.Paste.Schedule

/-!
Contract: the generations at which pastes fire.

Owns:
- that a repeating rule fires at the numbers of an arithmetic progression, and knows which of
  them it has come to;
- that a list of gaps fires at its running sums;
- the last firing generation of a trigger, and of the entries of a timeline.

Does not own: what is pasted.
-/

namespace Showreel.Paste

namespace Trigger

variable {trigger : Trigger}

/-- For every generation the trigger fires at a later one. -/
def FiresForever (trigger : Trigger) : Prop :=
  ∀ generation, ∃ later, generation < later ∧ trigger.fires later = true

theorem not_firesForever {last : Int}
    (final : last ∈ upperBounds {generation | trigger.fires generation = true}) :
    ¬trigger.FiresForever := by
  intro forever
  obtain ⟨later, beyond, fires⟩ := forever last
  exact (final fires).not_gt beyond

/-! ### Schedules -/

theorem mem_schedule {generation bound : Int} :
    generation ∈ trigger.schedule bound
      ↔ 0 ≤ generation ∧ generation ≤ bound ∧ trigger.fires generation = true := by
  unfold schedule
  simp only [List.mem_filter, List.mem_map, List.mem_range, Int.ofNat_eq_natCast]
  constructor
  · rintro ⟨⟨count, inside, rfl⟩, fires⟩
    exact ⟨Int.natCast_nonneg count, by omega, fires⟩
  · rintro ⟨nonnegative, within, fires⟩
    exact ⟨⟨generation.toNat, by omega, by omega⟩, fires⟩

theorem schedule_ascending (trigger : Trigger) (bound : Int) :
    (trigger.schedule bound).Pairwise (· < ·) := by
  apply List.Pairwise.filter
  rw [List.pairwise_map]
  exact List.pairwise_lt_range.imp fun before => Int.ofNat_lt.mpr before

/-! ### Rules -/

section Rule

variable {every start stop : Int}

theorem fires_repeating_iff (positive : 1 ≤ every) {generation : Int} :
    (repeating every start stop).fires generation = true
      ↔ ∃ count : Nat, generation = start + count * every ∧ (0 ≤ stop → generation ≤ stop) := by
  have lasts : (decide (stop < 0) || decide (generation ≤ stop)) = true
      ↔ (0 ≤ stop → generation ≤ stop) := by
    rw [Bool.or_eq_true, decide_eq_true_eq, decide_eq_true_eq]
    omega
  show (decide (0 < every) && decide (start ≤ generation)
    && decide ((generation - start) % every = 0)
    && (decide (stop < 0) || decide (generation ≤ stop)) || false) = true ↔ _
  rw [Bool.or_false, Bool.and_eq_true, Bool.and_eq_true, Bool.and_eq_true, lasts,
    decide_eq_true_eq, decide_eq_true_eq, decide_eq_true_eq, and_assoc, and_assoc]
  constructor
  · rintro ⟨-, begun, whole, stillGoing⟩
    obtain ⟨count, multiple⟩ := Int.dvd_of_emod_eq_zero whole
    have counted : 0 ≤ count := by
      apply (mul_nonneg_iff_of_pos_left (show 0 < every by omega)).mp
      omega
    refine ⟨count.toNat, ?_, stillGoing⟩
    rw [Int.toNat_of_nonneg counted, mul_comm]
    omega
  · rintro ⟨count, rfl, stillGoing⟩
    have forward : 0 ≤ (count : Int) * every := by positivity
    refine ⟨by omega, by omega, ?_, stillGoing⟩
    rw [add_sub_cancel_left]
    exact Int.mul_emod_left _ _

/-- How many generations up to a bound a rule lists. -/
def firingsUpTo (every start stop bound : Int) : Nat :=
  (((if stop < 0 then bound else min bound stop) - start) / every + 1).toNat

theorem lt_firingsUpTo (positive : 1 ≤ every) {count : Nat} {bound : Int} :
    count < firingsUpTo every start stop bound
      ↔ start + count * every ≤ bound ∧ (0 ≤ stop → start + count * every ≤ stop) := by
  have reached : ∀ limit : Int, count < ((limit - start) / every + 1).toNat
      ↔ start + count * every ≤ limit := by
    intro limit
    have whole : (count : Int) ≤ (limit - start) / every ↔ (count : Int) * every ≤ limit - start :=
      Int.le_ediv_iff_mul_le (by omega)
    omega
  unfold firingsUpTo
  rw [reached]
  split
  · omega
  · rw [le_min_iff]
    omega

/-- **A rule lists an arithmetic progression.** -/
theorem schedule_repeating (positive : 1 ≤ every) (begins : 0 ≤ start) (bound : Int) :
    (repeating every start stop).schedule bound
      = (List.range (firingsUpTo every start stop bound)).map
        fun count : Nat => start + count * every := by
  apply (schedule_ascending _ _).eq_of_mem_iff
  · rw [List.pairwise_map]
    refine List.pairwise_lt_range.imp fun {count later} before => ?_
    have grows : (count : Int) * every < later * every :=
      mul_lt_mul_of_pos_right (mod_cast before) (by omega)
    omega
  · intro generation
    rw [mem_schedule, fires_repeating_iff positive]
    simp only [List.mem_map, List.mem_range, lt_firingsUpTo positive]
    constructor
    · rintro ⟨-, within, count, rfl, stillGoing⟩
      exact ⟨count, ⟨within, stillGoing⟩, rfl⟩
    · rintro ⟨count, ⟨within, stillGoing⟩, rfl⟩
      have forward : 0 ≤ (count : Int) * every := by positivity
      exact ⟨by omega, within, count, rfl, stillGoing⟩

theorem earlier_repeating (positive : 1 ≤ every) (count : Nat) :
    (repeating every start stop).earlier (start + count * every) = count := by
  have forward : 0 ≤ (count : Int) * every := by positivity
  have due : 0 < every ∧ start ≤ start + count * every := by omega
  unfold earlier repeating
  dsimp only
  rw [if_pos due, add_sub_cancel_left]
  exact Int.mul_ediv_cancel _ (by omega)

/-- As many generations come before one that a rule lists as its place says. -/
theorem length_schedule_before (positive : 1 ≤ every) (begins : 0 ≤ start) {count : Nat}
    (stillGoing : 0 ≤ stop → start + count * every ≤ stop) :
    ((repeating every start stop).schedule (start + count * every - 1)).length = count := by
  rw [schedule_repeating positive begins, List.length_map, List.length_range]
  apply eq_of_forall_lt_iff
  intro other
  rw [lt_firingsUpTo positive]
  constructor
  · rintro ⟨before, -⟩
    have less : (other : Int) * every < count * every := by omega
    exact_mod_cast lt_of_mul_lt_mul_right less (by omega)
  · intro less
    have steps : (other + 1 : Int) * every ≤ count * every :=
      mul_le_mul_of_nonneg_right (mod_cast less) (by omega)
    rw [add_mul, one_mul] at steps
    omega

theorem isGreatest_last_repeating (positive : 1 ≤ every) (begins : 0 ≤ start)
    (ends : start ≤ stop) :
    IsGreatest {generation | (repeating every start stop).fires generation = true}
      (repeating every start stop).last := by
  have turn : 0 ≤ (stop - start) / every := Int.ediv_nonneg (by omega) (by omega)
  have within : (stop - start) / every * every ≤ stop - start := Int.ediv_mul_le _ (by omega)
  have final : (repeating every start stop).last = start + (stop - start) / every * every := by
    unfold last repeating
    dsimp only
    rw [if_pos (by omega), if_neg (by omega)]
  rw [final]
  constructor
  · refine (fires_repeating_iff positive).mpr ⟨((stop - start) / every).toNat, ?_, by omega⟩
    rw [Int.toNat_of_nonneg turn]
  · rintro generation fires
    obtain ⟨count, rfl, stillGoing⟩ := (fires_repeating_iff positive).mp fires
    have counted : (count : Int) ≤ (stop - start) / every :=
      (Int.le_ediv_iff_mul_le (by omega)).mpr (by omega)
    have scaled := mul_le_mul_of_nonneg_right counted (show 0 ≤ every by omega)
    omega

theorem last_repeating_endless (positive : 1 ≤ every) :
    (repeating every start (-1)).last = -1 := by
  unfold last repeating
  dsimp only
  rw [if_pos (by omega), if_pos (by decide)]

theorem firesForever_repeating_endless (positive : 1 ≤ every) :
    (repeating every start (-1)).FiresForever := by
  intro generation
  refine ⟨start + ((generation - start).toNat + 1 : Nat) * every, ?_,
    (fires_repeating_iff positive).mpr ⟨_, rfl, by omega⟩⟩
  have longer : (((generation - start).toNat + 1 : Nat) : Int)
      ≤ ((generation - start).toNat + 1 : Nat) * every :=
    le_mul_of_one_le_right (by omega) positive
  omega

end Rule

/-! ### Lists -/

section Listed

variable {first : Int} {gaps : List Int}

/-- The sum of the first gaps, from the first generation on. -/
def runningSum (first : Int) (gaps : List Int) (count : Nat) : Int :=
  first + (gaps.take count).sum

theorem sumsFrom_nonnegative (forward : ∀ gap ∈ gaps, 0 ≤ gap) :
    sumsFrom first gaps = .ok ((List.range (gaps.length + 1)).map (runningSum first gaps)) := by
  induction gaps generalizing first with
  | nil => simp [sumsFrom, runningSum]
  | cons gap rest inductionHypothesis =>
      obtain ⟨nonnegative, others⟩ := List.forall_mem_cons.mp forward
      have shifted : runningSum first (gap :: rest) ∘ Nat.succ
          = runningSum (first + gap) rest := by
        funext count
        simp [runningSum, add_assoc]
      rw [sumsFrom, if_neg nonnegative.not_gt, inductionHypothesis others, List.length_cons,
        List.range_succ_eq_map (n := rest.length + 1), List.map_cons, List.map_map,
        show runningSum first (gap :: rest) 0 = first by simp [runningSum], shifted]
      rfl

theorem at?_nonnegative (forward : ∀ gap ∈ gaps, 0 ≤ gap) :
    at? first gaps
      = .ok ⟨(List.range (gaps.length + 1)).map (runningSum first gaps), 0, 0, -1⟩ := by
  rw [at?, sumsFrom_nonnegative forward]
  rfl

theorem fires_listed_iff {generations : List Int} {start stop generation : Int} :
    (⟨generations, 0, start, stop⟩ : Trigger).fires generation = true
      ↔ generation ∈ generations := by
  simp [fires, ruleFires]

theorem mem_runningSums {generation : Int} :
    generation ∈ (List.range (gaps.length + 1)).map (runningSum first gaps)
      ↔ ∃ count ≤ gaps.length, generation = runningSum first gaps count := by
  simp only [List.mem_map, List.mem_range, Nat.lt_succ_iff]
  exact exists_congr fun count => and_congr_right fun _ => eq_comm

theorem le_runningSum (forward : ∀ gap ∈ gaps, 0 ≤ gap) (count : Nat) :
    first ≤ runningSum first gaps count := by
  have nonnegative : 0 ≤ (gaps.take count).sum :=
    List.sum_nonneg fun gap member => forward gap (List.mem_of_mem_take member)
  unfold runningSum
  omega

theorem isGreatest_foldl_max (first : Int) (rest : List Int) :
    IsGreatest {generation | generation ∈ first :: rest} (rest.foldl max first) := by
  induction rest generalizing first with
  | nil => simp [IsGreatest, upperBounds]
  | cons next others inductionHypothesis =>
      obtain ⟨attained, bounds⟩ := inductionHypothesis (max first next)
      rw [List.foldl_cons]
      constructor
      · show others.foldl max (max first next) ∈ first :: next :: others
        rcases List.mem_cons.mp attained with same | later
        · rw [same]
          rcases max_choice first next with left | right
          · simp [left]
          · simp [right]
        · simp [later]
      · intro generation member
        have top : max first next ≤ others.foldl max (max first next) :=
          bounds List.mem_cons_self
        rcases List.mem_cons.mp member with rfl | member
        · exact (le_max_left _ _).trans top
        · rcases List.mem_cons.mp member with rfl | member
          · exact (le_max_right _ _).trans top
          · exact bounds (List.mem_cons_of_mem _ member)

theorem isGreatest_last_listed {start stop : Int} {rest : List Int} :
    IsGreatest {generation | (⟨first :: rest, 0, start, stop⟩ : Trigger).fires generation = true}
      (⟨first :: rest, 0, start, stop⟩ : Trigger).last := by
  simp only [fires_listed_iff]
  exact isGreatest_foldl_max first rest

end Listed

/-! ### What triggers answer -/

/-- What a trigger answers that follows a repeating rule; a `stop` of minus one is no end. -/
structure FollowsRule (every start stop : Int) (trigger : Trigger) : Prop where
  ascending : ∀ bound, (trigger.schedule bound).Pairwise (· < ·)
  lists : ∀ bound generation, generation ∈ trigger.schedule bound ↔
    ∃ count : Nat, generation = start + count * every ∧ generation ≤ bound
      ∧ (0 ≤ stop → generation ≤ stop)
  /-- The firing at a place of the schedule has as many before it as the place says. -/
  counts : ∀ bound generation (place : Nat), (trigger.schedule bound)[place]? = some generation →
    trigger.earlier generation = place ∧ (trigger.schedule (generation - 1)).length = place
  endless : stop = -1 → trigger.last = -1 ∧ trigger.FiresForever
  ends : stop ≠ -1 → IsGreatest {generation | trigger.fires generation = true} trigger.last

theorem followsRule_repeating {every start stop : Int} (positive : 1 ≤ every) (begins : 0 ≤ start)
    (ends : stop = -1 ∨ start ≤ stop) :
    FollowsRule every start stop (repeating every start stop) := by
  refine ⟨schedule_ascending _, ?_, ?_, ?_, ?_⟩
  · intro bound generation
    rw [schedule_repeating positive begins]
    simp only [List.mem_map, List.mem_range, lt_firingsUpTo positive]
    constructor
    · rintro ⟨count, ⟨within, stillGoing⟩, rfl⟩
      exact ⟨count, rfl, within, stillGoing⟩
    · rintro ⟨count, rfl, within, stillGoing⟩
      exact ⟨count, ⟨within, stillGoing⟩, rfl⟩
  · intro bound generation place found
    rw [schedule_repeating positive begins, List.getElem?_map, Option.map_eq_some_iff] at found
    obtain ⟨count, placed, rfl⟩ := found
    obtain ⟨inside, same⟩ := List.getElem?_eq_some_iff.mp placed
    rw [List.length_range] at inside
    obtain rfl : place = count := by simpa using same
    exact ⟨earlier_repeating positive place,
      length_schedule_before positive begins ((lt_firingsUpTo positive).mp inside).2⟩
  · rintro rfl
    exact ⟨last_repeating_endless positive, firesForever_repeating_endless positive⟩
  · intro ended
    exact isGreatest_last_repeating positive begins (ends.resolve_left ended)

/-- What a trigger answers that is a list, given by its first generation and the gaps. -/
structure FollowsList (first : Int) (gaps : List Int) (trigger : Trigger) : Prop where
  ascending : ∀ bound, (trigger.schedule bound).Pairwise (· < ·)
  lists : ∀ bound generation, generation ∈ trigger.schedule bound ↔
    generation ≤ bound ∧ ∃ count ≤ gaps.length, generation = first + (gaps.take count).sum
  ends : IsGreatest {generation | trigger.fires generation = true} trigger.last

theorem exists_followsList {first : Int} {gaps : List Int} (begins : 0 ≤ first)
    (forward : ∀ gap ∈ gaps, 0 ≤ gap) :
    ∃ trigger, at? first gaps = .ok trigger ∧ FollowsList first gaps trigger := by
  refine ⟨_, at?_nonnegative forward, schedule_ascending _, ?_, ?_⟩
  · intro bound generation
    rw [mem_schedule, fires_listed_iff, mem_runningSums]
    constructor
    · rintro ⟨-, within, listed⟩
      exact ⟨within, listed⟩
    · rintro ⟨within, count, counted, rfl⟩
      exact ⟨begins.trans (le_runningSum forward count), within, count, counted, rfl⟩
  · rw [List.range_succ_eq_map, List.map_cons]
    exact isGreatest_last_listed

/-- A trigger as scripts make it: a rule that does not end before it starts, or a list that goes
forward, neither of them from before generation zero. -/
inductive Planned : Trigger → Prop
  | rule {every start stop : Int} (positive : 1 ≤ every) (begins : 0 ≤ start)
    (ends : stop = -1 ∨ start ≤ stop) : Planned (repeating every start stop)
  | listed {first : Int} {gaps : List Int} {trigger : Trigger} (begins : 0 ≤ first)
    (forward : ∀ gap ∈ gaps, 0 ≤ gap) (made : at? first gaps = .ok trigger) : Planned trigger

/-- A trigger fires forever, or it has a last generation. -/
theorem Planned.endless_or_ends (planned : Planned trigger) :
    (trigger.last = -1 ∧ trigger.FiresForever)
      ∨ 0 ≤ trigger.last
        ∧ IsGreatest {generation | trigger.fires generation = true} trigger.last := by
  cases planned with
  | @rule every start stop positive begins ends =>
      have follows := followsRule_repeating positive begins ends
      by_cases endless : stop = -1
      · exact .inl (follows.endless endless)
      · have greatest := follows.ends endless
        obtain ⟨count, final, -⟩ := (fires_repeating_iff positive).mp greatest.1
        have forward : 0 ≤ (count : Int) * every := by positivity
        exact .inr ⟨by omega, greatest⟩
  | @listed first gaps _ begins forward made =>
      obtain ⟨same, followed, follows⟩ := exists_followsList begins forward
      cases made.symm.trans followed
      cases made.symm.trans (at?_nonnegative forward)
      obtain ⟨count, -, final⟩ := mem_runningSums.mp (fires_listed_iff.mp follows.ends.1)
      have reached : first ≤ runningSum first gaps count := le_runningSum forward count
      exact .inr ⟨by omega, follows.ends⟩

end Trigger

/-! ### Schedules of entries -/

namespace Schedule

open Trigger

variable {entries : List Entry}

theorem due_eq_nil_iff {generation : Int} :
    due entries generation = [] ↔ ∀ entry ∈ entries, entry.trigger.fires generation = false := by
  simp [due, List.filter_eq_nil_iff]

/-- What the last generation of entries says. -/
structure EndsAtLast (entries : List Entry) : Prop where
  endless : lastGeneration entries = -1 ↔ ∃ entry ∈ entries, entry.trigger.FiresForever
  silent : lastGeneration entries ≠ -1 →
    ∀ generation, lastGeneration entries < generation → due entries generation = []
  attained : lastGeneration entries ≠ -1 → entries ≠ [] →
    due entries (lastGeneration entries) ≠ []

theorem endsAtLast_of_endless {entry : Entry} (member : entry ∈ entries)
    (endless : entry.trigger.last = -1) (forever : entry.trigger.FiresForever) :
    EndsAtLast entries := by
  have last : lastGeneration entries = -1 := by
    apply if_pos
    simp only [List.any_map, List.any_eq_true, Function.comp_apply, decide_eq_true_eq]
    exact ⟨entry, member, by omega⟩
  exact ⟨iff_of_true last ⟨entry, member, forever⟩, absurd last, absurd last⟩

theorem endsAtLast_of_ends (ends : ∀ entry ∈ entries, 0 ≤ entry.trigger.last
    ∧ IsGreatest {generation | entry.trigger.fires generation = true} entry.trigger.last) :
    EndsAtLast entries := by
  have last : lastGeneration entries
      = (entries.map fun entry => entry.trigger.last).foldl max 0 := by
    apply if_neg
    simp only [List.any_map, List.any_eq_true, Function.comp_apply, decide_eq_true_eq]
    rintro ⟨entry, member, negative⟩
    exact (ends entry member).1.not_gt negative
  obtain ⟨attained, bounds⟩ := isGreatest_foldl_max 0 (entries.map fun entry => entry.trigger.last)
  rw [← last] at attained bounds
  have bounded : ∀ entry ∈ entries, entry.trigger.last ≤ lastGeneration entries :=
    fun entry member => bounds (List.mem_cons_of_mem _ (List.mem_map_of_mem member))
  refine ⟨iff_of_false ?_ ?_, ?_, ?_⟩
  · have nonnegative : 0 ≤ lastGeneration entries := bounds List.mem_cons_self
    omega
  · rintro ⟨entry, member, forever⟩
    exact not_firesForever (ends entry member).2.2 forever
  · intro _ generation beyond
    rw [due_eq_nil_iff]
    intro entry member
    rw [← Bool.not_eq_true]
    intro fires
    exact (((ends entry member).2.2 fires).trans (bounded entry member)).not_gt beyond
  · intro _ some nothing
    rw [due_eq_nil_iff] at nothing
    obtain ⟨first, member⟩ := List.exists_mem_of_ne_nil entries some
    -- where the last generation is zero no entry has to attain it by the maximum itself
    have attainedByEntry : ∃ entry ∈ entries, entry.trigger.last = lastGeneration entries := by
      rcases List.mem_cons.mp attained with zero | listed
      · refine ⟨first, member, le_antisymm (bounded first member) ?_⟩
        rw [zero]
        exact (ends first member).1
      · obtain ⟨entry, entryMember, same⟩ := List.mem_map.mp listed
        exact ⟨entry, entryMember, same⟩
    obtain ⟨entry, entryMember, same⟩ := attainedByEntry
    have fires := (ends entry entryMember).2.1
    rw [same] at fires
    exact absurd fires (Bool.eq_false_iff.mp (nothing entry entryMember))

/-- **Pastes fire exactly when their plan says.** A rule fires at the numbers of its progression
and knows which of them it has come to, a list fires at its running sums, and the last generation
of planned entries is the last at which any of them is due, or minus one if one fires forever. -/
theorem fires_asPlanned :
    (∀ every start stop : Int, 1 ≤ every → 0 ≤ start → stop = -1 ∨ start ≤ stop →
        FollowsRule every start stop (repeating every start stop))
      ∧ (∀ (first : Int) (gaps : List Int), 0 ≤ first → (∀ gap ∈ gaps, 0 ≤ gap) →
        ∃ trigger, at? first gaps = .ok trigger ∧ FollowsList first gaps trigger)
      ∧ ∀ entries : List Entry, (∀ entry ∈ entries, Planned entry.trigger) →
        EndsAtLast entries := by
  refine ⟨fun _ _ _ => followsRule_repeating, fun _ _ => exists_followsList, ?_⟩
  intro entries planned
  by_cases endless : ∃ entry ∈ entries, entry.trigger.last = -1 ∧ entry.trigger.FiresForever
  · obtain ⟨entry, member, last, forever⟩ := endless
    exact endsAtLast_of_endless member last forever
  · apply endsAtLast_of_ends
    intro entry member
    exact (planned entry member).endless_or_ends.resolve_left
      fun both => endless ⟨entry, member, both⟩

/-- A rule whose end is beside its progression, a list that comes to one generation twice, and
both as the triggers of entries. -/
theorem fires_asPlanned_offGrid :
    let entry : Trigger → Entry := fun trigger =>
      ⟨Pattern.Cells.empty, 0, 0, trigger, .either, 0, 0, 0, ""⟩
    let rule := repeating 3 2 10
    1 ≤ (3 : Int) ∧ 0 ≤ (2 : Int) ∧ ((10 : Int) = -1 ∨ (2 : Int) ≤ 10)
      ∧ FollowsRule 3 2 10 rule ∧ rule.schedule 20 = [2, 5, 8] ∧ rule.last = 8
      ∧ 0 ≤ (1 : Int) ∧ (∀ gap ∈ [4, 0, 4], 0 ≤ (gap : Int))
      ∧ ∃ listed, at? 1 [4, 0, 4] = .ok listed ∧ FollowsList 1 [4, 0, 4] listed
        ∧ listed.schedule 20 = [1, 5, 9]
        ∧ (∀ given ∈ [entry rule, entry listed], Planned given.trigger)
        ∧ EndsAtLast [entry rule, entry listed]
        ∧ lastGeneration [entry rule, entry listed] = 9 := by
  intro entry rule
  have positive : 1 ≤ (3 : Int) := by decide
  have begins : 0 ≤ (2 : Int) := by decide
  have ends : (10 : Int) = -1 ∨ (2 : Int) ≤ 10 := by decide
  have beginsToo : 0 ≤ (1 : Int) := by decide
  have forward : ∀ gap ∈ [4, 0, 4], 0 ≤ (gap : Int) := by decide
  obtain ⟨rules, lists, calendars⟩ := fires_asPlanned
  obtain ⟨listed, made, follows⟩ := lists 1 [4, 0, 4] beginsToo forward
  have planned : ∀ given ∈ [entry rule, entry listed], Planned given.trigger := by
    simp only [List.forall_mem_cons, List.not_mem_nil, false_implies, implies_true, and_true]
    exact ⟨.rule positive begins ends, .listed beginsToo forward made⟩
  have ending := calendars [entry rule, entry listed] planned
  cases made
  exact ⟨positive, begins, ends, rules 3 2 10 positive begins ends, by decide, by decide,
    beginsToo, forward, _, rfl, follows, by decide, planned, ending, by decide⟩

end Schedule

end Showreel.Paste
