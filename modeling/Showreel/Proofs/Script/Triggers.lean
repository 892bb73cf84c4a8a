import Showreel.Proofs.Script.Evolutions
import Showreel.Proofs.Script.Outline
import Showreel.Proofs.Script.Ranges
import Showreel.Proofs.Script.Train

/-!
Contract: the triggers of the pastes of a script.

Owns:
- triggers that go forward, and rules that leave room for a period before their end;
- the rule that is in force after some statements, which every train moves on;
- what the statements that are not about pastes leave as it is;
- that all triggers of a timeline go forward, and when all its rules leave that room.

Does not own: the generations at which a trigger fires.
-/

namespace Showreel

open Number

namespace Paste

/-! ### Triggers -/

namespace Trigger

/-- A list of generations in order, or a rule with a period, neither of them from before
generation zero. -/
inductive Forward : Trigger → Prop
  | listed {generations : List Int} (begins : ∀ generation ∈ generations, 0 ≤ generation)
    (ascends : generations.Pairwise (· ≤ ·)) : Forward ⟨generations, 0, 0, -1⟩
  | rule {every start stop : Int} (positive : 1 ≤ every) (begins : 0 ≤ start) :
    Forward (repeating every start stop)

/-- A rule with an end leaves room for a whole period before it. -/
def Roomy (trigger : Trigger) : Prop :=
  0 < trigger.every → 0 ≤ trigger.stop → trigger.start + trigger.every ≤ trigger.stop

theorem roomy_listed (generations : List Int) : Roomy ⟨generations, 0, 0, -1⟩ :=
  fun repeats => absurd repeats (Int.lt_irrefl 0)

theorem roomy_repeating_iff {every start stop : Int} (positive : 1 ≤ every) :
    (repeating every start stop).Roomy ↔ (0 ≤ stop → start + every ≤ stop) :=
  ⟨fun roomy => roomy positive, fun ends _ => ends⟩

/-- Gaps that can be summed up are none of them negative, and so the sums go up. -/
theorem sumsFrom_ascends {first : Int} {gaps generations : List Int}
    (summed : sumsFrom first gaps = .ok generations) :
    (∀ generation ∈ generations, first ≤ generation) ∧ generations.Pairwise (· ≤ ·) := by
  induction gaps generalizing first generations with
  | nil =>
      cases summed
      exact ⟨List.forall_mem_singleton.mpr (Int.le_refl first), List.pairwise_singleton _ _⟩
  | cons gap rest inductionHypothesis =>
      unfold sumsFrom at summed
      split at summed
      · cases summed
      · rename_i forward
        obtain ⟨later, summedRest, rfl⟩ := map_eq_ok summed
        obtain ⟨behind, ascends⟩ := inductionHypothesis summedRest
        have after : ∀ generation ∈ later, first ≤ generation := by
          intro generation member
          have far := behind generation member
          omega
        exact ⟨List.forall_mem_cons.mpr ⟨Int.le_refl first, after⟩, .cons after ascends⟩

theorem at?_forward {first : Int} {gaps : List Int} {trigger : Trigger} (begins : 0 ≤ first)
    (made : at? first gaps = .ok trigger) : trigger.Forward ∧ trigger.Roomy := by
  obtain ⟨generations, summed, rfl⟩ := map_eq_ok made
  obtain ⟨behind, ascends⟩ := sumsFrom_ascends summed
  refine ⟨.listed ?_ ascends, roomy_listed generations⟩
  exact fun generation member => Int.le_trans begins (behind generation member)

theorem once_forward {generation : Int} (begins : 0 ≤ generation) :
    (once generation).Forward ∧ (once generation).Roomy :=
  ⟨.listed (List.forall_mem_singleton.mpr begins) (List.pairwise_singleton _ _), roomy_listed _⟩

end Trigger

/-- Running cells forward changes no trigger. -/
theorem Entry.evolved_trigger (entry : Entry) : entry.evolved.trigger = entry.trigger := by
  unfold evolved
  split
  · rfl
  · rfl

end Paste

namespace Script

open Paste Reading

variable {α : Type}

/-! ### Rules in force -/

/-- A repeating rule, and by how many generations the trains since then have moved its start. -/
structure Rule where
  every : Int
  start : Int
  stop : Int
  delay : Int

/-- A rule with an end leaves room for a whole period before it, from where it now starts. -/
def Rule.Roomy (rule : Rule) : Prop :=
  0 ≤ rule.stop → rule.start + rule.delay + rule.every ≤ rule.stop

/-- The delays of a train, taken together. -/
def totalDelay (train : List TrainStep) : Int :=
  (train.map TrainStep.delay).sum

/-- The rule in force behind a statement. -/
def Rule.behind (rule : Option Rule) : Statement α → Option Rule
  | .pasteAt _ _ => none
  | .pasteEvery period start stop => some ⟨period, start, stop, 0⟩
  | .paste _ _ _ train _ =>
      rule.map fun given => { given with delay := given.delay + totalDelay train }
  | _ => rule

/-- The rule in force behind some statements. -/
def ruleBehind (statements : List (Statement α)) : Option Rule :=
  statements.foldl Rule.behind none

def Statement.isPaste : Statement α → Bool
  | .paste .. => true
  | _ => false

/-- Whatever is pasted by a rule leaves room for a period before the end of the rule. -/
def PastesRoomy (statements : List (Statement α)) : Prop :=
  ∀ before paste, before ++ [paste] <+: statements → paste.isPaste = true →
    ∀ rule ∈ ruleBehind before, rule.Roomy

theorem ruleBehind_concat (statements : List (Statement α)) (statement : Statement α) :
    ruleBehind (statements ++ [statement]) = Rule.behind (ruleBehind statements) statement := by
  rw [ruleBehind, List.foldl_concat, ruleBehind]

theorem pastesRoomy_nil : PastesRoomy ([] : List (Statement α)) :=
  forall_prefix_nil

theorem pastesRoomy_concat_iff {statements : List (Statement α)} {statement : Statement α} :
    PastesRoomy (statements ++ [statement]) ↔ PastesRoomy statements
      ∧ (statement.isPaste = true → ∀ rule ∈ ruleBehind statements, rule.Roomy) :=
  forall_prefix_concat_iff

/-! ### Readings -/

section Readings

variable [Scalar α]

/-- What the reading of a command vouches for: no generation is before zero, and no delay negative. -/
def Statement.Scheduled : Statement α → Prop
  | .pasteAt first _ => 0 ≤ first
  | .pasteEvery period start _ => 1 ≤ period ∧ 0 ≤ start
  | .paste _ _ _ train _ => ∀ step ∈ train, 0 ≤ step.delay
  | _ => True

/-- A train ends before its first negative delay. -/
theorem Yields.trainSteps (alongX : Bool) (source : String) (fuel : Nat) :
    Yields (Read.trainSteps α alongX source fuel) fun steps => ∀ step ∈ steps, 0 ≤ step.delay := by
  induction fuel with
  | zero => exact .pure fun _ impossible => nomatch impossible
  | succ fuel inductionHypothesis =>
      have stops : Yields (Pure.pure [] : Reading (List TrainStep)) fun steps =>
          ∀ step ∈ steps, 0 ≤ step.delay := .pure fun _ impossible => nomatch impossible
      refine .bind fun scan => .branch (.bind fun distance => .bind fun delay => ?_) stops
      refine .branchOn (fun _ => .bind fun _ => stops) fun forward => ?_
      refine .andThen inductionHypothesis fun others waits => .pure ?_
      refine List.forall_mem_cons.mpr ⟨?_, waits⟩
      cases alongX with
      | true => exact Int.not_lt.mp forward
      | false => exact Int.not_lt.mp forward

theorem Yields.train (word : String) :
    Yields (Read.train α word) fun steps => ∀ step ∈ steps, 0 ≤ step.delay := by
  have none : Yields (Pure.pure [] : Reading (List TrainStep)) fun steps =>
      ∀ step ∈ steps, 0 ≤ step.delay := .pure fun _ impossible => nomatch impossible
  refine .bind fun direction => .branch (.bind fun _ => .bind fun scan => .branch ?_ ?_) none
  · exact .bind fun fuel => .trainSteps _ _ fuel
  · exact .bind fun _ => none

/-- The reading comes to a statement that is scheduled, or to none. -/
abbrev ReadsScheduled (reading : Reading (Option (Statement α))) : Prop :=
  Offers Statement.Scheduled reading

namespace ReadsScheduled

theorem placed (word text : String) (found : Option Pattern.Cells) (base : Int × Int) :
    ReadsScheduled (Read.placed word text found base : Reading (Option (Statement α))) := by
  refine .bind fun (x, y) => .bind fun placing => ?_
  cases found with
  | none => exact .refuse _ _
  | some cells => exact .andThen (.train word) fun steps forward => .some forward

theorem paste (draft : Draft α) (word : String) : ReadsScheduled (Read.paste draft word) := by
  refine .bind fun opening => .branch (.refuse _ _) (.bind fun _ => ?_)
  split
  · exact placed word opening _ _
  · exact .bind fun text => .bind fun found => placed word text found _

theorem pasteEvery (source : String) :
    ReadsScheduled (Read.pasteEvery source : Reading (Option (Statement α))) := by
  refine .andThen (.whole source _) fun every bounded => ?_
  cases every with
  | none => exact .none
  | some every =>
      have positive : 1 ≤ every := bounded_atLeast (bounded every rfl)
      refine .bind fun numeric => .branch ?_ (.some ⟨positive, Int.le_refl 0⟩)
      refine .andThen (.whole _ _) fun start bounded => ?_
      cases start with
      | none => exact .none
      | some start =>
          have begins : 0 ≤ start := bounded_atLeast (bounded start rfl)
          refine .bind fun numeric => .branch ?_ (.some ⟨positive, begins⟩)
          exact .bind fun stop => .map fun _ _ => ⟨positive, begins⟩

theorem pasteTime (draft : Draft α) (word : String) :
    ReadsScheduled (Read.pasteTime draft word) := by
  refine .bind fun numeric => .branch ?_ (.bind fun repeats => .branch ?_ (.refuseArgument _ _))
  · refine .andThen (.whole word _) fun first bounded => ?_
    cases first with
    | none => exact .none
    | some first =>
        exact .bind fun gaps => .map fun _ _ => bounded_atLeast (bounded first rfl)
  · exact pasteEvery _

/-- **Every command is read as a statement that is scheduled, or as none.** -/
theorem every (draft : Draft α) (refreshRate : Int) (word : String) (command : Command) :
    ReadsScheduled (command.read draft refreshRate word) := by
  cases command with
  | paste => exact paste draft word
  | pasteTime => exact pasteTime draft word
  | _ =>
      -- no statement of the other commands is about the generations of pastes
      intro scan result after done statement given
      cases Reads.every draft refreshRate word _ scan result after done statement given
      all_goals exact trivial

end ReadsScheduled

end Readings

/-! ### Statements that are not about pastes -/

/-- Whether a statement makes pastes, or says how the next ones are made. -/
def Statement.isAboutPastes : Statement α → Bool
  | .paste .. | .pasteAt .. | .pasteEvery .. => true
  | .pasteDrift .. | .pasteMode .. | .pasteEvolve .. => true
  | _ => false

/-- Whether a statement names a pattern or a list of gaps. -/
def Statement.isDefinition : Statement α → Bool
  | .defineSnippet .. | .defineRecipe .. => true
  | _ => false

/-- Drafts with the same pastes, whose next paste is made alike, from the same named patterns and
lists. -/
structure Draft.SameStock (draft other : Draft α) : Prop where
  pastes : other.pastes = draft.pastes
  pasting : other.pasting = draft.pasting
  snippets : other.snippets = draft.snippets
  recipes : other.recipes = draft.recipes

namespace Draft.SameStock

theorem setStyle (draft : Draft α) (family : StyleFamily) (style : Callout.Style α) :
    draft.SameStock (draft.setStyle family style) := by
  cases family with
  | label => exact ⟨rfl, rfl, rfl, rfl⟩
  | arrow => exact ⟨rfl, rfl, rfl, rfl⟩
  | polygon => exact ⟨rfl, rfl, rfl, rfl⟩

theorem beside {draft other : Draft α} (same : draft.SameBeside other) : draft.SameStock other := by
  rw [same]
  exact ⟨rfl, rfl, rfl, rfl⟩

variable [Scalar α] {draft : Draft α}

/-- A statement of another kind leaves the stock as it is. -/
theorem perform {statement : Statement α} (other : statement.isAboutPastes = false)
    (undefining : statement.isDefinition = false)
    {outcome : Outcome α} (done : draft.perform statement = .ok outcome) :
    draft.SameStock outcome.draft := by
  cases about : statement.isAboutWaypoints with
  | true => exact beside (perform_sameBeside about done)
  | false =>
      cases statement with
      | setStyle family style => exact Except.ok.inj done ▸ setStyle draft family style
      | paste _ _ _ _ _ | pasteAt _ _ | pasteEvery _ _ _ => cases other
      | pasteDrift _ _ | pasteMode _ | pasteEvolve _ => cases other
      | defineSnippet _ _ | defineRecipe _ _ _ => cases undefining
      | _ =>
          first
          | exact Except.ok.inj done ▸ ⟨rfl, rfl, rfl, rfl⟩
          | cases about

omit [Scalar α] in
theorem finishString (draft : Draft α) (info : PatternInfo) (text : String) :
    draft.SameStock (draft.finishString info text).1 := by
  unfold Draft.finishString
  dsimp only
  split
  · exact ⟨rfl, rfl, rfl, rfl⟩
  · split
    · exact ⟨rfl, rfl, rfl, rfl⟩
    · exact ⟨rfl, rfl, rfl, rfl⟩
  · exact ⟨rfl, rfl, rfl, rfl⟩

end Draft.SameStock

/-- Drafts with the same pastes, whose next paste is made alike. -/
def Draft.SamePastes (draft other : Draft α) : Prop :=
  other.pastes = draft.pastes ∧ other.pasting = draft.pasting

theorem Draft.SameStock.samePastes {draft other : Draft α} (same : draft.SameStock other) :
    draft.SamePastes other :=
  ⟨same.pastes, same.pasting⟩

theorem Draft.SamePastes.perform [Scalar α] {draft : Draft α} {statement : Statement α}
    (other : statement.isAboutPastes = false) {outcome : Outcome α}
    (done : draft.perform statement = .ok outcome) : draft.SamePastes outcome.draft := by
  cases definition : statement.isDefinition with
  | false => exact (SameStock.perform other definition done).samePastes
  | true =>
      cases statement with
      | defineSnippet _ _ | defineRecipe _ _ _ => exact Except.ok.inj done ▸ ⟨rfl, rfl⟩
      | _ => cases definition

/-! ### The next paste -/

/-- The next paste follows the rule in force. -/
structure PasteSettings.Follows (settings : PasteSettings) (rule : Option Rule) : Prop where
  begins : 0 ≤ settings.generation
  listed : rule = none → settings.every = 0
  repeats : ∀ given ∈ rule, 1 ≤ given.every ∧ settings.every = given.every
    ∧ settings.generation = given.start + given.delay ∧ settings.stop = given.stop

theorem nextTrigger_forward {settings : PasteSettings} {rule : Option Rule}
    (follows : settings.Follows rule) {trigger : Trigger}
    (made : Draft.nextTrigger settings = .ok trigger) :
    trigger.Forward ∧ (trigger.Roomy ↔ ∀ given ∈ rule, given.Roomy) := by
  unfold Draft.nextTrigger at made
  cases rule with
  | none =>
      rw [follows.listed rfl, if_neg (Int.lt_irrefl 0)] at made
      obtain ⟨forward, roomy⟩ := Trigger.at?_forward follows.begins made
      exact ⟨forward, iff_of_true roomy fun _ impossible => nomatch impossible⟩
  | some given =>
      obtain ⟨positive, every, start, stop⟩ := follows.repeats given rfl
      have begins := follows.begins
      rw [every, start, stop, if_pos (show 0 < given.every from positive)] at made
      rw [start] at begins
      cases made
      refine ⟨.rule positive begins, (Trigger.roomy_repeating_iff positive).trans ?_⟩
      exact ⟨fun ends _ same => Option.some.inj same ▸ ends, fun roomy => roomy given rfl⟩

theorem le_generationAfter (generation : Int) {train : List TrainStep}
    (forward : ∀ step ∈ train, 0 ≤ step.delay) :
    generation ≤ generationAfter generation train
      ∧ generationAfter generation train = generation + totalDelay train := by
  induction train generalizing generation with
  | nil => exact ⟨Int.le_refl _, (Int.add_zero _).symm⟩
  | cons step rest inductionHypothesis =>
      obtain ⟨waits, others⟩ := List.forall_mem_cons.mp forward
      obtain ⟨later, total⟩ := inductionHypothesis (generation + step.delay) others
      refine ⟨by rw [generationAfter, List.foldl_cons]; exact Int.le_trans (by omega) later, ?_⟩
      rw [generationAfter, List.foldl_cons]
      refine total.trans ?_
      rw [totalDelay, totalDelay, List.map_cons, List.sum_cons, Int.add_assoc]

theorem trainEntries_forward (settings : PasteSettings) (cells : Pattern.Cells) (source : String)
    (x y : Int) {generation : Int} (begins : 0 ≤ generation) {train : List TrainStep}
    (forward : ∀ step ∈ train, 0 ≤ step.delay) :
    ∀ entry ∈ (Draft.trainEntries settings cells source x y generation train).1,
      entry.trigger.Forward ∧ entry.trigger.Roomy := by
  induction train generalizing x y generation with
  | nil => exact fun _ impossible => nomatch impossible
  | cons step rest inductionHypothesis =>
      obtain ⟨waits, others⟩ := List.forall_mem_cons.mp forward
      have later : 0 ≤ generation + step.delay := Int.add_nonneg begins waits
      exact List.forall_mem_cons.mpr
        ⟨Trigger.once_forward later, inductionHypothesis _ _ later others⟩

/-! ### Drafts -/

/-- The pastes of a draft behind some statements, and what the next one follows. -/
structure Draft.Scheduled (carried : List (Statement α)) (draft : Draft α) : Prop where
  follows : draft.pasting.Follows (ruleBehind carried)
  forward : ∀ entry ∈ draft.pastes, entry.trigger.Forward
  roomy : (∀ entry ∈ draft.pastes, entry.trigger.Roomy) ↔ PastesRoomy carried

namespace Draft.Scheduled

variable {carried : List (Statement α)} {draft other : Draft α}

/-- A statement that pastes nothing keeps the pastes there are. -/
theorem concat (scheduled : draft.Scheduled carried) {statement : Statement α}
    (unpasted : statement.isPaste = false) (pastes : other.pastes = draft.pastes)
    (follows : other.pasting.Follows (Rule.behind (ruleBehind carried) statement)) :
    other.Scheduled (carried ++ [statement]) where
  follows := ruleBehind_concat carried statement ▸ follows
  forward := pastes ▸ scheduled.forward
  roomy := by
    rw [pastes, pastesRoomy_concat_iff, scheduled.roomy, unpasted]
    exact (and_iff_left fun impossible => nomatch impossible).symm

/-- A paste by a rule is roomy if the rule still is, and its copies always are. -/
theorem addPaste (scheduled : draft.Scheduled carried) {cells : Pattern.Cells} {x y : Int}
    {train : List TrainStep} {source : String} (forward : ∀ step ∈ train, 0 ≤ step.delay)
    (done : draft.addPaste cells x y train source = .ok other) :
    other.Scheduled (carried ++ [.paste cells x y train source]) := by
  obtain ⟨entry, made, done⟩ := bind_eq_ok done
  cases done
  obtain ⟨trigger, triggered, made⟩ := bind_eq_ok made
  cases made
  have follows := scheduled.follows
  obtain ⟨goesOn, roomy⟩ := nextTrigger_forward follows triggered
  have copies := trainEntries_forward draft.pasting cells source x y follows.begins forward
  obtain ⟨-, final⟩ := trainEntries_spec draft.pasting cells source x y draft.pasting.generation train
  obtain ⟨later, total⟩ := le_generationAfter draft.pasting.generation forward
  refine ⟨?follows, ?forward, ?roomy⟩
  case follows =>
    rw [ruleBehind_concat]
    dsimp only
    rw [final]
    refine ⟨Int.le_trans follows.begins later, fun none => ?_, fun moved given => ?_⟩
    · exact follows.listed (Option.map_eq_none_iff.mp none)
    · obtain ⟨rule, inForce, rfl⟩ := Option.map_eq_some_iff.mp given
      obtain ⟨positive, every, start, stop⟩ := follows.repeats rule inForce
      refine ⟨positive, every, ?_, stop⟩
      rw [total, start, Int.add_assoc]
  case forward =>
    intro entry member
    rcases Array.mem_append.mp member with pasted | copy
    · rcases Array.mem_push.mp pasted with earlier | rfl
      · exact scheduled.forward entry earlier
      · exact goesOn
    · exact (copies entry (List.mem_toArray.mp copy)).1
  case roomy =>
    rw [pastesRoomy_concat_iff, ← scheduled.roomy]
    constructor
    · intro all
      have newest := all _ (Array.mem_append.mpr (.inl Array.mem_push_self))
      refine ⟨fun entry member => all entry ?_, fun _ => roomy.mp newest⟩
      exact Array.mem_append.mpr (.inl (Array.mem_push_of_mem _ member))
    · rintro ⟨earlierRoomy, ruleRoomy⟩ entry member
      rcases Array.mem_append.mp member with pasted | copy
      · rcases Array.mem_push.mp pasted with earlier | rfl
        · exact earlierRoomy entry earlier
        · exact roomy.mpr (ruleRoomy rfl)
      · exact (copies entry (List.mem_toArray.mp copy)).2

/-- **A statement keeps a draft to its schedule**: its pastes go forward, and are roomy if the rules
in force were. -/
theorem perform [Scalar α] (scheduled : draft.Scheduled carried) {statement : Statement α}
    (fine : statement.Scheduled) {outcome : Outcome α}
    (done : draft.perform statement = .ok outcome) :
    outcome.draft.Scheduled (carried ++ [statement]) := by
  have follows := scheduled.follows
  cases about : statement.isAboutPastes with
  | false =>
      obtain ⟨pastes, pasting⟩ := SamePastes.perform about done
      cases statement with
      | paste _ _ _ _ _ | pasteAt _ _ | pasteEvery _ _ _ => cases about
      | _ => exact scheduled.concat rfl pastes (pasting ▸ follows)
  | true =>
      cases statement with
      | paste cells x y train source =>
          obtain ⟨pasted, pasting, rfl⟩ := map_eq_ok done
          exact scheduled.addPaste fine pasting
      | pasteAt generation gaps =>
          cases done
          exact scheduled.concat rfl rfl ⟨fine, fun _ => rfl, fun _ impossible => nomatch impossible⟩
      | pasteEvery period start stop =>
          cases done
          refine scheduled.concat rfl rfl ⟨fine.2, (fun impossible => nomatch impossible), ?_⟩
          rintro _ ⟨⟩
          exact ⟨fine.1, rfl, (Int.add_zero start).symm, rfl⟩
      | pasteDrift _ _ | pasteMode _ | pasteEvolve _ =>
          cases done
          exact scheduled.concat rfl rfl ⟨follows.begins, follows.listed, follows.repeats⟩
      | _ => cases about

end Draft.Scheduled

/-! ### Sessions -/

section Sessions

variable [Scalar α]

namespace Session

variable {context : Context α} {session after : Session α}

/-- A statement that is read is scheduled. -/
theorem scheduled_of_read {statement : Statement α}
    (read : session.statement? context = some statement) : statement.Scheduled :=
  vouched_of_read (ReadsScheduled.every session.draft _ session.reader.peek) read

theorem step_scheduled {carried : List (Statement α)} (scheduled : session.draft.Scheduled carried)
    (done : session.step context = .ok after) :
    after.draft.Scheduled (carried ++ (session.statement? context).toList) := by
  have kept : session.draft.SamePastes after.draft → session.statement? context = none →
      after.draft.Scheduled (carried ++ (session.statement? context).toList) := by
    rintro ⟨pastes, pasting⟩ without
    rw [without, Option.toList_none, List.append_nil]
    exact ⟨pasting ▸ scheduled.follows, pastes ▸ scheduled.forward, pastes ▸ scheduled.roomy⟩
  cases step_takes done with
  | kept new draft reported without => exact kept (draft ▸ ⟨rfl, rfl⟩) without
  | joined text draft reported without =>
      refine kept ?_ (statement?_of_command?_eq_none without)
      have same := Draft.SameStock.finishString session.draft context.info text
      exact draft ▸ same.samePastes
  | performed new given read makes sound performed draft reported =>
      rw [draft, read, Option.toList_some]
      exact scheduled.perform (scheduled_of_read read) performed

end Session

/-- **Every document that can be read keeps to its schedule.** -/
theorem readAll_scheduled {context : Context α} {text : String} {session : Session α}
    (done : readAll context text = .ok session) :
    session.draft.Scheduled (readStatements context text) := by
  have start : (Session.start context text).draft.Scheduled ([] : List (Statement α)) := by
    refine ⟨⟨Int.le_refl 0, fun _ => rfl, fun _ impossible => nomatch impossible⟩, ?_, ?_⟩
    · intro entry impossible
      cases Array.mem_toList_iff.mpr impossible
    · refine iff_of_true (fun entry impossible => ?_) pastesRoomy_nil
      cases Array.mem_toList_iff.mpr impossible
  unfold readAll at done
  have kept := Session.run_keeps_statements
    (fun carried session => session.draft.Scheduled carried)
    (fun _ _ _ => Session.step_scheduled) start done
  rwa [List.nil_append] at kept

/-! ### Timelines -/

theorem Draft.finish_triggers {draft : Draft α} {reported : List Diagnostic} {commands : Nat}
    {settings : ViewerSettings α} {camera : Camera α} {interpretation : Interpretation α}
    (done : draft.finish reported commands settings camera = .ok interpretation) :
    interpretation.timeline.pastes.map Entry.trigger = draft.pastes.toList.map Entry.trigger := by
  rw [finish_pastes_evolved done, List.map_map]
  exact List.map_congr_left fun entry _ => entry.evolved_trigger

/-- **The triggers of a timeline go forward**: no generation is before zero, and every rule has a
period. All rules leave room for a period before their end exactly when every rule in force at a paste
does, counted from where the trains since it was given have moved its start. -/
theorem interpret_triggers (context : Context α) (text : String)
    (interpretation : Interpretation α) (done : interpret context text = .ok interpretation) :
    (∀ entry ∈ interpretation.timeline.pastes, entry.trigger.Forward)
      ∧ ((∀ entry ∈ interpretation.timeline.pastes, entry.trigger.Roomy)
        ↔ PastesRoomy (readStatements context text)) := by
  obtain ⟨session, read, done⟩ := bind_eq_ok done
  have scheduled := readAll_scheduled read
  have triggers := Draft.finish_triggers done
  have transfer : ∀ good : Trigger → Prop, (∀ entry ∈ interpretation.timeline.pastes,
      good entry.trigger) ↔ ∀ entry ∈ session.draft.pastes, good entry.trigger := by
    intro good
    rw [← List.forall_mem_map (f := Entry.trigger), triggers, List.forall_mem_map]
    simp only [Array.mem_toList_iff]
  exact ⟨(transfer Trigger.Forward).mpr scheduled.forward,
    (transfer Trigger.Roomy).trans scheduled.roomy⟩

/-- A list with gaps, a rule with a train behind it, and a paste by the rule that was moved. -/
theorem interpret_triggers_moved :
    let context : Context Float := ⟨.standard, .standard, .standard⟩
    let text := "[[ PASTET 3 2 2 PASTE o! PASTET EVERY 5 1 30 PASTE o! 0 0 XT 1 20 PASTE o! ]]"
    ∃ interpretation, interpret context text = .ok interpretation
      ∧ interpretation.timeline.pastes.length = 4
      ∧ (∀ entry ∈ interpretation.timeline.pastes, entry.trigger.Forward)
      ∧ ((∀ entry ∈ interpretation.timeline.pastes, entry.trigger.Roomy)
        ↔ PastesRoomy (readStatements context text)) := by
  intro context text
  have checked : (interpret context text).toOption.any (fun interpretation =>
      interpretation.timeline.pastes.length == 4) = true := by decide +kernel
  obtain ⟨interpretation, done, four⟩ := exists_interpretation checked
  exact ⟨interpretation, done, beq_iff_eq.mp four,
    interpret_triggers context text interpretation done⟩

/-- A rule that was to end a period after its start is moved beyond its end by a train. -/
theorem interpret_triggers_overtaken :
    let context : Context Float := ⟨.standard, .standard, .standard⟩
    let text := "[[ PASTET EVERY 5 0 10 PASTE o! 0 0 XT 1 20 PASTE o! 0 0 ]]"
    ∃ interpretation, interpret context text = .ok interpretation
      ∧ ∃ entry ∈ interpretation.timeline.pastes,
        entry.trigger = .repeating 5 20 10 ∧ ¬entry.trigger.Roomy := by
  intro context text
  have checked : (interpret context text).toOption.any (fun interpretation =>
      interpretation.timeline.pastes.any fun entry =>
        decide (entry.trigger = .repeating 5 20 10)) = true := by decide +kernel
  obtain ⟨interpretation, done, found⟩ := exists_interpretation checked
  obtain ⟨entry, member, same⟩ := List.any_eq_true.mp found
  have trigger : entry.trigger = .repeating 5 20 10 := of_decide_eq_true same
  refine ⟨interpretation, done, entry, member, trigger, fun roomy => ?_⟩
  rw [trigger, Trigger.roomy_repeating_iff (by decide)] at roomy
  exact absurd (roomy (by decide)) (by decide)

end Sessions

end Script

end Showreel
