import Showreel.Proofs.Script.Meaning
import Showreel.Proofs.Script.Refusal

/-!
Contract: a paste whose train is rejected is made all the same.

Owns:
- the pairs at the start of a train, and the two reasons to reject it;
- what the reading of a paste reports before its train, and about it;
- the pastes and the generation after a paste: they are as before exactly when something else than
  the train is reported.

Does not own: which cells are pasted, and where.
-/

namespace Showreel

/-- Whether the problem is one with the train of a paste. -/
def Problem.rejectsTrain : Problem → Bool
  | .missingPair | .outOfRange _ => true
  | _ => false

namespace Script

open Number Scalar Paste Pattern Reading

/-! ### Trains -/

variable (α : Type) [Scalar α]

/-- A token that is a number with a given whole part. -/
def StandsFor (token : String) (whole : Int) : Prop :=
  ∃ number : α, readToken? token = some number ∧ wholePart number = .ok whole

/-- The step that a pair of numbers asks for. -/
def trainStep (alongX : Bool) (distance delay : Int) : TrainStep :=
  if alongX then ⟨distance, 0, delay⟩ else ⟨0, distance, delay⟩

/-- After the pairs of some steps, none with a negative delay, the tokens have a pair with one. -/
inductive StepsBack (alongX : Bool) : List String → List TrainStep → Int → Int → Prop
  | now {first second : String} {tokens : List String} {distance delay : Int}
      (moves : StandsFor α first distance) (waits : StandsFor α second delay)
      (negative : delay < 0) : StepsBack alongX (first :: second :: tokens) [] distance delay
  | later {first second : String} {tokens : List String} {steps : List TrainStep}
      {distance delay badDistance badDelay : Int} (moves : StandsFor α first distance)
      (waits : StandsFor α second delay) (forward : 0 ≤ delay)
      (others : StepsBack alongX tokens steps badDistance badDelay) :
      StepsBack alongX (first :: second :: tokens) (trainStep alongX distance delay :: steps)
        badDistance badDelay

/-- Why a train is rejected, and the steps before that: there is no pair at all, or some pair has a
negative delay. -/
inductive RejectedTrain (source : String) (alongX : Bool) (tokens : List String) :
    List TrainStep → Diagnostic → Prop
  | noPair (unread : (isNumeric α (tokens.headD "") && isNumeric α (tokens.getD 1 "")) = false) :
      RejectedTrain source alongX tokens [] ⟨source, .missingPair⟩
  | stepsBack {steps : List TrainStep} {distance delay : Int}
      (back : StepsBack α alongX tokens steps distance delay) :
      RejectedTrain source alongX tokens steps
        ⟨source ++ " " ++ toString distance ++ " " ++ toString delay, .outOfRange .argument⟩

variable {α}

theorem RejectedTrain.rejectsTrain {source : String} {alongX : Bool} {tokens : List String}
    {steps : List TrainStep} {rejection : Diagnostic}
    (rejected : RejectedTrain α source alongX tokens steps rejection) :
    rejection.problem.rejectsTrain = true := by
  cases rejected with
  | noPair unread => rfl
  | stepsBack back => rfl

/-! ### Reading a train -/

theorem Ensures.takeWhole (scan : Scan) :
    Ensures (Reading.takeWhole α) scan fun whole after =>
      StandsFor α scan.reader.peek whole ∧ after = { scan with reader := scan.reader.advance } := by
  refine .bind ((Ensures.takeNumber scan).mono ?_)
  rintro number _ ⟨read, rfl⟩
  exact .lift fun whole cut => ⟨⟨number, read, cut⟩, rfl⟩

/-- Two numbers are two tokens. -/
theorem two_tokens (tokens : List String)
    (numeric : (isNumeric α (tokens.headD "") && isNumeric α (tokens.getD 1 "")) = true) :
    ∃ first second rest, tokens = first :: second :: rest := by
  rw [Bool.and_eq_true] at numeric
  obtain ⟨numericFirst, numericSecond⟩ := numeric
  cases tokens with
  | nil =>
      rw [List.headD_nil, isNumeric_empty] at numericFirst
      cases numericFirst
  | cons first others =>
      cases others with
      | nil =>
          rw [List.getD_cons_succ, List.getD_nil, isNumeric_empty] at numericSecond
          cases numericSecond
      | cons second rest => exact ⟨first, second, rest, rfl⟩

theorem Ensures.trainSteps (alongX : Bool) (source : String) (fuel : Nat) (scan : Scan) :
    Ensures (Read.trainSteps α alongX source fuel) scan fun steps after =>
      after.reported = scan.reported
        ∨ ∃ distance delay, StepsBack α alongX scan.reader.ahead steps distance delay
          ∧ after.reported = scan.reported
            ++ [⟨source ++ " " ++ toString distance ++ " " ++ toString delay,
              .outOfRange .argument⟩] := by
  induction fuel generalizing scan with
  | zero => exact .pure (.inl rfl)
  | succ fuel inductionHypothesis =>
      refine .bind (.get (.branch (fun numeric => ?_) fun _ => .pure (.inl rfl)))
      obtain ⟨⟨behind, ahead⟩, reported⟩ := scan
      obtain ⟨first, second, rest, rfl⟩ := two_tokens ahead numeric
      refine .bind ((Ensures.takeWhole _).mono ?_)
      rintro distance _ ⟨moves, rfl⟩
      refine .bind ((Ensures.takeWhole _).mono ?_)
      rintro delay _ ⟨waits, rfl⟩
      refine .branch (fun negative => ?_) fun forward => ?_
      · have back : StepsBack α alongX (first :: second :: rest) [] distance delay :=
          .now moves waits negative
        exact .bind (.modify (.pure (.inr ⟨distance, delay, back, rfl⟩)))
      · refine .bind ((inductionHypothesis _).mono ?_)
        rintro steps after (quiet | ⟨badDistance, badDelay, back, rejected⟩)
        · exact .pure (.inl quiet)
        · exact .pure (.inr ⟨badDistance, badDelay,
            .later moves waits (Int.not_lt.mp forward) back, rejected⟩)

theorem Ensures.train (word : String) (scan : Scan) :
    Ensures (Read.train α word) scan fun steps after =>
      after.reported = scan.reported
        ∨ ∃ direction tokens rejection, scan.reader.ahead = direction :: tokens
          ∧ RejectedTrain α (word ++ " " ++ direction) (direction == "XT") tokens steps rejection
          ∧ after.reported = scan.reported ++ [rejection] := by
  refine .peek (.branch (fun known => ?_) fun _ => .pure (.inl rfl))
  obtain ⟨⟨behind, ahead⟩, reported⟩ := scan
  match ahead, known with
  | direction :: tokens, _ =>
      refine .bind (.modify (.bind (.get (.branch (fun _ => ?_) fun unpaired => ?_))))
      · refine .bind (.bind (.get (.pure ?_)))
        refine (Ensures.trainSteps (α := α) _ _ _ _).mono ?_
        rintro steps after (quiet | ⟨distance, delay, back, rejected⟩)
        · exact .inl quiet
        · exact .inr ⟨direction, tokens, _, rfl, .stepsBack back, rejected⟩
      · refine .bind (.modify (.pure (.inr ⟨direction, tokens, _, rfl, .noPair ?_, rfl⟩)))
        exact Bool.not_eq_true _ ▸ unpaired

/-! ### Reading a paste -/

/-- A reading that reports nothing and reads on. -/
def Tacit {β : Type} (reading : Reading β) : Prop :=
  ∀ scan, Ensures reading scan fun _ after =>
    after.reported = scan.reported ∧ after.reader.ahead <:+ scan.reader.ahead

namespace Tacit

variable {β γ : Type}

theorem pure (value : β) : Tacit (pure value : Reading β) :=
  fun _ => .pure ⟨rfl, List.suffix_refl _⟩

theorem bind {first : Reading β} {next : β → Reading γ} (start : Tacit first)
    (goOn : ∀ value, Tacit (next value)) : Tacit (first >>= next) := by
  refine fun scan => .bind ((start scan).mono ?_)
  rintro value middle ⟨quiet, within⟩
  refine (goOn value middle).mono ?_
  rintro result after ⟨stillQuiet, further⟩
  exact ⟨stillQuiet.trans quiet, further.trans within⟩

theorem branch {condition : Prop} [Decidable condition] {reading other : Reading β}
    (holds : Tacit reading) (fails : Tacit other) :
    Tacit (if condition then reading else other) :=
  fun scan => .branch (fun _ => holds scan) fun _ => fails scan

theorem lift (computation : Except Fault β) : Tacit (liftM computation : Reading β) :=
  fun _ => .lift fun _ _ => ⟨rfl, List.suffix_refl _⟩

theorem peek : Tacit Reading.peek :=
  fun _ => .bind (.get (.pure ⟨rfl, List.suffix_refl _⟩))

theorem advance : Tacit Reading.advance :=
  fun scan => .modify ⟨rfl, by simpa using List.tail_suffix scan.reader.ahead⟩

theorem optionalWhole : Tacit (Reading.optionalWhole α) :=
  .bind (.bind peek fun _ => .pure _) fun _ =>
    .branch (.bind (.bind peek fun _ => .bind (.lift _) fun _ => .bind advance fun _ => .pure _)
      fun _ => .lift _) (.pure 0)

theorem position : Tacit (Reading.position α) :=
  .bind optionalWhole fun _ => .bind optionalWhole fun _ => .pure _

theorem symmetry : Tacit Reading.symmetry := by
  refine .bind peek fun token => ?_
  cases Symmetry.ofWord? token with
  | none => exact .pure _
  | some found => exact .bind advance fun _ => .pure _

theorem joinFragments_suffix (text : String) (behind ahead : List String) :
    (joinFragments α text behind ahead).2.ahead <:+ ahead := by
  induction ahead generalizing text behind with
  | nil => exact List.suffix_refl _
  | cons token rest inductionHypothesis =>
      unfold joinFragments
      split
      · exact (inductionHypothesis _ _).trans (List.suffix_cons token rest)
      · exact List.suffix_refl _

theorem runText (opening : String) : Tacit (Reading.runText α opening) := by
  rintro scan _ _ ⟨⟩
  exact ⟨rfl, joinFragments_suffix opening scan.reader.behind scan.reader.ahead⟩

end Tacit

variable (α) in
/-- What a paste is read as, and what is reported: a problem before its train, nothing, or a problem
with its train, which leaves the steps before it. -/
inductive PasteRead (word : String) (tokens : List String) :
    Option (Statement α) → List Diagnostic → Prop
  | refused {source : String} {problem : Problem} (other : problem.rejectsTrain = false) :
      PasteRead word tokens none [⟨source, problem⟩]
  | given (cells : Cells) (x y : Int) (steps : List TrainStep) (source : String) :
      PasteRead word tokens (some (.paste cells x y steps source)) []
  | rejected {cells : Cells} {x y : Int} {steps : List TrainStep} {source direction : String}
      {train : List String} {rejection : Diagnostic} (within : direction :: train <:+ tokens)
      (rejects : RejectedTrain α (word ++ " " ++ direction) (direction == "XT") train steps
        rejection) :
      PasteRead word tokens (some (.paste cells x y steps source)) [rejection]

theorem PasteRead.of_suffix {word : String} {tokens longer : List String}
    {result : Option (Statement α)} {new : List Diagnostic} (within : tokens <:+ longer)
    (read : PasteRead α word tokens result new) : PasteRead α word longer result new := by
  cases read with
  | refused other => exact .refused other
  | given cells x y steps source => exact .given cells x y steps source
  | rejected inside rejects => exact .rejected (inside.trans within) rejects

/-- A reading that comes to a paste, from a scan on. -/
def ReadsPaste (word : String) (reading : Reading (Option (Statement α))) : Prop :=
  ∀ scan, Ensures reading scan fun result after =>
    ∃ new, after.reported = scan.reported ++ new ∧ PasteRead α word scan.reader.ahead result new

namespace ReadsPaste

variable {β : Type} {word : String}

theorem bind {first : Reading β} {next : β → Reading (Option (Statement α))} (start : Tacit first)
    (goOn : ∀ value, ReadsPaste word (next value)) : ReadsPaste word (first >>= next) := by
  refine fun scan => .bind ((start scan).mono ?_)
  rintro value middle ⟨quiet, within⟩
  refine (goOn value middle).mono ?_
  rintro result after ⟨new, reported, read⟩
  exact ⟨new, quiet ▸ reported, read.of_suffix within⟩

theorem refuse {source : String} {problem : Problem} (other : problem.rejectsTrain = false) :
    ReadsPaste word (Reading.refuse source problem : Reading (Option (Statement α))) :=
  fun _ => .bind (.modify (.pure ⟨_, rfl, .refused other⟩))

theorem branch {condition : Prop} [Decidable condition] {reading other : Reading (Option (Statement α))}
    (holds : ReadsPaste word reading) (fails : ReadsPaste word other) :
    ReadsPaste word (if condition then reading else other) :=
  fun scan => .branch (fun _ => holds scan) fun _ => fails scan

theorem placed (found : Option Cells) (text : String) (base : Int × Int) :
    ReadsPaste word (Read.placed word text found base : Reading (Option (Statement α))) := by
  refine .bind .position fun (x, y) => .bind .symmetry fun placing => ?_
  cases found with
  | none => exact refuse rfl
  | some cells =>
      refine fun scan => .bind ((Ensures.train word scan).mono ?_)
      rintro steps after (quiet | ⟨direction, tokens, rejection, ahead, rejects, rejected⟩)
      · exact .pure ⟨[], by rw [quiet, List.append_nil], .given _ _ _ _ _⟩
      · exact .pure ⟨[rejection], rejected, .rejected (ahead ▸ List.suffix_refl _) rejects⟩

theorem paste (draft : Draft α) (word : String) : ReadsPaste word (Read.paste draft word) := by
  refine .bind .peek fun opening => .branch (refuse rfl) (.bind .advance fun _ => ?_)
  split
  · exact placed _ opening _
  · exact .bind (.runText opening) fun text => .bind (.lift _) fun found => placed found text (0, 0)

end ReadsPaste

/-! ### Making a paste -/

/-- The generation after the delays of a train. -/
def generationAfter (generation : Int) (steps : List TrainStep) : Int :=
  steps.foldl (fun later step => later + step.delay) generation

/-- One copy is made for each step of a train, and the generation moves on by all delays. -/
theorem trainEntries_spec (settings : PasteSettings) (cells : Cells) (source : String)
    (x y generation : Int) (steps : List TrainStep) :
    (Draft.trainEntries settings cells source x y generation steps).1.length = steps.length
      ∧ (Draft.trainEntries settings cells source x y generation steps).2
        = generationAfter generation steps := by
  induction steps generalizing x y generation with
  | nil => exact ⟨rfl, rfl⟩
  | cons step rest inductionHypothesis =>
      obtain ⟨copies, final⟩ :=
        inductionHypothesis (x + step.distanceX) (y + step.distanceY) (generation + step.delay)
      exact ⟨congrArg Nat.succ copies, final⟩

/-- The draft after a paste with some further copies. -/
def PastedWith (draft after : Draft α) (steps : List TrainStep) : Prop :=
  ∃ (entry : Entry) (copies : List Entry), copies.length = steps.length ∧ after = { draft with
    pastes := draft.pastes.push entry ++ copies.toArray
    pasting := { draft.pasting with
      generation := generationAfter draft.pasting.generation steps } }

theorem PastedWith.of_perform {draft : Draft α} {cells : Cells} {x y : Int}
    {steps : List TrainStep} {source : String} {outcome : Outcome α}
    (done : draft.perform (.paste cells x y steps source) = .ok outcome) :
    PastedWith draft outcome.draft steps ∧ outcome.reported = [] := by
  obtain ⟨pasted, pasting, rfl⟩ := map_eq_ok done
  obtain ⟨entry, -, pasting⟩ := bind_eq_ok pasting
  cases pasting
  obtain ⟨copies, final⟩ :=
    trainEntries_spec draft.pasting cells source x y draft.pasting.generation steps
  refine ⟨⟨entry, _, copies, ?_⟩, rfl⟩
  rw [← final]

omit [Scalar α] in
theorem PastedWith.pastes_ne {draft after : Draft α} {steps : List TrainStep}
    (pasted : PastedWith draft after steps) : after.pastes ≠ draft.pastes := by
  obtain ⟨entry, copies, -, rfl⟩ := pasted
  intro same
  have sizes := congrArg Array.size same
  rw [Array.size_append, Array.size_push] at sizes
  omega

/-- What becomes of a draft by a paste, and what is reported. -/
inductive PasteGoes (word : String) (tokens : List String) (draft : Draft α) :
    Draft α → List Diagnostic → Prop
  | refused {source : String} {problem : Problem} (other : problem.rejectsTrain = false) :
      PasteGoes word tokens draft draft [⟨source, problem⟩]
  | made {after : Draft α} {steps : List TrainStep} (pasted : PastedWith draft after steps) :
      PasteGoes word tokens draft after []
  | rejected {after : Draft α} {steps : List TrainStep} {direction : String} {train : List String}
      {rejection : Diagnostic} (within : direction :: train <:+ tokens)
      (rejects : RejectedTrain α (word ++ " " ++ direction) (direction == "XT") train steps
        rejection)
      (pasted : PastedWith draft after steps) : PasteGoes word tokens draft after [rejection]

theorem Session.dispatch_paste_goes {context : Context α} {session after : Session α}
    {word : String} (known : Command.ofWord? word = some .paste)
    (done : session.dispatch context word = .ok after) :
    ∃ new, after.reported = session.reported ++ new.toArray
      ∧ PasteGoes word session.reader.ahead session.draft after.draft new := by
  rw [Session.dispatch_eq context session known] at done
  obtain ⟨⟨statement, scan⟩, reading, done⟩ := bind_eq_ok done
  obtain ⟨new, reported, read⟩ := ReadsPaste.paste session.draft word _ _ _ reading
  rw [List.nil_append] at reported
  refine ⟨new, ?_⟩
  cases read with
  | refused other =>
      cases done
      exact ⟨by simp [Session.afterReading, reported], .refused other⟩
  | given cells x y steps source =>
      obtain ⟨outcome, performed, rfl⟩ := map_eq_ok done
      obtain ⟨pasted, quiet⟩ := PastedWith.of_perform performed
      exact ⟨by simp [Session.afterReading, reported, quiet], .made pasted⟩
  | rejected within rejects =>
      obtain ⟨outcome, performed, rfl⟩ := map_eq_ok done
      obtain ⟨pasted, quiet⟩ := PastedWith.of_perform performed
      exact ⟨by simp [Session.afterReading, reported, quiet], .rejected within rejects pasted⟩

/-- **When a paste leaves the pastes and the generation as they are:** exactly when something is
reported that is not about its train. A paste whose train is rejected is made, with the copies for
the steps before the bad pair. -/
theorem Session.dispatch_paste_unchanged_iff (context : Context α) (session after : Session α)
    (word : String) (known : Command.ofWord? word = some .paste)
    (done : session.dispatch context word = .ok after) :
    ∃ new : List Diagnostic, after.reported = session.reported ++ new.toArray
      ∧ ((after.draft.pastes = session.draft.pastes
            ∧ after.draft.pasting.generation = session.draft.pasting.generation)
          ↔ ∃ diagnostic ∈ new, diagnostic.problem.rejectsTrain = false)
      ∧ ∀ rejection ∈ new, rejection.problem.rejectsTrain = true →
          ∃ direction train steps, direction :: train <:+ session.reader.ahead
            ∧ RejectedTrain α (word ++ " " ++ direction) (direction == "XT") train steps rejection
            ∧ PastedWith session.draft after.draft steps := by
  obtain ⟨new, reported, goes⟩ := dispatch_paste_goes known done
  refine ⟨new, reported, ?_⟩
  generalize after.draft = draft at goes ⊢
  cases goes with
  | refused other =>
      refine ⟨⟨fun _ => ⟨_, List.mem_singleton_self _, other⟩, fun _ => ⟨rfl, rfl⟩⟩, ?_⟩
      intro rejection member rejects
      rw [List.mem_singleton.mp member, other] at rejects
      cases rejects
  | made pasted =>
      refine ⟨⟨fun unchanged => absurd unchanged.1 pasted.pastes_ne, ?_⟩, ?_⟩
      · rintro ⟨_, impossible, _⟩
        cases impossible
      · intro _ impossible
        cases impossible
  | rejected within rejects pasted =>
      refine ⟨⟨fun unchanged => absurd unchanged.1 pasted.pastes_ne, ?_⟩, ?_⟩
      · rintro ⟨diagnostic, member, other⟩
        rw [List.mem_singleton.mp member, rejects.rejectsTrain] at other
        cases other
      · intro rejection member _
        obtain rfl := List.mem_singleton.mp member
        exact ⟨_, _, _, within, rejects, pasted⟩

/-- A train that comes to a negative delay after one step. -/
theorem Session.dispatch_paste_unchanged_iff_stepsBack :
    let context : Context Float := ⟨.standard, .standard, .standard⟩
    let opened := Session.start context "[[ PASTE o! 0 0 XT 5 3 5 -3 ]]"
    let session := { opened with reader := opened.reader.advance }
    ∃ after, session.dispatch context "PASTE" = .ok after
      ∧ ∃ rejection ∈ after.reported.toList, ∃ direction train steps,
        direction :: train <:+ session.reader.ahead
          ∧ RejectedTrain Float ("PASTE" ++ " " ++ direction) (direction == "XT") train steps rejection
          ∧ PastedWith session.draft after.draft steps := by
  intro context opened session
  have checked : (session.dispatch context "PASTE").toOption.any (fun after =>
      after.reported.toList.any fun diagnostic => diagnostic.problem.rejectsTrain) = true := by
    decide +kernel
  cases done : session.dispatch context "PASTE" with
  | error fault =>
      rw [done] at checked
      cases checked
  | ok after =>
      rw [done] at checked
      obtain ⟨new, reported, -, pasted⟩ := Session.dispatch_paste_unchanged_iff context session after
        "PASTE" (by decide) done
      have fresh : after.reported = new.toArray := reported.trans Array.empty_append
      simp only [Except.toOption, Option.any_some, fresh, List.any_eq_true] at checked
      obtain ⟨rejection, member, rejects⟩ := checked
      exact ⟨after, rfl, rejection, by rw [fresh]; exact member, pasted rejection member rejects⟩

/-- The train of this paste is rejected, and two copies are pasted all the same. -/
theorem Session.dispatch_paste_rejected :
    let context : Context Float := ⟨.standard, .standard, .standard⟩
    let opened := Session.start context "[[ PASTE o! 0 0 XT 5 3 5 -3 ]]"
    let session := { opened with reader := opened.reader.advance }
    Command.ofWord? "PASTE" = some .paste ∧ session.draft.pastes.size = 0
      ∧ session.draft.pasting.generation = 0
      ∧ (session.dispatch context "PASTE").toOption.map (fun after =>
          (after.reported.toList, after.draft.pastes.size, after.draft.pasting.generation))
        = some ([⟨"PASTE XT 5 -3", .outOfRange .argument⟩], 2, 3) := by
  decide +kernel

end Script

end Showreel
