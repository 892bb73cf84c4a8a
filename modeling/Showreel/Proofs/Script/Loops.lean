import Showreel.Proofs.Script.Complaints
import Showreel.Proofs.Script.PasteArguments

/-!
Contract: arguments of any length are read in loops that end.

Owns:
- readers that are further on than others, and that every reading leaves its reader further on;
- loops without a bound on their rounds, and the functions with fuel that come to the same;
- the rounds of run-length text, of gaps, of corners and of the pairs of a train: each of them
  passes a token or is the last one.

Does not own: the main loop over the tokens.
-/

namespace Showreel.Script

open Number Scalar Pattern Callout Reading

/-! ### Reading on -/

namespace Reader

/-- The same tokens are read from a place that is not before the earlier one, and not behind the
last token. -/
structure ReadsOn (before after : Reader) : Prop where
  same : after.allTokens = before.allTokens
  onward : before.position ≤ after.position
  within : after.position ≤ before.length

/-- The same tokens are read from a place that is further on by one token at least. -/
structure Consumes (before after : Reader) : Prop where
  same : after.allTokens = before.allTokens
  onward : before.position < after.position

variable {before middle after : Reader}

theorem length_allTokens (reader : Reader) : reader.allTokens.length = reader.length := by
  simp [allTokens, length]

theorem length_of_same (same : after.allTokens = before.allTokens) :
    after.length = before.length := by
  rw [← length_allTokens, same, length_allTokens]

theorem ReadsOn.of_same (same : after.allTokens = before.allTokens)
    (onward : before.position ≤ after.position) : before.ReadsOn after where
  same := same
  onward := onward
  within := length_of_same same ▸ Nat.le_add_right _ _

theorem ReadsOn.refl (reader : Reader) : reader.ReadsOn reader :=
  .of_same rfl (Nat.le_refl _)

theorem ReadsOn.trans (earlier : before.ReadsOn middle) (later : middle.ReadsOn after) :
    before.ReadsOn after :=
  .of_same (later.same.trans earlier.same) (Nat.le_trans earlier.onward later.onward)

theorem Consumes.readsOn (consumes : before.Consumes after) : before.ReadsOn after :=
  .of_same consumes.same (Nat.le_of_lt consumes.onward)

theorem Consumes.andReadsOn (earlier : before.Consumes middle) (later : middle.ReadsOn after) :
    before.Consumes after :=
  ⟨later.same.trans earlier.same, Nat.lt_of_lt_of_le earlier.onward later.onward⟩

/-- Fewer tokens are left. -/
theorem Consumes.ahead_lt (consumes : before.Consumes after) :
    after.ahead.length < before.ahead.length := by
  have lengths : after.behind.length + after.ahead.length
      = before.behind.length + before.ahead.length := length_of_same consumes.same
  have onward : before.behind.length < after.behind.length := consumes.onward
  omega

theorem consumes_cons (behind ahead : List String) (token : String) :
    (⟨behind, token :: ahead⟩ : Reader).Consumes ⟨token :: behind, ahead⟩ :=
  ⟨by simp [allTokens], Nat.lt_succ_self _⟩

/-- Where a token is seen it can be passed. -/
theorem consumes_advance {reader : Reader} (seen : reader.peek ≠ "") :
    reader.Consumes reader.advance := by
  obtain ⟨behind, ahead⟩ := reader
  cases ahead with
  | nil => exact absurd rfl seen
  | cons token ahead => exact consumes_cons behind ahead token

end Reader

theorem Scan.Step.readsOn {scan after : Scan} (step : scan.Step after) :
    scan.reader.ReadsOn after.reader := by
  cases step with
  | pass => exact (Reader.consumes_cons _ _ _).readsOn
  | report own => exact .refl _

theorem Scan.readsOn_of_steps {scan after : Scan}
    (steps : Relation.ReflTransGen Scan.Step scan after) : scan.reader.ReadsOn after.reader := by
  induction steps with
  | refl => exact .refl _
  | tail _ step inductionHypothesis => exact inductionHypothesis.trans step.readsOn

/-- **What goes step by step reads on.** -/
theorem Stepwise.readsOn {β : Type} {reading : Reading β} (stepwise : Stepwise reading)
    (scan : Scan) : Ensures reading scan fun _ after => scan.reader.ReadsOn after.reader :=
  (stepwise scan).mono fun _ _ steps => Scan.readsOn_of_steps steps

/-! ### Loops -/

section Loops

variable {σ β : Type}

/-- A round that goes on gives the state for the next one, and the last round gives the result. The
number counts the rounds that go on. -/
inductive Loops (round : σ → Except Fault (σ ⊕ β)) : Nat → σ → Except Fault β → Prop
  | exits {state : σ} {value : β} (last : round state = .ok (.inr value)) :
      Loops round 0 state (.ok value)
  | fails {state : σ} {fault : Fault} (last : round state = .error fault) :
      Loops round 0 state (.error fault)
  | goesOn {count : Nat} {state next : σ} {outcome : Except Fault β}
      (first : round state = .ok (.inl next)) (others : Loops round count next outcome) :
      Loops round (count + 1) state outcome

variable {round : σ → Except Fault (σ ⊕ β)}

/-- A function that spends fuel on rounds is the loop of these, if each round that goes on makes the
state smaller and the fuel covers its size. -/
theorem exists_loops (body : Nat → σ → Except Fault β) (size : σ → Nat)
    (unfolds : ∀ fuel state, body (fuel + 1) state = round state >>= Sum.elim (body fuel) .ok)
    (ends : ∀ state, size state = 0 → body 0 state = body 1 state)
    (lessens : ∀ state next, round state = .ok (.inl next) → size next < size state)
    {fuel : Nat} (state : σ) (covers : size state ≤ fuel) :
    ∃ count ≤ size state, Loops round count state (body fuel state) := by
  induction measure : size state using Nat.strongRecOn generalizing state fuel with
  | ind bound inductionHypothesis =>
      obtain ⟨more, same, room⟩ : ∃ more, body fuel state = body (more + 1) state
          ∧ size state ≤ more + 1 := by
        cases fuel with
        | zero => exact ⟨0, ends state (by omega), by omega⟩
        | succ fuel => exact ⟨fuel, rfl, covers⟩
      rw [same, unfolds]
      cases turned : round state with
      | error fault => exact ⟨0, Nat.zero_le _, .fails turned⟩
      | ok result =>
          cases result with
          | inr value => exact ⟨0, Nat.zero_le _, .exits turned⟩
          | inl next =>
              have smaller := lessens state next turned
              have covered : size next ≤ more := by omega
              obtain ⟨count, few, loops⟩ :=
                inductionHypothesis (size next) (measure ▸ smaller) next covered rfl
              exact ⟨count + 1, by omega, .goesOn turned loops⟩

/-- The last round of a loop that comes to a value. -/
theorem Loops.exists_last {count : Nat} {state : σ} {value : β}
    (loops : Loops round count state (.ok value)) : ∃ last, round last = .ok (.inr value) := by
  generalize reached : (.ok value : Except Fault β) = outcome at loops
  induction loops with
  | exits last => exact ⟨_, Except.ok.inj reached ▸ last⟩
  | fails => cases reached
  | goesOn _ _ inductionHypothesis => exact inductionHypothesis reached

end Loops

section Rounds

variable {σ β : Type}

/-- A round of a loop of readings, with the place of reading as a part of the state. -/
def turn (round : σ → Reading (σ ⊕ β)) (place : σ × Scan) :
    Except Fault ((σ × Scan) ⊕ (β × Scan)) :=
  ((round place.1).run place.2).map fun (result, after) =>
    result.map (fun next => (next, after)) (fun value => (value, after))

/-- A reading is a loop of rounds. A round that goes on has read a token, so that there are no more
of them than tokens ahead. -/
structure IsLoop (round : σ → Reading (σ ⊕ β)) (start : σ) (reading : Reading β) : Prop where
  consumes : ∀ state scan, Ensures (round state) scan fun result after =>
    result.isLeft = true → scan.reader.Consumes after.reader
  loops : ∀ scan, ∃ count ≤ scan.reader.ahead.length,
    Loops (turn round) count (start, scan) (reading.run scan)

/-- A reading that spends fuel on rounds is the loop of these. -/
theorem isLoop_of_fuel {round : σ → Reading (σ ⊕ β)} {body : Nat → σ → Reading β}
    (unfolds : ∀ fuel state, body (fuel + 1) state = round state >>= Sum.elim (body fuel) pure)
    (ends : ∀ state scan, scan.reader.ahead = [] →
      (body 0 state).run scan = (body 1 state).run scan)
    (consumes : ∀ state scan, Ensures (round state) scan fun result after =>
      result.isLeft = true → scan.reader.Consumes after.reader) (start : σ) :
    IsLoop round start (remaining >>= fun fuel => body fuel start) := by
  refine ⟨consumes, fun scan => ?_⟩
  change ∃ count ≤ _, Loops (turn round) count (start, scan)
    ((body scan.reader.ahead.length start).run scan)
  refine exists_loops (fun fuel place => (body fuel place.1).run place.2)
    (fun place => place.2.reader.ahead.length) ?_ ?_ ?_ (start, scan) (Nat.le_refl _)
  · intro fuel place
    rw [unfolds, StateT.run_bind, turn]
    cases (round place.1).run place.2 with
    | error fault => rfl
    | ok pair =>
        obtain ⟨result, after⟩ := pair
        cases result <;> rfl
  · intro place empty
    exact ends place.1 place.2 (List.eq_nil_of_length_eq_zero empty)
  · intro place next turned
    obtain ⟨⟨result, after⟩, read, same⟩ := map_eq_ok turned
    cases result with
    | inr value => cases same
    | inl state =>
        cases same
        exact (consumes _ _ _ _ read rfl).ahead_lt

end Rounds

/-! ### The rounds of arguments -/

section Consuming

variable {α : Type} [Scalar α] {β γ : Type}

/-- What follows a reading that has passed a token reads on. -/
theorem Ensures.consumes_bind {first : Reading β} {next : β → Reading γ} {scan : Scan}
    (start : Ensures first scan fun _ after => scan.reader.Consumes after.reader)
    (rest : ∀ value, Stepwise (next value)) :
    Ensures (first >>= next) scan fun _ after => scan.reader.Consumes after.reader :=
  .bind (start.mono fun value middle consumed =>
    ((rest value).readsOn middle).mono fun _ _ onward => consumed.andReadsOn onward)

theorem Ensures.consumes_advance {scan : Scan} (seen : scan.reader.peek ≠ "") :
    Ensures Reading.advance scan fun _ after => scan.reader.Consumes after.reader :=
  .modify (Reader.consumes_advance seen)

/-- No number is read at the end. -/
theorem Ensures.consumes_takeNumber (scan : Scan) :
    Ensures (Reading.takeNumber : Reading α) scan fun _ after =>
      scan.reader.Consumes after.reader := by
  refine (Ensures.takeNumber scan).mono ?_
  rintro number _ ⟨read, rfl⟩
  refine Reader.consumes_advance fun ended => ?_
  have wordy := isNumeric_empty (α := α)
  rw [← ended, isNumeric_eq, read] at wordy
  cases wordy

theorem Ensures.consumes_takeWhole (scan : Scan) :
    Ensures (Reading.takeWhole α) scan fun _ after => scan.reader.Consumes after.reader :=
  .consumes_bind (.consumes_takeNumber scan) fun _ => .lift _

/-- Looking at the next token changes nothing. -/
theorem Ensures.ifNumeric {next : Bool → Reading β} {scan : Scan} {post : β → Scan → Prop}
    (goOn : Ensures (next (isNumeric α scan.reader.peek)) scan post) :
    Ensures (nextIsNumeric α >>= next) scan post :=
  .bind (.peek (.pure goOn))

theorem Ensures.consumes_whole (source : String) (bounds : Bounds Int) (scan : Scan) :
    Ensures (whole α source bounds) scan fun result after =>
      ∀ value ∈ result, scan.reader.Consumes after.reader := by
  refine .ifNumeric (.branch (fun _ => ?_) fun _ => ?_)
  · exact (Ensures.consumes_bind (.consumes_takeWhole scan) fun value =>
      .branch (.pure _) (.refuse _ rfl)).mono fun _ _ consumed _ _ => consumed
  · -- a missing number gives no gap
    have none : Offers (fun _ : Int => False) (refuseArgument source .numeric) :=
      .refuseArgument source .numeric
    exact (none scan).mono fun _ _ impossible value given => (impossible value given).elim

end Consuming

section RunText

variable (α : Type) [Scalar α]

/-- Run-length text is joined with the next token, if it goes on there. -/
def joinRound (text : String) : Reading (String ⊕ String) := do
  let token ← peek
  if !isClosed text && continuesRun α token then
    advance
    return .inl (text ++ token)
  else return .inr text

theorem continuesRun_empty : continuesRun α "" = false := by
  have noFragment : RunLength.isFragment "" = false := by decide
  rw [continuesRun, noFragment, Bool.and_false]

theorem runText_eq (text : String) :
    runText α text = joinRound α text >>= Sum.elim (runText α) pure := by
  refine StateT.ext fun ⟨⟨behind, ahead⟩, reported⟩ => ?_
  rw [joinRound, bind_assoc, run_bind_ok (run_peek_ahead ahead)]
  cases ahead with
  | nil =>
      rw [List.headD_nil, continuesRun_empty, Bool.and_false]
      rfl
  | cons token ahead =>
      have ran (text : String) (behind ahead : List String) :
          (runText α text).run ⟨⟨behind, ahead⟩, reported⟩
            = .ok ((joinFragments α text behind ahead).1,
              ⟨(joinFragments α text behind ahead).2, reported⟩) := rfl
      rw [List.headD_cons, ran, joinFragments]
      split
      · exact (ran _ _ _).symm
      · rfl

theorem joinRound_consumes (text : String) (scan : Scan) :
    Ensures (joinRound α text) scan fun result after =>
      result.isLeft = true → scan.reader.Consumes after.reader := by
  refine .peek (.branch (fun goesOn => ?_) fun _ => .pure fun impossible => nomatch impossible)
  have seen : scan.reader.peek ≠ "" := by
    intro ended
    rw [ended, continuesRun_empty, Bool.and_false] at goesOn
    cases goesOn
  exact (Ensures.consumes_bind (.consumes_advance seen) fun _ => .pure _).mono
    fun _ _ consumed _ => consumed

theorem runText_isLoop (text : String) : IsLoop (joinRound α) text (runText α text) :=
  have loop : IsLoop (joinRound α) text (remaining >>= fun _ => runText α text) :=
    isLoop_of_fuel (fun _ => runText_eq α) (fun _ _ _ => rfl) (joinRound_consumes α) text
  ⟨loop.consumes, loop.loops⟩

end RunText

section Gaps

variable (α : Type) [Scalar α] (recipes : List (String × List Int))

/-- A number or the name of a list is put behind the gaps so far. -/
def gapRound (state : List Int × String) :
    Reading ((List Int × String) ⊕ Option (List Int)) := do
  let (found, source) := state
  let token ← peek
  if isNumeric α token then
    match ← whole α source (.atLeast 0) with
    | none => return .inr none
    | some gap => return .inl (found ++ [gap], source ++ " " ++ toString gap)
  else
    match recipes.lookup token with
    | none => return .inr (some found)
    | some named =>
        advance
        return .inl (found ++ named, source ++ " " ++ token)

/-- The gaps that are still to come, behind those so far. -/
def gapsBehind (fuel : Nat) (state : List Int × String) : Reading (Option (List Int)) :=
  Option.map (state.1 ++ ·) <$> gaps α recipes fuel state.2

theorem gapsBehind_succ (fuel : Nat) (state : List Int × String) :
    gapsBehind α recipes (fuel + 1) state
      = gapRound α recipes state >>= Sum.elim (gapsBehind α recipes fuel) pure := by
  obtain ⟨found, source⟩ := state
  rw [gapsBehind, gaps, gapRound, map_bind, bind_assoc]
  refine bind_congr fun token => ?_
  split
  · rw [map_bind, bind_assoc]
    refine bind_congr fun gap => ?_
    cases gap with
    | none => rfl
    | some gap =>
        simp only [gapsBehind, bind_pure_comp, pure_bind, Sum.elim_inl, Functor.map_map,
          Option.map_map, Function.comp_def, List.append_assoc, List.singleton_append]
  · cases recipes.lookup token with
    | none =>
        simp
    | some named =>
        rw [map_bind, bind_assoc]
        refine bind_congr fun _ => ?_
        simp only [gapsBehind, bind_pure_comp, pure_bind, Sum.elim_inl, Functor.map_map,
          Option.map_map, Function.comp_def, List.append_assoc]

variable {recipes}

/-- A name that is seen is passed, as none is empty. -/
theorem gapRound_consumes (unnamed : recipes.lookup "" = none) (state : List Int × String)
    (scan : Scan) :
    Ensures (gapRound α recipes state) scan fun result after =>
      result.isLeft = true → scan.reader.Consumes after.reader := by
  obtain ⟨found, source⟩ := state
  refine .peek (.branch (fun numeric => ?_) fun _ => ?_)
  · refine .bind ((Ensures.consumes_whole source _ scan).mono fun gap after consumed => ?_)
    cases gap with
    | none => exact .pure fun impossible => nomatch impossible
    | some gap => exact .pure fun _ => consumed gap rfl
  · cases known : recipes.lookup scan.reader.peek with
    | none => exact .pure fun impossible => nomatch impossible
    | some named =>
        have seen : scan.reader.peek ≠ "" := by
          intro ended
          rw [ended, unnamed] at known
          cases known
        exact (Ensures.consumes_bind (.consumes_advance seen) fun _ => .pure _).mono
          fun _ _ consumed _ => consumed

theorem allGaps_isLoop (unnamed : recipes.lookup "" = none) (source : String) :
    IsLoop (gapRound α recipes) ([], source) (allGaps α recipes source) := by
  have whole : allGaps α recipes source
      = remaining >>= fun fuel => gapsBehind α recipes fuel ([], source) := by
    unfold allGaps gapsBehind
    simp
  rw [whole]
  refine isLoop_of_fuel (gapsBehind_succ α recipes) ?_ (gapRound_consumes α unnamed) _
  rintro ⟨found, source⟩ ⟨⟨behind, ahead⟩, reported⟩ ended
  obtain rfl : ahead = [] := ended
  rw [gapsBehind_succ, gapRound, bind_assoc, run_bind_ok (run_peek_ahead []), List.headD_nil,
    isNumeric_empty, unnamed]
  simp [gapsBehind, gaps]

end Gaps

section Corners

variable {α : Type} [Scalar α] (word : String) (gridSize : Int)

/-- Two numbers are a corner behind those so far, and one alone is the zoom. -/
def cornerRound (state : List (Point α) × Option α) :
    Reading ((List (Point α) × Option α) ⊕ Option (List (Point α) × Option α)) := do
  let (found, zoom) := state
  if ← nextIsNumeric α then
    let x : α ← takeNumber
    if ← nextIsNumeric α then
      let y : α ← takeNumber
      if isCoordinate gridSize x && isCoordinate gridSize y then
        return .inl (found ++ [⟨x, y⟩], zoom)
      else
        return .inr (← refuse (word ++ " " ++ plainText x ++ " " ++ plainText y)
          (.outOfRange .coordinate))
    else
      match magnification x with
      | none => return .inr (← refuse (word ++ " " ++ plainText x) (.outOfRange .zoom))
      | some magnified => return .inl (found, some magnified)
  else return .inr (some (found, zoom))

/-- The corners that are still to come, behind those so far. -/
def cornersBehind (fuel : Nat) (state : List (Point α) × Option α) :
    Reading (Option (List (Point α) × Option α)) :=
  Option.map (fun (others, zoom) => (state.1 ++ others, zoom))
    <$> Read.corners word gridSize fuel state.2

theorem cornersBehind_succ (fuel : Nat) (state : List (Point α) × Option α) :
    cornersBehind word gridSize (fuel + 1) state
      = cornerRound word gridSize state >>= Sum.elim (cornersBehind word gridSize fuel) pure := by
  obtain ⟨found, zoom⟩ := state
  rw [cornersBehind, Read.corners, cornerRound, map_bind, bind_assoc]
  refine bind_congr fun numeric => ?_
  split
  · rw [map_bind, bind_assoc]
    refine bind_congr fun x => ?_
    rw [map_bind, bind_assoc]
    refine bind_congr fun paired => ?_
    split
    · rw [map_bind, bind_assoc]
      refine bind_congr fun y => ?_
      split
      · simp only [cornersBehind, bind_pure_comp, pure_bind, Sum.elim_inl, Functor.map_map,
          Option.map_map, Function.comp_def, List.append_assoc, List.singleton_append]
      · rfl
    · cases magnification x with
      | none => rfl
      | some magnified => rfl
  · simp

theorem cornerRound_consumes (state : List (Point α) × Option α) (scan : Scan) :
    Ensures (cornerRound word gridSize state) scan fun result after =>
      result.isLeft = true → scan.reader.Consumes after.reader := by
  obtain ⟨found, zoom⟩ := state
  refine .ifNumeric (.branch (fun _ => ?_) fun _ => .pure fun impossible => nomatch impossible)
  refine (Ensures.consumes_bind (.consumes_takeNumber scan) fun x => ?_).mono
    fun _ _ consumed _ => consumed
  refine .bind .nextIsNumeric fun _ => .branch (.bind .takeNumber fun y => ?_) ?_
  · exact .branch (.pure _) (.bind (.refuse _ rfl) fun _ => .pure _)
  · cases magnification x with
    | none => exact .bind (.refuse _ rfl) fun _ => .pure _
    | some magnified => exact .pure _

theorem corners_isLoop : IsLoop (cornerRound word gridSize) ([], (none : Option α))
    (remaining >>= fun fuel => Read.corners word gridSize fuel none) := by
  have whole (fuel : Nat) : Read.corners word gridSize fuel (none : Option α)
      = cornersBehind word gridSize fuel ([], none) := by
    simp [cornersBehind]
  simp only [whole]
  refine isLoop_of_fuel (cornersBehind_succ word gridSize) ?_ (cornerRound_consumes word gridSize) _
  rintro ⟨found, zoom⟩ ⟨⟨behind, ahead⟩, reported⟩ ended
  obtain rfl : ahead = [] := ended
  rw [cornersBehind_succ, cornerRound, nextIsNumeric, bind_assoc, bind_assoc,
    run_bind_ok (run_peek_ahead []), List.headD_nil, isNumeric_empty]
  simp [cornersBehind, Read.corners]

end Corners

section Trains

variable (α : Type) [Scalar α] (alongX : Bool) (source : String)

/-- A pair is a step behind those so far, unless its delay is negative. -/
def trainRound (steps : List TrainStep) : Reading (List TrainStep ⊕ List TrainStep) := do
  let reader := (← get).reader
  if isNumeric α reader.peek && isNumeric α (reader.peekAt 1) then
    let distance ← takeWhole α
    let delay ← takeWhole α
    if delay < 0 then
      report (source ++ " " ++ toString distance ++ " " ++ toString delay) (.outOfRange .argument)
      return .inr steps
    else return .inl (steps ++ [trainStep alongX distance delay])
  else return .inr steps

/-- The steps that are still to come, behind those so far. -/
def stepsBehind (fuel : Nat) (steps : List TrainStep) : Reading (List TrainStep) :=
  (steps ++ ·) <$> Read.trainSteps α alongX source fuel

theorem stepsBehind_succ (fuel : Nat) (steps : List TrainStep) :
    stepsBehind α alongX source (fuel + 1) steps
      = trainRound α alongX source steps >>= Sum.elim (stepsBehind α alongX source fuel) pure := by
  rw [stepsBehind, Read.trainSteps, trainRound, map_bind, bind_assoc]
  refine bind_congr fun scan => ?_
  dsimp only
  split
  · rw [map_bind, bind_assoc]
    refine bind_congr fun distance => ?_
    rw [map_bind, bind_assoc]
    refine bind_congr fun delay => ?_
    split
    · simp
    · simp [stepsBehind, trainStep]
  · simp

theorem trainRound_consumes (steps : List TrainStep) (scan : Scan) :
    Ensures (trainRound α alongX source steps) scan fun result after =>
      result.isLeft = true → scan.reader.Consumes after.reader := by
  refine .bind (.get (.branch (fun _ => ?_) fun _ => .pure fun impossible => nomatch impossible))
  refine (Ensures.consumes_bind (.consumes_takeWhole scan) fun distance => ?_).mono
    fun _ _ consumed _ => consumed
  exact .bind .takeWhole fun delay => .branch (.bind (.report _ rfl) fun _ => .pure _) (.pure _)

theorem trainSteps_isLoop : IsLoop (trainRound α alongX source) []
    (remaining >>= Read.trainSteps α alongX source) := by
  have whole : Read.trainSteps α alongX source
      = fun fuel => stepsBehind α alongX source fuel [] := by
    funext fuel
    simp [stepsBehind]
  rw [whole]
  refine isLoop_of_fuel (stepsBehind_succ α alongX source) ?_
    (trainRound_consumes α alongX source) _
  rintro steps ⟨⟨behind, ahead⟩, reported⟩ ended
  obtain rfl : ahead = [] := ended
  have wordy : isNumeric α (⟨behind, []⟩ : Reader).peek = false := isNumeric_empty
  have got : (get : Reading Scan).run ⟨⟨behind, []⟩, reported⟩
      = .ok (⟨⟨behind, []⟩, reported⟩, ⟨⟨behind, []⟩, reported⟩) := rfl
  rw [stepsBehind_succ, trainRound, bind_assoc, run_bind_ok got]
  dsimp only
  rw [wordy]
  simp [stepsBehind, Read.trainSteps]

end Trains

end Showreel.Script
