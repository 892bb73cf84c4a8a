import Showreel.Proofs.Script.Arguments
import Showreel.Script.Read.Callout
import Showreel.Script.Read.Paste
import Showreel.Script.Read.Viewer
import Showreel.Script.Read.Waypoint

/-!
Contract: what the readings of arguments of any length give.

Owns:
- loops over the tokens that are left, whose fuel may differ between two readings;
- lists of numbers, corners, colour components, gaps and trains;
- run-length text that is spread over tokens;
- the values that a script can write for a field, and sound statements.

Does not own: single arguments, the commands, and what a statement does.
-/

namespace Showreel.Script

open Number Scalar Pattern Reading Callout

variable {α : Type} [Scalar α] {β γ ι : Type} {outlook : Outlook α}
  {expects : List String → List String → Prop}

/-! ### Counted lists -/

theorem Meets.numbersIn (inside : α → Bool) (count : Nat) (source : String) :
    Meets outlook expects (Reading.numbersIn inside count source)
      fun result new => result.1.isSome → new = [] := by
  induction count generalizing source expects with
  | zero => exact Twins.pure fun _ => rfl
  | succ count inductionHypothesis =>
      refine Twins.bind (Gives.numberIn source inside) fun result new admitted => ?_
      cases result with
      | none => exact Twins.pure fun impossible => nomatch impossible
      | some value =>
          obtain ⟨rfl, -⟩ := admitted value rfl
          refine Twins.bind (inductionHypothesis _) fun others more quiet => Twins.pure ?_
          intro known
          rw [quiet (by simpa using known)]
          rfl

theorem Gives.ofList {first : Reading (Option (List α) × String)}
    {next : Option (List α) × String → Reading (Option β)} {good : β → Prop}
    (list : Meets outlook expects first fun result new => result.1.isSome → new = [])
    (stops : ∀ source, Withholds outlook Anywhere (next (none, source)))
    (goOn : ∀ values source, Gives outlook Anywhere (next (some values, source)) good) :
    Gives outlook expects (first >>= next) good := by
  refine Twins.bind list fun ⟨result, source⟩ new quiet => ?_
  cases result with
  | none =>
      refine (stops source).mono ?_
      rintro _ _ rfl value impossible
      cases impossible
  | some values =>
      rw [show new = [] from quiet rfl]
      exact goOn values source

theorem Meets.components (items : List ArgumentName) (source : String) :
    Meets outlook expects (Read.components α items source)
      fun result new => ∀ values, result = some (values, true) → new = [] := by
  induction items generalizing source expects with
  | nil => exact Twins.pure fun _ _ => rfl
  | cons item others inductionHypothesis =>
      refine Twins.ifNumeric ?_ ?_
      · refine Passes.bind (Passes.takeWhole numeric_head) fun value _ => ?_
        cases isByte : decide (0 ≤ value ∧ value ≤ 255) with
        | true =>
            refine Twins.bind (inductionHypothesis _) fun result new quiet => Twins.pure ?_
            rintro values known
            obtain ⟨⟨rest, valid⟩, rfl, same⟩ := Option.map_eq_some_iff.mp known
            obtain ⟨rfl, rfl⟩ : values = value :: rest ∧ valid = true := by simp_all
            simpa using quiet rest rfl
        | false =>
            refine Twins.bind (Meets.report _ _) fun _ reported _ => ?_
            refine Twins.bind (inductionHypothesis _) fun result new _ => Twins.pure ?_
            rintro values known
            obtain ⟨⟨rest, valid⟩, rfl, same⟩ := Option.map_eq_some_iff.mp known
            simp at same
      · refine Twins.bind (Meets.argumentError _ _ _) fun _ _ _ => Twins.pure ?_
        intro values impossible
        cases impossible

/-! ### Loops over the tokens that are left -/

/-- The fuel of two loops covers the tokens ahead. It may differ only where the lists ahead may
differ as well. -/
def Fuelled (outlook : Outlook α) (fuel twinFuel : Nat) (here there : List String) : Prop :=
  here.length ≤ fuel ∧ there.length ≤ twinFuel
    ∧ ((∀ {left right}, outlook.alike left right → left = right) → fuel = twinFuel)

omit [Scalar α] in
theorem Fuelled.tail {fuel twinFuel : Nat} {here there : List String}
    (fuelled : Fuelled outlook (fuel + 1) (twinFuel + 1) here there) :
    Fuelled outlook fuel twinFuel here.tail there.tail := by
  obtain ⟨covers, twinCovers, same⟩ := fuelled
  refine ⟨?_, ?_, fun exact => Nat.succ.inj (same exact)⟩
  · rw [List.length_tail]
    omega
  · rw [List.length_tail]
    omega

omit [Scalar α] in
theorem Fuelled.drop {fuel twinFuel : Nat} {here there : List String}
    (fuelled : Fuelled outlook fuel twinFuel here there) :
    Fuelled outlook fuel twinFuel here.tail there.tail := by
  obtain ⟨covers, twinCovers, same⟩ := fuelled
  refine ⟨?_, ?_, same⟩
  · rw [List.length_tail]
    omega
  · rw [List.length_tail]
    omega

/-- Two loops agree if they agree without fuel, and with one more unit of it wherever they
agree with less. The fuel of both ends at the same token. -/
theorem Twins.loop {body : Nat → ι → Reading β} {admits : ι → β → List Diagnostic → Prop}
    (base : ∀ index, Meets outlook Anywhere (body 0 index) (admits index))
    (step : ∀ fuel twinFuel,
      (∀ index, Twins outlook (Fuelled outlook fuel twinFuel) (body fuel index)
        (body twinFuel index) (admits index)) →
      ∀ index, Twins outlook (Fuelled outlook (fuel + 1) (twinFuel + 1)) (body (fuel + 1) index)
        (body (twinFuel + 1) index) (admits index)) :
    ∀ fuel twinFuel index, Twins outlook (Fuelled outlook fuel twinFuel) (body fuel index)
      (body twinFuel index) (admits index) := by
  intro fuel
  induction fuel with
  | zero =>
      intro twinFuel index scan other alike within fuelled
      have empty : scan.reader.ahead = [] := List.eq_nil_of_length_eq_zero (Nat.le_zero.mp fuelled.1)
      obtain rfl : 0 = twinFuel := fuelled.2.2 (outlook.ending (empty ▸ alike))
      exact base index scan other alike within trivial
  | succ fuel inductionHypothesis =>
      intro twinFuel index
      cases twinFuel with
      | zero =>
          intro scan other alike within fuelled
          have empty : other.reader.ahead = [] :=
            List.eq_nil_of_length_eq_zero (Nat.le_zero.mp fuelled.2.1)
          have emptyHere : scan.reader.ahead = [] := by
            have heads := outlook.head alike
            rw [empty] at heads
            exact List.head?_eq_none_iff.mp heads
          exact absurd (fuelled.2.2 (outlook.ending (emptyHere ▸ alike))) (Nat.succ_ne_zero fuel)
      | succ twinFuel => exact step fuel twinFuel (inductionHypothesis twinFuel) index

/-- A loop that is given as much fuel as there are tokens left. -/
theorem Meets.remaining {loop : Nat → Reading β} {admits : β → List Diagnostic → Prop}
    (twins : ∀ fuel twinFuel,
      Twins outlook (Fuelled outlook fuel twinFuel) (loop fuel) (loop twinFuel) admits) :
    Meets outlook expects (Reading.remaining >>= loop) admits := by
  intro scan other alike within _
  refine twins scan.reader.ahead.length other.reader.ahead.length scan other alike within
    ⟨Nat.le_refl _, Nat.le_refl _, fun exact => ?_⟩
  rw [exact alike]

/-- Lists of gaps of which none is negative. -/
def NonnegativeGaps (recipes : List (String × List Int)) : Prop :=
  ∀ named ∈ recipes, ∀ gap ∈ named.2, 0 ≤ gap

theorem NonnegativeGaps.lookup {recipes : List (String × List Int)} {name : String}
    {gaps : List Int} (nonnegative : NonnegativeGaps recipes)
    (found : recipes.lookup name = some gaps) : ∀ gap ∈ gaps, 0 ≤ gap := by
  obtain ⟨before, after, rfl, -⟩ := List.lookup_eq_some_iff.mp found
  exact nonnegative (name, gaps) (by simp)

/-- A whole number that is given has been passed. -/
theorem Twins.whole {later : List String → List String → Prop} {next twinNext : Option Int → Reading γ}
    {final : γ → List Diagnostic → Prop} {source : String} {bounds : Bounds Int}
    (onward : ∀ here there, expects here there → later here.tail there.tail)
    (given : ∀ count, bounds.contains count = true →
      Twins outlook later (next (some count)) (twinNext (some count)) final)
    (refused : ∀ new, Twins outlook Anywhere (next none) (twinNext none)
      fun result more => final result (new ++ more)) :
    Twins outlook expects (Reading.whole α source bounds >>= next)
      (Reading.whole α source bounds >>= twinNext) final := by
  unfold Reading.whole
  rw [bind_assoc, bind_assoc]
  refine Twins.onNumeric ?_ ?_
  · rw [if_pos rfl, bind_assoc, bind_assoc]
    refine Twins.takeWhole numeric_head (fun here there expected => onward here there expected.1)
      fun count _ => ?_
    by_cases holds : bounds.contains count = true
    · rw [if_pos holds, pure_bind, pure_bind]
      exact given count holds
    · rw [if_neg holds]
      refine Twins.bind (Withholds.refuse _ _) ?_
      rintro _ new rfl
      exact refused new
  · rw [if_neg Bool.false_ne_true]
    refine Twins.bind (Withholds.refuseArgument _ _) ?_
    rintro _ new rfl
    exact refused new

/-- Values that go into others which are read behind them. -/
theorem Twins.prepend {reading twin : Reading (Option β)} {build : β → γ} {good : β → Prop}
    {fine : γ → Prop}
    (twins : Twins outlook expects reading twin
      fun result new => ∀ value, result = some value → new = [] ∧ good value)
    (holds : ∀ value, good value → fine (build value)) :
    Twins outlook expects (reading >>= fun result => Pure.pure (result.map build))
      (twin >>= fun result => Pure.pure (result.map build))
      fun result new => ∀ value, result = some value → new = [] ∧ fine value := by
  refine twins.bind fun result new admitted => Twins.pure fun value known => ?_
  obtain ⟨read, rfl, rfl⟩ := Option.map_eq_some_iff.mp known
  obtain ⟨rfl, good⟩ := admitted read rfl
  exact ⟨rfl, holds read good⟩

theorem between_of_contains {low high count : Int}
    (bounded : (Bounds.between low high).contains count = true) : low ≤ count ∧ count ≤ high := by
  simp [Bounds.contains, Bounds.between] at bounded
  exact bounded

theorem nonnegative_of_contains {count : Int}
    (bounded : (Bounds.atLeast 0).contains count = true) : 0 ≤ count := by
  simp [Bounds.contains, Bounds.atLeast] at bounded
  exact bounded

/-- The gaps that are read are not negative, if those of the named lists are not. -/
theorem Twins.gaps {recipes : List (String × List Int)}
    (pass : ∀ {name}, (recipes.lookup name).isSome → name ∉ outlook.stops) :
    ∀ (fuel twinFuel : Nat) (source : String),
      Twins outlook (Fuelled outlook fuel twinFuel) (Reading.gaps α recipes fuel source)
        (Reading.gaps α recipes twinFuel source)
        fun result new => ∀ gaps, result = some gaps →
          new = [] ∧ (NonnegativeGaps recipes → ∀ gap ∈ gaps, 0 ≤ gap) := by
  refine Twins.loop (fun source => ?_) fun fuel twinFuel inductionHypothesis source => ?_
  · exact Gives.known fun _ gap impossible => nomatch impossible
  · refine Twins.peek fun token => ?_
    by_cases numeric : isNumeric α token = true
    · rw [if_pos numeric, if_pos numeric]
      refine Twins.whole (fun _ _ expected => expected.1.tail) (fun count bounded => ?_)
        fun _ => Twins.pure fun _ impossible => nomatch impossible
      refine Twins.prepend (inductionHypothesis _) fun gaps nonnegative recipes gap member => ?_
      obtain rfl | member := List.mem_cons.mp member
      · exact nonnegative_of_contains bounded
      · exact nonnegative recipes gap member
    · rw [if_neg numeric, if_neg numeric]
      cases found : recipes.lookup token with
      | none => exact Gives.known fun _ gap impossible => nomatch impossible
      | some named =>
          have passable : token ∉ outlook.stops := pass (by rw [found]; rfl)
          refine Twins.advance (fun _ _ expected => expected.2 ▸ passable)
            (fun _ _ expected => expected.1.tail) ?_
          refine Twins.prepend (inductionHypothesis _) fun gaps nonnegative recipes gap member => ?_
          obtain member | member := List.mem_append.mp member
          · exact recipes.lookup found gap member
          · exact nonnegative recipes gap member

theorem Gives.allGaps {recipes : List (String × List Int)} (source : String)
    (pass : ∀ {name}, (recipes.lookup name).isSome → name ∉ outlook.stops) :
    Gives outlook expects (Reading.allGaps α recipes source)
      fun gaps => NonnegativeGaps recipes → ∀ gap ∈ gaps, 0 ≤ gap :=
  Meets.remaining fun fuel twinFuel => Twins.gaps pass fuel twinFuel source

theorem Twins.corners (word : String) (gridSize : Int) :
    ∀ (fuel twinFuel : Nat) (zoom : Option α),
      Twins outlook (Fuelled outlook fuel twinFuel) (Read.corners word gridSize fuel zoom)
        (Read.corners word gridSize twinFuel zoom)
        fun result new => ∀ corners, result = some corners → new = [] ∧ True := by
  refine Twins.loop (fun zoom => ?_) fun fuel twinFuel inductionHypothesis zoom => ?_
  · exact Gives.known trivial
  · refine Twins.ifNumeric ?_ (Gives.known trivial)
    refine Twins.takeNumber numeric_head (fun _ _ expected => expected.1.tail) fun x _ _ _ => ?_
    refine Twins.ifNumeric ?_ ?_
    · refine Twins.takeNumber numeric_head (fun _ _ expected => expected.1.drop) fun y _ _ _ => ?_
      exact Twins.branch (fun _ => Twins.prepend (inductionHypothesis zoom) fun _ _ => trivial)
        fun _ => (Withholds.refuse _ _).gives
    · cases found : magnification x with
      | none => exact (Withholds.refuse _ _).gives
      | some value => exact inductionHypothesis (some value)

/-- A branch on whether the next two tokens are numbers. -/
theorem Twins.ifPair {number twinNumber other twinOther : Reading β}
    {final : β → List Diagnostic → Prop}
    (numbers : Twins outlook
      (fun here there => expects here there ∧ isNumeric α (here.headD "") = true
        ∧ isNumeric α (here.tail.headD "") = true) number twinNumber final)
    (others : Twins outlook expects other twinOther final) :
    Twins outlook expects
      (do
        let reader := (← get).reader
        if isNumeric α reader.peek && isNumeric α (reader.peekAt 1) then number else other)
      (do
        let reader := (← get).reader
        if isNumeric α reader.peek && isNumeric α (reader.peekAt 1) then twinNumber else twinOther)
      final := by
  intro scan twin alike within expected
  have second : ∀ reader : Reader, reader.peekAt 1 = reader.ahead.tail.headD "" := by
    rintro ⟨_, _ | ⟨_, _ | _⟩⟩ <;> rfl
  simp only [StateT.run_bind, StateT.run_get, pure_bind, second, peek_eq alike]
  by_cases first : isNumeric α scan.reader.peek = true
  · have tails := alike_tail alike (numeric_passes first)
    have heads : twin.reader.ahead.tail.headD "" = scan.reader.ahead.tail.headD "" := by
      rw [List.headD_eq_head?_getD, List.headD_eq_head?_getD, outlook.head tails]
    rw [heads]
    by_cases both : isNumeric α (scan.reader.ahead.tail.headD "") = true
    · rw [first, both]
      exact numbers scan twin alike within ⟨expected, first, both⟩
    · rw [Bool.not_eq_true] at both
      rw [first, both]
      exact others scan twin alike within expected
  · rw [Bool.not_eq_true] at first
    rw [first]
    exact others scan twin alike within expected

/-- There is fuel left, and a number ahead. -/
def FuelledNumber (α : Type) [Scalar α] (outlook : Outlook α) (fuel twinFuel : Nat)
    (here there : List String) : Prop :=
  Fuelled outlook fuel twinFuel here there ∧ isNumeric α (here.headD "") = true

theorem Twins.trainSteps (alongX : Bool) (source : String) :
    ∀ (fuel twinFuel : Nat) (_ : Unit), Twins outlook (Fuelled outlook fuel twinFuel)
      (Read.trainSteps α alongX source fuel) (Read.trainSteps α alongX source twinFuel)
      fun _ _ => True := by
  refine Twins.loop (fun _ => Twins.pure trivial) fun fuel twinFuel inductionHypothesis _ => ?_
  refine Twins.ifPair ?_ (Twins.pure trivial)
  have onward : ∀ here there, Fuelled outlook (fuel + 1) (twinFuel + 1) here there
      ∧ isNumeric α (here.headD "") = true ∧ isNumeric α (here.tail.headD "") = true →
      FuelledNumber α outlook fuel twinFuel here.tail there.tail :=
    fun _ _ expected => ⟨expected.1.tail, expected.2.2⟩
  refine Twins.takeWhole (fun _ _ expected => expected.2.1) onward fun distance _ => ?_
  refine Twins.takeWhole (fun _ _ expected => expected.2)
    (fun _ _ expected => expected.1.drop) fun delay _ => ?_
  exact Twins.branch
    (fun _ => Twins.bind (Meets.report _ _) fun _ _ _ => Twins.pure trivial)
    fun _ => (inductionHypothesis ()).bind fun _ _ _ => Twins.pure trivial

theorem joinFragments_alike :
    ∀ (here there : List String) (text : String) (behind otherBehind : List String),
      outlook.alike here there →
      (joinFragments α text behind here).1 = (joinFragments α text otherBehind there).1
        ∧ outlook.alike (joinFragments α text behind here).2.ahead
          (joinFragments α text otherBehind there).2.ahead
        ∧ ∃ fragments, here = fragments ++ (joinFragments α text behind here).2.ahead
          ∧ (joinFragments α text behind here).1 = text ++ String.join fragments := by
  intro here
  induction here with
  | nil =>
      intro there text behind otherBehind alike
      obtain rfl : there = [] := List.head?_eq_none_iff.mp (outlook.head alike).symm
      exact ⟨rfl, alike, [], rfl, by simp [joinFragments]⟩
  | cons token rest inductionHypothesis =>
      intro there text behind otherBehind alike
      obtain ⟨otherRest, rfl⟩ : ∃ otherRest, there = token :: otherRest :=
        List.head?_eq_some_iff.mp (outlook.head alike).symm
      by_cases continued : (!isClosed text && continuesRun α token) = true
      · have noWord : isScriptWord token = false := by
          simp only [continuesRun, Bool.and_eq_true, Bool.not_eq_true'] at continued
          exact continued.2.1.1.1
        obtain ⟨same, alikeLeft, fragments, split, joined⟩ :=
          inductionHypothesis otherRest (text ++ token) (token :: behind) (token :: otherBehind)
            (outlook.tail alike (word_passes noWord))
        simp only [joinFragments, continued, if_true]
        refine ⟨same, alikeLeft, token :: fragments, by rw [List.cons_append, ← split], ?_⟩
        rw [joined, String.join_cons, String.append_assoc]
      · simp only [joinFragments, continued]
        exact ⟨rfl, alike, [], rfl, by simp⟩

/-- The text that is joined is a run of tokens. -/
theorem Passes.runText (opening : String) :
    Passes outlook (fun rest _ => opening :: rest <:+ outlook.tokens)
      (Reading.runText α opening)
      fun text => ∃ run, run <:+: outlook.tokens ∧ text = String.join run := by
  intro scan other alike within expected
  obtain ⟨same, alikeLeft, fragments, split, joined⟩ := joinFragments_alike (α := α)
    scan.reader.ahead other.reader.ahead opening scan.reader.behind other.reader.behind alike
  have ran : ∀ scan : Scan, (Reading.runText α opening).run scan
      = .ok ((joinFragments α opening scan.reader.behind scan.reader.ahead).1,
        { scan with
          reader := (joinFragments α opening scan.reader.behind scan.reader.ahead).2 }) :=
    fun _ => rfl
  rw [ran, ran, ← same]
  refine .given alikeLeft ?_ (List.append_nil _).symm (List.append_nil _).symm
    ⟨rfl, opening :: fragments, ?_, by rw [joined, String.join_cons]⟩
  · exact List.IsSuffix.trans ⟨fragments, split.symm⟩ within
  · have start : opening :: fragments <+: opening :: scan.reader.ahead :=
      ⟨_, by rw [List.cons_append, ← split]⟩
    exact start.isInfix.trans expected.isInfix

end Showreel.Script

/-! ### What a statement holds once its arguments have been read -/

namespace Showreel.Script

open Number Scalar Waypoint

variable {α : Type} [Scalar α]

/-- A value that a script can write for a field. A pace is a positive whole number, provided that
the refresh rate is one. -/
def Written (refreshRate : Int) : (field : Field) → field.Value α → Prop
  | .zoom, zoom => @IsZoom α _ zoom
  | .angle, angle => ∃ count, IsWhole α count ∧ angle = Angle.whole (α := α) count
  | .layers, count => IsWhole α count
  | .step, count => 1 ≤ count ∧ count ≤ Read.mostSteps
  | .loop, generation | .stop, generation => IsWhole α generation ∨ generation = -1
  | .gps, gps => 1 ≤ refreshRate → ∃ count : Int, 1 ≤ count
      ∧ (ofInt count : Except Fault α) = .ok gps
  | .x, _ | .y, _ | .tilt, _ | .depth, _ | .theme, _ => True

/-- What the reading of a command vouches for, given the draft and the refresh rate it was read
for. -/
def Statement.Sound (draft : Draft α) (refreshRate : Int) : Statement α → Prop
  | .generation target => 0 ≤ target ∧ IsWhole α target
  | .copyAll | .copyField _ => draft.current.isPoi = true
  | .setField field value _ => Written refreshRate field value
  | .setPace steps gps _ =>
      (∀ count ∈ steps, @Written α _ refreshRate .step count) ∧ @Written α _ refreshRate .gps gps
  | .setLimit _ limit _ => @Written α _ refreshRate .loop limit
  | .defineRecipe name gaps _ => isScriptWord name = false ∧ ∀ gap ∈ gaps, 0 ≤ gap
  | .pasteAt _ gaps => NonnegativeGaps draft.recipes → ∀ gap ∈ gaps, 0 ≤ gap
  | .setMaxGridPower power => 9 ≤ power ∧ power ≤ 14
  | _ => True

abbrev Outlook.Sound (outlook : Outlook α) : Statement α → Prop :=
  Statement.Sound outlook.draft outlook.refreshRate

end Showreel.Script
