import Showreel.Proofs.Script.Outlook

/-!
Contract: what the readings of single arguments give.

Owns:
- runs of a reading over the next token;
- one law for each reading of an argument: what it gives, when it reports, and that it neither
  passes an end marker nor looks past one.

Does not own: arguments of any length, and the commands.
-/

namespace Showreel.Script

open Number Scalar Pattern Reading

/-- A whole number is the whole part of some scalar. -/
def IsWhole (α : Type) [Scalar α] (count : Int) : Prop :=
  ∃ value : α, wholePart value = .ok count

/-- A scalar is the magnification of some literal. -/
def IsZoom {α : Type} [Scalar α] (value : α) : Prop :=
  ∃ literal : α, magnification literal = some value

/-! ### Looking at the next token and passing it -/

variable {α : Type} {outlook : Outlook α}

theorem peek_eq {scan other : Scan}
    (alike : outlook.alike scan.reader.ahead other.reader.ahead) :
    other.reader.peek = scan.reader.peek := by
  unfold Reader.peek
  rw [List.headD_eq_head?_getD, List.headD_eq_head?_getD, outlook.head alike]

@[simp] theorem ahead_advance (reader : Reader) : reader.advance.ahead = reader.ahead.tail := by
  obtain ⟨behind, ahead⟩ := reader
  cases ahead <;> rfl

section Runs

variable {behind rest : List String} {reported : List Diagnostic}

theorem run_bind_ok {β γ : Type} {first : Reading β} {next : β → Reading γ} {scan after : Scan}
    {value : β} (ran : first.run scan = .ok (value, after)) :
    (first >>= next).run scan = (next value).run after := by
  rw [StateT.run_bind, ran]
  rfl

theorem run_peek {token : String} : Reading.peek.run ⟨⟨behind, token :: rest⟩, reported⟩
    = .ok (token, ⟨⟨behind, token :: rest⟩, reported⟩) :=
  rfl

theorem run_advance {token : String} : Reading.advance.run ⟨⟨behind, token :: rest⟩, reported⟩
    = .ok ((), ⟨⟨token :: behind, rest⟩, reported⟩) :=
  rfl

end Runs

theorem alike_tail {here there : List String} (alike : outlook.alike here there)
    (passable : here.headD "" ∉ outlook.stops) : outlook.alike here.tail there.tail := by
  have heads := outlook.head alike
  cases here with
  | nil =>
      cases there with
      | nil => exact alike
      | cons => cases heads
  | cons token here =>
      cases there with
      | nil => cases heads
      | cons twin there =>
          obtain rfl : token = twin := Option.some.inj heads
          exact outlook.tail alike passable

/-- A token that is no word of scripts may be passed. -/
theorem word_passes {token : String} (noWord : isScriptWord token = false) :
    token ∉ outlook.stops :=
  outlook.passes (fun token => !isScriptWord token) (by decide) (by simp only [noWord]; rfl)

/-- A token that may be a name is no word of scripts. -/
theorem isScriptWord_of_visible {token : String}
    (named : ¬(token.isEmpty || isScriptWord token) = true) : isScriptWord token = false := by
  simp only [Bool.or_eq_true, not_or, Bool.not_eq_true] at named
  exact named.2

theorem visible_passes {token : String} (named : ¬(token.isEmpty || isScriptWord token) = true) :
    token ∉ outlook.stops :=
  word_passes (isScriptWord_of_visible named)

variable [Scalar α] {β γ : Type} {expects later : List String → List String → Prop}
  {final : γ → List Diagnostic → Prop}

theorem Twins.peek {next twinNext : String → Reading γ}
    (goOn : ∀ token, Twins outlook (fun here there => expects here there ∧ Sees token here there)
      (next token) (twinNext token) final) :
    Twins outlook expects (Reading.peek >>= next) (Reading.peek >>= twinNext) final := by
  intro scan other alike within expected
  have opened := goOn scan.reader.peek scan other alike within ⟨expected, rfl⟩
  change Agree outlook scan other final ((next scan.reader.peek).run scan)
    ((twinNext other.reader.peek).run other)
  rw [peek_eq alike]
  exact opened

/-- What follows a step may be anywhere. -/
theorem intoAnywhere (here there : List String) (_ : expects here there) :
    Anywhere here.tail there.tail :=
  trivial

theorem Meets.peek {next : String → Reading γ}
    (goOn : ∀ token, Meets outlook (Sees token) (next token) final) :
    Meets outlook expects (Reading.peek >>= next) final :=
  Twins.peek fun token => (goOn token).expecting fun _ _ expected => expected.2

theorem Twins.onNumeric {next twinNext : Bool → Reading γ}
    (number : Twins outlook
      (fun here there => expects here there ∧ isNumeric α (here.headD "") = true)
      (next true) (twinNext true) final)
    (other : Twins outlook expects (next false) (twinNext false) final) :
    Twins outlook expects (nextIsNumeric α >>= next) (nextIsNumeric α >>= twinNext) final := by
  intro scan twin alike within expected
  change Agree outlook scan twin final ((next (isNumeric α scan.reader.peek)).run scan)
    ((twinNext (isNumeric α twin.reader.peek)).run twin)
  rw [peek_eq alike]
  cases numeric : isNumeric α scan.reader.peek with
  | true => exact number scan twin alike within ⟨expected, numeric⟩
  | false => exact other scan twin alike within expected

theorem Twins.ifNumeric {number twinNumber other twinOther : Reading γ}
    (numeric : Twins outlook
      (fun here there => expects here there ∧ isNumeric α (here.headD "") = true)
      number twinNumber final)
    (plain : Twins outlook expects other twinOther final) :
    Twins outlook expects
      (nextIsNumeric α >>= fun isNumber => if isNumber = true then number else other)
      (nextIsNumeric α >>= fun isNumber => if isNumber = true then twinNumber else twinOther)
      final :=
  Twins.onNumeric numeric plain

theorem Twins.advance {next twinNext : Unit → Reading γ}
    (passable : ∀ here there, expects here there → here.headD "" ∉ outlook.stops)
    (onward : ∀ here there, expects here there → later here.tail there.tail)
    (goOn : Twins outlook later (next ()) (twinNext ()) final) :
    Twins outlook expects (Reading.advance >>= next) (Reading.advance >>= twinNext) final := by
  intro scan other alike within expected
  have opened := goOn { scan with reader := scan.reader.advance }
    { other with reader := other.reader.advance }
    (by simpa using alike_tail alike (passable _ _ expected))
    (by simpa using (List.tail_suffix _).trans within)
    (by simpa using onward _ _ expected)
  exact opened.rebase rfl rfl

theorem Meets.advance {token : String} {next : Unit → Reading γ}
    (passable : token ∉ outlook.stops) (goOn : Meets outlook Anywhere (next ()) final) :
    Meets outlook (Sees token) (Reading.advance >>= next) final :=
  Twins.advance (fun _ _ sees => sees ▸ passable) intoAnywhere goOn

/-- Behind a token that is there, the token and what is ahead are still in the text. -/
theorem Meets.advanceInto {token : String} {next : Unit → Reading γ}
    (visible : token ≠ "") (passable : token ∉ outlook.stops)
    (goOn : Meets outlook (fun rest _ => token :: rest <:+ outlook.tokens) (next ()) final) :
    Meets outlook (Sees token) (Reading.advance >>= next) final := by
  intro scan other alike within sees
  have onward : ∀ here there, Sees token here there ∧ here <:+ outlook.tokens →
      token :: here.tail <:+ outlook.tokens := by
    rintro here _ ⟨rfl, within⟩
    cases here with
    | nil => exact absurd rfl visible
    | cons first rest => exact within
  have passes : ∀ here there, Sees token here there ∧ here <:+ outlook.tokens →
      here.headD "" ∉ outlook.stops := fun _ _ seen => seen.1 ▸ passable
  exact Twins.advance passes onward goOn scan other alike within ⟨sees, within⟩

/-! ### Reports -/

theorem Meets.report (source : String) (problem : Problem) :
    Meets outlook expects (Reading.report source problem)
      fun _ new => new = [⟨source, problem⟩] :=
  fun _ _ alike within _ => .given alike within rfl rfl rfl

theorem Withholds.refuse (source : String) (problem : Problem) :
    Withholds outlook expects (Reading.refuse source problem : Reading (Option β)) :=
  Twins.bind (Meets.report source problem) fun _ _ _ => Twins.pure rfl

theorem Withholds.refuseMissing (source : String) :
    Withholds outlook expects (Reading.refuseMissing source : Reading (Option β)) :=
  Withholds.refuse source _

/-- A reading that ends with its last step is one that goes on with nothing. -/
theorem Twins.ofBind {reading twin : Reading β} {admits : β → List Diagnostic → Prop}
    (twins : Twins outlook expects (reading >>= Pure.pure) (twin >>= Pure.pure) admits) :
    Twins outlook expects reading twin admits := by
  rwa [bind_pure, bind_pure] at twins

theorem Meets.argumentError (source : String) (item : ArgumentName) (kind : ArgumentKind) :
    Meets outlook expects (Reading.argumentError source item kind) fun _ _ => True := by
  refine Meets.peek fun token => ?_
  refine Twins.branch (fun _ => (Meets.report _ _).mono fun _ _ _ => trivial) fun named => ?_
  intro scan other alike within sees
  refine .given ?_ ?_ rfl rfl trivial
  · simpa using alike_tail alike (sees ▸ (visible_passes named))
  · simpa using (List.tail_suffix _).trans within

theorem Withholds.refuseArgument (source : String) (kind : ArgumentKind) :
    Withholds outlook expects (Reading.refuseArgument source kind : Reading (Option β)) :=
  Twins.bind (Meets.argumentError source _ kind) fun _ _ _ => Twins.pure rfl

/-! ### Words -/

theorem Passes.accept (word : String) (passable : word ∉ endMarkers) :
    Passes outlook expects (Reading.accept word) fun _ => True := by
  refine Meets.peek fun token => ?_
  refine Twins.branch (fun given => ?_) fun _ => Passes.pure trivial
  obtain rfl : token = word := by simpa using given
  exact Meets.advance (outlook.literal_passes passable) (Passes.pure trivial)

theorem Passes.fixed : Passes outlook expects Reading.fixed fun _ => True :=
  Passes.accept "FIXED" (by decide)

theorem Passes.off : Passes outlook expects Reading.off fun _ => True :=
  Passes.accept "OFF" (by decide)

theorem Passes.symmetry : Passes outlook expects Reading.symmetry fun _ => True := by
  refine Meets.peek fun token => ?_
  cases found : Symmetry.ofWord? token with
  | none => exact Passes.pure trivial
  | some symmetry =>
      have passable : token ∉ outlook.stops :=
        outlook.passes (fun token => (Symmetry.ofWord? token).isSome) (by decide) (by simp [found])
      exact Meets.advance passable (Passes.pure trivial)

/-! ### Numbers -/

/-- **The numeric tokens are those that have a value.** -/
theorem isNumeric_eq (token : String) :
    isNumeric α token = (readToken? token : Option α).isSome := by
  unfold isNumeric readToken? isPlainNumber
  split
  · rename_i empty
    obtain rfl := String.isEmpty_iff.mp empty
    have unread : Literal.read? "" = none ∧ slashParts "" = none := by decide
    rw [readFinite?, readFraction?, unread.1, unread.2]
    rfl
  · cases plain : (readFinite? token : Option α) with
    | some value => rfl
    | none =>
        dsimp only [Option.isSome_none]
        rw [if_neg Bool.false_ne_true, Option.isSome_map, readFraction?]
        cases slashParts token with
        | none => rfl
        | some parts =>
            dsimp only [Option.bind_some]
            cases (readFinite? parts.1 : Option α) <;> cases (readFinite? parts.2 : Option α) <;> rfl

theorem isNumeric_iff_exists {token : String} :
    isNumeric α token = true ↔ ∃ value : α, readToken? token = some value := by
  rw [isNumeric_eq, Option.isSome_iff_exists]

theorem isNumeric_of_unread {token : String} (unread : Literal.read? token = none)
    (whole : slashParts token = none) : isNumeric α token = false := by
  simp [isNumeric_eq, readToken?, readFinite?, readFraction?, unread, whole]

@[simp] theorem isNumeric_empty : isNumeric α "" = false :=
  isNumeric_of_unread (by decide) (by decide)

theorem numeric_passes {token : String} (numeric : isNumeric α token = true) :
    token ∉ outlook.stops := by
  have markers : ∀ marker ∈ endMarkers, isNumeric α marker = false := by
    rintro _ (_ | ⟨_, _ | ⟨_, ⟨⟩⟩⟩)
    · exact isNumeric_of_unread (by decide) (by decide)
    · exact isNumeric_of_unread (by decide) (by decide)
  refine outlook.passes (isNumeric α) (List.all_eq_true.mpr fun marker member => ?_) numeric
  rw [markers marker member]
  rfl

/-- The expectation that the next token is a number. -/
def Numeric (α : Type) [Scalar α] (expects : List String → List String → Prop) : Prop :=
  ∀ here there, expects here there → isNumeric α (here.headD "") = true

theorem numeric_head : Numeric α fun here there =>
    expects here there ∧ isNumeric α (here.headD "") = true :=
  fun _ _ expected => expected.2

theorem run_takeNumber {scan : Scan} {value : α}
    (read : readToken? scan.reader.peek = some value) :
    (takeNumber : Reading α).run scan
      = .ok (value, { scan with reader := scan.reader.advance }) := by
  have taken : readNumber scan.reader.peek = .ok value := by simp [readNumber, read]
  unfold Reading.takeNumber Reading.peek Reading.advance
  simp only [StateT.run_bind, StateT.run_pure, StateT.run_monadLift, StateT.run_get,
    StateT.run_modify, pure_bind, taken]
  rfl

theorem run_nextIsNumeric (token : String) {behind rest : List String}
    {reported : List Diagnostic} :
    (nextIsNumeric α).run ⟨⟨behind, token :: rest⟩, reported⟩
      = .ok (isNumeric α token, ⟨⟨behind, token :: rest⟩, reported⟩) := by
  rw [nextIsNumeric, run_bind_ok run_peek]
  rfl

theorem Twins.takeNumber {next twinNext : α → Reading γ} (numeric : Numeric α expects)
    (onward : ∀ here there, expects here there → later here.tail there.tail)
    (goOn : ∀ value token, token ∈ outlook.tokens → readToken? token = some value →
      Twins outlook later (next value) (twinNext value) final) :
    Twins outlook expects (Reading.takeNumber >>= next) (Reading.takeNumber >>= twinNext) final := by
  intro scan other alike within expected
  have isNumber : isNumeric α scan.reader.peek = true := numeric _ _ expected
  obtain ⟨value, read⟩ := isNumeric_iff_exists.mp isNumber
  have member : scan.reader.peek ∈ outlook.tokens := by
    refine within.subset ?_
    obtain ⟨⟨behind, here⟩, reported⟩ := scan
    cases here with
    | nil => exact absurd isNumber (by simp [Reader.peek])
    | cons token rest => exact List.mem_cons_self
  rw [StateT.run_bind, StateT.run_bind, run_takeNumber read,
    run_takeNumber ((peek_eq alike).symm ▸ read)]
  have opened := goOn value _ member read { scan with reader := scan.reader.advance }
    { other with reader := other.reader.advance }
    (by simpa using alike_tail alike (numeric_passes isNumber))
    (by simpa using (List.tail_suffix _).trans within)
    (by simpa using onward _ _ expected)
  exact opened.rebase rfl rfl

theorem Passes.takeNumber (numeric : Numeric α expects) :
    Passes outlook expects (Reading.takeNumber : Reading α) fun _ => True :=
  Twins.ofBind (Twins.takeNumber numeric intoAnywhere
    fun _ _ _ _ => Passes.pure trivial)

theorem isFinite_eq_false_of_wholePart {value : α} {fault : Fault}
    (failed : wholePart value = .error fault) : isFinite value = false := by
  unfold wholePart at failed
  unfold isFinite
  cases found : denotation value with
  | finite exact => rw [found] at failed; cases failed
  | infinite negative => rfl
  | undefined => rfl

theorem Twins.takeWhole {next twinNext : Int → Reading γ} (numeric : Numeric α expects)
    (onward : ∀ here there, expects here there → later here.tail there.tail)
    (goOn : ∀ count, IsWhole α count →
      Twins outlook later (next count) (twinNext count) final) :
    Twins outlook expects (Reading.takeWhole α >>= next) (Reading.takeWhole α >>= twinNext)
      final := by
  unfold Reading.takeWhole
  rw [bind_assoc, bind_assoc]
  refine Twins.takeNumber numeric onward fun value token member read => ?_
  exact Twins.ofExcept
    (fun fault failed => .unbounded member read (isFinite_eq_false_of_wholePart failed))
    fun count whole => goOn count ⟨value, whole⟩

theorem Passes.takeWhole (numeric : Numeric α expects) :
    Passes outlook expects (Reading.takeWhole α) (IsWhole α) :=
  Twins.ofBind (Twins.takeWhole numeric intoAnywhere
    fun _ whole => Passes.pure whole)

theorem Gives.numberIn (source : String) (inside : α → Bool) :
    Gives outlook expects (Reading.numberIn source inside) fun value => inside value = true := by
  refine Twins.ifNumeric ?_ (Withholds.refuseArgument _ _).gives
  refine Passes.bind (Passes.takeNumber numeric_head) fun value _ => ?_
  exact Twins.branch (fun holds => Gives.known holds) fun _ => (Withholds.refuse _ _).gives

theorem Gives.whole (source : String) (bounds : Bounds Int) :
    Gives outlook expects (Reading.whole α source bounds)
      fun count => IsWhole α count ∧ bounds.contains count = true := by
  refine Twins.ifNumeric ?_ (Withholds.refuseArgument _ _).gives
  refine Passes.bind (Passes.takeWhole numeric_head) fun count whole => ?_
  exact Twins.branch (fun holds => Gives.known ⟨whole, holds⟩) fun _ =>
    (Withholds.refuse _ _).gives

theorem Gives.zoom (source : String) :
    Gives outlook expects (Reading.zoom source) (IsZoom : α → Prop) := by
  refine Twins.ifNumeric ?_ (Withholds.refuseArgument _ _).gives
  refine Passes.bind (Passes.takeNumber numeric_head) fun literal _ => ?_
  cases zoomed : magnification literal with
  | none => exact (Withholds.refuse _ _).gives
  | some value => exact Gives.known ⟨literal, zoomed⟩

theorem Passes.optionalWhole :
    Passes outlook expects (Reading.optionalWhole α) fun _ => True :=
  Twins.ifNumeric ((Passes.takeWhole numeric_head).mono fun _ _ given => ⟨given.1, trivial⟩)
    (Passes.pure trivial)

theorem Passes.position : Passes outlook expects (Reading.position α) fun _ => True :=
  Passes.bind Passes.optionalWhole fun _ _ =>
    Passes.bind Passes.optionalWhole fun _ _ => Passes.pure trivial

/-- A fresh name is no word of scripts. -/
theorem Gives.freshName (source : String) :
    Gives outlook expects (Reading.freshName α source) fun name => isScriptWord name = false := by
  refine Meets.peek fun name => ?_
  refine Twins.branch (fun _ => (Withholds.refuseMissing _).gives) fun named => ?_
  refine Meets.advance (visible_passes named) ?_
  exact Twins.branch (fun _ => (Withholds.refuse _ _).gives) fun _ =>
    Gives.known (isScriptWord_of_visible named)

end Showreel.Script
