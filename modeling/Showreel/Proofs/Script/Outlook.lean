import Showreel.Script.Argument
import Showreel.Script.Draft

/-!
Contract: how two readings of arguments go side by side.

Owns:
- outlooks: which token lists two readings may meet, and the words neither of them passes;
- the excuses for which a reading may fail;
- agreement: both readings give the same value and the same new reports, or both fail alike;
- the rules by which agreement goes through the steps of a reading.

Does not own: the readings. A reading that agrees with itself under the outlook of one
token list is one reading with a postcondition; under the outlook of two lists that part
behind an end marker it is one that does not look past the marker.
-/

namespace Showreel.Script

open Number Scalar Pattern

variable {α : Type}

/-- The words that end a script block. -/
def endMarkers : List String := ["]]", "ENDSCRIPT"]

/-- What the reading of arguments is seen against: the draft and the refresh rate of the
script, the tokens that are left to it, and the token lists that two readings may meet in
the same place. -/
structure Outlook (α : Type) where
  draft : Draft α
  refreshRate : Int
  tokens : List String
  alike : List String → List String → Prop
  /-- Words that no reading of arguments passes; behind them the lists may part. -/
  stops : List String
  head : ∀ {here there}, alike here there → here.head? = there.head?
  tail : ∀ {token here there}, alike (token :: here) (token :: there) → token ∉ stops →
    alike here there
  ending : ∀ {there}, alike [] there → ∀ {left right}, alike left right → left = right
  stops_marker : ∀ {token}, token ∈ stops → token ∈ endMarkers
  recipes_pass : ∀ {name}, (draft.recipes.lookup name).isSome → name ∉ stops

namespace Outlook

variable (outlook : Outlook α)

/-- The outlook of a single reading. -/
def single (draft : Draft α) (refreshRate : Int) (tokens : List String) : Outlook α where
  draft := draft
  refreshRate := refreshRate
  tokens := tokens
  alike := Eq
  stops := []
  head same := by rw [same]
  tail same _ := (List.cons.inj same).2
  ending _ _ _ same := same
  stops_marker impossible := nomatch impossible
  recipes_pass _ := List.not_mem_nil

/-- Lists that part behind a marker. -/
def PartedBehind (marker : String) (tail other here there : List String) : Prop :=
  ∃ shared, here = shared ++ marker :: tail ∧ there = shared ++ marker :: other

/-- The outlook of two readings over lists that part behind an end marker. -/
def parting (draft : Draft α) (refreshRate : Int) (marker : String) (tail other : List String)
    (ends : marker ∈ endMarkers)
    (pass : ∀ name, (draft.recipes.lookup name).isSome → name ∉ endMarkers)
    (tokens : List String) : Outlook α where
  draft := draft
  refreshRate := refreshRate
  tokens := tokens
  alike := PartedBehind marker tail other
  stops := endMarkers
  head := by
    rintro _ _ ⟨shared, rfl, rfl⟩
    cases shared <;> rfl
  tail := by
    rintro token here there ⟨shared, left, right⟩ passed
    cases shared with
    | nil =>
        obtain ⟨rfl, -⟩ := List.cons.inj left
        exact absurd ends passed
    | cons first rest => exact ⟨rest, (List.cons.inj left).2, (List.cons.inj right).2⟩
  ending := by
    rintro _ ⟨shared, empty, -⟩
    cases shared <;> cases empty
  stops_marker member := member
  recipes_pass known := pass _ known

/-- A test that no end marker passes lets a reading go on. -/
theorem passes {token : String} (test : String → Bool)
    (fails : endMarkers.all (fun marker => !test marker) = true) (passed : test token = true) :
    token ∉ outlook.stops := by
  intro stops
  have failed := List.all_eq_true.mp fails token (outlook.stops_marker stops)
  rw [passed] at failed
  cases failed

/-- A word that ends no script block lets a reading go on. -/
theorem literal_passes {word : String} (literal : word ∉ endMarkers) : word ∉ outlook.stops :=
  fun stops => literal (outlook.stops_marker stops)

variable [Scalar α]

/-- The reasons for which the reading of arguments may fail. -/
inductive Excused : Fault → Prop
  /-- A numeric token has no finite value. -/
  | unbounded {token : String} {value : α} {fault : Fault} (member : token ∈ outlook.tokens)
      (read : readToken? token = some value) (infinite : isFinite value = false) : Excused fault
  /-- A whole number no larger than one that was read is out of the range of scalars. -/
  | uncountable {count bound : Int} {value : α} {fault : Fault}
      (whole : wholePart value = .ok bound) (within : 0 ≤ count ∧ count ≤ bound)
      (failed : (ofInt count : Except Fault α) = .error fault) : Excused fault
  /-- The largest grid has no side. -/
  | grid {fault : Fault} (failed : (outlook.draft.halfGrid : Except Fault α) = .error fault) :
      Excused fault
  /-- Frames are not shown at any rate. -/
  | rate {fault : Fault} (low : outlook.refreshRate < 1) : Excused fault
  /-- A run-length text, which may be spread over tokens, cannot be decoded. -/
  | text {run : List String} {fault : Fault} (member : run <:+: outlook.tokens)
      (failed : RunLength.decode (String.join run).toList = .error fault) : Excused fault

end Outlook

variable [Scalar α] {β γ : Type} {outlook : Outlook α}

/-- The outcomes of two readings that started from `scan` and `other` agree: the same value and
the same new reports, which the condition admits, with token lists ahead that are still alike; or
the same excused failure. -/
inductive Agree (outlook : Outlook α) (scan other : Scan) (admits : β → List Diagnostic → Prop) :
    Except Fault (β × Scan) → Except Fault (β × Scan) → Prop
  | given {value : β} {new : List Diagnostic} {after twin : Scan}
      (alike : outlook.alike after.reader.ahead twin.reader.ahead)
      (within : after.reader.ahead <:+ outlook.tokens)
      (reported : after.reported = scan.reported ++ new)
      (echoed : twin.reported = other.reported ++ new)
      (admitted : admits value new) :
      Agree outlook scan other admits (.ok (value, after)) (.ok (value, twin))
  | failed {fault : Fault} (excused : outlook.Excused fault) :
      Agree outlook scan other admits (.error fault) (.error fault)

namespace Agree

variable {scan other after twin : Scan} {admits : β → List Diagnostic → Prop}
  {here there : Except Fault (β × Scan)}

theorem mono {weaker : β → List Diagnostic → Prop} (agree : Agree outlook scan other admits here there)
    (weaken : ∀ value new, admits value new → weaker value new) :
    Agree outlook scan other weaker here there := by
  cases agree with
  | given alike within reported echoed admitted =>
      exact .given alike within reported echoed (weaken _ _ admitted)
  | failed excused => exact .failed excused

/-- Readings that go on from where two readings left off. -/
theorem extend {new : List Diagnostic}
    (agree : Agree outlook after twin (fun value more => admits value (new ++ more)) here there)
    (reported : after.reported = scan.reported ++ new)
    (echoed : twin.reported = other.reported ++ new) :
    Agree outlook scan other admits here there := by
  cases agree with
  | given alike within moreReported moreEchoed admitted =>
      refine .given alike within ?_ ?_ admitted
      · rw [moreReported, reported, List.append_assoc]
      · rw [moreEchoed, echoed, List.append_assoc]
  | failed excused => exact .failed excused

/-- Only what was reported before counts of the scans where the readings started. -/
theorem rebase (agree : Agree outlook after twin admits here there)
    (reported : after.reported = scan.reported) (echoed : twin.reported = other.reported) :
    Agree outlook scan other admits here there := by
  cases agree with
  | given alike within moreReported moreEchoed admitted =>
      exact .given alike within (reported ▸ moreReported) (echoed ▸ moreEchoed) admitted
  | failed excused => exact .failed excused

end Agree

/-- Two readings agree wherever alike lists are ahead that are as expected, and the condition
admits what they give and report. -/
def Twins (outlook : Outlook α) (expects : List String → List String → Prop)
    (reading twin : Reading β) (admits : β → List Diagnostic → Prop) : Prop :=
  ∀ scan other : Scan, outlook.alike scan.reader.ahead other.reader.ahead →
    scan.reader.ahead <:+ outlook.tokens → expects scan.reader.ahead other.reader.ahead →
    Agree outlook scan other admits (reading.run scan) (twin.run other)

abbrev Meets (outlook : Outlook α) (expects : List String → List String → Prop)
    (reading : Reading β) (admits : β → List Diagnostic → Prop) : Prop :=
  Twins outlook expects reading reading admits

/-- The reading gives a good value and reports nothing. -/
abbrev Passes (outlook : Outlook α) (expects : List String → List String → Prop)
    (reading : Reading β) (good : β → Prop) : Prop :=
  Meets outlook expects reading fun value new => new = [] ∧ good value

/-- The reading gives a good value without a report, or none. -/
abbrev Gives (outlook : Outlook α) (expects : List String → List String → Prop)
    (reading : Reading (Option β)) (good : β → Prop) : Prop :=
  Meets outlook expects reading fun result new =>
    ∀ value, result = some value → new = [] ∧ good value

/-- The reading gives no value. -/
abbrev Withholds (outlook : Outlook α) (expects : List String → List String → Prop)
    (reading : Reading (Option β)) : Prop :=
  Meets outlook expects reading fun result _ => result = none

/-- No expectation of the tokens ahead. -/
def Anywhere (_ _ : List String) : Prop := True

/-- The next token, empty at the end, is a given one. -/
def Sees (token : String) (here _ : List String) : Prop := here.headD "" = token

namespace Twins

variable {expects : List String → List String → Prop} {reading twin first twinFirst : Reading β}
  {next twinNext : β → Reading γ}
  {admits : β → List Diagnostic → Prop} {final : γ → List Diagnostic → Prop}

theorem mono {weaker : β → List Diagnostic → Prop}
    (twins : Twins outlook expects reading twin admits)
    (weaken : ∀ value new, admits value new → weaker value new) :
    Twins outlook expects reading twin weaker :=
  fun scan other alike within expected => (twins scan other alike within expected).mono weaken

theorem expecting {stronger : List String → List String → Prop}
    (twins : Twins outlook expects reading twin admits)
    (weaken : ∀ here there, stronger here there → expects here there) :
    Twins outlook stronger reading twin admits :=
  fun scan other alike within expected => twins scan other alike within (weaken _ _ expected)

theorem pure {value : β} (admitted : admits value []) :
    Twins outlook expects (pure value) (pure value) admits :=
  fun _ _ alike within _ =>
    .given alike within (List.append_nil _).symm (List.append_nil _).symm admitted

theorem bind (start : Twins outlook expects first twinFirst admits)
    (goOn : ∀ value new, admits value new →
      Twins outlook Anywhere (next value) (twinNext value)
        fun result more => final result (new ++ more)) :
    Twins outlook expects (first >>= next) (twinFirst >>= twinNext) final := by
  intro scan other alike within expected
  have opening := start scan other alike within expected
  rw [StateT.run_bind, StateT.run_bind]
  generalize first.run scan = here at opening ⊢
  generalize twinFirst.run other = there at opening ⊢
  cases opening with
  | given alike within reported echoed admitted =>
      exact (goOn _ _ admitted _ _ alike within trivial).extend reported echoed
  | failed excused => exact .failed excused

theorem branch {condition : Prop} [Decidable condition] {other twinOther : Reading β}
    (holds : condition → Twins outlook expects reading twin admits)
    (fails : ¬condition → Twins outlook expects other twinOther admits) :
    Twins outlook expects (if condition then reading else other)
      (if condition then twin else twinOther) admits := by
  by_cases decided : condition
  · rw [if_pos decided, if_pos decided]
    exact holds decided
  · rw [if_neg decided, if_neg decided]
    exact fails decided

theorem throw {fault : Fault} (excused : outlook.Excused fault) :
    Twins outlook expects (MonadExcept.throw fault >>= next) (MonadExcept.throw fault >>= twinNext)
      final :=
  fun _ _ _ _ _ => .failed excused

/-- A step that may fail changes neither the place nor the reports. -/
theorem ofExcept {result : Except Fault β}
    (excused : ∀ fault, result = .error fault → outlook.Excused fault)
    (goOn : ∀ value, result = .ok value →
      Twins outlook expects (next value) (twinNext value) final) :
    Twins outlook expects (liftM result >>= next) (liftM result >>= twinNext) final := by
  intro scan other alike within expected
  cases result with
  | ok value => exact goOn value rfl scan other alike within expected
  | error fault => exact .failed (excused fault rfl)

end Twins

/-! ### Readings that give a value -/

section Values

variable {expects : List String → List String → Prop} {good : β → Prop} {fine : γ → Prop}
  {final : γ → List Diagnostic → Prop}

theorem Passes.pure {value : β} (holds : good value) :
    Passes outlook expects (pure value) good :=
  Twins.pure ⟨rfl, holds⟩

theorem Passes.bind {first : Reading β} {next twinNext : β → Reading γ}
    (start : Passes outlook expects first good)
    (goOn : ∀ value, good value →
      Twins outlook Anywhere (next value) (twinNext value) final) :
    Twins outlook expects (first >>= next) (first >>= twinNext) final := by
  refine Twins.bind start ?_
  rintro value _ ⟨rfl, holds⟩
  exact goOn value holds

theorem Withholds.none : Withholds outlook expects (pure none : Reading (Option β)) :=
  Twins.pure rfl

theorem Withholds.gives {reading : Reading (Option β)}
    (withholds : Withholds outlook expects reading) : Gives outlook expects reading good := by
  refine Twins.mono withholds ?_
  rintro _ _ rfl value impossible
  cases impossible

theorem Gives.known {value : β} (holds : good value) :
    Gives outlook expects (pure (some value)) good := by
  refine Twins.pure ?_
  rintro _ ⟨⟩
  exact ⟨rfl, holds⟩

/-- A reading that goes on only with a value that was given. -/
theorem Gives.bind {first : Reading (Option β)} {next : Option β → Reading (Option γ)}
    (start : Gives outlook expects first good)
    (stops : Withholds outlook Anywhere (next none))
    (goOn : ∀ value, good value → Gives outlook Anywhere (next (some value)) fine) :
    Gives outlook expects (first >>= next) fine := by
  refine Twins.bind start ?_
  intro result new admitted
  cases result with
  | none =>
      refine stops.mono ?_
      rintro _ _ rfl value impossible
      cases impossible
  | some value =>
      obtain ⟨rfl, holds⟩ := admitted value rfl
      exact goOn value holds

theorem Gives.map {first : Reading (Option β)} {build : β → γ}
    (start : Gives outlook expects first good) (holds : ∀ value, good value → fine (build value)) :
    Gives outlook expects (first >>= fun result => Pure.pure (result.map build)) fine :=
  Gives.bind start Withholds.none fun value given => Gives.known (holds value given)

end Values

end Showreel.Script
