import Showreel.Configuration
import Showreel.Number.Shortest
import Showreel.Proofs.Number.Quotients
import Showreel.Proofs.Waypoint.Change

/-!
Contract: the settings of a run and what is supplied for them.

Owns:
- which numbers, truth values, levels and files values stand for;
- that a setting is what is supplied for it where that stands for something allowed, and its
  default elsewhere, and the ranges that follow;
- which documents settings can be read from, and that they can be read from every environment.

Does not own: the text of a document.

Three kinds of values are not passed over as malformed but end the reading: an infinity for a whole
number, a whole number out of range for a real one, and a log file that is named by no text.
-/

namespace Showreel

open Number Scalar

theorem completes_ok {β : Type} (result : β) : Completes (.ok result : Except Fault β) :=
  ⟨result, rfl⟩

namespace Configuration

variable {α β : Type}

/-! ### What is supplied -/

/-- A setting is what is supplied for it, if that stands for something allowed, and else its
default. -/
def Settled (stands : Json α → β → Prop) (allowed : β → Prop) (supplied : Option (Json α))
    (fallback result : β) : Prop :=
  (∃ value ∈ supplied, stands value result ∧ allowed result)
    ∨ (∀ value ∈ supplied, ∀ other, stands value other → ¬allowed other) ∧ result = fallback

theorem Settled.allowed {stands : Json α → β → Prop} {allowed : β → Prop}
    {supplied : Option (Json α)} {fallback result : β}
    (settled : Settled stands allowed supplied fallback result) (standard : allowed fallback) :
    allowed result := by
  obtain ⟨_, _, _, within⟩ | ⟨_, rfl⟩ := settled
  · exact within
  · exact standard

/-- A conversion finds what a value stands for, if it stands for anything, unless it ends at the
value. -/
structure Converts (convert : Json α → Except Fault (Option β)) (stands : Json α → β → Prop)
    (ends : Json α → Prop) : Prop where
  finds : ∀ {value result}, convert value = .ok (some result) ↔ stands value result
  completes : ∀ {value}, Completes (convert value) ↔ ¬ends value

/-- What is found in a value, if it passes, and else the default. -/
def settle (convert : Json α → Except Fault (Option β)) (passes : β → Bool)
    (supplied : Option (Json α)) (fallback : β) : Except Fault β :=
  match supplied with
  | none => .ok fallback
  | some given => (convert given).map fun found => (found.filter passes).getD fallback

namespace Converts

variable {convert : Json α → Except Fault (Option β)} {stands : Json α → β → Prop}
  {ends : Json α → Prop} {passes : β → Bool} {supplied : Option (Json α)} {fallback result : β}

theorem completes_settle (converts : Converts convert stands ends) :
    Completes (settle convert passes supplied fallback) ↔ ∀ value ∈ supplied, ¬ends value := by
  cases supplied with
  | none => exact iff_of_true (completes_ok _) nofun
  | some given =>
      rw [settle, completes_map_iff, converts.completes]
      exact ⟨fun known value same => Option.mem_some.mp same ▸ known, fun known => known given rfl⟩

theorem settled (converts : Converts convert stands ends)
    (done : settle convert passes supplied fallback = .ok result) :
    Settled stands (passes · = true) supplied fallback result := by
  cases supplied with
  | none =>
      cases done
      exact .inr ⟨nofun, rfl⟩
  | some given =>
      obtain ⟨found, known, rfl⟩ := map_eq_ok done
      cases kept : found.filter passes with
      | some result =>
          obtain ⟨rfl, passed⟩ := Option.filter_eq_some_iff.mp kept
          exact .inl ⟨given, rfl, converts.finds.mp known, passed⟩
      | none =>
          refine .inr ⟨?_, rfl⟩
          rintro value ⟨⟩ other standsFor passed
          cases known.symm.trans (converts.finds.mpr standsFor)
          exact absurd passed (Option.filter_eq_none_iff.mp kept other rfl)

end Converts

variable [Scalar α]

/-! ### What values stand for -/

/-- The whole numbers of values; a real number stands for its whole part. -/
inductive StandsForWhole : Json α → ℤ → Prop
  | truth (given : Bool) : StandsForWhole (.bool given) (if given then 1 else 0)
  | whole (given : ℤ) : StandsForWhole (.whole given) given
  | real {given : α} {exact : ℚ} (finite : denotation given = .finite exact) :
      StandsForWhole (.real given) (truncate exact)
  | text {given : String} {count : ℤ} (read : Literal.readWhole given = .ok (some count)) :
      StandsForWhole (.text given) count

/-- The real numbers of values. -/
inductive StandsForReal : Json α → α → Prop
  | truth (given : Bool) : StandsForReal (.bool given) (if given then 1 else 0)
  | whole {given : ℤ} {value : α} (converted : ofInt given = .ok value) :
      StandsForReal (.whole given) value
  | real (given : α) : StandsForReal (.real given) given
  | text {given : String} {literal : Literal} (read : Literal.read? given = some literal) :
      StandsForReal (.text given) (ofLiteral literal)

/-- The truth values of values. -/
inductive StandsForTruth : Json α → Bool → Prop
  | truth (given : Bool) : StandsForTruth (.bool given) given
  | whole (given : ℤ) : StandsForTruth (.whole given) (given != 0)
  | real (given : α) : StandsForTruth (.real given) (!isZero given)
  | text (given : String) :
      StandsForTruth (.text given) (trueWords.contains (Text.lower (Text.trimmed given)))

/-- The levels that texts name. -/
inductive StandsForLevel : Json α → LogLevel → Prop
  | text {given : String} {level : LogLevel}
      (named : LogLevel.ofWord? (Text.trimmed given) = some level) :
      StandsForLevel (.text given) level

/-- The files that texts name. -/
inductive StandsForFile : Json α → Option Storage.Path → Prop
  | text {given : String} (written : given ≠ "") :
      StandsForFile (.text given) (some (.ofText given))

/-! ### Values that end the reading -/

/-- An infinity has no whole part. -/
def IsInfinite (value : Json α) : Prop :=
  ∃ (given : α) (negative : Bool), value = .real given ∧ denotation given = .infinite negative

/-- A whole number that no scalar is near to. -/
def IsTooLarge (value : Json α) : Prop :=
  ∃ given : ℤ, value = .whole given ∧ isFinite (ofRat (given : ℚ) : α) = false

/-- A value that is neither text nor empty cannot name a file. -/
def NamesNothing (value : Json α) : Prop :=
  value.isTruthy isZero = true ∧ ∀ given, value ≠ .text given

theorem wholeOf_eq_some_iff {value : Json α} {count : ℤ} :
    wholeOf? value = .ok (some count) ↔ StandsForWhole value count := by
  constructor
  · intro found
    cases value with
    | null | list | object => cases found
    | bool given =>
        cases found
        exact .truth _
    | whole given =>
        cases found
        exact .whole _
    | text given =>
        refine .text ?_
        simp only [wholeOf?] at found
        cases read : Literal.readWhole given with
        | error fault => rw [read] at found; cases found
        | ok result =>
            rw [read] at found
            exact found
    | real given =>
        cases known : denotation given with
        | infinite | undefined => simp only [wholeOf?, wholePart, known] at found; cases found
        | finite exact =>
            simp only [wholeOf?, wholePart, known] at found
            cases found
            exact .real known
  · rintro (_ | _ | finite | read)
    · rfl
    · rfl
    · simp only [wholeOf?, wholePart, finite]
      rfl
    · simp only [wholeOf?, read]
      rfl

theorem wholeOf_converts :
    Converts (wholeOf? : Json α → Except Fault (Option ℤ)) StandsForWhole IsInfinite where
  finds := wholeOf_eq_some_iff
  completes := by
    intro value
    cases value with
    | null | list | object | bool | whole | text =>
        refine iff_of_true (completes_ok _) ?_
        rintro ⟨_, _, ⟨⟩, _⟩
    | real given =>
        cases known : denotation given with
        | infinite negative =>
            refine iff_of_false ?_ (not_not_intro ⟨given, negative, rfl, known⟩)
            simp only [wholeOf?, wholePart, known]
            exact not_completes_error _
        | finite | undefined =>
            refine iff_of_true ?_ ?_
            · simp only [wholeOf?, wholePart, known]
              exact completes_ok _
            · rintro ⟨_, negative, ⟨⟩, infinite⟩
              cases known.symm.trans infinite

theorem realOf_eq_some_iff {value : Json α} {result : α} :
    realOf? value = .ok (some result) ↔ StandsForReal value result := by
  constructor
  · intro found
    cases value with
    | null | list | object => cases found
    | bool given =>
        cases found
        exact .truth _
    | real given =>
        cases found
        exact .real _
    | text given =>
        obtain ⟨literal, read, rfl⟩ := Option.map_eq_some_iff.mp (Except.ok.inj found)
        exact .text read
    | whole given =>
        obtain ⟨_, converted, ⟨⟩⟩ := map_eq_ok found
        exact .whole converted
  · rintro (_ | converted | _ | read)
    · rfl
    · simp only [realOf?, converted]
      rfl
    · rfl
    · simp only [realOf?, read]
      rfl

theorem realOf_converts :
    Converts (realOf? : Json α → Except Fault (Option α)) StandsForReal IsTooLarge where
  finds := realOf_eq_some_iff
  completes := by
    intro value
    cases value with
    | null | list | object | bool | real | text =>
        refine iff_of_true (completes_ok _) ?_
        rintro ⟨_, ⟨⟩, _⟩
    | whole given =>
        simp only [realOf?, ofInt, inRange]
        split_ifs with finite
        · refine iff_of_true (completes_ok _) ?_
          rintro ⟨_, ⟨⟩, beyond⟩
          exact absurd finite (by rw [beyond]; exact Bool.false_ne_true)
        · exact iff_of_false (not_completes_error _)
            (not_not_intro ⟨given, rfl, Bool.eq_false_of_not_eq_true finite⟩)

/-! ### Settings -/

theorem positiveWhole_eq_settle (supplied : Option (Json α)) (fallback : ℤ) :
    positiveWhole supplied fallback
      = settle wholeOf? (fun number => decide (0 < number)) supplied fallback := by
  cases supplied <;> rfl

theorem positiveReal_eq_settle (supplied : Option (Json α)) (fallback : α) :
    positiveReal supplied fallback
      = settle realOf? (fun number => decide ((0 : α) < number)) supplied fallback := by
  cases supplied <;> rfl

theorem completes_positiveWhole_iff {supplied : Option (Json α)} {fallback : ℤ} :
    Completes (positiveWhole supplied fallback) ↔ ∀ value ∈ supplied, ¬IsInfinite value := by
  rw [positiveWhole_eq_settle]
  exact wholeOf_converts.completes_settle

theorem completes_positiveReal_iff {supplied : Option (Json α)} {fallback : α} :
    Completes (positiveReal supplied fallback) ↔ ∀ value ∈ supplied, ¬IsTooLarge value := by
  rw [positiveReal_eq_settle]
  exact realOf_converts.completes_settle

theorem settled_positiveWhole {supplied : Option (Json α)} {fallback count : ℤ}
    (done : positiveWhole supplied fallback = .ok count) :
    Settled StandsForWhole (0 < ·) supplied fallback count := by
  rw [positiveWhole_eq_settle] at done
  simpa using wholeOf_converts.settled done

theorem settled_positiveReal {supplied : Option (Json α)} {fallback number : α}
    (done : positiveReal supplied fallback = .ok number) :
    Settled StandsForReal ((0 : α) < ·) supplied fallback number := by
  rw [positiveReal_eq_settle] at done
  simpa using realOf_converts.settled done

theorem StandsForWhole.unique {value : Json α} {count other : ℤ}
    (standsFor : StandsForWhole value count) (standsForToo : StandsForWhole value other) :
    count = other := by
  have known := wholeOf_eq_some_iff.mpr standsFor
  cases known.symm.trans (wholeOf_eq_some_iff.mpr standsForToo)
  rfl

/-- A positive whole number is kept within narrower bounds. -/
theorem Settled.within {supplied : Option (Json α)} {fallback count least greatest : ℤ}
    (settled : Settled StandsForWhole (0 < ·) supplied fallback count) (positive : 0 < least) :
    Settled StandsForWhole (fun number => least ≤ number ∧ number ≤ greatest) supplied fallback
      (if least ≤ count ∧ count ≤ greatest then count else fallback) := by
  obtain ⟨value, given, standsFor, _⟩ | ⟨none, rfl⟩ := settled
  · split_ifs with within
    · exact .inl ⟨value, given, standsFor, within⟩
    · refine .inr ⟨?_, rfl⟩
      intro other givenToo number standsForToo
      cases Option.mem_unique given givenToo
      rwa [standsForToo.unique standsFor]
  · refine .inr ⟨?_, ite_self _⟩
    intro value given number standsFor bounds
    exact none value given number standsFor (positive.trans_le bounds.1)

theorem settled_truth (supplied : Option (Json α)) (fallback : Bool) :
    Settled StandsForTruth (fun _ => True) supplied fallback (truth supplied fallback) := by
  cases supplied with
  | none => exact .inr ⟨nofun, rfl⟩
  | some value =>
      cases value with
      | bool given => exact .inl ⟨_, rfl, .truth given, trivial⟩
      | whole given => exact .inl ⟨_, rfl, .whole given, trivial⟩
      | real given => exact .inl ⟨_, rfl, .real given, trivial⟩
      | text given => exact .inl ⟨_, rfl, .text given, trivial⟩
      | null | list | object =>
          refine .inr ⟨?_, rfl⟩
          rintro _ ⟨⟩ _ ⟨⟩

omit [Scalar α] in
theorem settled_levelOf (supplied : Option (Json α)) (fallback : LogLevel) :
    Settled StandsForLevel (fun _ => True) supplied fallback (levelOf supplied fallback) := by
  cases supplied with
  | none => exact .inr ⟨nofun, rfl⟩
  | some value =>
      cases value with
      | text given =>
          simp only [levelOf]
          cases named : LogLevel.ofWord? (Text.trimmed given) with
          | some level => exact .inl ⟨_, rfl, .text named, trivial⟩
          | none =>
              refine .inr ⟨?_, rfl⟩
              rintro _ ⟨⟩ _ ⟨namedToo⟩
              cases named.symm.trans namedToo
      | null | bool | whole | real | list | object =>
          refine .inr ⟨?_, rfl⟩
          rintro _ ⟨⟩ _ ⟨⟩

theorem completes_logFileOf_iff {supplied : Option (Json α)} :
    Completes (logFileOf supplied) ↔ ∀ value ∈ supplied, ¬NamesNothing value := by
  cases supplied with
  | none => exact iff_of_true (completes_ok _) nofun
  | some value =>
      have only : (∀ other ∈ some value, ¬NamesNothing other) ↔ ¬NamesNothing value :=
        ⟨fun known => known value rfl, fun known other same => Option.mem_some.mp same ▸ known⟩
      rw [only]
      unfold logFileOf
      dsimp only
      by_cases filled : value.isTruthy isZero = true
      · rw [if_pos filled]
        cases value with
        | text given => exact iff_of_true (completes_ok _) fun ⟨_, noText⟩ => noText given rfl
        | null | bool | whole | real | list | object =>
            exact iff_of_false (not_completes_error _) (not_not_intro ⟨filled, nofun⟩)
      · rw [if_neg filled]
        exact iff_of_true (completes_ok _) fun ⟨filledToo, _⟩ => filled filledToo

theorem settled_logFileOf {supplied : Option (Json α)} {file : Option Storage.Path}
    (done : logFileOf supplied = .ok file) :
    Settled StandsForFile (fun _ => True) supplied none file := by
  cases supplied with
  | none =>
      cases done
      exact .inr ⟨nofun, rfl⟩
  | some value =>
      unfold logFileOf at done
      dsimp only at done
      by_cases filled : value.isTruthy isZero = true
      · rw [if_pos filled] at done
        cases value with
        | text given =>
            cases done
            refine .inl ⟨_, rfl, .text ?_, trivial⟩
            rintro rfl
            cases filled
        | null | bool | whole | real | list | object => cases done
      · rw [if_neg filled] at done
        cases done
        refine .inr ⟨?_, rfl⟩
        rintro _ ⟨⟩ _ ⟨written⟩
        exact absurd (by simpa [Json.isTruthy] using written) filled

/-! ### All settings -/

/-- The whole numbers among the settings that need only be positive, with the names they are
supplied under. -/
def positiveFields : List (String × (ViewerSettings α → ℤ)) :=
  [("refresh_rate", (·.refreshRate)), ("viewport_width", (·.viewportWidth)),
    ("viewport_height", (·.viewportHeight)), ("max_steps_per_tick", (·.maxStepsPerTick)),
    ("grid_size", (·.gridSize))]

/-- Settings that a playback can run with. -/
structure InRange (settings : ViewerSettings α) : Prop where
  positive : ∀ field ∈ positiveFields, 1 ≤ field.2 settings
  power : 9 ≤ settings.maxGridPower ∧ settings.maxGridPower ≤ 14
  budget : (0 : α) < settings.frameBudget

/-- Settings of a viewer that are what is supplied under their names, and their defaults where
what is supplied is malformed. -/
structure FollowsViewer (supplied : String → Option (Json α)) (settings : ViewerSettings α) :
    Prop where
  positive : ∀ field ∈ positiveFields,
    Settled StandsForWhole (0 < ·) (supplied field.1) (field.2 .standard) (field.2 settings)
  power : Settled StandsForWhole (fun power => 9 ≤ power ∧ power ≤ 14)
    (supplied "max_grid_power") 12 settings.maxGridPower
  budget : Settled StandsForReal ((0 : α) < ·) (supplied "frame_budget_ms") 12 settings.frameBudget
  stopping : Settled StandsForTruth (fun _ => True) (supplied "stop_on_errors") true
    settings.stopOnErrors

structure FollowsLog (supplied : String → Option (Json α)) (settings : LogSettings) : Prop where
  level : Settled StandsForLevel (fun _ => True) (supplied "level") .info settings.level
  file : Settled StandsForFile (fun _ => True) (supplied "log_file") none settings.file

/-- Values that settings of a viewer can be read from. -/
structure Readable (supplied : String → Option (Json α)) : Prop where
  power : ∀ value ∈ supplied "max_grid_power", ¬IsInfinite value
  positive : ∀ field ∈ (positiveFields : List (String × (ViewerSettings α → ℤ))),
    ∀ value ∈ supplied field.1, ¬IsInfinite value
  budget : ∀ value ∈ supplied "frame_budget_ms", ¬IsTooLarge value

theorem completes_viewerOf_iff {supplied : String → Option (Json α)} :
    Completes (viewerOf supplied) ↔ Readable supplied := by
  unfold viewerOf
  rw [completes_bind_iff fun _ _ => completes_bind_iff fun _ _ => completes_bind_iff fun _ _ =>
    completes_bind_iff fun _ _ => completes_bind_iff fun _ _ => completes_bind_iff fun _ _ =>
    completes_bind_pure_iff]
  simp only [completes_positiveWhole_iff, completes_positiveReal_iff]
  constructor
  · rintro ⟨power, rate, budget, width, height, steps, size⟩
    refine ⟨power, ?_, budget⟩
    simp only [positiveFields, List.forall_mem_cons]
    exact ⟨rate, width, height, steps, size, nofun⟩
  · rintro ⟨power, positive, budget⟩
    simp only [positiveFields, List.forall_mem_cons] at positive
    obtain ⟨rate, width, height, steps, size, _⟩ := positive
    exact ⟨power, rate, budget, width, height, steps, size⟩

theorem followsViewer {supplied : String → Option (Json α)} {settings : ViewerSettings α}
    (done : viewerOf supplied = .ok settings) : FollowsViewer supplied settings := by
  unfold viewerOf at done
  obtain ⟨power, powerIs, done⟩ := bind_eq_ok done
  obtain ⟨rate, rateIs, done⟩ := bind_eq_ok done
  obtain ⟨budget, budgetIs, done⟩ := bind_eq_ok done
  obtain ⟨width, widthIs, done⟩ := bind_eq_ok done
  obtain ⟨height, heightIs, done⟩ := bind_eq_ok done
  obtain ⟨steps, stepsIs, done⟩ := bind_eq_ok done
  obtain ⟨size, sizeIs, ⟨⟩⟩ := bind_eq_ok done
  refine ⟨?_, (settled_positiveWhole powerIs).within (by decide), settled_positiveReal budgetIs,
    settled_truth _ _⟩
  simp only [positiveFields, List.forall_mem_cons]
  exact ⟨settled_positiveWhole rateIs, settled_positiveWhole widthIs,
    settled_positiveWhole heightIs, settled_positiveWhole stepsIs, settled_positiveWhole sizeIs,
    nofun⟩

theorem followsLog {supplied : String → Option (Json α)} {settings : LogSettings}
    (done : logOf supplied = .ok settings) : FollowsLog supplied settings := by
  unfold logOf at done
  obtain ⟨file, fileIs, ⟨⟩⟩ := bind_eq_ok done
  exact ⟨settled_levelOf _ _, settled_logFileOf fileIs⟩

theorem completes_logOf_iff {supplied : String → Option (Json α)} :
    Completes (logOf supplied) ↔ ∀ value ∈ supplied "log_file", ¬NamesNothing value := by
  unfold logOf
  rw [completes_bind_pure_iff, completes_logFileOf_iff]

theorem FollowsViewer.inRange {supplied : String → Option (Json α)} {settings : ViewerSettings α}
    (follows : FollowsViewer supplied settings) (standard : (0 : α) < 12) : InRange settings where
  positive := by
    have positiveStandard : ∀ field ∈ (positiveFields : List (String × (ViewerSettings α → ℤ))),
        0 < field.2 .standard := by
      simp only [positiveFields, List.forall_mem_cons, ViewerSettings.standard]
      exact ⟨by decide, by decide, by decide, by decide, by decide, nofun⟩
    intro field member
    exact (follows.positive field member).allowed (positiveStandard field member)
  power := follows.power.allowed (by decide)
  budget := follows.budget.allowed standard

/-! ### Documents and environments -/

/-- What a document supplies under a name in one of its parts. -/
def documentEntry (document : Json α) (part name : String) : Option (Json α) :=
  (document.member? part).bind (Json.member? name)

/-- What an environment supplies under a name. -/
def environmentEntry (environment : List (String × String)) (name : String) : Option (Json α) :=
  (environment.lookup ("LIFESCRIPT_" ++ name)).map .text

structure Follows (viewer log : String → Option (Json α)) (config : Configuration α) : Prop where
  viewer : FollowsViewer viewer config.viewer
  log : FollowsLog log config.log

/-- Documents that settings can be read from. -/
structure Convertible (document : Json α) : Prop where
  viewer : Readable (documentEntry document "viewer")
  file : ∀ value ∈ documentEntry document "logging" "log_file", ¬NamesNothing value

theorem completes_ofObject_iff {document : Json α} :
    Completes (ofObject document) ↔ Convertible document := by
  unfold ofObject
  rw [completes_bind_iff fun _ _ => completes_bind_pure_iff, completes_viewerOf_iff,
    completes_logOf_iff]
  exact ⟨fun ⟨viewer, file⟩ => ⟨viewer, file⟩, fun ⟨viewer, file⟩ => ⟨viewer, file⟩⟩

theorem follows_ofObject {document : Json α} {config : Configuration α}
    (done : ofObject document = .ok config) :
    Follows (documentEntry document "viewer") (documentEntry document "logging") config := by
  unfold ofObject at done
  obtain ⟨viewer, viewerIs, done⟩ := bind_eq_ok done
  obtain ⟨log, logIs, ⟨⟩⟩ := bind_eq_ok done
  exact ⟨followsViewer viewerIs, followsLog logIs⟩

theorem ofText_eq_ok_iff {path : Storage.Path} {text : String} {config : Configuration α} :
    ofText path text = .ok config
      ↔ ∃ document, Json.read text = .ok document ∧ document.isObject = true
          ∧ ofObject document = .ok config := by
  unfold ofText
  constructor
  · intro done
    split at done
    · cases done
    · cases done
    · cases done
    · rename_i document read
      split_ifs at done with isObject
      exact ⟨document, read, isObject, done⟩
  · rintro ⟨document, read, isObject, done⟩
    rw [read]
    dsimp only
    rw [if_pos isObject, done]

/-- An environment supplies texts only, which end no reading. -/
theorem completes_ofEnvironment (environment : List (String × String)) :
    Completes (ofEnvironment environment : Except Fault (Configuration α)) := by
  have texts : ∀ {name : String} {value : Json α}, value ∈ environmentEntry environment name →
      ∃ given, value = .text given := by
    intro name value supplied
    obtain ⟨given, _, rfl⟩ := Option.map_eq_some_iff.mp supplied
    exact ⟨given, rfl⟩
  unfold ofEnvironment
  rw [completes_bind_iff fun _ _ => completes_bind_pure_iff, completes_viewerOf_iff,
    completes_logOf_iff]
  refine ⟨⟨?_, ?_, ?_⟩, ?_⟩
  · rintro value supplied ⟨_, _, rfl, _⟩
    obtain ⟨_, ⟨⟩⟩ := texts supplied
  · rintro field _ value supplied ⟨_, _, rfl, _⟩
    obtain ⟨_, ⟨⟩⟩ := texts supplied
  · rintro value supplied ⟨_, rfl, _⟩
    obtain ⟨_, ⟨⟩⟩ := texts supplied
  · rintro value supplied ⟨_, noText⟩
    obtain ⟨given, rfl⟩ := texts supplied
    exact noText given rfl

/-- Every setting has its variable; the log's are marked as such. -/
theorem follows_ofEnvironment {environment : List (String × String)} {config : Configuration α}
    (done : ofEnvironment environment = .ok config) :
    Follows (fun name => environmentEntry environment (Text.upper name))
      (fun name =>
        environmentEntry environment (if name == "level" then "LOG_LEVEL" else "LOG_FILE"))
      config := by
  unfold ofEnvironment at done
  obtain ⟨viewer, viewerIs, done⟩ := bind_eq_ok done
  obtain ⟨log, logIs, ⟨⟩⟩ := bind_eq_ok done
  exact ⟨followsViewer viewerIs, followsLog logIs⟩

/-! ### Settings of doubles -/

theorem isTooLarge_iff {given : ℤ} :
    IsTooLarge (.whole given : Json Float) ↔ Binary64.threshold ≤ |(given : ℚ)| := by
  rw [← not_lt, ← Binary64.isFinite_ofRat_iff, Bool.not_eq_true]
  constructor
  · rintro ⟨_, ⟨⟩, beyond⟩
    exact beyond
  · intro beyond
    exact ⟨given, rfl, beyond⟩

/-- **Settings fall back to their defaults.** Whatever the environment, settings come out of it, and
out of a document they come unless one of three kinds of values ends the reading. They are in range,
and each one is what is supplied for it, or its default if what is supplied is malformed or there is
none. -/
theorem load_fallsBack (path : Storage.Path) :
    (∀ text, (∃ config : Configuration Float, ofText path text = .ok config)
      ↔ ∃ document : Json Float, Json.read text = .ok document ∧ document.isObject = true
          ∧ Convertible document)
      ∧ (∀ text (config : Configuration Float), ofText path text = .ok config →
          ∃ document : Json Float, Json.read text = .ok document ∧ InRange config.viewer
            ∧ Follows (documentEntry document "viewer") (documentEntry document "logging") config)
      ∧ ∀ environment, ∃ config : Configuration Float, ofEnvironment environment = .ok config
          ∧ InRange config.viewer
          ∧ Follows (fun name => environmentEntry environment (Text.upper name))
              (fun name =>
                environmentEntry environment (if name == "level" then "LOG_LEVEL" else "LOG_FILE"))
              config := by
  have standard : (Scalar.ofRat 0 : Float) < 12 := by decide +kernel
  refine ⟨fun text => ⟨?_, ?_⟩, fun text config done => ?_, fun environment => ?_⟩
  · rintro ⟨config, done⟩
    obtain ⟨document, read, isObject, done⟩ := ofText_eq_ok_iff.mp done
    exact ⟨document, read, isObject, completes_ofObject_iff.mp ⟨config, done⟩⟩
  · rintro ⟨document, read, isObject, convertible⟩
    obtain ⟨config, done⟩ := completes_ofObject_iff.mpr convertible
    exact ⟨config, ofText_eq_ok_iff.mpr ⟨document, read, isObject, done⟩⟩
  · obtain ⟨document, read, _, done⟩ := ofText_eq_ok_iff.mp done
    have follows := follows_ofObject done
    exact ⟨document, read, follows.viewer.inRange standard, follows⟩
  · obtain ⟨config, done⟩ := completes_ofEnvironment (α := Float) environment
    have follows := follows_ofEnvironment done
    exact ⟨config, done, follows.viewer.inRange standard, follows⟩

/-- A document with values that are malformed beside others that are not. -/
def partlyMalformed : String :=
  "\x7b\x22viewer\x22: \x7b\x22refresh_rate\x22: \x22fast\x22, \x22max_grid_power\x22: 99, "
    ++ "\x22grid_size\x22: 256.5\x7d, \x22logging\x22: \x7b\x22level\x22: \x22 debug \x22\x7d\x7d"

/-- A rate and a power that are malformed do not keep a side and a level from being read. -/
theorem load_fallsBack_malformed :
    ∃ config : Configuration Float,
      ofText (.ofText "viewer.json") partlyMalformed = .ok config
      ∧ config.viewer.refreshRate = 60 ∧ config.viewer.maxGridPower = 12
      ∧ config.viewer.gridSize = 256 ∧ config.log = ⟨.debug, none⟩ ∧ InRange config.viewer := by
  have checked : (ofText (.ofText "viewer.json") partlyMalformed
      : Except Fault (Configuration Float)).toOption.any (fun config =>
        decide (config.viewer.refreshRate = 60 ∧ config.viewer.maxGridPower = 12
          ∧ config.viewer.gridSize = 256 ∧ config.log = ⟨.debug, none⟩)) = true := by
    decide +kernel
  obtain ⟨config, done, values⟩ := exists_of_toOption_any checked
  obtain ⟨_, _, inRange, _⟩ := (load_fallsBack _).2.1 _ config done
  obtain ⟨rate, power, size, log⟩ := of_decide_eq_true values
  exact ⟨config, done, rate, power, size, log, inRange⟩

/-- A text that holds an object, and out of which no settings come. -/
def EndsReading (text : String) : Prop :=
  (∃ document : Json Float, Json.read text = .ok document ∧ document.isObject = true)
    ∧ ¬∃ config : Configuration Float, ofText (.ofText "viewer.json") text = .ok config

theorem endsReading_of_checked {text : String}
    (isObject : (Json.read text : Except Json.Defect (Json Float)).toOption.any Json.isObject
      = true)
    (ends : (ofText (.ofText "viewer.json") text : Except Fault (Configuration Float)).isOk
      = false) : EndsReading text := by
  refine ⟨exists_of_toOption_any isObject, ?_⟩
  rintro ⟨config, done⟩
  rw [done] at ends
  cases ends

/-- An infinite rate and a file named by a number end the reading of their documents. -/
theorem load_ends :
    EndsReading "\x7b\x22viewer\x22: \x7b\x22refresh_rate\x22: 1e999\x7d\x7d"
      ∧ EndsReading "\x7b\x22logging\x22: \x7b\x22log_file\x22: 5\x7d\x7d" :=
  ⟨endsReading_of_checked (by decide +kernel) (by decide +kernel),
    endsReading_of_checked (by decide +kernel) (by decide +kernel)⟩

end Configuration

end Showreel
