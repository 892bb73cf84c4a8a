import Showreel.Proofs.Number.Lawful
import Showreel.Proofs.Pattern.RunLength
import Showreel.Proofs.Script.Outcome
import Showreel.Proofs.Script.Soundness

/-!
Contract: every script can be read to its end.

Owns:
- that the settings of a sound waypoint can be described;
- that a sound statement can be carried out on a sound draft;
- that steps and runs succeed, but for run-length text that asks for too much.

Does not own: the end of a script.
-/

namespace Showreel.Script

open Number Scalar Waypoint Pattern

variable {α : Type} [Scalar α] [LawfulScalar α] {refreshRate : Int}

/-! ### Settings that can be described -/

theorem exists_wholeText {count : Int} (whole : IsWhole α count) :
    ∃ text, wholeText α count = .ok text := by
  obtain ⟨value, known⟩ := whole
  obtain ⟨scalar, converted⟩ := exists_ofInt known (le_refl |count|)
  rw [wholeText, converted]
  exact ⟨_, rfl⟩

theorem exists_wholeText_of_small {count : Int} (small : |count| ≤ 2 ^ 53) :
    ∃ text, wholeText α count = .ok text := by
  obtain ⟨scalar, converted⟩ := exists_ofInt_of_small (α := α) small
  rw [wholeText, converted]
  exact ⟨_, rfl⟩

theorem exists_describeZoom {zoom : α} (magnified : IsZoom zoom) :
    ∃ text, describeZoom zoom = .ok text := by
  have nonzero : (zoom == (0 : α)) = false := by
    obtain ⟨literal, magnified⟩ := magnified
    unfold Reading.magnification at magnified
    split_ifs at magnified with direct inverse
    · cases magnified
      exact LawfulScalar.sixteenth direct.1
    · cases magnified
      exact LawfulScalar.reciprocal inverse.1 inverse.2
  unfold describeZoom divide
  rw [nonzero]
  split
  · exact ⟨_, rfl⟩
  · exact ⟨_, rfl⟩

theorem exists_describeGeneration {generation : Int}
    (given : IsWhole α generation ∨ generation = -1) :
    ∃ text, describeGeneration α generation = .ok text := by
  unfold describeGeneration
  split
  · exact ⟨_, rfl⟩
  · rename_i other
    exact exists_wholeText (given.resolve_right other)

theorem exists_describe {field : Field} {value : field.Value α}
    (written : Written refreshRate field value) :
    ∃ text, @describe α _ field value = .ok text := by
  cases field with
  | zoom => exact exists_describeZoom written
  | angle =>
      obtain ⟨count, whole, rfl⟩ := written
      exact exists_wholeText whole
  | layers => exact exists_wholeText written
  | step =>
      obtain ⟨low, high⟩ : (1 : Int) ≤ value ∧ (value : Int) ≤ 64 := written
      have small : |(value : Int)| ≤ 64 := abs_le.mpr ⟨by linarith, high⟩
      exact exists_wholeText_of_small (small.trans (by norm_num))
  | loop => exact exists_describeGeneration written
  | stop => exact exists_describeGeneration written
  | x => exact ⟨_, rfl⟩
  | y => exact ⟨_, rfl⟩
  | tilt => exact ⟨_, rfl⟩
  | depth => exact ⟨_, rfl⟩
  | theme => exact ⟨_, rfl⟩
  | gps => exact ⟨_, rfl⟩

theorem SoundWaypoint.describable {waypoint : Waypoint α}
    (sound : SoundWaypoint refreshRate waypoint) {field : Field}
    {setting : Setting (Option (field.Value α))} (found : waypoint.get field = some setting)
    (present : setting.value ≠ none) : Describable setting := by
  obtain ⟨value, known⟩ := Option.ne_none_iff_exists'.mp present
  obtain ⟨text, described⟩ := exists_describe ((sound.setting field setting found).written value known)
  exact ⟨value, text, known, described⟩

/-- Only a copied setting may lack a value, and no notice describes what a copy replaces. -/
theorem SoundWaypoint.replaceable {waypoint : Waypoint α}
    (sound : SoundWaypoint refreshRate waypoint) : waypoint.Replaceable := by
  intro field current found scripted
  have copied := (sound.setting field current found).open_copied
  exact sound.describable found fun absent => scripted (copied absent)

/-! ### Statements -/

namespace SoundDraft

variable {draft : Draft α}

theorem exists_assignField (sound : SoundDraft refreshRate draft) (field : Field)
    (value : field.Value α) (source : String) :
    ∃ outcome, draft.assignField field value source = .ok outcome := by
  obtain ⟨change, left, changed⟩ :=
    exists_setField sound.current.replaceable (some value) source draft.suppression
  rw [Draft.assignField, changed]
  exact ⟨_, rfl⟩

theorem exists_assignPace (sound : SoundDraft refreshRate draft) {steps : Option Int} {gps : α}
    (written : ∀ count ∈ steps, @Written α _ refreshRate .step count) (source : String) :
    ∃ outcome, draft.assignPace steps gps source = .ok outcome := by
  obtain ⟨stepped, stepping, soundStepped⟩ : ∃ stepped,
      draft.assignSteps steps source = .ok stepped ∧ SoundDraft refreshRate stepped.draft := by
    cases steps with
    | none => exact ⟨_, rfl, sound⟩
    | some count =>
        obtain ⟨stepped, stepping⟩ := sound.exists_assignField .step count source
        exact ⟨stepped, stepping, sound.assignField (written count rfl) stepping⟩
  obtain ⟨paced, pacing⟩ := soundStepped.exists_assignField .gps gps source
  refine ⟨⟨paced.draft, stepped.reported ++ paced.reported⟩, ?_⟩
  rw [Draft.assignPace, stepping]
  change (stepped.draft.assignField .gps gps source >>= _) = _
  rw [pacing]
  rfl

theorem exists_assignLimit (sound : SoundDraft refreshRate draft) (stops : Bool) (generation : Int)
    (source : String) : ∃ outcome, draft.assignLimit stops generation source = .ok outcome := by
  have owner : draft.limitOwner.Replaceable := by
    unfold Draft.limitOwner
    split
    · exact sound.current.replaceable
    · exact sound.first.1.replaceable
  obtain ⟨change, left, changed⟩ : ∃ change left, Draft.setLimit draft.limitOwner stops generation
      source draft.suppression = .ok (change, left) := by
    cases stops with
    | true => exact @exists_setField α _ .stop _ owner (some generation) source draft.suppression
    | false => exact @exists_setField α _ .loop _ owner (some generation) source draft.suppression
  rw [Draft.assignLimit, changed]
  exact ⟨_, rfl⟩

omit [LawfulScalar α] in
theorem exists_firstClosed (sound : SoundDraft refreshRate draft)
    (inPoi : draft.current.isPoi = true) : ∃ first, draft.firstClosed = some first :=
  ⟨_, Array.getElem?_eq_getElem (sound.behindFirst inPoi)⟩

theorem exists_copyAll (sound : SoundDraft refreshRate draft)
    (inPoi : draft.current.isPoi = true) : ∃ outcome, draft.copyAll = .ok outcome := by
  obtain ⟨first, found⟩ := sound.exists_firstClosed inPoi
  obtain ⟨change, copied⟩ := exists_copyFields first Field.all sound.current.replaceable
  rw [Draft.copyAll, found]
  dsimp only
  rw [copyAllInitial, copied]
  exact ⟨_, rfl⟩

omit [LawfulScalar α] in
theorem exists_trigger (sound : SoundDraft refreshRate draft) :
    ∃ trigger, Draft.nextTrigger draft.pasting = .ok trigger := by
  have summed : ∀ (gaps : List Int) (first : Int), (∀ gap ∈ gaps, 0 ≤ gap) →
      ∃ generations, Paste.Trigger.sumsFrom first gaps = .ok generations := by
    intro gaps
    induction gaps with
    | nil => exact fun _ _ => ⟨_, rfl⟩
    | cons gap rest inductionHypothesis =>
        intro first nonnegative
        obtain ⟨low, others⟩ := List.forall_mem_cons.mp nonnegative
        obtain ⟨generations, sums⟩ := inductionHypothesis (first + gap) others
        rw [Paste.Trigger.sumsFrom, if_neg (not_lt.mpr low), sums]
        exact ⟨_, rfl⟩
  unfold Draft.nextTrigger
  split
  · exact ⟨_, rfl⟩
  · obtain ⟨generations, sums⟩ := summed _ draft.pasting.generation sound.pasting
    rw [Paste.Trigger.at?, sums]
    exact ⟨_, rfl⟩

/-- **A sound statement can be carried out on a sound draft.** -/
theorem exists_perform (sound : SoundDraft refreshRate draft) {statement : Statement α}
    (soundStatement : statement.Sound draft refreshRate) :
    ∃ outcome, draft.perform statement = .ok outcome := by
  cases statement with
  | setField field value source => exact sound.exists_assignField field value source
  | setPace steps gps source => exact sound.exists_assignPace soundStatement.1 source
  | setLimit stops generation source => exact sound.exists_assignLimit stops generation source
  | copyAll => exact sound.exists_copyAll soundStatement
  | copyField field =>
      obtain ⟨first, found⟩ := sound.exists_firstClosed soundStatement
      obtain ⟨change, copied⟩ := exists_copyField sound.current.replaceable first field
      rw [Draft.perform, found, copyInitial_word, copied]
      exact ⟨_, rfl⟩
  | paste cells x y train source =>
      obtain ⟨trigger, scheduled⟩ := sound.exists_trigger
      rw [Draft.perform, Draft.addPaste, Draft.nextEntry, scheduled]
      exact ⟨_, rfl⟩
  | _ => exact ⟨_, rfl⟩

end SoundDraft

/-! ### The largest grid -/

/-- A power of two that is the side of a grid whose half is in range. -/
def GridFits (power : Int) : Prop := 0 ≤ power ∧ power ≤ 1024

theorem exists_halfGrid {draft : Draft α} (fits : GridFits draft.maxGridPower) :
    ∃ half, (draft.halfGrid : Except Fault α) = .ok half := by
  obtain ⟨low, high⟩ := fits
  have half : (2 ^ draft.maxGridPower.toNat : ℚ) / 2 ≤ 2 ^ 1023 := by
    rw [div_le_iff₀ (by norm_num), ← pow_succ]
    exact pow_le_pow_right₀ (by norm_num) (by omega)
  have finite : isFinite (ofRat ((2 ^ draft.maxGridPower.toNat : Int) / (2 : Int) : ℚ) : α) = true := by
    apply LawfulScalar.wide
    push_cast
    rwa [abs_of_nonneg (by positivity)]
  refine ⟨ofRat ((2 ^ draft.maxGridPower.toNat : Int) / (2 : Int) : ℚ), ?_⟩
  unfold Draft.halfGrid Draft.maxGridSize
  rw [if_neg (not_lt.mpr low)]
  change ofQuotient (2 ^ draft.maxGridPower.toNat) 2 = .ok _
  rw [ofQuotient, if_neg (by norm_num), inRange]
  exact if_pos finite

omit [LawfulScalar α] in
/-- Only one statement sets the largest grid. -/
theorem Draft.perform_maxGridPower {draft : Draft α} {statement : Statement α}
    {outcome : Outcome α} (done : draft.perform statement = .ok outcome) :
    outcome.draft.maxGridPower = draft.maxGridPower
      ∨ statement = .setMaxGridPower outcome.draft.maxGridPower := by
  cases about : statement.isAboutWaypoints with
  | true =>
      have same : outcome.draft.maxGridPower = draft.maxGridPower :=
        (congrArg Draft.maxGridPower (perform_sameBeside about done) :)
      exact .inl same
  | false =>
      cases statement with
      | setMaxGridPower power =>
          cases done
          exact .inr rfl
      | setStyle family style =>
          cases done
          cases family <;> exact .inl rfl
      | paste cells x y train source =>
          obtain ⟨pasted, pasting, rfl⟩ := map_eq_ok done
          obtain ⟨entry, -, pasting⟩ := bind_eq_ok pasting
          cases pasting
          exact .inl rfl
      | _ =>
          first
          | exact Except.ok.inj done ▸ .inl rfl
          | cases about

omit [Scalar α] [LawfulScalar α] in
theorem Draft.finishString_maxGridPower (draft : Draft α) (info : PatternInfo) (text : String) :
    (draft.finishString info text).1.maxGridPower = draft.maxGridPower := by
  unfold Draft.finishString
  dsimp only
  split
  · rfl
  · split <;> rfl
  · rfl

/-! ### Sessions -/

/-- What is known of a session while a document is read: its draft is sound, its grid fits, and
the tokens ahead belong to the document. -/
structure Session.Sound (context : Context α) (document : List String) (session : Session α) :
    Prop where
  draft : SoundDraft context.settings.refreshRate session.draft
  grid : GridFits session.draft.maxGridPower
  within : session.reader.ahead <:+ document

/-- Every numeric token has a finite value. -/
def NumbersFinite (α : Type) [Scalar α] (document : List String) : Prop :=
  ∀ token ∈ document, ∀ value : α, readToken? token = some value → isFinite value = true

/-- A part of the document, joined, is run-length text that cannot be decoded. -/
def TextFails (document : List String) (fault : Fault) : Prop :=
  ∃ run, run <:+: document ∧ RunLength.decode (String.join run).toList = .error fault

namespace Session.Sound

variable {context : Context α} {document : List String} {session : Session α}

omit [LawfulScalar α] in
theorem step {after : Session α} (sound : session.Sound context document)
    (done : session.step context = .ok after) : after.Sound context document where
  draft := step_sound sound.draft done
  within := ((step_suffix context done).trans (List.tail_suffix _)).trans sound.within
  grid := by
    have goes := step_goes context session
    rw [done] at goes
    cases goes with
    | kept same => exact same ▸ sound.grid
    | joined finished =>
        rw [finished, Draft.finishString_maxGridPower]
        exact sound.grid
    | performed soundStatement performed draft =>
        rw [draft]
        obtain kept | rfl := Draft.perform_maxGridPower performed
        · exact kept ▸ sound.grid
        · obtain ⟨low, high⟩ := soundStatement
          exact ⟨by omega, by omega⟩

/-- A step succeeds, but for run-length text that cannot be decoded. -/
theorem exists_step (sound : session.Sound context document)
    (rate : 1 ≤ context.settings.refreshRate) (finite : NumbersFinite α document) :
    (∃ after, session.step context = .ok after)
      ∨ ∃ fault, session.step context = .error fault ∧ TextFails document fault := by
  have goes := step_goes context session
  generalize session.step context = outcome at goes ⊢
  cases goes with
  | kept same => exact .inl ⟨_, rfl⟩
  | joined finished => exact .inl ⟨_, rfl⟩
  | performed soundStatement performed draft => exact .inl ⟨_, rfl⟩
  | failed soundStatement failure =>
      obtain ⟨outcome, performed⟩ := sound.draft.exists_perform soundStatement
      rw [failure] at performed
      cases performed
  | excused excuse =>
      -- finite values, a grid that fits and the rate leave only the run-length text
      cases excuse with
      | unbounded member read infinite =>
          have bounded := finite _ (sound.within.subset member) _ read
          rw [infinite] at bounded
          cases bounded
      | uncountable whole bounded failed =>
          obtain ⟨scalar, converted⟩ := exists_ofInt whole
            (abs_le_abs_of_nonneg bounded.1 bounded.2)
          rw [failed] at converted
          cases converted
      | grid failed =>
          obtain ⟨half, fits⟩ := exists_halfGrid (α := α) sound.grid
          cases failed.symm.trans fits
      | rate low => exact absurd rate (not_le.mpr low)
      | text member failed =>
          exact .inr ⟨_, rfl, _, member.trans sound.within.isInfix, failed⟩

theorem exists_run (fuel : Nat) (sound : session.Sound context document)
    (rate : 1 ≤ context.settings.refreshRate) (finite : NumbersFinite α document) :
    (∃ after, session.run context fuel = .ok after)
      ∨ ∃ fault, session.run context fuel = .error fault ∧ TextFails document fault := by
  induction fuel generalizing session with
  | zero => exact .inl ⟨_, rfl⟩
  | succ fuel inductionHypothesis =>
      rw [run_succ]
      obtain ⟨after, stepped⟩ | ⟨fault, failed, text⟩ := sound.exists_step rate finite
      · rw [stepped]
        exact inductionHypothesis (sound.step stepped)
      · rw [failed]
        exact .inr ⟨fault, rfl, text⟩

end Session.Sound

/-! ### Documents -/

theorem start_within [Scalar β] (context : Context β) (text : String) :
    (Session.start context text).reader.ahead <:+ tokens (Document.scriptSource text) := by
  unfold Session.start
  dsimp only
  split
  · exact search_suffix _ ‹_›
  · split
    · exact List.suffix_refl _
    · exact List.nil_suffix

/-- **Every document can be read to its end**, but for run-length text that asks for too much: no
statement divides by zero, lacks the waypoint it changes or describes a setting that is not there,
whatever the script. -/
theorem readAll_total {context : Context α} {text : String}
    (rate : 1 ≤ context.settings.refreshRate) (grid : GridFits context.settings.maxGridPower)
    (finite : NumbersFinite α (tokens (Document.scriptSource text))) :
    (∃ session, readAll context text = .ok session)
      ∨ ∃ fault ∈ RunLength.sizeFaults, readAll context text = .error fault
        ∧ TextFails (tokens (Document.scriptSource text)) fault := by
  have sound : (Session.start context text).Sound context (tokens (Document.scriptSource text)) :=
    ⟨.start _, grid, start_within context text⟩
  obtain read | ⟨fault, failed, run, within, undecoded⟩ := sound.exists_run _ rate finite
  · exact .inl read
  · exact .inr ⟨fault, RunLength.decode_error undecoded, failed, run, within, undecoded⟩

/-- Every setting of a point of interest copied, and one of them set again. -/
theorem readAll_total_copies :
    let context : Context Float := ⟨.standard, .standard, .standard⟩
    let text := "[[ POI INITIAL ALL INITIAL X 1 ]]"
    (∃ session, readAll context text = .ok session)
      ∨ ∃ fault ∈ RunLength.sizeFaults, readAll context text = .error fault
        ∧ TextFails (tokens (Document.scriptSource text)) fault := by
  intro context text
  have split : tokens (Document.scriptSource text)
      = ["[[", "POI", "INITIAL", "ALL", "INITIAL", "X", "1", "]]"] := by decide +kernel
  have finite : NumbersFinite Float (tokens (Document.scriptSource text)) := by
    rw [split]
    intro token member value read
    fin_cases member <;> cases read
    rfl
  exact readAll_total (by decide) ⟨by decide, by decide⟩ finite

/-- Where the grid does not fit, a place cannot be compared with its edge. -/
theorem readAll_unfit_grid :
    let context (power : Int) : Context Float :=
      ⟨.standard, { ViewerSettings.standard with maxGridPower := power }, .standard⟩
    let text := "[[ X 1 ]]"
    (∀ power, 1 ≤ (context power).settings.refreshRate)
      ∧ NumbersFinite Float (tokens (Document.scriptSource text))
      ∧ (readAll (context (-1)) text).isOk = false
      ∧ (readAll (context 1025) text).isOk = false := by
  intro context text
  have split : tokens (Document.scriptSource text) = ["[[", "X", "1", "]]"] := by decide +kernel
  have rate : (1 : Int) ≤ 60 := by decide
  refine ⟨fun _ => rate, ?_, by decide +kernel, by decide +kernel⟩
  rw [split]
  intro token member value read
  fin_cases member <;> cases read
  rfl

end Showreel.Script
