import Showreel.Proofs.Callout.Fading
import Showreel.Proofs.Script.InRange
import Showreel.Proofs.Script.Outcome

/-!
Contract: the styles of callouts, from the commands that set them to the timeline.

Owns:
- styles that are within their limits as scripts write them;
- that every command keeps the styles of a draft, and those of its callouts, within them;
- that all callouts of a timeline have such styles, so that they fade in straight lines.

Does not own: the fading, and the places of callouts.
-/

namespace Showreel.Script

open Number Scalar Callout

variable {α : Type} [Scalar α]

/-! ### Styles -/

/-- A style as scripts write it: it is within its limits, and its last generation is the whole part
of a scalar. -/
structure WrittenStyle (style : Style α) : Prop extends style.Valid where
  reached : style.always = false → IsWhole α style.closes

/-- Only the alpha, the window and the zooms count. -/
theorem WrittenStyle.congr {style other : Style α} (written : WrittenStyle style)
    (alpha : other.alpha = style.alpha) (opens : other.opens = style.opens)
    (closes : other.closes = style.closes) (fade : other.fade = style.fade)
    (low : other.minZoom = style.minZoom) (high : other.maxZoom = style.maxZoom) :
    WrittenStyle other where
  alpha := alpha ▸ written.alpha
  window := by
    rw [opens, closes, fade]
    exact written.window
  zooms := by
    rw [low, high]
    exact written.zooms
  reached := by
    unfold Style.always
    rw [opens, closes]
    exact written.reached

theorem WrittenStyle.forLabels [OrderedScalar α] : WrittenStyle (Style.forLabels : Style α) where
  alpha := ⟨OrderedScalar.monotone (by decide) (by decide),
    OrderedScalar.monotone (by decide) (by decide)⟩
  window := .inl ⟨rfl, rfl, rfl⟩
  zooms := .inl ⟨rfl, rfl⟩
  reached := nofun

/-! ### Readings -/

theorem Yields.takeWhole : Yields (Reading.takeWhole α) (IsWhole α) :=
  .andThen .takeNumber fun value _ => (Yields.lift _).mono fun _ whole => ⟨value, whole⟩

/-- The reading comes to a style as scripts write it, or to none. -/
abbrev ReadsStyle (reading : Reading (Option (Style α))) : Prop :=
  Offers WrittenStyle reading

namespace ReadsStyle

variable {style : Style α}

/-- The fade is at most half of the generations between the ends. -/
theorem window (written : WrittenStyle style) (word : String) :
    ReadsStyle (Read.window style word) := by
  refine .bind fun all => .branch (.some ?always) ?_
  case always => exact ⟨⟨written.alpha, .inl ⟨rfl, rfl, rfl⟩, written.zooms⟩, nofun⟩
  refine .andThen (.whole word _) fun opens bounded => ?_
  cases opens with
  | none => exact .none
  | some opens =>
      have nonnegative : 0 ≤ opens := nonnegative_of_contains (bounded opens rfl)
      refine .bind fun isNumber => .branch ?_ (.refuseArgument _ _)
      refine .andThen .takeWhole fun closes reached => ?_
      refine .branchOn (fun _ => .refuse _ _) fun order => ?_
      refine .bind fun isNumber => .branch (.bind fun fade => ?_) (.refuseArgument _ _)
      refine .branchOn (fun within => .some ?_) fun _ => .refuse _ _
      have wide : 2 * fade ≤ closes - opens := by omega
      exact ⟨⟨written.alpha, .inr ⟨nonnegative, not_lt.mp order, within.1, wide⟩, written.zooms⟩,
        fun _ => reached⟩

theorem labelSize (written : WrittenStyle style) (word : String) :
    ReadsStyle (Read.labelSize style word) := by
  refine .bind fun value => ?_
  cases value with
  | none => exact .none
  | some value => exact .bind fun _ => .some (written.congr rfl rfl rfl rfl rfl rfl)

theorem lineSize (written : WrittenStyle style) (hasHead : Bool) (word : String) :
    ReadsStyle (Read.lineSize style hasHead word) := by
  refine .bind fun value => ?_
  cases value with
  | none => exact .none
  | some value =>
      refine .bind fun isNumber => .branch ?_ (.some (written.congr rfl rfl rfl rfl rfl rfl))
      exact .bind fun head => .map fun _ _ => written.congr rfl rfl rfl rfl rfl rfl

theorem angle (written : WrittenStyle style) (word : String) :
    ReadsStyle (Read.angle style word) := by
  refine .bind fun value => ?_
  cases value with
  | none => exact .none
  | some value => exact .bind fun _ => .some (written.congr rfl rfl rfl rfl rfl rfl)

theorem drift (written : WrittenStyle style) (word : String) :
    ReadsStyle (Read.drift style word) := by
  refine .bind fun isFixed => .branch (.some (written.congr rfl rfl rfl rfl rfl rfl)) ?_
  refine .bind fun (speeds, source) => ?_
  dsimp only
  split
  · exact .some (written.congr rfl rfl rfl rfl rfl rfl)
  · exact .none

theorem viewDistance (draft : Draft α) (written : WrittenStyle style) (word : String) :
    ReadsStyle (Read.viewDistance draft style word) := by
  refine .bind fun off => .branch (.some (written.congr rfl rfl rfl rfl rfl rfl)) ?_
  exact .bind fun half => .bind fun given => .map fun _ _ => written.congr rfl rfl rfl rfl rfl rfl

theorem target (draft : Draft α) (written : WrittenStyle style) (word : String) :
    ReadsStyle (Read.target draft style word) := by
  refine .bind fun off => .branch (.some (written.congr rfl rfl rfl rfl rfl rfl)) ?_
  refine .bind fun gridSize => .bind fun x => ?_
  cases x with
  | none => exact .none
  | some x =>
      refine .bind fun y => ?_
      cases y with
      | none => exact .none
      | some y =>
          refine .bind fun isNumber => .branch ?_ (.some (written.congr rfl rfl rfl rfl rfl rfl))
          exact .bind fun standoff => .map fun _ _ => written.congr rfl rfl rfl rfl rfl rfl

section Ordered

variable [OrderedScalar α]

theorem alpha (written : WrittenStyle style) (word : String) :
    ReadsStyle (Read.alpha style word) := by
  have ordinary : ∀ count : ℕ, count ≤ 1 → denotation (ofRat (count : ℚ) : α) ≠ .undefined := by
    intro count small
    rw [OrderedScalar.whole (by omega)]
    exact nofun
  refine .andThen (.numberIn word _) fun given accepted => .map fun value isGiven => ?_
  obtain ⟨read, bounded⟩ := accepted value isGiven
  have within := read.between (ordinary 0 (by omega)) (ordinary 1 le_rfl) bounded
  exact ⟨⟨within, written.window, written.zooms⟩, written.reached⟩

theorem zoomRange [NearestScalar α] (written : WrittenStyle style) (word : String) :
    ReadsStyle (Read.zoomRange style word) := by
  refine .bind fun off => .branch (.some ?unset) ?_
  case unset => exact ⟨⟨written.alpha, written.window, .inl ⟨rfl, rfl⟩⟩, written.reached⟩
  refine .andThen (.zoom word) fun low readLow => ?_
  cases low with
  | none => exact .none
  | some low =>
      refine .andThen (.zoom _) fun high readHigh => ?_
      cases high with
      | none => exact .none
      | some high =>
          refine .branchOn (fun _ => .refuse _ _) fun order => .some ?_
          have number : denotation low ≠ .undefined :=
            NearestScalar.number (readLow low rfl).between.1
          have numberToo : denotation high ≠ .undefined :=
            NearestScalar.number (readHigh high rfl).between.1
          have within : low ≤ high := OrderedScalar.total numberToo number order
          exact ⟨⟨written.alpha, written.window, .inr ⟨low, high, rfl, rfl, within⟩⟩,
            written.reached⟩

end Ordered

end ReadsStyle

/-! ### Commands -/

/-- A statement whose style is as scripts write it. -/
def Statement.Styled : Statement α → Prop
  | .openLabel item | .addArrow item | .addPolygon item => WrittenStyle item.style
  | .setStyle _ style => WrittenStyle style
  | _ => True

/-- A draft whose styles are as scripts write them, those of its callouts too. -/
structure StyledDraft (draft : Draft α) : Prop where
  style : ∀ family, WrittenStyle (draft.style family)
  pending : ∀ item ∈ draft.pendingLabel, WrittenStyle item.style
  labels : ∀ item ∈ draft.labels, WrittenStyle item.style
  arrows : ∀ item ∈ draft.arrows, WrittenStyle item.style
  polygons : ∀ item ∈ draft.polygons, WrittenStyle item.style

/-- The reading comes to a statement whose style is as scripts write it, or to none. -/
abbrev ReadsStyled (reading : Reading (Option (Statement α))) : Prop :=
  Offers Statement.Styled reading

namespace ReadsStyled

variable {draft : Draft α}

theorem label (styled : StyledDraft draft) (word : String) :
    ReadsStyled (Read.label draft word) := by
  refine .bind fun gridSize => .bind fun x => ?_
  cases x with
  | none => exact .none
  | some x =>
      refine .bind fun y => ?_
      cases y with
      | none => exact .none
      | some y =>
          refine .bind fun zoom => ?_
          cases zoom with
          | none => exact .none
          | some zoom =>
              exact .bind fun isFixed => .bind fun token =>
                .branch (.some (styled.style .label)) (.refuseArgument _ _)

theorem arrow (styled : StyledDraft draft) (word : String) :
    ReadsStyled (Read.arrow draft word) := by
  refine .bind fun gridSize => .bind fun (places, source) => ?_
  dsimp only
  split
  · refine .bind fun zoom => ?_
    cases zoom with
    | none => exact .none
    | some zoom => exact .bind fun isFixed => .some (styled.style .arrow)
  · exact .none

theorem polygon (styled : StyledDraft draft) (filled : Bool) (word : String) :
    ReadsStyled (Read.polygon draft filled word) := by
  refine .bind fun gridSize => .bind fun fuel => .bind fun corners => ?_
  split
  · exact .none
  · exact .bind fun isFixed => .some (styled.style .polygon)
  · exact .refuseArgument _ _
  · exact .refuse _ _

theorem restyle {reading : Reading (Option (Style α))} (family : StyleFamily)
    (reads : ReadsStyle reading) :
    ReadsStyled (do return Read.restyle family (← reading)) :=
  .andThen reads fun _ written => .map fun style given => written style given

theorem labelAlign (styled : StyledDraft draft) (word : String) :
    ReadsStyled (Read.labelAlign draft word) := by
  refine .bind fun token => ?_
  cases Align.ofWord? token with
  | none => exact .refuseArgument _ _
  | some align =>
      exact .bind fun _ => .some ((styled.style .label).congr rfl rfl rfl rfl rfl rfl)

theorem elementColour (styled : StyledDraft draft) (word : String) :
    ReadsStyled (Read.elementColour draft word) := by
  refine .bind fun element => .branch ?_
    (.branch (.bind fun _ => .none) (.bind fun _ => .refuse _ _))
  refine .bind fun _ => .bind fun found => .map fun colour _ => ?_
  cases StyleFamily.ofWord? element with
  | none => exact trivial
  | some family => exact (styled.style family).congr rfl rfl rfl rfl rfl rfl

variable [OrderedScalar α] [NearestScalar α]

theorem styleSetting (styled : StyledDraft draft) (family : StyleFamily) (setting : StyleSetting)
    (word : String) : ReadsStyled (Read.styleSetting draft family setting word) := by
  have written := styled.style family
  cases setting with
  | window => exact restyle family (.window written word)
  | alpha => exact restyle family (.alpha written word)
  | size =>
      exact .branch (restyle family (.labelSize written word))
        (restyle family (.lineSize written _ word))
  | angle => exact restyle family (.angle written word)
  | drift => exact restyle family (.drift written word)
  | viewDistance => exact restyle family (.viewDistance draft written word)
  | zoomRange => exact restyle family (.zoomRange written word)
  | shadow =>
      exact restyle family (.bind fun off => .some (written.congr rfl rfl rfl rfl rfl rfl))
  | target => exact restyle family (.target draft written word)

/-- **Every command is read as a statement whose style is as scripts write it, or as none.** -/
theorem every (styled : StyledDraft draft) (refreshRate : Int) (word : String)
    (command : Command) : ReadsStyled (command.read draft refreshRate word) := by
  cases command with
  | label => exact label styled word
  | arrow => exact arrow styled word
  | polygon filled => exact polygon styled filled word
  | style family setting => exact styleSetting styled family setting word
  | labelAlign => exact labelAlign styled word
  | colour =>
      refine .bind fun isNumber => .branch ?_ (elementColour styled word)
      exact .bind fun state => .bind fun found => .branch (.map fun _ _ => trivial) (.refuse _ _)
  | _ =>
      -- no statement of the other commands has a style
      intro scan result after done statement given
      cases Reads.every draft refreshRate word _ scan result after done statement given
      all_goals exact trivial

end ReadsStyled

/-! ### Drafts -/

omit [Scalar α] in
theorem Draft.style_setStyle (draft : Draft α) (family other : StyleFamily) (style : Style α) :
    (draft.setStyle family style).style other
      = if other = family then style else draft.style other := by
  cases family <;> cases other <;> rfl

namespace StyledDraft

variable {draft : Draft α}

theorem start [OrderedScalar α] (maxGridPower : Int) :
    StyledDraft (Draft.start maxGridPower : Draft α) where
  style family := by
    have written : WrittenStyle (Style.forLabels : Style α) := .forLabels
    cases family with
    | label => exact written
    | arrow => exact written.congr rfl rfl rfl rfl rfl rfl
    | polygon => exact written.congr rfl rfl rfl rfl rfl rfl
  pending _ impossible := nomatch impossible
  labels _ impossible := by cases Array.mem_toList_iff.mpr impossible
  arrows _ impossible := by cases Array.mem_toList_iff.mpr impossible
  polygons _ impossible := by cases Array.mem_toList_iff.mpr impossible

/-- Only the styles and the callouts count. -/
theorem congr {other : Draft α} (styled : StyledDraft draft)
    (style : other.style = draft.style) (pending : other.pendingLabel = draft.pendingLabel)
    (labels : other.labels = draft.labels) (arrows : other.arrows = draft.arrows)
    (polygons : other.polygons = draft.polygons) : StyledDraft other where
  style := style ▸ styled.style
  pending := pending ▸ styled.pending
  labels := labels ▸ styled.labels
  arrows := arrows ▸ styled.arrows
  polygons := polygons ▸ styled.polygons

theorem beside {other : Draft α} (styled : StyledDraft draft) (same : draft.SameBeside other) :
    StyledDraft other := by
  rw [same]
  exact styled.congr rfl rfl rfl rfl rfl

theorem setStyle (styled : StyledDraft draft) {style : Style α} (written : WrittenStyle style)
    (family : StyleFamily) : StyledDraft (draft.setStyle family style) := by
  have others : ∀ other, WrittenStyle ((draft.setStyle family style).style other) := by
    intro other
    rw [Draft.style_setStyle]
    split
    · exact written
    · exact styled.style other
  cases family with
  | label => exact { styled with style := others }
  | arrow => exact { styled with style := others }
  | polygon => exact { styled with style := others }

theorem forall_mem_push {items : Array (Item α)} {item : Item α}
    (written : ∀ other ∈ items, WrittenStyle other.style) (writtenToo : WrittenStyle item.style) :
    ∀ other ∈ items.push item, WrittenStyle other.style := by
  intro other member
  rcases Array.mem_push.mp member with member | rfl
  · exact written other member
  · exact writtenToo

/-- **A statement whose style is as scripts write it keeps the styles of a draft so.** -/
theorem perform (styled : StyledDraft draft) {statement : Statement α}
    (written : statement.Styled) {outcome : Outcome α}
    (done : draft.perform statement = .ok outcome) : StyledDraft outcome.draft := by
  cases about : statement.isAboutWaypoints with
  | true => exact styled.beside (Draft.perform_sameBeside about done)
  | false =>
      cases statement with
      | openLabel item =>
          cases done
          exact { styled with pending := fun _ given => Option.some.inj given ▸ written }
      | addArrow item =>
          cases done
          exact { styled with arrows := forall_mem_push styled.arrows written }
      | addPolygon item =>
          cases done
          exact { styled with polygons := forall_mem_push styled.polygons written }
      | setStyle family style => exact Except.ok.inj done ▸ styled.setStyle written family
      | paste cells x y train source =>
          obtain ⟨pasted, pasting, rfl⟩ := map_eq_ok done
          obtain ⟨entry, -, pasting⟩ := bind_eq_ok pasting
          cases pasting
          exact styled.congr rfl rfl rfl rfl rfl
      | _ =>
          first
          | exact Except.ok.inj done ▸ styled.congr rfl rfl rfl rfl rfl
          | cases about

theorem finishString (styled : StyledDraft draft) (info : PatternInfo) (text : String) :
    StyledDraft (draft.finishString info text).1 := by
  unfold Draft.finishString
  dsimp only
  split
  · exact styled.congr rfl rfl rfl rfl rfl
  · split
    · rename_i item pending
      exact { styled with
        pending := fun _ impossible => nomatch impossible
        labels := forall_mem_push styled.labels (styled.pending item pending) }
    · exact styled.congr rfl rfl rfl rfl rfl
  · exact styled.congr rfl rfl rfl rfl rfl

end StyledDraft

/-! ### Sessions -/

section Sessions

variable [OrderedScalar α] [NearestScalar α]

theorem Session.step_styled {context : Context α} {session after : Session α}
    (styled : StyledDraft session.draft) (done : session.step context = .ok after) :
    StyledDraft after.draft := by
  cases step_takes done with
  | kept new draft reported without => exact draft ▸ styled
  | joined text draft reported without => exact draft ▸ styled.finishString context.info text
  | performed new given read makes sound performed draft reported =>
      have written := vouched_of_read (ReadsStyled.every styled _ session.reader.peek) read
      exact draft ▸ styled.perform written performed

/-- **The styles of every document that can be read are as scripts write them.** -/
theorem readAll_styled {context : Context α} {text : String} {session : Session α}
    (done : readAll context text = .ok session) : StyledDraft session.draft :=
  Session.run_keeps context (fun _ _ => Session.step_styled) (.start _) done

end Sessions

/-! ### Timelines -/

/-- **Every callout of a script has a style within its limits**, so that it fades in straight
lines, if it fades at all. -/
theorem interpret_fades [OrderedScalar α] [NearestScalar α] (context : Context α) (text : String)
    (interpretation : Interpretation α) (done : interpret context text = .ok interpretation) :
    ∀ item ∈ interpretation.timeline.callouts.items, item.style.Valid ∧ item.style.Fades := by
  obtain ⟨session, read, done⟩ := bind_eq_ok done
  have styled := readAll_styled read
  intro item member
  have written : WrittenStyle item.style := by
    rw [(Draft.finish_collected done).2, Registry.items] at member
    rcases List.mem_append.mp member with member | label
    · rcases List.mem_append.mp member with polygon | arrow
      · exact styled.polygons item (Array.mem_toList_iff.mp polygon)
      · exact styled.arrows item (Array.mem_toList_iff.mp arrow)
    · exact styled.labels item (Array.mem_toList_iff.mp label)
  exact ⟨written.toValid, written.toValid.fades written.reached⟩

/-- A fade that is refused leaves the window of labels as it was; the ramps of the arrow are as long
as an odd window lets them be. -/
theorem interpret_fades_windows :
    let context : Context Float := ⟨.standard, .standard, .standard⟩
    let script := "[[ LABELT 10 20 4 LABELT 10 20 6 LABELALPHA 1/2 LABELZOOMRANGE -4 1 "
      ++ "LABEL 0 0 2 \"Here\" ARROWT 3 10 3 ARROW 0 0 5 5 2 POLYLINE 0 0 4 4 2 ]]"
    ∃ interpretation, interpret context script = .ok interpretation
      ∧ interpretation.timeline.callouts.items.map
          (fun item => (item.style.opens, item.style.closes, item.style.fade))
        = [(-1, -1, 0), (3, 10, 3), (10, 20, 4)]
      ∧ ∀ item ∈ interpretation.timeline.callouts.items, item.style.Valid ∧ item.style.Fades := by
  intro context script
  have checked : (interpret context script).toOption.any (fun interpretation =>
      interpretation.timeline.callouts.items.map
          (fun item => (item.style.opens, item.style.closes, item.style.fade))
        == [(-1, -1, 0), (3, 10, 3), (10, 20, 4)]) = true := by
    decide +kernel
  obtain ⟨interpretation, interpreted, windows⟩ := exists_interpretation checked
  exact ⟨interpretation, interpreted, beq_iff_eq.mp windows,
    interpret_fades context script interpretation interpreted⟩

end Showreel.Script
