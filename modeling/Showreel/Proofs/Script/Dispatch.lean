import Showreel.Proofs.Script.Read.Callout
import Showreel.Proofs.Script.Read.Paste
import Showreel.Proofs.Script.Read.Viewer
import Showreel.Proofs.Script.Read.Waypoint
import Showreel.Script.Interpreter

/-!
Contract: what the commands of a script read, and what becomes of a session by them.

Owns:
- one law for the reading of all commands but the end of a script block;
- the outcomes of a dispatch.

Does not own: what statements do.
-/

namespace Showreel.Script

open Number Scalar

variable {α : Type} [Scalar α] {outlook : Outlook α}
  {expects : List String → List String → Prop}

/-- What the reading of a command admits: a statement is sound, and comes without a report
unless it is a paste. -/
def Command.Admits (command : Command) (outlook : Outlook α) (result : Option (Statement α))
    (new : List Diagnostic) : Prop :=
  ∀ statement, result = some statement → (command ≠ .paste → new = []) ∧ outlook.Sound statement

theorem Gives.admitted {command : Command} {reading : Reading (Option (Statement α))}
    (gives : Gives outlook expects reading outlook.Sound) :
    Meets outlook expects reading (command.Admits outlook) :=
  Twins.mono gives fun _ _ admitted statement given =>
    ⟨fun _ => (admitted statement given).1, (admitted statement given).2⟩

/-- Every command but the end of a script block gives a sound statement, or none, and stays
within the block. -/
theorem Meets.command (command : Command) (word : String) (inside : command ≠ .scriptEnd) :
    Meets outlook expects (command.read outlook.draft outlook.refreshRate word)
      (command.Admits outlook) := by
  cases command with
  | scriptEnd => exact absurd rfl inside
  | paste =>
      exact (Meets.paste word).mono fun _ _ sound statement given =>
        ⟨fun other => absurd rfl other, sound statement given⟩
  | scriptStart => exact (Withholds.refuse _ _).gives.admitted
  | generation => exact (Gives.generation word).admitted
  | pause => exact (Gives.pause word).admitted
  | poi => exact Gives.openPoi.admitted
  | poiStart => exact (Gives.poiStart word).admitted
  | poiPlay => exact (Gives.known trivial).admitted
  | poiStop => exact (Gives.known trivial).admitted
  | poiReset => exact (Gives.known trivial).admitted
  | poiSpeed => exact (Gives.poiSpeed word).admitted
  | poiAddLabels => exact (Gives.known trivial).admitted
  | all => exact (Gives.copyAll word).admitted
  | initial => exact (Withholds.refuse _ _).gives.admitted
  | off => exact (Withholds.refuse _ _).gives.admitted
  | field name => exact (Gives.field word name).admitted
  | motion linear => exact (Gives.motion linear word).admitted
  | autofit => exact Gives.autofit.admitted
  | grid => exact (Gives.switch .grid word).admitted
  | gridMajor => exact (Gives.gridMajor word).admitted
  | stars => exact (Gives.switch .stars word).admitted
  | time => exact (Gives.known trivial).admitted
  | track => exact (Gives.track word).admitted
  | trackBox => exact (Gives.trackBox word).admitted
  | trackLoop => exact (Gives.trackLoop word).admitted
  | runLength => exact (Gives.runLength word).admitted
  | pasteTime => exact (Gives.pasteTime word).admitted
  | pasteDrift => exact (Gives.pasteDrift word).admitted
  | pasteMode => exact (Gives.pasteMode word).admitted
  | pasteEvolve => exact (Gives.pasteEvolve word).admitted
  | recipe => exact (Gives.recipe word).admitted
  | label => exact (Gives.label word).admitted
  | arrow => exact (Gives.arrow word).admitted
  | polygon filled => exact (Gives.polygon filled word).admitted
  | style family setting => exact (Gives.styleSetting family setting word).admitted
  | labelAlign => exact (Gives.labelAlign word).admitted
  | colour => exact (Gives.anyColour word).admitted
  | title => exact (Gives.title word).admitted
  | suppress => exact (Gives.known trivial).admitted
  | viewerWidth => exact (Gives.viewerWidth word).admitted
  | viewerHeight => exact (Gives.viewerHeight word).admitted
  | maxGridSize => exact (Gives.maxGridSize word).admitted
  | autostart => exact Gives.autostart.admitted
  | startFrom => exact (Gives.startFrom word).admitted
  | noStepBack => exact (Gives.known trivial).admitted
  | noReport => exact (Gives.known trivial).admitted
  | viewOnly => exact (Gives.known trivial).admitted

namespace Session

variable (context : Context α) (session : Session α)

/-- The session once the arguments of a command have been read. -/
def afterReading (command : Command) (scan : Scan) : Session α :=
  { session with
    reader := scan.reader
    reported := session.reported ++ scan.reported.toArray
    commands := if command = Command.scriptEnd then session.commands else session.commands + 1 }

theorem dispatch_eq {word : String} {command : Command}
    (known : Command.ofWord? word = some command) :
    session.dispatch context word =
      (command.read session.draft context.settings.refreshRate word).run ⟨session.reader, []⟩
        >>= fun (statement, scan) => (session.afterReading command scan).perform statement := by
  rw [dispatch, known]
  rfl

/-- The outlook of the next command alone. -/
abbrev ownOutlook : Outlook α :=
  .single session.draft context.settings.refreshRate session.reader.ahead

/-- A command is read, and its statement carried out, unless there is an excuse. -/
theorem dispatch_cases {word : String} {command : Command}
    (known : Command.ofWord? word = some command) (inside : command ≠ .scriptEnd) :
    (∃ fault, (session.ownOutlook context).Excused fault
        ∧ session.dispatch context word = .error fault)
      ∨ ∃ statement scan, command.Admits (session.ownOutlook context) statement scan.reported
        ∧ scan.reader.ahead <:+ session.reader.ahead
        ∧ session.dispatch context word = (session.afterReading command scan).perform statement := by
  have meets : Meets (session.ownOutlook context) Anywhere
      (command.read session.draft context.settings.refreshRate word)
      (command.Admits (session.ownOutlook context)) :=
    Meets.command command word inside
  have agree := meets ⟨session.reader, []⟩ ⟨session.reader, []⟩ rfl (List.suffix_refl _) trivial
  rw [dispatch_eq context session known]
  generalize (command.read session.draft context.settings.refreshRate word).run
    ⟨session.reader, []⟩ = outcome at agree ⊢
  cases agree with
  | given alike within reported echoed admitted =>
      exact .inr ⟨_, _, reported ▸ admitted, within, rfl⟩
  | failed excused => exact .inl ⟨_, excused, rfl⟩

/-- The end of a script block is no statement. -/
theorem dispatch_scriptEnd {word : String} (known : Command.ofWord? word = some .scriptEnd) :
    session.dispatch context word = .ok
      { session with
        reader := (session.reader.find startMarkers).getD session.reader.finish } := by
  rw [dispatch_eq context session known]
  simp [Command.read, Read.scriptEnd]
  rfl

end Session

end Showreel.Script
