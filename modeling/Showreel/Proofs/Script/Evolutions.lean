import Mathlib.Data.Set.Function
import Showreel.Proofs.Script.Closing
import Showreel.Proofs.Script.Session

/-!
Contract: the cells of the pastes of a script that are run forward only once.

Owns:
- evolutions that are filed under a fingerprint of the cells, and when nobody can tell;
- that every key is filed once;
- that the pastes of a timeline are those of the script, each of them run forward by itself.

Does not own: where cells come to when they are run forward.
-/

namespace Showreel

open Number Pattern

namespace Paste

/-! ### Evolutions under a fingerprint -/

namespace Schedule

variable {κ : Type} [DecidableEq κ]

/-- Cells that have been run forward, by a fingerprint of the cells and the number of
generations. -/
abbrev Filed (κ : Type) := List ((κ × Int) × Evolved)

/-- The evolution of cells, looked up under their fingerprint or computed and then filed. -/
def evolutionBy (fingerprint : Cells → κ) (known : Filed κ) (cells : Cells) (generations : Int) :
    Evolved × Filed κ :=
  match known.lookup (fingerprint cells, generations) with
  | some evolved => (evolved, known)
  | none =>
      let evolved := evolveCells cells generations.toNat
      (evolved, known ++ [((fingerprint cells, generations), evolved)])

/-- All entries with their cells run forward, where those with one fingerprint share one
evolution. -/
def evolveAllBy (fingerprint : Cells → κ) (known : Filed κ) : List Entry → List Entry × Filed κ
  | [] => ([], known)
  | entry :: rest =>
      if entry.evolve ≤ 0 then
        let (others, final) := evolveAllBy fingerprint known rest
        (entry :: others, final)
      else
        let (evolved, grown) := evolutionBy fingerprint known entry.cells entry.evolve
        let (others, final) := evolveAllBy fingerprint grown rest
        (entry.withEvolved evolved :: others, final)

/-- Cells are a fingerprint of themselves. -/
theorem evolveAllBy_id (known : Evolutions) (entries : List Entry) :
    evolveAllBy id known entries = evolveAll known entries := by
  induction entries generalizing known with
  | nil => rfl
  | cons entry rest inductionHypothesis =>
      unfold evolveAllBy evolveAll
      simp only [inductionHypothesis]
      rfl

/-- Whatever is filed under the fingerprint of one of the blocks is the evolution of that block. -/
def Faithful (fingerprint : Cells → κ) (blocks : Set Cells) (known : Filed κ) : Prop :=
  ∀ cells ∈ blocks, ∀ generations, ∀ evolved ∈ known.lookup (fingerprint cells, generations),
    evolved = evolveCells cells generations.toNat

theorem faithful_nil (fingerprint : Cells → κ) (blocks : Set Cells) :
    Faithful fingerprint blocks [] :=
  fun _ _ _ _ impossible => nomatch impossible

variable {fingerprint : Cells → κ} {blocks : Set Cells} {known : Filed κ}

/-- What is newly filed under a key is found there, unless something was before. -/
theorem Faithful.file (faithful : Faithful fingerprint blocks known)
    (apart : Set.InjOn fingerprint blocks) {cells : Cells} (member : cells ∈ blocks)
    (generations : Int) :
    Faithful fingerprint blocks
      (known ++ [((fingerprint cells, generations), evolveCells cells generations.toNat)]) := by
  intro other otherMember otherGenerations evolved found
  rw [List.lookup_append, Option.mem_def, Option.or_eq_some_iff] at found
  rcases found with earlier | ⟨-, newest⟩
  · exact faithful other otherMember otherGenerations evolved earlier
  · simp only [List.lookup_cons, List.lookup_nil] at newest
    split at newest
    · rename_i same
      obtain ⟨alike, rfl⟩ := Prod.mk.inj (beq_iff_eq.mp same)
      rw [apart otherMember member alike]
      exact (Option.some.inj newest).symm
    · cases newest

/-- The evolution of a block is its own, whether it was looked up or computed. -/
theorem evolutionBy_faithful (faithful : Faithful fingerprint blocks known)
    (apart : Set.InjOn fingerprint blocks) {cells : Cells} (member : cells ∈ blocks)
    (generations : Int) :
    (evolutionBy fingerprint known cells generations).1 = evolveCells cells generations.toNat
      ∧ Faithful fingerprint blocks (evolutionBy fingerprint known cells generations).2 := by
  unfold evolutionBy
  split
  · rename_i evolved found
    exact ⟨faithful cells member generations evolved found, faithful⟩
  · exact ⟨rfl, faithful.file apart member generations⟩

/-- **Nobody can tell that evolutions are shared**, if fingerprints tell the cells of the entries
apart. -/
theorem evolveAllBy_eq (faithful : Faithful fingerprint blocks known)
    (apart : Set.InjOn fingerprint blocks) {entries : List Entry}
    (members : ∀ entry ∈ entries, entry.cells ∈ blocks) :
    (evolveAllBy fingerprint known entries).1 = entries.map Entry.evolved := by
  induction entries generalizing known with
  | nil => rfl
  | cons entry rest inductionHypothesis =>
      obtain ⟨member, others⟩ := List.forall_mem_cons.mp members
      rw [evolveAllBy, List.map_cons, Entry.evolved]
      split
      · exact congrArg (entry :: ·) (inductionHypothesis faithful others)
      · obtain ⟨own, grown⟩ := evolutionBy_faithful faithful apart member entry.evolve
        dsimp only
        rw [own, inductionHypothesis grown others]

theorem evolveAll_eq (entries : List Entry) :
    (evolveAll [] entries).1 = entries.map Entry.evolved := by
  rw [← evolveAllBy_id]
  exact evolveAllBy_eq (faithful_nil id Set.univ) Function.injective_id.injOn
    fun _ _ => Set.mem_univ _

/-- A key is filed only where nothing was found under it. -/
theorem evolutionBy_nodup (fingerprint : Cells → κ) (cells : Cells) (generations : Int)
    (once : (known.map Prod.fst).Nodup) :
    ((evolutionBy fingerprint known cells generations).2.map Prod.fst).Nodup := by
  unfold evolutionBy
  split
  · exact once
  · rename_i missing
    rw [List.map_append, List.map_singleton, List.nodup_append]
    refine ⟨once, List.pairwise_singleton _ _, fun key filed newest isNewest same => ?_⟩
    obtain ⟨entry, member, rfl⟩ := List.mem_map.mp filed
    cases List.mem_singleton.mp isNewest
    have other := List.lookup_eq_none_iff.mp missing entry member
    exact bne_iff_ne.mp other same.symm

/-- **No cells are run forward twice** for one number of generations. -/
theorem evolveAllBy_nodup (fingerprint : Cells → κ) (entries : List Entry)
    (once : (known.map Prod.fst).Nodup) :
    ((evolveAllBy fingerprint known entries).2.map Prod.fst).Nodup := by
  induction entries generalizing known with
  | nil => exact once
  | cons entry rest inductionHypothesis =>
      rw [evolveAllBy]
      split
      · exact inductionHypothesis once
      · exact inductionHypothesis (evolutionBy_nodup fingerprint entry.cells entry.evolve once)

end Schedule

end Paste

namespace Script

open Paste

variable {α : Type} [Scalar α]

/-! ### The pastes of a timeline -/

theorem Draft.finish_pastes_evolved {draft : Draft α} {reported : List Diagnostic} {commands : Nat}
    {settings : ViewerSettings α} {camera : Camera α} {interpretation : Interpretation α}
    (done : draft.finish reported commands settings camera = .ok interpretation) :
    interpretation.timeline.pastes = draft.pastes.toList.map Entry.evolved := by
  rw [(finish_collected done).1]
  exact Schedule.evolveAll_eq draft.pastes.toList

/-- **Sharing evolutions is invisible.** The pastes of a timeline are those that reading has
collected, in order, each of them run forward by itself. That is also what evolutions filed under
any fingerprint give, as long as it tells the cells of the collected pastes apart. -/
theorem interpret_evolves {κ : Type} [DecidableEq κ] (fingerprint : Cells → κ)
    (context : Context α) (text : String) (interpretation : Interpretation α)
    (done : interpret context text = .ok interpretation) :
    ∃ session, readAll context text = .ok session
      ∧ interpretation.timeline.pastes = session.draft.pastes.toList.map Entry.evolved
      ∧ (Set.InjOn fingerprint {cells | ∃ entry ∈ session.draft.pastes, entry.cells = cells} →
        (Schedule.evolveAllBy fingerprint [] session.draft.pastes.toList).1
          = interpretation.timeline.pastes) := by
  obtain ⟨session, read, done⟩ := bind_eq_ok done
  have evolved := Draft.finish_pastes_evolved done
  refine ⟨session, read, evolved, fun apart => ?_⟩
  rw [evolved]
  refine Schedule.evolveAllBy_eq (Schedule.faithful_nil fingerprint _) apart fun entry member => ?_
  exact ⟨entry, Array.mem_toList_iff.mp member, rfl⟩

/-- Five pastes that take three evolutions: two share one at different places, one is run forward for
another number of generations, one has as many cells in another shape, and one stays as it is. -/
theorem interpret_evolves_shared :
    let context : Context Float := ⟨.standard, .standard, .standard⟩
    let text := "[[ PASTEEVOLVE 2 PASTE 3o! PASTE 3o! 7 -2 PASTE o$o$o! PASTEEVOLVE 1 PASTE 3o! 0 5 "
      ++ "PASTEEVOLVE 0 PASTE 3o! ]]"
    ∃ interpretation session, interpret context text = .ok interpretation
      ∧ readAll context text = .ok session
      ∧ interpretation.timeline.pastes = session.draft.pastes.toList.map Entry.evolved
      ∧ interpretation.timeline.pastes.length = 5 ∧ interpretation.evolutions.length = 3 := by
  intro context text
  have checked : (interpret context text).toOption.any (fun interpretation =>
      interpretation.timeline.pastes.length == 5 && interpretation.evolutions.length == 3)
        = true := by
    decide +kernel
  obtain ⟨interpretation, done, passes⟩ := exists_interpretation checked
  obtain ⟨five, three⟩ := Bool.and_eq_true_iff.mp passes
  obtain ⟨session, read, evolved, -⟩ := interpret_evolves id context text interpretation done
  exact ⟨interpretation, session, done, read, evolved, beq_iff_eq.mp five, beq_iff_eq.mp three⟩

end Script

end Showreel
