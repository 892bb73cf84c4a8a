import Showreel.Callout.Frame
import Showreel.Proofs.Number.Ordered

/-!
Contract: how a callout fades over the generations.

Owns:
- styles within their limits;
- the share of a callout that shows at a generation, as an exact number, and its pieces: nothing
  outside the window, straight ramps at both ends, all of it in between;
- that the time alpha of a style within its limits is nearest to that share.

Does not own: how styles come about, and the fades over zoom and distance.
-/

namespace Showreel.Callout

open Number Scalar

variable {α : Type}

/-! ### The share that shows -/

theorem Style.always_iff {style : Style α} :
    style.always = true ↔ style.opens = -1 ∧ style.closes = -1 := by
  simp [Style.always]

/-- The share of a callout that shows at a generation. -/
def share (style : Style α) (generation : ℤ) : ℚ :=
  if style.always then 1
  else if generation < style.opens ∨ style.closes < generation then 0
  else if style.fade ≤ 0 then 1
  else
    min 1 (min (((generation - style.opens : ℤ) : ℚ) / style.fade)
      (((style.closes - generation : ℤ) : ℚ) / style.fade))

section Share

variable {style : Style α} {generation : ℤ}

theorem share_mem (style : Style α) (generation : ℤ) :
    0 ≤ share style generation ∧ share style generation ≤ 1 := by
  unfold share
  split_ifs with always outside sharp
  · exact ⟨zero_le_one, le_rfl⟩
  · exact ⟨le_rfl, zero_le_one⟩
  · exact ⟨zero_le_one, le_rfl⟩
  · have positive : (0 : ℚ) < style.fade := by exact_mod_cast not_le.mp sharp
    obtain ⟨opened, closed⟩ := not_or.mp outside
    have since : (0 : ℚ) ≤ (generation - style.opens : ℤ) :=
      mod_cast Int.sub_nonneg.mpr (not_lt.mp opened)
    have left : (0 : ℚ) ≤ (style.closes - generation : ℤ) :=
      mod_cast Int.sub_nonneg.mpr (not_lt.mp closed)
    exact ⟨le_min zero_le_one (le_min (by positivity) (by positivity)), min_le_left _ _⟩

theorem share_outside (windowed : style.always = false)
    (outside : generation < style.opens ∨ style.closes < generation) :
    share style generation = 0 := by
  rw [share, windowed, if_neg Bool.false_ne_true, if_pos outside]

theorem share_inside (windowed : style.always = false) (opened : style.opens ≤ generation)
    (shown : generation ≤ style.closes) (fades : 0 < style.fade) :
    share style generation = min 1 (min (((generation - style.opens : ℤ) : ℚ) / style.fade)
      (((style.closes - generation : ℤ) : ℚ) / style.fade)) := by
  have inside : ¬(generation < style.opens ∨ style.closes < generation) := by omega
  rw [share, windowed, if_neg Bool.false_ne_true, if_neg inside, if_neg (not_le.mpr fades)]

theorem one_le_div_of_le {count fade : ℤ} (fades : 0 < fade) (past : fade ≤ count) :
    (1 : ℚ) ≤ (count : ℚ) / fade := by
  rw [one_le_div (by exact_mod_cast fades)]
  exact_mod_cast past

/-- Between the ramps all of a callout shows. -/
theorem share_plateau (windowed : style.always = false) (nonnegative : 0 ≤ style.fade)
    (risen : style.opens + style.fade ≤ generation)
    (unfallen : generation ≤ style.closes - style.fade) : share style generation = 1 := by
  rcases nonnegative.eq_or_lt with sharp | fades
  · have inside : ¬(generation < style.opens ∨ style.closes < generation) := by omega
    rw [share, windowed, if_neg Bool.false_ne_true, if_neg inside, if_pos sharp.ge]
  · rw [share_inside windowed (by omega) (by omega) fades]
    exact min_eq_left
      (le_min (one_le_div_of_le fades (by omega)) (one_le_div_of_le fades (by omega)))

/-- The ramps do not cross: while the first rises, the last has not begun. -/
theorem share_rising (windowed : style.always = false)
    (wide : 2 * style.fade ≤ style.closes - style.opens) (fades : 0 < style.fade)
    (opened : style.opens ≤ generation) (rising : generation ≤ style.opens + style.fade) :
    share style generation = ((generation - style.opens : ℤ) : ℚ) / style.fade := by
  have positive : (0 : ℚ) < style.fade := by exact_mod_cast fades
  have atMost : ((generation - style.opens : ℤ) : ℚ) / style.fade ≤ 1 := by
    rw [div_le_one positive]
    exact_mod_cast (by omega : generation - style.opens ≤ style.fade)
  have full : (1 : ℚ) ≤ ((style.closes - generation : ℤ) : ℚ) / style.fade :=
    one_le_div_of_le fades (by omega)
  rw [share_inside windowed opened (by omega) fades, min_eq_left (atMost.trans full),
    min_eq_right atMost]

/-- A window is the same from both of its ends. -/
theorem share_symmetric (style : Style α) (steps : ℤ) :
    share style (style.opens + steps) = share style (style.closes - steps) := by
  unfold share
  have mirrored : (style.opens + steps < style.opens ∨ style.closes < style.opens + steps)
      ↔ (style.closes - steps < style.opens ∨ style.closes < style.closes - steps) := by omega
  have since : style.opens + steps - style.opens = style.closes - (style.closes - steps) := by omega
  have left : style.closes - (style.opens + steps) = style.closes - steps - style.opens := by omega
  rw [since, left, min_comm ((_ : ℚ) / _)]
  simp only [mirrored]

/-- The last ramp is the first one from the other end. -/
theorem share_falling (windowed : style.always = false)
    (wide : 2 * style.fade ≤ style.closes - style.opens) (fades : 0 < style.fade)
    (falling : style.closes - style.fade ≤ generation) (shown : generation ≤ style.closes) :
    share style generation = ((style.closes - generation : ℤ) : ℚ) / style.fade := by
  have mirrored := share_symmetric style (style.closes - generation)
  rw [sub_sub_cancel] at mirrored
  rw [← mirrored, share_rising windowed wide fades (by omega) (by omega), add_sub_cancel_left]

end Share

variable [Scalar α]

/-! ### Styles within their limits -/

/-- A style within its limits. It shows in all generations, or its window is open for twice the
length of a fade at least; and its zooms are in order. -/
structure Style.Valid (style : Style α) : Prop where
  alpha : 0 ≤ style.alpha ∧ style.alpha ≤ 1
  window : (style.opens = -1 ∧ style.closes = -1 ∧ style.fade = 0)
    ∨ (0 ≤ style.opens ∧ style.opens ≤ style.closes
        ∧ 0 ≤ style.fade ∧ 2 * style.fade ≤ style.closes - style.opens)
  zooms : (style.minZoom = none ∧ style.maxZoom = none)
    ∨ ∃ low high, style.minZoom = some low ∧ style.maxZoom = some high ∧ low ≤ high

/-! ### The time alpha -/

/-- A style whose time alpha goes up and down in straight lines. -/
structure Style.FadesIn (style : Style α) : Prop where
  outside : ∀ generation, generation < style.opens ∨ style.closes < generation →
    timeAlpha style generation = .ok 0
  wide : style.opens + style.fade ≤ style.closes - style.fade
  plateau : ∀ generation, style.opens + style.fade ≤ generation →
    generation ≤ style.closes - style.fade → timeAlpha style generation = .ok 1
  rising : 0 < style.fade → ∀ generation, style.opens ≤ generation →
    generation ≤ style.opens + style.fade → timeAlpha style generation
      = .ok (ofRat (((generation - style.opens : ℤ) : ℚ) / style.fade))
  falling : 0 < style.fade → ∀ generation, style.closes - style.fade ≤ generation →
    generation ≤ style.closes → timeAlpha style generation
      = .ok (ofRat (((style.closes - generation : ℤ) : ℚ) / style.fade))

/-- What time makes of a style: everything shows if it shows in all generations, and else it fades
in and out, the same from both ends. -/
structure Style.Fades (style : Style α) : Prop where
  between : ∀ generation, ∃ value, timeAlpha style generation = .ok value ∧ 0 ≤ value ∧ value ≤ 1
  symmetric : ∀ steps,
    timeAlpha style (style.opens + steps) = timeAlpha style (style.closes - steps)
  always : style.opens = -1 ∧ style.closes = -1 → ∀ generation, timeAlpha style generation = .ok 1
  windowed : ¬(style.opens = -1 ∧ style.closes = -1) → style.FadesIn

/-- A quotient of whole numbers is in the range of scalars if its dividend is. -/
theorem ofQuotient_eq [LawfulScalar α] {bound count divisor : ℤ}
    (whole : ∃ value : α, wholePart value = .ok bound) (nonnegative : 0 ≤ count)
    (within : count ≤ bound) (positive : 1 ≤ divisor) :
    (ofQuotient count divisor : Except Fault α) = .ok (ofRat ((count : ℚ) / divisor)) := by
  obtain ⟨value, whole⟩ := whole
  obtain ⟨number, exact, rfl⟩ := denotation_of_wholePart whole
  have finite : isFinite (ofRat ((count : ℚ) / divisor) : α) = true := by
    apply LawfulScalar.between exact
    have atLeast : (0 : ℚ) ≤ count := mod_cast nonnegative
    have whole : (1 : ℚ) ≤ divisor := mod_cast positive
    have atMost : (count : ℚ) ≤ truncate number := mod_cast within
    calc |(count : ℚ) / divisor| = count / divisor := abs_of_nonneg (by positivity)
      _ ≤ count := div_le_self atLeast whole
      _ ≤ |(truncate number : ℚ)| := atMost.trans (le_abs_self _)
      _ ≤ |number| := abs_truncate_le number
  have apart : divisor ≠ 0 := by omega
  rw [ofQuotient, if_neg apart, inRange, if_pos finite]

/-- **The time alpha of a style within its limits is nearest to the share that shows.** -/
theorem timeAlpha_eq [LawfulScalar α] [NearestScalar α] {style : Style α} (valid : style.Valid)
    (reached : style.always = false → ∃ value : α, wholePart value = .ok style.closes)
    (generation : ℤ) :
    timeAlpha style generation = .ok (ofRat (share style generation)) := by
  have zero : (0 : α) = ofRat 0 := congrArg ofRat Nat.cast_zero
  have one : (1 : α) = ofRat 1 := congrArg ofRat Nat.cast_one
  rw [timeAlpha, share, zero, one]
  cases windowed : style.always with
  | true => rfl
  | false =>
      rw [if_neg Bool.false_ne_true, if_neg Bool.false_ne_true]
      split_ifs with outside sharp
      · rfl
      · rfl
      obtain always | ⟨opens, -, -, wide⟩ := valid.window
      · rw [Style.always_iff.mpr ⟨always.1, always.2.1⟩] at windowed
        cases windowed
      have known := reached windowed
      obtain ⟨opened, shown⟩ := not_or.mp outside
      have positive : (0 : ℚ) < style.fade := mod_cast not_le.mp sharp
      have since : (0 : ℚ) ≤ ((generation - style.opens : ℤ) : ℚ) / style.fade :=
        div_nonneg (mod_cast Int.sub_nonneg.mpr (not_lt.mp opened)) positive.le
      have left : (0 : ℚ) ≤ ((style.closes - generation : ℤ) : ℚ) / style.fade :=
        div_nonneg (mod_cast Int.sub_nonneg.mpr (not_lt.mp shown)) positive.le
      rw [ofQuotient_eq known (by omega) (by omega) (by omega),
        ofQuotient_eq known (by omega) (by omega) (by omega)]
      change Except.ok (larger _ (smaller (smaller _ _) _)) = _
      rw [smaller_ofRat zero_le_one since, smaller_ofRat (le_min zero_le_one since) left,
        larger_ofRat le_rfl (le_min (le_min zero_le_one since) left),
        max_eq_right (le_min (le_min zero_le_one since) left), min_assoc]

/-- **A style within its limits fades in straight lines.** -/
theorem Style.Valid.fades [OrderedScalar α] [NearestScalar α] {style : Style α}
    (valid : style.Valid)
    (reached : style.always = false → ∃ value : α, wholePart value = .ok style.closes) :
    style.Fades where
  between generation := by
    obtain ⟨low, high⟩ := share_mem style generation
    refine ⟨_, timeAlpha_eq valid reached generation, ?_, ?_⟩
    · exact OrderedScalar.monotone (by norm_num) (by norm_num; exact low)
    · exact OrderedScalar.monotone low (by norm_num; exact high)
  symmetric steps := by
    rw [timeAlpha_eq valid reached, timeAlpha_eq valid reached, share_symmetric]
  always unbounded generation := by
    rw [timeAlpha, if_pos (Style.always_iff.mpr unbounded)]
  windowed bounded := by
    have windowed : style.always = false :=
      Bool.eq_false_iff.mpr fun always => bounded (Style.always_iff.mp always)
    obtain always | ⟨opens, order, nonnegative, wide⟩ := valid.window
    · exact absurd ⟨always.1, always.2.1⟩ bounded
    have eq := fun generation => timeAlpha_eq valid reached generation
    refine ⟨fun generation outside => ?_, by omega, fun generation risen unfallen => ?_,
      fun fades generation opened rising => ?_, fun fades generation falling shown => ?_⟩
    · rw [eq, share_outside windowed outside]
      exact congrArg (Except.ok ∘ ofRat) Nat.cast_zero.symm
    · rw [eq, share_plateau windowed nonnegative risen unfallen]
      exact congrArg (Except.ok ∘ ofRat) Nat.cast_one.symm
    · rw [eq, share_rising windowed wide fades opened rising]
    · rw [eq, share_falling windowed wide fades falling shown]

end Showreel.Callout
