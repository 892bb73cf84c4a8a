import Showreel.Fault

/-!
Contract: the generations at which a paste fires.

Owns:
- triggers: a list of generations, and a repeating rule;
- whether a trigger fires at a generation, how often it has fired before, and its
  last generation.

Does not own: what is pasted.
-/

namespace Showreel.Paste

/-- When a paste fires: at listed generations, and, when `every` is positive, at `start`
and every so many generations after it, up to `stop`. A negative `stop` means without
end. -/
structure Trigger where
  generations : List Int
  every : Int
  start : Int
  stop : Int
deriving DecidableEq, Repr

namespace Trigger

/-- The running sums of gaps after a first generation; a gap may not be negative. -/
def sumsFrom (first : Int) : List Int → Except Fault (List Int)
  | [] => .ok [first]
  | gap :: rest =>
      if gap < 0 then .error (.negativeDelta gap)
      else (sumsFrom (first + gap) rest).map (first :: ·)

/-- A trigger for listed generations, each given by its gap to the one before. -/
def at? (first : Int) (gaps : List Int) : Except Fault Trigger :=
  (sumsFrom first gaps).map fun generations => ⟨generations, 0, 0, -1⟩

/-- A trigger for one generation. -/
def once (generation : Int) : Trigger :=
  ⟨[generation], 0, 0, -1⟩

def repeating (every start stop : Int) : Trigger :=
  ⟨[], every, start, stop⟩

/-- Whether the repeating rule fires. -/
def ruleFires (trigger : Trigger) (generation : Int) : Bool :=
  decide (0 < trigger.every) && decide (trigger.start ≤ generation)
    && decide ((generation - trigger.start) % trigger.every = 0)
    && (decide (trigger.stop < 0) || decide (generation ≤ trigger.stop))

def fires (trigger : Trigger) (generation : Int) : Bool :=
  trigger.ruleFires generation || trigger.generations.contains generation

/-- How many times a repeating rule came due before a generation. -/
def earlier (trigger : Trigger) (generation : Int) : Int :=
  if 0 < trigger.every ∧ trigger.start ≤ generation then
    (generation - trigger.start) / trigger.every
  else 0

/-- Every firing generation from zero up to a bound. -/
def schedule (trigger : Trigger) (bound : Int) : List Int :=
  ((List.range (bound + 1).toNat).map Int.ofNat).filter trigger.fires

/-- The last firing generation, or minus one for a rule without end and for no
generations. -/
def last (trigger : Trigger) : Int :=
  if 0 < trigger.every then
    if trigger.stop < 0 then -1
    else trigger.start + (trigger.stop - trigger.start) / trigger.every * trigger.every
  else
    match trigger.generations with
    | [] => -1
    | first :: rest => rest.foldl max first

end Trigger

end Showreel.Paste
