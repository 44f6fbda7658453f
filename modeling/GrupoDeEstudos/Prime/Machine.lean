import GrupoDeEstudos.Prime.PyMath
import Mathlib.Logic.Relation
/-!
# `primeFactors` as a transition system

`algoritmos_e_criptografia_rsa/prime.py` defines `primeFactors(n)` for Python 2:

    while n % 2 == 0: print 2,; n = n / 2
    for i in range(3,int(math.sqrt(n))+1,2):
        while n % i== 0: print i,; n = n / i
    if n > 2: print n

A state is a control point with the live locals and the values printed so far; one step runs
one loop test together with the body it selects. Python 2's `%` and `/` on integers round toward
negative infinity, which are `Int.fmod` and `Int.fdiv`. Output formatting (the trailing commas'
soft spaces) is not modelled, only the printed values. `range` builds its list before the loop
runs; building it can raise (`rangeError`), and once built it is iterated as here.
-/

namespace GrupoDeEstudos.Prime

/-- A control point of `primeFactors`, with its live locals and the values printed so far. -/
inductive State where
  /-- The test of `while n % 2 == 0`. -/
  | halving (n : ℤ) (printed : List ℤ)
  /-- The head of `for i in range(3, stop, 2)`, `stop` being `int(math.sqrt(n))+1` and `i` the
  next candidate. -/
  | scanning (n i stop : ℤ) (printed : List ℤ)
  /-- The test of `while n % i== 0`. -/
  | dividing (n i stop : ℤ) (printed : List ℤ)
  /-- The test of `if n > 2`. -/
  | residual (n : ℤ) (printed : List ℤ)
  /-- The call has returned. -/
  | returned (printed : List ℤ)
  /-- `int(math.sqrt(n))` or `range` has raised `error`. -/
  | raised (error : PyError) (printed : List ℤ)
  deriving DecidableEq, Repr

namespace State

/-- The values printed so far. -/
def printed : State → List ℤ
  | halving _ p | scanning _ _ _ p | dividing _ _ _ p | residual _ p | returned p | raised _ p => p

/-- The local `n`, while the call runs. -/
def current : State → Option ℤ
  | halving n _ | scanning n _ _ _ | dividing n _ _ _ | residual n _ => some n
  | returned _ | raised _ _ => none

end State

/-- `primeFactors(n)` at entry: the first test of the halving loop, nothing printed. -/
def primeFactors (n : ℤ) : State := .halving n []

/-- One step of `primeFactors`; `none` once the call has returned or raised. -/
def step : State → Option State
  | .halving n printed =>
    if n.fmod 2 = 0 then some (.halving (n.fdiv 2) (printed ++ [2]))
    else some (match intSqrt n with
      | .ok bound =>
        match rangeError 3 (bound + 1) 2 with
        | none => .scanning n 3 (bound + 1) printed
        | some e => .raised e printed
      | .error e => .raised e printed)
  | .scanning n i stop printed =>
    some (if i < stop then .dividing n i stop printed else .residual n printed)
  | .dividing n i stop printed =>
    if n.fmod i = 0 then some (.dividing (n.fdiv i) i stop (printed ++ [i]))
    else some (.scanning n (i + 2) stop printed)
  | .residual n printed => some (.returned (if n > 2 then printed ++ [n] else printed))
  | .returned _ => none
  | .raised _ _ => none

/-- The transitions of `primeFactors`, one for each branch of `step`. -/
inductive Step : State → State → Prop where
  /-- `print 2,` and `n = n / 2`. -/
  | halve {n printed} : n.fmod 2 = 0 →
      Step (.halving n printed) (.halving (n.fdiv 2) (printed ++ [2]))
  /-- The halving loop exits and the `for` loop's range is built. -/
  | startScan {n printed bound} : n.fmod 2 ≠ 0 → intSqrt n = .ok bound →
      rangeError 3 (bound + 1) 2 = none →
      Step (.halving n printed) (.scanning n 3 (bound + 1) printed)
  /-- The halving loop exits and `int(math.sqrt(n))` raises. -/
  | sqrtRaises {n printed error} : n.fmod 2 ≠ 0 → intSqrt n = .error error →
      Step (.halving n printed) (.raised error printed)
  /-- The halving loop exits and building the range raises. -/
  | rangeRaises {n printed bound error} : n.fmod 2 ≠ 0 → intSqrt n = .ok bound →
      rangeError 3 (bound + 1) 2 = some error →
      Step (.halving n printed) (.raised error printed)
  /-- The `for` loop takes its next `i`. -/
  | enter {n i stop printed} : i < stop →
      Step (.scanning n i stop printed) (.dividing n i stop printed)
  /-- The `for` loop's range is exhausted. -/
  | leave {n i stop printed} : ¬ i < stop →
      Step (.scanning n i stop printed) (.residual n printed)
  /-- `print i,` and `n = n / i`. -/
  | divide {n i stop printed} : n.fmod i = 0 →
      Step (.dividing n i stop printed) (.dividing (n.fdiv i) i stop (printed ++ [i]))
  /-- The inner loop exits; the range moves on by 2. -/
  | advance {n i stop printed} : n.fmod i ≠ 0 →
      Step (.dividing n i stop printed) (.scanning n (i + 2) stop printed)
  /-- `print n` for a residual above 2. -/
  | printResidual {n printed} : n > 2 → Step (.residual n printed) (.returned (printed ++ [n]))
  /-- A residual of at most 2 is not printed. -/
  | skipResidual {n printed} : ¬ n > 2 → Step (.residual n printed) (.returned printed)

/-- `step` takes exactly the transitions of `Step`. -/
theorem step_eq_some_iff {s t : State} : step s = some t ↔ Step s t := by
  constructor
  · intro h
    cases s with
    | halving n printed =>
      by_cases even : n.fmod 2 = 0
      · simp only [step, if_pos even, Option.some.injEq] at h
        exact h ▸ .halve even
      · cases bound : intSqrt n with
        | ok b =>
          cases range : rangeError 3 (b + 1) 2 <;>
            simp only [step, if_neg even, bound, range, Option.some.injEq] at h
          · exact h ▸ .startScan even bound range
          · exact h ▸ .rangeRaises even bound range
        | error e =>
          simp only [step, if_neg even, bound, Option.some.injEq] at h
          exact h ▸ .sqrtRaises even bound
    | scanning n i stop printed =>
      simp only [step, Option.some.injEq] at h
      split at h
      · exact h ▸ .enter ‹_›
      · exact h ▸ .leave ‹_›
    | dividing n i stop printed =>
      simp only [step] at h
      split at h
      · exact Option.some.inj h ▸ .divide ‹_›
      · exact Option.some.inj h ▸ .advance ‹_›
    | residual n printed =>
      simp only [step, Option.some.injEq] at h
      split at h
      · exact h ▸ .printResidual ‹_›
      · exact h ▸ .skipResidual ‹_›
    | returned => cases h
    | raised => cases h
  · rintro (_ | _ | _ | _ | _ | _ | _ | _ | _ | _) <;> simp_all [step]

/-- `step` stops exactly at the returned and raised states. -/
theorem step_eq_none_iff {s : State} :
    step s = none ↔ (∃ printed, s = .returned printed) ∨ ∃ e printed, s = .raised e printed := by
  cases s <;> simp [step] <;> split <;> simp

/-- Each state has at most one successor. -/
theorem Step.deterministic {s t u : State} (first : Step s t) (second : Step s u) : t = u := by
  rw [← step_eq_some_iff] at first second
  exact Option.some.inj (first.symm.trans second)

/-- The states a run passes through, from a given state on. -/
def Reaches : State → State → Prop := Relation.ReflTransGen Step

/-- Run `primeFactors` for at most `fuel` steps. -/
def run : ℕ → State → State
  | 0, s => s
  | fuel + 1, s =>
    match step s with
    | some t => run fuel t
    | none => s

/-- A run passes through the state it stops at. -/
theorem reaches_run (fuel : ℕ) (s : State) : Reaches s (run fuel s) := by
  induction fuel generalizing s with
  | zero => exact .refl
  | succ fuel ih =>
    simp only [run]
    split
    · exact .head (step_eq_some_iff.1 ‹_›) (ih _)
    · exact .refl

/-- A state without successor that a run reaches is where the fuelled run stops. -/
theorem run_eq_of_reaches {s t : State} (reach : Reaches s t) (stuck : step t = none) :
    ∃ fuel, run fuel s = t := by
  induction reach using Relation.ReflTransGen.head_induction_on with
  | refl => exact ⟨0, rfl⟩
  | head first _ ih =>
    obtain ⟨fuel, rfl⟩ := ih
    exact ⟨fuel + 1, by simp [run, step_eq_some_iff.2 first]⟩

/-- A run ends in at most one state: returning or raising is determined by the start. -/
theorem reaches_stuck_unique {s t u : State} (toT : Reaches s t) (toU : Reaches s u)
    (stuckT : step t = none) (stuckU : step u = none) : t = u := by
  induction toT using Relation.ReflTransGen.head_induction_on with
  | refl =>
    rcases Relation.ReflTransGen.cases_head toU with rfl | ⟨next, first, _⟩
    · rfl
    · simp [← step_eq_some_iff, stuckT] at first
  | head first _ ih =>
    rcases Relation.ReflTransGen.cases_head toU with rfl | ⟨next, other, rest⟩
    · simp [← step_eq_some_iff, stuckU] at first
    · exact ih (first.deterministic other ▸ rest)

/-- The run from `s` ends at `t`, and nowhere else: it reaches `t`, and every state it reaches
where `step` stops is `t`. -/
def EndsAt (s t : State) : Prop := Reaches s t ∧ ∀ u, Reaches s u → step u = none → u = t

/-- A run that reaches a state where `step` stops ends there. -/
theorem endsAt_of_reaches {s t : State} (reach : Reaches s t) (stuck : step t = none) :
    EndsAt s t :=
  ⟨reach, fun _ other stop => reaches_stuck_unique other reach stop stuck⟩

/-- A run that stops at `u` passes through every state another run from its start reaches. -/
theorem reaches_of_reaches_stuck {s t u : State} (toT : Reaches s t) (toU : Reaches s u)
    (stuck : step u = none) : Reaches t u := by
  have unique : Relator.RightUnique Step := fun _ _ _ => Step.deterministic
  rcases Relation.ReflTransGen.total_of_right_unique unique toT toU with forward | backward
  · exact forward
  · rcases Relation.ReflTransGen.cases_head backward with rfl | ⟨next, first, _⟩
    · exact .refl
    · simp [← step_eq_some_iff, stuck] at first

end GrupoDeEstudos.Prime
