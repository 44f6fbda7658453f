import GrupoDeEstudos.Prime.Machine
import Mathlib.Tactic.Linarith
import Mathlib.Tactic.Ring
import Mathlib.Data.List.Basic
/-!
# Termination of `primeFactors`

Each loop of `primeFactors` exits: the halving loop from every nonzero `n`, because `n / 2`
shrinks `|n|`; each inner `while n % i== 0` from every positive `n`, because `n / i` shrinks
`n`; and the `for` loop after finitely many candidates. So a call on a nonzero integer returns or
raises. At `n = 0` the halving loop never exits, since `0 % 2 == 0` and `0 / 2 == 0`.
-/

namespace GrupoDeEstudos.Verif.Termination

open GrupoDeEstudos.Prime

/-- Halving a nonzero even integer gives a nonzero integer of smaller absolute value. -/
theorem halve_shrinks {n : ℤ} (nonzero : n ≠ 0) (even : n.fmod 2 = 0) :
    n.fdiv 2 ≠ 0 ∧ (n.fdiv 2).natAbs < n.natAbs := by
  rw [Int.fmod_eq_emod _ (by decide)] at even
  rw [Int.fdiv_eq_ediv _ (by decide)]
  omega

/-- Dividing a positive integer by a divisor `i ≥ 2` gives a smaller positive integer. -/
theorem divide_shrinks {n i : ℤ} (pos : 0 < n) (two_le : 2 ≤ i) (dvd : n.fmod i = 0) :
    0 < n.fdiv i ∧ n.fdiv i < n := by
  rw [Int.fmod_eq_emod _ (by omega)] at dvd
  rw [Int.fdiv_eq_ediv _ (by omega)]
  have parts := Int.emod_add_ediv n i
  rw [dvd, zero_add] at parts
  constructor <;> nlinarith

/-- The halving loop exits from every nonzero `n = 2^k * m` with `m` odd: it prints `k` twos and
reaches its test with `m`. -/
theorem halving_exits (n : ℤ) (nonzero : n ≠ 0) (printed : List ℤ) :
    ∃ k m, n = 2 ^ k * m ∧ m.fmod 2 ≠ 0 ∧
      Reaches (.halving n printed) (.halving m (printed ++ List.replicate k 2)) := by
  generalize h : n.natAbs = size
  induction size using Nat.strong_induction_on generalizing n printed with
  | _ size ih =>
    by_cases even : n.fmod 2 = 0
    · obtain ⟨half_ne, smaller⟩ := halve_shrinks nonzero even
      obtain ⟨k, m, split, odd, reach⟩ := ih _ (h ▸ smaller) _ half_ne (printed ++ [2]) rfl
      have twice : n = 2 * n.fdiv 2 := by
        rw [Int.fmod_eq_emod _ (by decide)] at even
        rw [Int.fdiv_eq_ediv _ (by decide)]
        omega
      refine ⟨k + 1, m, by rw [twice, split, pow_succ']; ring, odd, .head (.halve even) ?_⟩
      simpa [List.replicate_succ] using reach
    · exact ⟨0, n, by simp, even, by simpa using .refl⟩

/-- Each inner loop exits from a positive `n` and `i ≥ 2`, leaving `n` positive. -/
theorem dividing_exits (n i stop : ℤ) (pos : 0 < n) (two_le : 2 ≤ i) (printed : List ℤ) :
    ∃ m out, 0 < m ∧ Reaches (.dividing n i stop printed) (.scanning m (i + 2) stop out) := by
  generalize h : n.toNat = size
  induction size using Nat.strong_induction_on generalizing n printed with
  | _ size ih =>
    by_cases dvd : n.fmod i = 0
    · obtain ⟨quot_pos, smaller⟩ := divide_shrinks pos two_le dvd
      obtain ⟨m, out, mpos, reach⟩ := ih _ (by omega) _ quot_pos (printed ++ [i]) rfl
      exact ⟨m, out, mpos, .head (.divide dvd) reach⟩
    · exact ⟨n, printed, pos, .single (.advance dvd)⟩

/-- The `for` loop ends from a positive `n` and `i ≥ 2`. -/
theorem scanning_exits (n i stop : ℤ) (pos : 0 < n) (two_le : 2 ≤ i) (printed : List ℤ) :
    ∃ m out, Reaches (.scanning n i stop printed) (.residual m out) := by
  generalize h : (stop - i).toNat = size
  induction size using Nat.strong_induction_on generalizing n i printed with
  | _ size ih =>
    by_cases more : i < stop
    · obtain ⟨m, out, mpos, inner⟩ := dividing_exits n i stop pos two_le printed
      obtain ⟨r, last, rest⟩ := ih _ (by omega) m (i + 2) mpos (by omega) out rfl
      exact ⟨r, last, .head (.enter more) (inner.trans rest)⟩
    · exact ⟨n, printed, .single (.leave more)⟩

/-- The final `if` always returns. -/
theorem residual_returns (n : ℤ) (printed : List ℤ) :
    ∃ out, Step (.residual n printed) (.returned out) := by
  by_cases big : n > 2
  · exact ⟨_, .printResidual big⟩
  · exact ⟨_, .skipResidual big⟩

/-- Once `int(math.sqrt(m))` gives a bound for the odd `m` and its range is built, the call
returns. -/
theorem halving_returns {m b : ℤ} (odd : m.fmod 2 ≠ 0) (bound : intSqrt m = .ok b)
    (range : rangeError 3 (b + 1) 2 = none) (printed : List ℤ) :
    ∃ out, Reaches (.halving m printed) (.returned out) := by
  have pos : 0 < m := by
    have := nonneg_of_intSqrt_eq_ok bound
    have : m ≠ 0 := by rintro rfl; exact odd rfl
    omega
  obtain ⟨r, last, scan⟩ := scanning_exits m 3 (b + 1) pos (by norm_num) printed
  obtain ⟨out, ret⟩ := residual_returns r last
  exact ⟨out, (Relation.ReflTransGen.head (.startScan odd bound range) scan).tail ret⟩

/-- From the halving loop's test at a nonzero `n`, the call returns or raises. -/
theorem halving_finishes (n : ℤ) (nonzero : n ≠ 0) (printed : List ℤ) :
    ∃ t, Reaches (.halving n printed) t ∧
      ((∃ out, t = .returned out) ∨ ∃ e out, t = .raised e out) := by
  obtain ⟨_, m, -, odd, halving⟩ := halving_exits n nonzero printed
  cases bound : intSqrt m with
  | error e => exact ⟨_, halving.tail (.sqrtRaises odd bound), .inr ⟨e, _, rfl⟩⟩
  | ok b =>
    cases range : rangeError 3 (b + 1) 2 with
    | some e => exact ⟨_, halving.tail (.rangeRaises odd bound range), .inr ⟨e, _, rfl⟩⟩
    | none =>
      obtain ⟨out, ret⟩ := halving_returns odd bound range _
      exact ⟨_, halving.trans ret, .inl ⟨out, rfl⟩⟩

/-- Every call on a nonzero integer returns or raises after finitely many steps. -/
theorem primeFactors_terminates (n : ℤ) (nonzero : n ≠ 0) :
    ∃ t, Reaches (primeFactors n) t ∧
      ((∃ out, t = .returned out) ∨ ∃ e out, t = .raised e out) :=
  halving_finishes n nonzero []

/-- `primeFactors(-6)` returns or raises. -/
theorem primeFactors_terminates_neg_six : (-6 : ℤ) ≠ 0 ∧ ∃ t, Reaches (primeFactors (-6)) t ∧
    ((∃ out, t = .returned out) ∨ ∃ e out, t = .raised e out) :=
  ⟨by decide, primeFactors_terminates (-6) (by decide)⟩

/-- From `n = 0` every reachable state is the halving loop's test at `n = 0`, with twos appended
to the output. -/
theorem reaches_from_zero {printed : List ℤ} {t : State} (reach : Reaches (.halving 0 printed) t) :
    ∃ k, t = .halving 0 (printed ++ List.replicate k 2) := by
  induction reach with
  | refl => exact ⟨0, by simp⟩
  | tail _ last ih =>
    obtain ⟨k, rfl⟩ := ih
    cases last with
    | halve => exact ⟨k + 1, by rw [List.replicate_succ', ← List.append_assoc]; rfl⟩
    | startScan odd | sqrtRaises odd | rangeRaises odd => exact absurd rfl odd

/-- `primeFactors(0)` neither returns nor raises: its halving loop prints 2 forever. -/
theorem primeFactors_zero_diverges : ¬ ∃ t, Reaches (primeFactors 0) t ∧
    ((∃ out, t = .returned out) ∨ ∃ e out, t = .raised e out) := by
  rintro ⟨t, reach, done⟩
  obtain ⟨k, rfl⟩ := reaches_from_zero reach
  rcases done with ⟨_, h⟩ | ⟨_, _, h⟩ <;> cases h

/-- `primeFactors(0)` prints 2 without end: for every `k` it reaches the halving loop's test having
printed `k` twos, and it reaches no other state. -/
theorem primeFactors_zero_prints_twos :
    (∀ k, Reaches (primeFactors 0) (.halving 0 (List.replicate k 2))) ∧
      ∀ t, Reaches (primeFactors 0) t → ∃ k, t = .halving 0 (List.replicate k 2) := by
  refine ⟨fun k => ?_, fun t reach => by simpa using reaches_from_zero reach⟩
  induction k with
  | zero => exact .refl
  | succ k ih =>
    rw [List.replicate_succ']
    exact ih.tail (.halve (by decide))

end GrupoDeEstudos.Verif.Termination
