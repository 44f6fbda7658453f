import GrupoDeEstudos.Verif.Float
import GrupoDeEstudos.Verif.Termination
import GrupoDeEstudos.Verif.Invariant
/-!
# Which calls of `primeFactors` raise

`primeFactors` has no guard of its own. Its exceptions come from the header of the `for` loop,
evaluated once, on the odd part `m` of the argument, after the halving loop has printed one 2 for
each factor 2. A negative argument always raises in `int(math.sqrt(m))`: `OverflowError` when
`float(m)` rounds to `2^1024` or beyond, which happens from `|m| = 2^1024 - 2^970` on, and
`ValueError` below that. A positive argument raises `OverflowError` there under the same
condition. Otherwise `range(3, b + 1, 2)` is built from the bound `b`: from `b > 2^61` on that
raises `MemoryError`, and from `b > 2^64` on `OverflowError`; below, the `for` loop starts. Since
a run has one end (`reaches_stuck_unique`), a call that ends raising never returns.
-/

namespace GrupoDeEstudos.Verif.Errors

open GrupoDeEstudos.Prime GrupoDeEstudos.Verif.Termination GrupoDeEstudos.Verif.Invariant
open GrupoDeEstudos.Verif.Float (intSqrt_eq)

/-- A call on a nonzero `n = 2^k * m`, `m` odd, reaches the halving loop's test at `m` having
printed `k` twos. -/
theorem reaches_odd_part (n : ℤ) (nonzero : n ≠ 0) :
    ∃ k m, n = 2 ^ k * m ∧ Odd m ∧ m.fmod 2 ≠ 0 ∧
      Reaches (primeFactors n) (.halving m (List.replicate k 2)) := by
  obtain ⟨k, m, split, odd, reach⟩ := halving_exits n nonzero []
  have odd' := odd
  rw [Int.fmod_eq_emod _ (by decide)] at odd'
  exact ⟨k, m, split, Int.odd_iff.2 (by omega), odd, by simpa using reach⟩

/-- On a negative argument the call ends raising, after printing one 2 per factor 2, and so
never returns: `OverflowError` when the odd part reaches `-(2^1024 - 2^970)`, `ValueError` above
it. -/
theorem primeFactors_raises_of_neg (n : ℤ) (neg : n < 0) :
    ∃ k m, n = 2 ^ k * m ∧ Odd m ∧
      EndsAt (primeFactors n)
        (.raised (if 2 ^ 1024 - 2 ^ 970 ≤ m.natAbs then .overflowError else .valueError)
          (List.replicate k 2)) := by
  obtain ⟨k, m, split, odd, odd', reach⟩ := reaches_odd_part n neg.ne
  have negm : m < 0 := neg_of_mul_neg_right (split ▸ neg) (by positivity)
  refine ⟨k, m, split, odd, endsAt_of_reaches (reach.tail (.sqrtRaises odd' ?_)) rfl⟩
  rw [intSqrt_eq]
  split_ifs <;> rfl

/-- `primeFactors(-12)` prints 2 twice, then raises `ValueError` on the odd part `-3`. -/
theorem primeFactors_raises_of_neg_twelve : (-12 : ℤ) < 0 ∧
    ∃ k m, (-12 : ℤ) = 2 ^ k * m ∧ Odd m ∧
      EndsAt (primeFactors (-12))
        (.raised (if 2 ^ 1024 - 2 ^ 970 ≤ m.natAbs then .overflowError else .valueError)
          (List.replicate k 2)) :=
  ⟨by norm_num, primeFactors_raises_of_neg (-12) (by norm_num)⟩

/-- A positive call never raises `ValueError`: the halving loop keeps `n` positive, and `range`
raises only `OverflowError` or `MemoryError`. -/
theorem not_reaches_valueError {n : ℕ} (pos : 0 < n) (out : List ℤ) :
    ¬ Reaches (primeFactors n) (.raised .valueError out) := by
  intro reach
  rcases Relation.ReflTransGen.cases_tail reach with same | ⟨before, toBefore, last⟩
  · cases same
  cases last with
  | sqrtRaises _ raises =>
    obtain ⟨m, rfl, -⟩ := inv_of_reaches pos toBefore
    rw [intSqrt_eq] at raises
    split_ifs at raises <;> first | omega | cases raises
  | rangeRaises _ _ raises =>
    rw [rangeError_three] at raises
    split_ifs at raises <;> cases raises

/-- On a positive argument `math.sqrt` raises `OverflowError` when the odd part reaches
`2^1024 - 2^970`, and returns the truncated root of `float(m)` below. From the bound `b` it
returns, the `for` loop starts from 3 while `b ≤ 2^61`; building the range raises `MemoryError`
up to `b = 2^64` and `OverflowError` above. The call never raises `ValueError`. -/
theorem primeFactors_raises_of_pos (n : ℤ) (pos : 0 < n) :
    ∃ k m, n = 2 ^ k * m ∧ Odd m ∧
      (2 ^ 1024 - 2 ^ 970 ≤ m →
        EndsAt (primeFactors n) (.raised .overflowError (List.replicate k 2))) ∧
      (m < 2 ^ 1024 - 2 ^ 970 → intSqrt m = .ok (truncSqrt (roundToDouble m.natAbs))) ∧
      (∀ b, intSqrt m = .ok b →
        (b ≤ 2 ^ 61 → Reaches (primeFactors n) (.scanning m 3 (b + 1) (List.replicate k 2))) ∧
        (2 ^ 61 < b → b ≤ 2 ^ 64 →
          EndsAt (primeFactors n) (.raised .memoryError (List.replicate k 2))) ∧
        (2 ^ 64 < b →
          EndsAt (primeFactors n) (.raised .rangeOverflowError (List.replicate k 2)))) ∧
      ∀ out, ¬ Reaches (primeFactors n) (.raised .valueError out) := by
  obtain ⟨k, m, split, odd, odd', reach⟩ := reaches_odd_part n pos.ne'
  have posm : 0 < m := pos_of_mul_pos_right (split ▸ pos) (by positivity)
  refine ⟨k, m, split, odd,
    fun large => endsAt_of_reaches (reach.tail (.sqrtRaises odd' ?_)) rfl, fun small => ?_,
    fun b ok => ⟨fun built => reach.tail (.startScan odd' ok ?_),
      fun above below => endsAt_of_reaches (reach.tail (.rangeRaises odd' ok ?_)) rfl,
      fun above => endsAt_of_reaches (reach.tail (.rangeRaises odd' ok ?_)) rfl⟩, fun out => ?_⟩
  · rw [intSqrt_eq, if_pos (by omega)]
  · rw [intSqrt_eq, if_neg (by omega), if_neg (by omega)]
  · rw [rangeError_three, if_neg (by omega), if_neg (by omega)]
  · rw [rangeError_three, if_neg (by omega), if_pos above]
  · rw [rangeError_three, if_pos above]
  · lift n to ℕ using pos.le
    exact not_reaches_valueError (by exact_mod_cast pos) out

/-- `primeFactors(12)` prints 2 twice and scans the odd part 3 up to its bound. -/
theorem primeFactors_raises_of_pos_twelve : (0 : ℤ) < 12 ∧
    ∃ k m, (12 : ℤ) = 2 ^ k * m ∧ Odd m ∧
      (2 ^ 1024 - 2 ^ 970 ≤ m →
        EndsAt (primeFactors 12) (.raised .overflowError (List.replicate k 2))) ∧
      (m < 2 ^ 1024 - 2 ^ 970 → intSqrt m = .ok (truncSqrt (roundToDouble m.natAbs))) ∧
      (∀ b, intSqrt m = .ok b →
        (b ≤ 2 ^ 61 → Reaches (primeFactors 12) (.scanning m 3 (b + 1) (List.replicate k 2))) ∧
        (2 ^ 61 < b → b ≤ 2 ^ 64 →
          EndsAt (primeFactors 12) (.raised .memoryError (List.replicate k 2))) ∧
        (2 ^ 64 < b →
          EndsAt (primeFactors 12) (.raised .rangeOverflowError (List.replicate k 2)))) ∧
      ∀ out, ¬ Reaches (primeFactors 12) (.raised .valueError out) :=
  ⟨by norm_num, primeFactors_raises_of_pos 12 (by norm_num)⟩

end GrupoDeEstudos.Verif.Errors
