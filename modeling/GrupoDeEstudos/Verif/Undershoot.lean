import GrupoDeEstudos.Prime.Machine
import GrupoDeEstudos.Verif.Float
import Mathlib.NumberTheory.LucasPrimality
import Mathlib.Tactic.NormNum.Prime
/-!
# Where the bound falls short: a prime square above `2^106`

When every prime factor of an odd `n > 2` exceeds the bound `int(math.sqrt(n))`, the `for` loop
divides by nothing and the final `if` prints `n` itself. Below `2^106` that only happens for a
prime `n` (`Factorization`). Just above, `float(n)` can round down far enough for the truncated
root to miss `√n`: for the prime `p = 65 * 2^47 + 1`, `float(p^2)` is `p^2 - 2^48 - 1`, whose
correctly rounded root truncates to `p - 1`, so `primeFactors(p^2)` prints `p^2` as one factor.
That `p` is prime is checked by Lucas's test with witness 3, as `p - 1 = 2^47 * 5 * 13`.
-/

namespace GrupoDeEstudos.Verif.Undershoot

open GrupoDeEstudos.Prime
open GrupoDeEstudos.Verif.Float (intSqrt_eq log2_eq_of_bounds)

/-! ## A `for` loop that divides by nothing -/

/-- A candidate `i ≥ 2` at most `b` does not divide an `n` whose prime factors all exceed `b`. -/
theorem fmod_ne_zero_of_unsieved {n b i : ℤ} (unsieved : ∀ p : ℕ, p.Prime → (p : ℤ) ∣ n → b < p)
    (two_le : 2 ≤ i) (le : i ≤ b) : n.fmod i ≠ 0 := by
  intro dvd
  rw [Int.fmod_eq_emod _ (by omega)] at dvd
  lift i to ℕ using (by omega)
  have prime := Nat.minFac_prime (n := i) (by omega)
  have least : (i.minFac : ℤ) ≤ i := by exact_mod_cast Nat.minFac_le (by omega)
  have divides : (i.minFac : ℤ) ∣ n :=
    (Int.natCast_dvd_natCast.2 (Nat.minFac_dvd i)).trans (Int.dvd_of_emod_eq_zero dvd)
  have := unsieved _ prime divides
  omega

/-- From candidate `i ≥ 2` on, the loop up to `b` prints nothing and leaves `n` as it is. -/
theorem scanning_untouched {n b : ℤ} (unsieved : ∀ p : ℕ, p.Prime → (p : ℤ) ∣ n → b < p)
    (i : ℤ) (two_le : 2 ≤ i) : Reaches (.scanning n i (b + 1) []) (.residual n []) := by
  generalize h : (b + 1 - i).toNat = size
  induction size using Nat.strong_induction_on generalizing i with
  | _ size ih =>
    by_cases more : i < b + 1
    · have rest := ih _ (by omega) (i + 2) (by omega) rfl
      have keep := fmod_ne_zero_of_unsieved unsieved two_le (by omega)
      exact .head (.enter more) (.head (.advance keep) rest)
    · exact .single (.leave more)

/-- An odd `n > 2` whose prime factors all exceed `b = int(math.sqrt(n))` is printed whole:
unless building `range(3, b + 1, 2)` raises, `primeFactors(n)` ends returning, having printed `n`
alone. -/
theorem primeFactors_prints_unsieved (n b : ℤ) (odd : n.fmod 2 ≠ 0) (big : 2 < n)
    (bound : intSqrt n = .ok b) (unsieved : ∀ p : ℕ, p.Prime → (p : ℤ) ∣ n → b < p) :
    EndsAt (primeFactors n)
      (match rangeError 3 (b + 1) 2 with
        | none => .returned [n]
        | some e => .raised e []) := by
  cases range : rangeError 3 (b + 1) 2 with
  | none =>
    exact endsAt_of_reaches (.head (.startScan odd bound range)
      ((scanning_untouched unsieved 3 (by norm_num)).tail (.printResidual big))) rfl
  | some e => exact endsAt_of_reaches (.single (.rangeRaises odd bound range)) rfl

/-! ## `65 * 2^47 + 1` is prime -/

/-- `a ^ e % m` by repeated squaring over the `bits` low bits of `e`, so that the kernel can
evaluate it on large numbers. -/
def powMod (m : ℕ) : ℕ → ℕ → ℕ → ℕ
  | 0, _, _ => 1 % m
  | bits + 1, a, e => powMod m bits (a * a % m) (e / 2) * a ^ (e % 2) % m

/-- Repeated squaring computes `a ^ e % m` once `e` fits in `bits` bits. -/
theorem powMod_eq (m : ℕ) : ∀ bits a e, e < 2 ^ bits → powMod m bits a e = a ^ e % m
  | 0, a, e, fits => by
    have zero : e = 0 := by simpa using fits
    simp [zero, powMod]
  | bits + 1, a, e, fits => by
    have half : e / 2 < 2 ^ bits := by rw [pow_succ] at fits; omega
    rw [powMod, powMod_eq m bits _ _ half]
    calc (a * a % m) ^ (e / 2) % m * a ^ (e % 2) % m
        = (a * a) ^ (e / 2) * a ^ (e % 2) % m := by rw [← Nat.pow_mod, Nat.mod_mul_mod]
      _ = a ^ e % m := by rw [← sq, ← pow_mul, ← pow_add, Nat.div_add_mod]

/-- For `2 ≤ p`, a power is 1 in `ZMod p` exactly when its remainder mod `p` is 1. -/
theorem zmod_pow_eq_one_iff {p : ℕ} (two_le : 2 ≤ p) (a e : ℕ) :
    (a : ZMod p) ^ e = 1 ↔ a ^ e % p = 1 := by
  rw [← Nat.cast_pow, ← Nat.cast_one, ZMod.natCast_eq_natCast_iff',
    Nat.mod_eq_of_lt (show 1 < p by omega)]

/-- Lucas's test: `p` is prime when `a^(p-1) ≡ 1` and `a^((p-1)/q) ≢ 1` for each `q` of a list
holding every prime factor of `p - 1`. -/
theorem prime_of_lucas {p : ℕ} (a bits : ℕ) (qs : List ℕ) (two_le : 2 ≤ p) (fits : p - 1 < 2 ^ bits)
    (covers : ∀ q, q.Prime → q ∣ p - 1 → q ∈ qs) (full : powMod p bits a (p - 1) = 1)
    (proper : ∀ q ∈ qs, powMod p bits a ((p - 1) / q) ≠ 1) : p.Prime := by
  refine lucas_primality p a ?_ fun q prime dvd => ?_
  · rwa [zmod_pow_eq_one_iff two_le, ← powMod_eq _ _ _ _ fits]
  · rw [Ne, zmod_pow_eq_one_iff two_le, ← powMod_eq _ _ _ _ ((Nat.div_le_self _ _).trans_lt fits)]
    exact proper q (covers q prime dvd)

/-- The prime factors of `65 * 2^47 = 2^47 * 5 * 13` are 2, 5 and 13. -/
theorem mem_of_prime_dvd {q : ℕ} (prime : q.Prime) (dvd : q ∣ 9147936743096320) :
    q ∈ [2, 5, 13] := by
  rw [show 9147936743096320 = 2 ^ 47 * 5 * 13 by norm_num] at dvd
  rcases (Nat.Prime.dvd_mul prime).1 dvd with dvd | dvd
  · rcases (Nat.Prime.dvd_mul prime).1 dvd with dvd | dvd
    · simp [(Nat.prime_dvd_prime_iff_eq prime Nat.prime_two).1 (prime.dvd_of_dvd_pow dvd)]
    · simp [(Nat.prime_dvd_prime_iff_eq prime Nat.prime_five).1 dvd]
  · simp [(Nat.prime_dvd_prime_iff_eq prime (by norm_num)).1 dvd]

set_option maxRecDepth 2000 in
/-- `p = 65 * 2^47 + 1` is prime, by Lucas's test with witness 3. -/
theorem prime_9147936743096321 : Nat.Prime 9147936743096321 :=
  prime_of_lucas 3 54 [2, 5, 13] (by norm_num) (by norm_num)
    (fun _ prime dvd => mem_of_prime_dvd prime dvd) (by decide) (by decide)

/-! ## `int(math.sqrt(p * p))` is `p - 1` -/

/-- `float(p^2)` is `p^2 - 2^48 - 1`: the 54 bits below the significand round down. -/
theorem roundToDouble_square :
    roundToDouble 83684746655691724879054283735041 = 83684746655691724597579307024384 := by
  rw [roundToDouble, log2_eq_of_bounds
    (show 2 ^ 106 ≤ 83684746655691724879054283735041 by norm_num) (by norm_num)]
  decide

/-- The correctly rounded root of `float(p^2)` lies below `p`, and truncates to `p - 1`. -/
theorem truncSqrt_square :
    truncSqrt 83684746655691724597579307024384 = 9147936743096320 := by
  have root : Nat.sqrt (83684746655691724597579307024384 / 4 ^ (106 / 2 - 52)) =
      4573968371548160 := (Nat.eq_sqrt.2 ⟨by norm_num, by norm_num⟩).symm
  rw [truncSqrt, log2_eq_of_bounds
    (show 2 ^ 106 ≤ 83684746655691724597579307024384 by norm_num) (by norm_num)]
  simp only [root]
  decide

/-- `int(math.sqrt(p * p))` returns `p - 1`. -/
theorem intSqrt_square : intSqrt (9147936743096321 ^ 2) = .ok (9147936743096321 - 1) := by
  have natAbs : (9147936743096321 ^ 2 : ℤ).natAbs = 83684746655691724879054283735041 := by
    norm_num
  rw [intSqrt_eq, natAbs, if_neg (by norm_num), if_neg (by norm_num), roundToDouble_square,
    truncSqrt_square]
  norm_num

/-- Every prime factor of `p^2` is `p`, above the bound `p - 1`. -/
theorem unsieved_square (q : ℕ) (prime : q.Prime) (dvd : (q : ℤ) ∣ 9147936743096321 ^ 2) :
    (9147936743096321 - 1 : ℤ) < q := by
  have dvd : q ∣ 9147936743096321 ^ 2 := by exact_mod_cast dvd
  have := (Nat.prime_dvd_prime_iff_eq prime prime_9147936743096321).1
    (prime.dvd_of_dvd_pow dvd)
  subst this
  norm_num

/-- Its range, of about `2^52` candidates, is built. -/
theorem rangeError_square : rangeError 3 (9147936743096321 - 1 + 1) 2 = none := by
  rw [rangeError_three, if_neg (by norm_num), if_neg (by norm_num)]

/-- `primeFactors(p * p)` for the prime `p = 65 * 2^47 + 1` prints `p * p` as its only factor. -/
theorem primeFactors_prints_unsieved_square :
    Nat.Prime 9147936743096321 ∧ intSqrt (9147936743096321 ^ 2) = .ok (9147936743096321 - 1) ∧
      EndsAt (primeFactors (9147936743096321 ^ 2)) (.returned [9147936743096321 ^ 2]) := by
  refine ⟨prime_9147936743096321, intSqrt_square, ?_⟩
  have ends := primeFactors_prints_unsieved _ _ (by decide) (by norm_num) intSqrt_square
    unsieved_square
  rwa [rangeError_square] at ends

end GrupoDeEstudos.Verif.Undershoot
