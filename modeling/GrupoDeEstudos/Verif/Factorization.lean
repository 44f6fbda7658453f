import GrupoDeEstudos.Verif.Float
import GrupoDeEstudos.Verif.Termination
import GrupoDeEstudos.Verif.Invariant
/-!
# `primeFactors` prints the prime factorisation

Below `2^106`, `int(math.sqrt(m))` is at least the integer square root of the odd part `m` left
by the halving loop (`Float`). Every prime factor of the residual after the `for` loop then
exceeds that square root, so the residual is 1 or a prime, and it is larger than every
candidate tried. Together with the run invariant of `Invariant` and the termination of
`Termination`, the call prints exactly `Nat.primeFactorsList n`. Whatever the size of `n`, a
returned output is that list exactly when all its values are prime: only the residual can be
wrong.
-/

namespace GrupoDeEstudos.Verif.Factorization

open GrupoDeEstudos.Prime GrupoDeEstudos.Verif.Invariant GrupoDeEstudos.Verif.Termination
open GrupoDeEstudos.Verif.Float (intSqrt_of_lt)

/-- A positive `m` whose prime factors all exceed its integer square root is 1 or a prime. -/
theorem eq_one_or_prime_of_sqrt_lt {m : ℕ} (pos : 0 < m)
    (large : ∀ p, p.Prime → p ∣ m → Nat.sqrt m < p) : m = 1 ∨ m.Prime := by
  by_contra neither
  push_neg at neither
  have least := large _ (Nat.minFac_prime neither.1) (Nat.minFac_dvd m)
  have square := Nat.minFac_sq_le_self pos neither.2
  exact absurd (Nat.le_sqrt'.2 square) (not_le.2 least)

/-- What an argument below `2^106` adds to `Inv`: `stop` exceeds the integer square root of the
cofactor, the residual is 1 or a prime above every printed value, and the call returns the
factor list. -/
def Bounded (n0 : ℕ) : State → Prop
  | .halving n _ => n < 2 ^ 106
  | .scanning n _ stop _ | .dividing n _ stop _ => (Nat.sqrt n.toNat : ℤ) < stop
  | .residual n printed => n = 1 ∨ (Nat.Prime n.toNat ∧ ∀ x ∈ printed, x < n)
  | .returned printed => printed = n0.primeFactorsList.map (↑)
  | .raised _ _ => False

variable {n0 : ℕ}

/-- An argument below `2^106` gets a bound above its integer square root. -/
theorem sqrt_lt_stop {m : ℕ} {bound : ℤ} (small : (m : ℤ) < 2 ^ 106)
    (ok : intSqrt m = .ok bound) : (Nat.sqrt m : ℤ) < bound + 1 := by
  obtain ⟨b, ok', le, -⟩ := intSqrt_of_lt (Int.natCast_nonneg m) small
  rw [ok] at ok'
  cases ok'
  simpa using Int.lt_add_one_of_le le

/-- Every transition keeps `Bounded`, given the invariant before it. -/
theorem bounded_step {s t : State} (inv : Inv n0 s) (bounded : Bounded n0 s) (step : Step s t) :
    Bounded n0 t := by
  cases step with
  | halve even =>
    obtain ⟨m, rfl, -⟩ := inv
    show Int.fdiv _ _ < _
    rw [Int.fdiv_eq_ediv _ (by decide)]
    exact lt_of_le_of_lt (Int.ediv_le_self _ (Int.natCast_nonneg m)) bounded
  | startScan _ ok _ =>
    obtain ⟨m, rfl, -⟩ := inv
    simpa [Bounded] using sqrt_lt_stop bounded ok
  | sqrtRaises _ raises =>
    obtain ⟨m, rfl, -⟩ := inv
    obtain ⟨b, ok, -⟩ := intSqrt_of_lt (Int.natCast_nonneg m) bounded
    rw [ok] at raises
    cases raises
  | rangeRaises _ ok raises =>
    obtain ⟨m, rfl, -⟩ := inv
    obtain ⟨b, ok', -, built⟩ := intSqrt_of_lt (Int.natCast_nonneg m) bounded
    cases ok.symm.trans ok'
    cases built.symm.trans raises
  | enter _ => exact bounded
  | leave done =>
    obtain ⟨m, j, rfl, rfl, -, sieved, below⟩ := inv
    simp only [Bounded, Int.toNat_natCast] at bounded ⊢
    rcases eq_one_or_prime_of_sqrt_lt sieved.pos fun p prime dvd => by
        have := sieved.least p prime dvd; omega with one | prime
    · exact .inl (by exact_mod_cast one)
    · exact .inr ⟨prime, fun x mem => by
        have := sieved.least m prime dvd_rfl; have := below x mem; omega⟩
  | divide dvd =>
    obtain ⟨m, j, rfl, rfl, -⟩ := inv
    simp only [Bounded, ← Int.ofNat_fdiv, Int.toNat_natCast] at bounded ⊢
    exact lt_of_le_of_lt (by exact_mod_cast Nat.sqrt_le_sqrt (Nat.div_le_self m j)) bounded
  | advance _ => exact bounded
  | printResidual big =>
    obtain ⟨m, j, rfl, sieved, -⟩ := inv
    rcases bounded with one | ⟨prime, -⟩
    · omega
    · have factored := sieved.factored
      rw [Int.toNat_natCast] at prime
      rw [Factored, Nat.primeFactorsList_prime prime] at factored
      exact factored
  | skipResidual small =>
    obtain ⟨m, j, rfl, sieved, -⟩ := inv
    have one : m = 1 := by
      have := Nat.odd_iff.1 sieved.odd
      have := sieved.pos
      omega
    have factored := sieved.factored
    rw [Factored, one, Nat.primeFactorsList_one] at factored
    simpa using factored

/-- `Bounded` holds at every state a run of `primeFactors(n0)` with `n0 < 2^106` reaches. -/
theorem bounded_of_reaches (pos0 : 0 < n0) (small : n0 < 2 ^ 106) {s : State}
    (reach : Reaches (primeFactors n0) s) : Bounded n0 s := by
  induction reach with
  | refl =>
    show (n0 : ℤ) < 2 ^ 106
    exact_mod_cast small
  | tail before step ih => exact bounded_step (inv_of_reaches pos0 before) ih step

/-- Below `2^106` the call ends returning the factor list, and a residual it prints is a prime
above every value printed before it. -/
theorem prints_factorization_of_lt {n : ℕ} (pos : 0 < n) (small : n < 2 ^ 106) :
    EndsAt (primeFactors n) (.returned (n.primeFactorsList.map (↑))) ∧
    ∀ r printed, Reaches (primeFactors n) (.residual r printed) → r > 2 →
      Nat.Prime r.toNat ∧ ∀ x ∈ printed, x < r := by
  refine ⟨?_, fun r printed reach big => ?_⟩
  · obtain ⟨t, reach, done⟩ := halving_finishes n (by omega) []
    rcases done with ⟨out, rfl⟩ | ⟨e, out, rfl⟩
    · have printed : out = _ := bounded_of_reaches pos small reach
      exact printed ▸ endsAt_of_reaches reach rfl
    · exact (bounded_of_reaches pos small reach).elim
  · rcases bounded_of_reaches pos small reach with rfl | residual
    · norm_num at big
    · exact residual

/-- For every `n ≥ 1`, of any size, a list the call returns multiplies to `n`, is sorted, holds
only primes before its last value, and holds nothing below 2. -/
theorem primeFactors_returned_output (n : ℤ) (pos : 1 ≤ n) (out : List ℤ)
    (reach : Reaches (primeFactors n) (.returned out)) :
    out.prod = n ∧ out.Sorted (· ≤ ·) ∧ (∀ x ∈ out.dropLast, Prime x) ∧ ∀ x ∈ out, 2 ≤ x := by
  lift n to ℕ using (by omega)
  exact inv_of_reaches (by exact_mod_cast pos) reach

/-- `primeFactors(12)` returns the factor list of 12. -/
theorem reaches_twelve :
    Reaches (primeFactors 12) (.returned ((12 : ℕ).primeFactorsList.map (↑))) := by
  simpa using (prints_factorization_of_lt (n := 12) (by norm_num) (by norm_num)).1.1

/-- The list `primeFactors(12)` returns multiplies to 12, in order, with primes before the last. -/
theorem primeFactors_returned_output_12 : ∃ out, Reaches (primeFactors 12) (.returned out) ∧
    out.prod = 12 ∧ out.Sorted (· ≤ ·) ∧ (∀ x ∈ out.dropLast, Prime x) ∧ ∀ x ∈ out, 2 ≤ x :=
  ⟨_, reaches_twelve, primeFactors_returned_output 12 (by norm_num) _ reaches_twelve⟩

/-- A sorted list of primes with product `n` is the factor list of `n`. -/
theorem eq_primeFactorsList {n : ℕ} {out : List ℤ} (prod : out.prod = n)
    (sorted : out.Sorted (· ≤ ·)) (two_le : ∀ x ∈ out, 2 ≤ x) (primes : ∀ x ∈ out, Prime x) :
    out = n.primeFactorsList.map (↑) := by
  have cast : out = (out.map Int.toNat).map (↑) := by
    rw [List.map_map]
    conv_lhs => rw [← List.map_id out]
    exact List.map_congr_left fun x mem => by have := two_le x mem; simp; omega
  rw [cast] at prod sorted primes ⊢
  congr 1
  refine List.eq_of_perm_of_sorted (Nat.primeFactorsList_unique ?_ ?_) ?_
    (Nat.primeFactorsList_sorted n)
  · rw [← Nat.cast_list_prod] at prod
    exact_mod_cast prod
  · intro p mem
    exact Nat.prime_iff_prime_int.2 (primes p (List.mem_map_of_mem _ mem))
  · exact (List.pairwise_map.1 sorted).imp fun le => by exact_mod_cast le

/-- For every `n ≥ 1`, a list the call returns is the prime factorisation of `n` exactly when
every value in it is prime. -/
theorem primeFactors_output_eq_factorization_iff (n : ℤ) (pos : 1 ≤ n) (out : List ℤ)
    (reach : Reaches (primeFactors n) (.returned out)) :
    out = n.toNat.primeFactorsList.map (↑) ↔ ∀ x ∈ out, Prime x := by
  lift n to ℕ using (by omega)
  rw [Int.toNat_natCast]
  obtain ⟨prod, sorted, -, two_le⟩ := inv_of_reaches (by exact_mod_cast pos) reach
  refine ⟨?_, eq_primeFactorsList prod sorted two_le⟩
  rintro rfl x mem
  obtain ⟨p, factor, rfl⟩ := List.mem_map.1 mem
  exact Nat.prime_iff_prime_int.1 (Nat.prime_of_mem_primeFactorsList factor)

/-- `primeFactors(12)` returns a list that is the factorisation exactly when it is all primes. -/
theorem primeFactors_output_eq_factorization_iff_12 : ∃ out,
    Reaches (primeFactors 12) (.returned out) ∧
      (out = (12 : ℤ).toNat.primeFactorsList.map (↑) ↔ ∀ x ∈ out, Prime x) :=
  ⟨_, reaches_twelve, primeFactors_output_eq_factorization_iff 12 (by norm_num) _ reaches_twelve⟩

/-- For `1 ≤ n ≤ 2^53`, `primeFactors(n)` ends, and only by returning having printed exactly the
prime factors of `n` with multiplicity, in order; a residual printed by the final `if` is a prime
above every value printed before it. -/
theorem primeFactors_prints_factorization (n : ℤ) (pos : 1 ≤ n) (small : n ≤ 2 ^ 53) :
    EndsAt (primeFactors n) (.returned (n.toNat.primeFactorsList.map (↑))) ∧
    ∀ r printed, Reaches (primeFactors n) (.residual r printed) → r > 2 →
      Nat.Prime r.toNat ∧ ∀ x ∈ printed, x < r := by
  lift n to ℕ using (by omega)
  rw [Int.toNat_natCast]
  exact prints_factorization_of_lt (by exact_mod_cast pos)
    (lt_of_le_of_lt (by exact_mod_cast small) (by norm_num))

/-- `primeFactors(3782)`, the script's own call, prints the factors of 3782. -/
theorem primeFactors_prints_factorization_3782 : (1 : ℤ) ≤ 3782 ∧ (3782 : ℤ) ≤ 2 ^ 53 ∧
    EndsAt (primeFactors 3782) (.returned ((3782 : ℤ).toNat.primeFactorsList.map (↑))) ∧
    ∀ r printed, Reaches (primeFactors 3782) (.residual r printed) → r > 2 →
      Nat.Prime r.toNat ∧ ∀ x ∈ printed, x < r :=
  ⟨by norm_num, by norm_num, primeFactors_prints_factorization 3782 (by norm_num) (by norm_num)⟩

/-- The same holds for every `n` below `2^106`, where `float(n)` may already round. -/
theorem primeFactors_prints_factorization_below (n : ℤ) (pos : 1 ≤ n) (small : n < 2 ^ 106) :
    EndsAt (primeFactors n) (.returned (n.toNat.primeFactorsList.map (↑))) := by
  lift n to ℕ using (by omega)
  rw [Int.toNat_natCast]
  exact (prints_factorization_of_lt (by exact_mod_cast pos) (by exact_mod_cast small)).1

/-- `primeFactors(2^60 + 1)`: above `2^53`, where the conversion to binary64 rounds. -/
theorem primeFactors_prints_factorization_below_two_pow_60 :
    (1 : ℤ) ≤ 2 ^ 60 + 1 ∧ (2 ^ 60 + 1 : ℤ) < 2 ^ 106 ∧
    EndsAt (primeFactors (2 ^ 60 + 1))
      (.returned ((2 ^ 60 + 1 : ℤ).toNat.primeFactorsList.map (↑))) :=
  ⟨by norm_num, by norm_num,
    primeFactors_prints_factorization_below (2 ^ 60 + 1) (by norm_num) (by norm_num)⟩

end GrupoDeEstudos.Verif.Factorization
