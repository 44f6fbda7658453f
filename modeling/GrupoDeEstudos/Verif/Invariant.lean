import GrupoDeEstudos.Prime.Machine
import Mathlib.Data.Nat.Factors
import Mathlib.Algebra.BigOperators.Ring
import Mathlib.Data.Nat.Prime.Int
/-!
# What holds along every run of `primeFactors`

For an argument `n0 ≥ 1` the local `n` stays a positive natural, and the values printed so far,
followed by the prime factors of the current `n`, are always the prime factors of `n0` in order.
From the `for` loop on, no prime below the candidate `i` divides `n`. So an odd composite `i` of
`range(3, ..., 2)` never divides `n`, and every `i` printed is prime, although the source's
comment takes the range itself to hold only primes. None of this depends on the loop bound.
-/

namespace GrupoDeEstudos.Verif.Invariant

open GrupoDeEstudos.Prime

/-! ## Factor lists -/

/-- A prime `p` dividing `m`, at most every prime factor of `m`, heads `m`'s factor list. -/
theorem primeFactorsList_eq_cons {m p : ℕ} (prime : p.Prime) (dvd : p ∣ m) (pos : 0 < m)
    (least : ∀ q, q.Prime → q ∣ m → p ≤ q) :
    m.primeFactorsList = p :: (m / p).primeFactorsList := by
  have two_le : 2 ≤ m := le_trans prime.two_le (Nat.le_of_dvd pos dvd)
  have minFac : m.minFac = p := le_antisymm (Nat.minFac_le_of_dvd prime.two_le dvd)
    (least _ (Nat.minFac_prime (by omega)) (Nat.minFac_dvd m))
  obtain ⟨k, rfl⟩ : ∃ k, m = k + 2 := ⟨m - 2, by omega⟩
  rw [Nat.primeFactorsList_add_two, minFac]

/-- A divisor `j ≥ 2` of `m` that is at most every prime factor of `m` is prime. -/
theorem prime_of_least {m j : ℕ} (two_le : 2 ≤ j) (dvd : j ∣ m)
    (least : ∀ p, p.Prime → p ∣ m → j ≤ p) : j.Prime := by
  have prime := Nat.minFac_prime (show j ≠ 1 by omega)
  have minFac : j.minFac = j :=
    le_antisymm (Nat.minFac_le (by omega)) (least _ prime ((Nat.minFac_dvd j).trans dvd))
  exact minFac ▸ prime

/-- Python's `m % j == 0` on naturals is divisibility. -/
theorem fmod_natCast_eq_zero {m j : ℕ} : (m : ℤ).fmod j = 0 ↔ j ∣ m := by
  rw [← Int.ofNat_fmod, Nat.cast_eq_zero, Nat.dvd_iff_mod_eq_zero]

/-! ## The invariant -/

/-- The printed values, then the prime factors of the cofactor `m`, are those of `n0`. -/
def Factored (n0 m : ℕ) (printed : List ℤ) : Prop :=
  printed ++ m.primeFactorsList.map (↑) = n0.primeFactorsList.map (↑)

/-- From the `for` loop on: a positive cofactor `m` that no prime below `j ≥ 3` divides. -/
structure Sieved (n0 m j : ℕ) (printed : List ℤ) : Prop where
  /-- The cofactor stays positive. -/
  pos : 0 < m
  /-- Printing loses and adds no factor. -/
  factored : Factored n0 m printed
  /-- Candidates start at 3. -/
  three_le : 3 ≤ j
  /-- Every prime factor of the cofactor is at least the candidate. -/
  least : ∀ p, p.Prime → p ∣ m → j ≤ p

/-- The invariant of a run of `primeFactors(n0)` at each control point, whatever the bound. -/
def Inv (n0 : ℕ) : State → Prop
  | .halving n printed =>
    ∃ m : ℕ, n = m ∧ 0 < m ∧ Factored n0 m printed ∧ ∀ x ∈ printed, x = 2
  | .scanning n i _ printed =>
    ∃ m j : ℕ, n = m ∧ i = j ∧ Odd j ∧ Sieved n0 m j printed ∧ ∀ x ∈ printed, x < j
  | .dividing n i _ printed =>
    ∃ m j : ℕ, n = m ∧ i = j ∧ Odd j ∧ Sieved n0 m j printed ∧ ∀ x ∈ printed, x ≤ j
  | .residual n printed => ∃ m j : ℕ, n = m ∧ Sieved n0 m j printed ∧ ∀ x ∈ printed, x < j
  | .returned printed => printed.prod = n0 ∧ printed.Sorted (· ≤ ·) ∧
    (∀ x ∈ printed.dropLast, Prime x) ∧ ∀ x ∈ printed, 2 ≤ x
  | .raised _ _ => True

variable {n0 m j : ℕ} {printed : List ℤ}

/-- The printed values times the cofactor make up the argument. -/
theorem Factored.prod_mul (factored : Factored n0 m printed) (pos0 : 0 < n0) (pos : 0 < m) :
    printed.prod * m = n0 := by
  have prods := congrArg List.prod factored
  rw [List.prod_append, ← Nat.cast_list_prod, ← Nat.cast_list_prod,
    Nat.prod_primeFactorsList pos.ne', Nat.prod_primeFactorsList pos0.ne'] at prods
  exact prods

/-- The printed values so far are in nondecreasing order. -/
theorem Factored.sorted (factored : Factored n0 m printed) : printed.Sorted (· ≤ ·) := by
  have sorted : (n0.primeFactorsList.map ((↑) : ℕ → ℤ)).Sorted (· ≤ ·) :=
    List.pairwise_map.2 ((Nat.primeFactorsList_sorted n0).imp fun le => Int.ofNat_le.2 le)
  rw [← factored] at sorted
  exact (List.pairwise_append.1 sorted).1

/-- Every value printed so far is a prime natural. -/
theorem Factored.mem (factored : Factored n0 m printed) {x : ℤ} (mem : x ∈ printed) :
    ∃ p : ℕ, p.Prime ∧ x = p := by
  have mem : x ∈ n0.primeFactorsList.map ((↑) : ℕ → ℤ) := factored ▸ List.mem_append_left _ mem
  obtain ⟨p, factor, rfl⟩ := List.mem_map.1 mem
  exact ⟨p, Nat.prime_of_mem_primeFactorsList factor, rfl⟩

/-- Every value printed so far is prime. -/
theorem Factored.prime (factored : Factored n0 m printed) {x : ℤ} (mem : x ∈ printed) :
    Prime x := by
  obtain ⟨p, prime, rfl⟩ := factored.mem mem
  exact Nat.prime_iff_prime_int.1 prime

/-- Every value printed so far is at least 2. -/
theorem Factored.two_le (factored : Factored n0 m printed) {x : ℤ} (mem : x ∈ printed) :
    2 ≤ x := by
  obtain ⟨p, prime, rfl⟩ := factored.mem mem
  exact_mod_cast prime.two_le

/-- Printing the least prime factor `p` and dividing it out keeps the factorisation. -/
theorem Factored.divide {p : ℕ} (factored : Factored n0 m printed) (prime : p.Prime)
    (dvd : p ∣ m) (pos : 0 < m) (least : ∀ q, q.Prime → q ∣ m → p ≤ q) :
    Factored n0 (m / p) (printed ++ [(p : ℤ)]) := by
  rw [Factored, primeFactorsList_eq_cons prime dvd pos least] at factored
  simpa [Factored] using factored

/-- A sieved cofactor is odd. -/
theorem Sieved.odd (sieved : Sieved n0 m j printed) : Odd m := by
  rw [Nat.odd_iff, ← Nat.two_dvd_ne_zero]
  intro even
  have := sieved.least 2 Nat.prime_two even
  have := sieved.three_le
  omega

/-- Dividing out a candidate that divides the cofactor keeps it sieved. -/
theorem Sieved.divide (sieved : Sieved n0 m j printed) (dvd : j ∣ m) :
    Sieved n0 (m / j) j (printed ++ [(j : ℤ)]) where
  pos := Nat.div_pos (Nat.le_of_dvd sieved.pos dvd) (by have := sieved.three_le; omega)
  factored := sieved.factored.divide (prime_of_least (by have := sieved.three_le; omega) dvd
    sieved.least) dvd sieved.pos sieved.least
  three_le := sieved.three_le
  least p prime pdvd := sieved.least p prime (pdvd.trans (Nat.div_dvd_of_dvd dvd))

/-- An odd candidate that does not divide the cofactor can be passed by 2. -/
theorem Sieved.advance (sieved : Sieved n0 m j printed) (odd : Odd j) (ndvd : ¬ j ∣ m) :
    Sieved n0 m (j + 2) printed where
  pos := sieved.pos
  factored := sieved.factored
  three_le := by have := sieved.three_le; omega
  least p prime pdvd := by
    have := sieved.least p prime pdvd
    have : p ≠ j := by rintro rfl; exact ndvd pdvd
    have : p ≠ j + 1 := by
      rintro rfl
      have := (prime.even_iff).1 (by simpa [Nat.even_add_one, ← Nat.not_odd_iff_even] using odd)
      have := sieved.three_le
      omega
    omega

/-! ## Runs -/

/-- The call's entry satisfies the invariant. -/
theorem inv_primeFactors (pos0 : 0 < n0) : Inv n0 (primeFactors n0) :=
  ⟨n0, rfl, pos0, rfl, by simp⟩

/-- Every transition keeps the invariant. -/
theorem inv_step {s t : State} (pos0 : 0 < n0) (inv : Inv n0 s) (step : Step s t) :
    Inv n0 t := by
  cases step with
  | halve even =>
    obtain ⟨m, rfl, pos, factored, twos⟩ := inv
    rw [Int.fmod_eq_emod _ (by decide)] at even
    have dvd : 2 ∣ m := by omega
    refine ⟨m / 2, ?_, by omega, factored.divide Nat.prime_two dvd pos
      fun q prime _ => prime.two_le, List.forall_mem_append.2 ⟨twos, by simp⟩⟩
    rw [Int.fdiv_eq_ediv _ (by decide)]
    omega
  | startScan odd _ _ =>
    obtain ⟨m, rfl, pos, factored, twos⟩ := inv
    rw [Int.fmod_eq_emod _ (by decide)] at odd
    refine ⟨m, 3, rfl, rfl, by decide, ⟨pos, factored, le_rfl, fun p prime dvd => ?_⟩,
      fun x mem => by simp [twos x mem]⟩
    have := prime.two_le
    have : p ≠ 2 := by rintro rfl; omega
    omega
  | sqrtRaises | rangeRaises => trivial
  | enter _ =>
    obtain ⟨m, j, rfl, rfl, odd, sieved, below⟩ := inv
    exact ⟨m, j, rfl, rfl, odd, sieved, fun x mem => (below x mem).le⟩
  | leave _ =>
    obtain ⟨m, j, rfl, rfl, -, sieved, below⟩ := inv
    exact ⟨m, j, rfl, sieved, below⟩
  | divide dvd =>
    obtain ⟨m, j, rfl, rfl, odd, sieved, below⟩ := inv
    rw [fmod_natCast_eq_zero] at dvd
    exact ⟨m / j, j, (Int.ofNat_fdiv m j).symm, rfl, odd, sieved.divide dvd,
      List.forall_mem_append.2 ⟨below, by simp⟩⟩
  | advance ndvd =>
    obtain ⟨m, j, rfl, rfl, odd, sieved, below⟩ := inv
    rw [Ne, fmod_natCast_eq_zero] at ndvd
    refine ⟨m, j + 2, rfl, by push_cast; rfl, odd.add_even even_two, sieved.advance odd ndvd,
      fun x mem => ?_⟩
    have := below x mem
    push_cast
    omega
  | printResidual big =>
    obtain ⟨m, j, rfl, sieved, below⟩ := inv
    have candidate : j ≤ m := le_trans
      (sieved.least _ (Nat.minFac_prime (by omega)) (Nat.minFac_dvd m)) (Nat.minFac_le sieved.pos)
    refine ⟨?_, List.pairwise_append.2 ⟨sieved.factored.sorted, List.sorted_singleton _, ?_⟩, ?_,
      List.forall_mem_append.2 ⟨fun x mem => sieved.factored.two_le mem, by simpa using big.le⟩⟩
    · rw [List.prod_append, List.prod_singleton]
      exact_mod_cast sieved.factored.prod_mul pos0 sieved.pos
    · intro x mem y last
      rw [List.mem_singleton.1 last]
      have := below x mem
      omega
    · rw [List.dropLast_concat]
      exact fun x mem => sieved.factored.prime mem
  | skipResidual small =>
    obtain ⟨m, j, rfl, sieved, -⟩ := inv
    have odd := Nat.odd_iff.1 sieved.odd
    have one : m = 1 := by have := sieved.pos; omega
    refine ⟨by simpa [one] using sieved.factored.prod_mul pos0 sieved.pos, sieved.factored.sorted,
      fun x mem => sieved.factored.prime (List.dropLast_subset _ mem),
      fun x mem => sieved.factored.two_le mem⟩

/-- The invariant holds at every state a run of `primeFactors(n0)` reaches. -/
theorem inv_of_reaches (pos0 : 0 < n0) {s : State} (reach : Reaches (primeFactors n0) s) :
    Inv n0 s := by
  induction reach with
  | refl => exact inv_primeFactors pos0
  | tail _ step ih => exact inv_step pos0 ih step

/-- While the call runs, its local `n` is a positive natural whose prime factors complete the
printed values to those of the argument. -/
theorem Inv.current {s : State} (inv : Inv n0 s) {n : ℤ} (live : s.current = some n) :
    ∃ m : ℕ, n = m ∧ 0 < m ∧ Factored n0 m s.printed := by
  cases s <;> simp only [State.current, Option.some.injEq, reduceCtorEq] at live <;> subst live
  · obtain ⟨m, rfl, pos, factored, -⟩ := inv
    exact ⟨m, rfl, pos, factored⟩
  · obtain ⟨m, j, rfl, -, -, sieved, -⟩ := inv
    exact ⟨m, rfl, sieved.pos, sieved.factored⟩
  · obtain ⟨m, j, rfl, -, -, sieved, -⟩ := inv
    exact ⟨m, rfl, sieved.pos, sieved.factored⟩
  · obtain ⟨m, j, rfl, sieved, -⟩ := inv
    exact ⟨m, rfl, sieved.pos, sieved.factored⟩

/-- Along every run of `primeFactors(n0)` with `n0 ≥ 1`: the live `n` times the product of the
printed values is `n0`; at the start of the iteration for `i`, `n` is positive and odd and has
no prime factor below `i`; and whenever `n % i == 0` holds, `i` is prime. -/
theorem primeFactors_invariant (n0 : ℤ) (pos : 1 ≤ n0) :
    (∀ s, Reaches (primeFactors n0) s → ∀ n ∈ s.current, n * s.printed.prod = n0) ∧
    (∀ n i stop printed, Reaches (primeFactors n0) (.scanning n i stop printed) → i < stop →
      0 < n ∧ Odd n ∧ 3 ≤ i ∧ Odd i ∧ ∀ p : ℕ, p.Prime → (p : ℤ) ∣ n → i ≤ p) ∧
    (∀ n i stop printed, Reaches (primeFactors n0) (.dividing n i stop printed) →
      n.fmod i = 0 → Prime i) := by
  lift n0 to ℕ using (by omega)
  have pos0 : 0 < n0 := by exact_mod_cast pos
  refine ⟨fun s reach n live => ?_, fun n i stop printed reach _ => ?_,
    fun n i stop printed reach dvd => ?_⟩
  · obtain ⟨m, rfl, mpos, factored⟩ := (inv_of_reaches pos0 reach).current live
    rw [mul_comm]
    exact_mod_cast factored.prod_mul pos0 mpos
  · obtain ⟨m, j, rfl, rfl, odd, sieved, -⟩ := inv_of_reaches pos0 reach
    exact ⟨by exact_mod_cast sieved.pos, by exact_mod_cast sieved.odd,
      by exact_mod_cast sieved.three_le, by exact_mod_cast odd,
      fun p prime dvd => by exact_mod_cast sieved.least p prime (by exact_mod_cast dvd)⟩
  · obtain ⟨m, j, rfl, rfl, -, sieved, -⟩ := inv_of_reaches pos0 reach
    rw [fmod_natCast_eq_zero] at dvd
    exact Nat.prime_iff_prime_int.mp
      (prime_of_least (by have := sieved.three_le; omega) dvd sieved.least)

/-- `primeFactors(3782)`, the script's own call. -/
theorem primeFactors_invariant_3782 : (1 : ℤ) ≤ 3782 ∧
    (∀ s, Reaches (primeFactors 3782) s → ∀ n ∈ s.current, n * s.printed.prod = 3782) ∧
    (∀ n i stop printed, Reaches (primeFactors 3782) (.scanning n i stop printed) → i < stop →
      0 < n ∧ Odd n ∧ 3 ≤ i ∧ Odd i ∧ ∀ p : ℕ, p.Prime → (p : ℤ) ∣ n → i ≤ p) ∧
    (∀ n i stop printed, Reaches (primeFactors 3782) (.dividing n i stop printed) →
      n.fmod i = 0 → Prime i) :=
  ⟨by norm_num, primeFactors_invariant 3782 (by norm_num)⟩

end GrupoDeEstudos.Verif.Invariant
