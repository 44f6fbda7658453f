import GrupoDeEstudos.Verif.Invariant
import GrupoDeEstudos.Verif.Undershoot
/-!
# What the final `if` prints, at any size

Once the `for` loop has started on the odd part `m` with bound `b = int(math.sqrt(m))`, it
divides out every prime up to `b`, each candidate in turn, and nothing above it. So the residual
it leaves is the product of the prime factors of `m` above `b`, with their multiplicity, whatever
the size of `m` and however `b` was rounded. The output is the factorisation exactly when that
product is 1 or a prime: when at most one prime factor of `m` exceeds `b`. Below `2^106` this always
holds (`Factorization`); for the prime square of `Undershoot` it does not.
-/

namespace GrupoDeEstudos.Verif.Residual

open GrupoDeEstudos.Prime GrupoDeEstudos.Verif.Invariant

/-- The output is `pre` followed by values up to `b`. -/
def Below (b : ℤ) (pre printed : List ℤ) : Prop :=
  ∃ found, printed = pre ++ found ∧ ∀ x ∈ found, x ≤ b

/-- What a run keeps from the `for` loop's entry `scanning m 3 (b + 1) pre` on: the range's stop,
an output of `pre` followed by candidates up to `b`, and, once the loop is left, no prime factor
up to `b` in the residual. -/
def Loop (b : ℤ) (pre : List ℤ) : State → Prop
  | .halving _ _ => False
  | .scanning _ _ stop printed => stop = b + 1 ∧ Below b pre printed
  | .dividing _ i stop printed => stop = b + 1 ∧ i ≤ b ∧ Below b pre printed
  | .residual n printed =>
    Below b pre printed ∧ ∀ p : ℕ, p.Prime → (p : ℤ) ∣ n → b < p
  | .returned _ | .raised _ _ => True

variable {n0 : ℕ} {b : ℤ} {pre : List ℤ}

/-- Every transition keeps `Loop`, given the run invariant before it. -/
theorem loop_step {s t : State} (inv : Inv n0 s) (loop : Loop b pre s) (step : Step s t) :
    Loop b pre t := by
  cases step with
  | halve | startScan | sqrtRaises | rangeRaises => exact loop.elim
  | enter more =>
    obtain ⟨rfl, below⟩ := loop
    exact ⟨rfl, by omega, below⟩
  | leave done =>
    obtain ⟨m, j, rfl, rfl, -, sieved, -⟩ := inv
    obtain ⟨rfl, below⟩ := loop
    refine ⟨below, fun p prime dvd => ?_⟩
    have := sieved.least p prime (Int.natCast_dvd_natCast.1 dvd)
    omega
  | @divide _ i =>
    obtain ⟨stop, le, found, rfl, small⟩ := loop
    refine ⟨stop, le, found ++ [i], by simp, fun x mem => ?_⟩
    rcases List.mem_append.1 mem with old | new
    · exact small x old
    · rw [List.mem_singleton.1 new]
      exact le
  | advance => exact ⟨loop.1, loop.2.2⟩
  | printResidual | skipResidual => trivial

/-- `Loop` holds at every state a run reaches from the loop's entry. -/
theorem loop_of_reaches (pos0 : 0 < n0) {m : ℤ}
    (entry : Reaches (primeFactors n0) (.scanning m 3 (b + 1) pre)) {s : State}
    (reach : Reaches (.scanning m 3 (b + 1) pre) s) : Loop b pre s := by
  induction reach with
  | refl => exact ⟨rfl, [], by simp, by simp⟩
  | tail before step ih => exact loop_step (inv_of_reaches pos0 (entry.trans before)) ih step

/-- From the final `if` on, a run only returns. -/
theorem residual_reaches {r : ℤ} {printed : List ℤ} {t : State}
    (reach : Reaches (.residual r printed) t) :
    t = .residual r printed ∨ ∃ out, t = .returned out := by
  induction reach with
  | refl => exact .inl rfl
  | tail _ step ih =>
    rcases ih with rfl | ⟨out, rfl⟩ <;> cases step
    · exact .inr ⟨_, rfl⟩
    · exact .inr ⟨_, rfl⟩

/-- A positive `r` has at most one prime factor, counted with multiplicity, exactly when it is 1
or a prime. -/
theorem length_primeFactorsList_le_one_iff {r : ℕ} (pos : 0 < r) :
    r.primeFactorsList.length ≤ 1 ↔ r = 1 ∨ r.Prime := by
  constructor
  · intro short
    match factors : r.primeFactorsList, short with
    | [], _ => exact .inl ((Nat.primeFactorsList_eq_nil r).1 factors |>.resolve_left pos.ne')
    | [q], _ =>
      have prod := Nat.prod_primeFactorsList pos.ne'
      rw [factors, List.prod_singleton] at prod
      exact .inr
        (prod ▸ Nat.prime_of_mem_primeFactorsList (factors ▸ List.mem_singleton_self q))
  · rintro (rfl | prime)
    · simp
    · simp [Nat.primeFactorsList_prime prime]

/-- After the loop, the residual holds exactly the prime factors of `m` above `b`. -/
theorem residual_primeFactorsList (pos0 : 0 < n0) {m r : ℤ} {printed : List ℤ}
    (entry : Reaches (primeFactors n0) (.scanning m 3 (b + 1) pre))
    (reach : Reaches (.scanning m 3 (b + 1) pre) (.residual r printed)) :
    r.toNat.primeFactorsList = m.toNat.primeFactorsList.filter (fun p : ℕ => b < p) := by
  obtain ⟨m, j, rfl, -, -, sievedE, -⟩ := inv_of_reaches pos0 entry
  obtain ⟨r, j', rfl, sievedR, -⟩ := inv_of_reaches pos0 (entry.trans reach)
  obtain ⟨⟨found, rfl, small⟩, large⟩ := loop_of_reaches pos0 entry reach
  have split :
      m.primeFactorsList.map ((↑) : ℕ → ℤ) = found ++ r.primeFactorsList.map (↑) := by
    have before := sievedE.factored
    have after := sievedR.factored
    rw [Factored] at before after
    rw [← after, List.append_assoc] at before
    exact List.append_cancel_left before
  have filtered : (m.primeFactorsList.filter (fun p : ℕ => b < p)).map ((↑) : ℕ → ℤ) =
      (m.primeFactorsList.map (↑)).filter (fun x : ℤ => b < x) := by
    rw [List.filter_map]
    rfl
  simp only [Int.toNat_natCast]
  apply List.map_injective_iff.2 (Nat.cast_injective (R := ℤ))
  rw [filtered, split, List.filter_append, List.filter_eq_nil_iff.2, List.filter_eq_self.2]
  · rfl
  · intro x mem
    obtain ⟨p, factor, rfl⟩ := List.mem_map.1 mem
    simpa using large p (Nat.prime_of_mem_primeFactorsList factor)
      (Int.natCast_dvd_natCast.2 (Nat.dvd_of_mem_primeFactorsList factor))
  · intro x mem
    simpa using small x mem

/-- The final `if` completes the factorisation exactly when the residual is 1 or a prime. -/
theorem output_eq_iff {r : ℕ} {printed out : List ℤ} (factored : Factored n0 r printed)
    (pos : 0 < r) (odd : Odd r) (last : Step (.residual r printed) (.returned out)) :
    out = n0.primeFactorsList.map (↑) ↔ r.primeFactorsList.length ≤ 1 := by
  rw [length_primeFactorsList_le_one_iff pos, ← factored]
  cases last with
  | printResidual big =>
    have : r ≠ 1 := by rintro rfl; norm_num at big
    rw [List.append_cancel_left_eq, or_iff_right this]
    constructor
    · intro single
      have mem : (r : ℤ) ∈ r.primeFactorsList.map (↑) := single ▸ List.mem_singleton_self _
      obtain ⟨p, factor, same⟩ := List.mem_map.1 mem
      exact (Nat.cast_injective same) ▸ Nat.prime_of_mem_primeFactorsList factor
    · intro prime
      simp [Nat.primeFactorsList_prime prime]
  | skipResidual small =>
    have one : r = 1 := by have := Nat.odd_iff.1 odd; omega
    simp [one]

end GrupoDeEstudos.Verif.Residual
