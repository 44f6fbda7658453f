import GrupoDeEstudos.Prime.PyMath
import Mathlib.Tactic.Ring
/-!
# How far `int(math.sqrt(m))` reaches

`primeFactors` finds every prime factor when its bound `int(math.sqrt(m))` is at least `⌊√m⌋`
for the odd part `m`. Below `2^53` the conversion to binary64 is exact. Up to `2^106` it may
round `m` down by half a unit in the last place; that moves `√m` by less than the distance from
`⌊√m⌋` to the half-integer below it, so the correctly rounded root still reaches `⌊√m⌋`. The
conversion overflows from `2^1024 - 2^970` on, where rounding first reaches `2^1024`.
-/

namespace GrupoDeEstudos.Verif.Float

open GrupoDeEstudos.Prime

/-! ## Rounding to binary64 -/

/-- `log2 n = k` from the two powers of two around `n`; it pins `log2` of a literal without
unfolding its recursion. -/
theorem log2_eq_of_bounds {n k : ℕ} (lo : 2 ^ k ≤ n) (hi : n < 2 ^ (k + 1)) : n.log2 = k := by
  have nonzero : n ≠ 0 := ((Nat.two_pow_pos k).trans_le lo).ne'
  exact le_antisymm (Nat.lt_succ_iff.1 ((Nat.log2_lt nonzero).2 hi)) ((Nat.le_log2 nonzero).2 lo)

/-- Below `2^k`, `k > 0`, the logarithm is below `k`, also for `0`. -/
theorem log2_lt_of_lt {x k : ℕ} (lt : x < 2 ^ k) (pos : 0 < k) : x.log2 < k := by
  rcases Nat.eq_zero_or_pos x with rfl | nonzero
  · simpa [Nat.log2_zero] using pos
  · exact (Nat.log2_lt nonzero.ne').2 lt

/-- Rounding keeps the significand `m / 2^d` or adds one unit to it; it keeps it only when the
dropped remainder is at most half a unit. -/
theorem roundToDouble_cases (m : ℕ) :
    (roundToDouble m = m / 2 ^ (m.log2 - 52) * 2 ^ (m.log2 - 52) ∧
        2 * (m % 2 ^ (m.log2 - 52)) ≤ 2 ^ (m.log2 - 52)) ∨
      roundToDouble m = (m / 2 ^ (m.log2 - 52) + 1) * 2 ^ (m.log2 - 52) := by
  simp only [roundToDouble]
  split_ifs with up
  · exact .inr rfl
  · exact .inl ⟨rfl, by omega⟩

/-- The significand of a positive `m` is at least `2^(log2 m - d)`, and below twice that. -/
theorem significand_bounds {m : ℕ} (pos : 0 < m) :
    2 ^ (m.log2 - (m.log2 - 52)) ≤ m / 2 ^ (m.log2 - 52) ∧
      m / 2 ^ (m.log2 - 52) < 2 ^ (m.log2 + 1 - (m.log2 - 52)) := by
  have lo := Nat.log2_self_le pos.ne'
  have hi := Nat.lt_log2_self (n := m)
  constructor
  · rw [Nat.le_div_iff_mul_le (Nat.two_pow_pos _), ← Nat.pow_add, Nat.sub_add_cancel (by omega)]
    exact lo
  · rw [Nat.div_lt_iff_lt_mul (Nat.two_pow_pos _), ← Nat.pow_add, Nat.sub_add_cancel (by omega)]
    exact hi

/-- A positive `m` never rounds below its leading power of two. -/
theorem pow_log2_le_roundToDouble {m : ℕ} (pos : 0 < m) : 2 ^ m.log2 ≤ roundToDouble m := by
  have kept : 2 ^ m.log2 ≤ m / 2 ^ (m.log2 - 52) * 2 ^ (m.log2 - 52) := by
    calc 2 ^ m.log2 = 2 ^ (m.log2 - (m.log2 - 52)) * 2 ^ (m.log2 - 52) := by
          rw [← Nat.pow_add, Nat.sub_add_cancel (by omega)]
      _ ≤ _ := Nat.mul_le_mul_right _ (significand_bounds pos).1
  rcases roundToDouble_cases m with ⟨down, -⟩ | up
  · exact down ▸ kept
  · exact up ▸ le_trans kept (Nat.mul_le_mul_right _ (Nat.le_succ _))

/-- Rounding never passes the next power of two. -/
theorem roundToDouble_le_pow (m : ℕ) : roundToDouble m ≤ 2 ^ (m.log2 + 1) := by
  rcases Nat.eq_zero_or_pos m with rfl | pos
  · simp [roundToDouble]
  have next : (m / 2 ^ (m.log2 - 52) + 1) * 2 ^ (m.log2 - 52) ≤ 2 ^ (m.log2 + 1) := by
    calc (m / 2 ^ (m.log2 - 52) + 1) * 2 ^ (m.log2 - 52)
        ≤ 2 ^ (m.log2 + 1 - (m.log2 - 52)) * 2 ^ (m.log2 - 52) :=
          Nat.mul_le_mul_right _ (significand_bounds pos).2
      _ = 2 ^ (m.log2 + 1) := by rw [← Nat.pow_add, Nat.sub_add_cancel (by omega)]
  rcases roundToDouble_cases m with ⟨down, -⟩ | up
  · exact down ▸ le_trans (Nat.mul_le_mul_right _ (Nat.le_succ _)) next
  · exact up ▸ next

/-- Rounding loses at most half a unit of the last kept place. -/
theorem roundToDouble_error (m : ℕ) : 2 * m ≤ 2 * roundToDouble m + 2 ^ (m.log2 - 52) := by
  have parts := Nat.div_add_mod m (2 ^ (m.log2 - 52))
  rcases roundToDouble_cases m with ⟨down, half⟩ | up
  · rw [down, Nat.mul_comm (m / _)]
    omega
  · have rem := Nat.mod_lt m (Nat.two_pow_pos (m.log2 - 52))
    rw [up, Nat.add_mul, one_mul, Nat.mul_comm (m / _)]
    omega

/-- Rounding up adds at most half a unit: it happens only from a remainder of half a unit on. -/
theorem two_mul_roundToDouble_le (m : ℕ) :
    2 * roundToDouble m ≤ 2 * m + 2 ^ (m.log2 - 52) := by
  have parts := Nat.div_add_mod m (2 ^ (m.log2 - 52))
  simp only [roundToDouble]
  split_ifs
  · rw [Nat.add_mul, one_mul, Nat.mul_comm (m / _)]
    omega
  · rw [Nat.mul_comm (m / _)]
    omega

/-- `float(m)` is `m` itself exactly when the bits below the 53-bit significand are zero. -/
theorem roundToDouble_eq_self_iff (m : ℕ) : roundToDouble m = m ↔ 2 ^ (m.log2 - 52) ∣ m := by
  have parts := Nat.div_add_mod m (2 ^ (m.log2 - 52))
  have rem := Nat.mod_lt m (Nat.two_pow_pos (m.log2 - 52))
  rw [Nat.dvd_iff_mod_eq_zero]
  simp only [roundToDouble]
  split_ifs
  · rw [Nat.add_mul, one_mul, Nat.mul_comm (m / _)]
    omega
  · rw [Nat.mul_comm (m / _)]
    omega

/-- `float(m)` overflows exactly from `2^1024 - 2^970` on: below it rounding stays under the
largest binary64 power, from it the tie or the excess rounds up to `2^1024`. -/
theorem roundToDouble_lt_iff (m : ℕ) : roundToDouble m < 2 ^ 1024 ↔ m < 2 ^ 1024 - 2 ^ 970 := by
  have hi := Nat.lt_log2_self (n := m)
  rcases lt_trichotomy m.log2 1023 with below | top | above
  · have small := roundToDouble_le_pow m
    have : 2 ^ (m.log2 + 1) ≤ 2 ^ 1023 := pow_le_pow_right₀ one_le_two (by omega)
    constructor <;> intro <;> omega
  · have lo := Nat.log2_self_le (n := m) (by rintro rfl; simp at top)
    rw [top] at lo hi
    have parts := Nat.div_add_mod m (2 ^ 971)
    have rem := Nat.mod_lt m (Nat.two_pow_pos 971)
    simp only [roundToDouble, top, show 1023 - 52 = 971 from rfl]
    split_ifs <;> omega
  · have nonzero : m ≠ 0 := by rintro rfl; simp at above
    have big := pow_log2_le_roundToDouble (Nat.pos_of_ne_zero nonzero)
    have lo := Nat.log2_self_le nonzero
    have : 2 ^ 1024 ≤ 2 ^ m.log2 := Nat.pow_le_pow_right (by norm_num) above
    constructor <;> intro <;> omega

/-- `int(math.sqrt(n))` raises `OverflowError` from `|n| ≥ 2^1024 - 2^970` on, else
`ValueError` below zero, else returns the truncated root of `float(n)`. -/
theorem intSqrt_eq (n : ℤ) : intSqrt n =
    if 2 ^ 1024 - 2 ^ 970 ≤ n.natAbs then .error .overflowError
    else if n < 0 then .error .valueError
    else .ok (truncSqrt (roundToDouble n.natAbs) : ℤ) := by
  simp only [intSqrt, ← not_lt, roundToDouble_lt_iff]

/-! ## The bound reaches the integer square root below `2^106` -/

/-- An `m` of at least `L + 1` bits, `L ≥ 4`, has `2 * ⌊√m⌋ > 2^(L - L/2)`. -/
theorem two_pow_lt_two_mul_sqrt {m L : ℕ} (four : 4 ≤ L) (lo : 2 ^ L ≤ m) :
    2 ^ (L - L / 2) < 2 * Nat.sqrt m := by
  obtain ⟨c, rfl | rfl⟩ := Nat.even_or_odd' L
  · have root : 2 ^ c ≤ Nat.sqrt m := Nat.le_sqrt'.2 (by rw [← pow_mul, mul_comm]; exact lo)
    have : 2 * c - 2 * c / 2 = c := by omega
    rw [this]
    have := Nat.one_le_two_pow (n := c)
    omega
  · have big : 4 ≤ 2 ^ c := by
      calc 4 = 2 ^ 2 := rfl
        _ ≤ 2 ^ c := Nat.pow_le_pow_right (by norm_num) (by omega)
    have root : 2 ^ c + 1 ≤ Nat.sqrt m := Nat.le_sqrt.2 (by
      have square : 2 ^ (2 * c + 1) = 2 * (2 ^ c * 2 ^ c) := by ring
      nlinarith)
    have : 2 * c + 1 - (2 * c + 1) / 2 = c + 1 := by omega
    rw [this, pow_succ]
    omega

/-- A binary64 holding `2^106` has root `2^53`, which truncation keeps. -/
theorem truncSqrt_two_pow_106 : truncSqrt (2 ^ 106) = 2 ^ 53 := by
  have bits : (2 ^ 106 : ℕ).log2 = 106 := log2_eq_of_bounds le_rfl (by norm_num)
  have root : Nat.sqrt (2 ^ 106 / 4 ^ (106 / 2 - 52)) = 2 ^ 52 := by
    rw [show 2 ^ 106 / 4 ^ (106 / 2 - 52) = (2 ^ 52) ^ 2 by norm_num, Nat.sqrt_eq']
  simp only [truncSqrt, bits, root]
  norm_num

/-- Where `float(m)` rounds, with `m` of at least 54 bits, and stays below `2^106`: rounding moves
`m` by at most half a unit of `2^(log2 m - 52)`, less than the gap from `⌊√m⌋^2 - ⌊√m⌋` up. -/
theorem sqrt_le_truncSqrt_of_rounds {m : ℕ} (pos : 0 < m) (rounded : 53 ≤ m.log2)
    (inside : roundToDouble m < 2 ^ 106) : Nat.sqrt m ≤ truncSqrt (roundToDouble m) := by
  have lo := Nat.log2_self_le pos.ne'
  have positive : 0 < roundToDouble m :=
    lt_of_lt_of_le (Nat.two_pow_pos _) (pow_log2_le_roundToDouble pos)
  have more : m.log2 ≤ (roundToDouble m).log2 :=
    (Nat.le_log2 positive.ne').2 (pow_log2_le_roundToDouble pos)
  have fewer : (roundToDouble m).log2 < 106 := (Nat.log2_lt positive.ne').2 inside
  simp only [truncSqrt, if_pos (show (roundToDouble m).log2 / 2 ≤ 52 by omega)]
  rw [Nat.le_div_iff_mul_le (Nat.two_pow_pos _)]
  apply le_nearestSqrt
  generalize hs : 52 - (roundToDouble m).log2 / 2 = s
  have gap : 2 ^ (m.log2 - 52) * 2 ^ s < 2 * Nat.sqrt m :=
    calc 2 ^ (m.log2 - 52) * 2 ^ s = 2 ^ (m.log2 - 52 + s) := (pow_add _ _ _).symm
      _ ≤ 2 ^ (m.log2 - m.log2 / 2) := Nat.pow_le_pow_right (by norm_num) (by omega)
      _ < 2 * Nat.sqrt m := two_pow_lt_two_mul_sqrt (by omega) lo
  have scaled : 2 * (Nat.sqrt m * Nat.sqrt m) * 2 ^ s ≤
      (2 * roundToDouble m + 2 ^ (m.log2 - 52)) * 2 ^ s :=
    Nat.mul_le_mul_right _ (by have := Nat.sqrt_le m; have := roundToDouble_error m; omega)
  have unscaled : Nat.sqrt m * Nat.sqrt m * 2 ^ s + 1 ≤ roundToDouble m * 2 ^ s + Nat.sqrt m := by
    linarith
  have four : 4 ^ s = 2 ^ s * 2 ^ s := by rw [← mul_pow]; rfl
  rw [four]
  linarith [Nat.mul_le_mul_right (2 ^ s) unscaled, Nat.one_le_two_pow (n := s)]

/-- Below `2^106`, `int(math.sqrt(m))` is at least `⌊√m⌋`, although `float(m)` may round. -/
theorem sqrt_le_truncSqrt_roundToDouble {m : ℕ} (small : m < 2 ^ 106) :
    Nat.sqrt m ≤ truncSqrt (roundToDouble m) := by
  rcases Nat.eq_zero_or_pos m with rfl | pos
  · simp
  have bits : m.log2 < 106 := (Nat.log2_lt pos.ne').2 small
  rcases Nat.lt_or_ge m.log2 53 with exact | rounded
  · rw [roundToDouble_of_lt ((Nat.log2_lt pos.ne').1 exact)]
    exact sqrt_le_truncSqrt (by omega)
  have : 2 ^ (m.log2 + 1) ≤ 2 ^ 106 := Nat.pow_le_pow_right (by norm_num) (by omega)
  rcases ((roundToDouble_le_pow m).trans this).lt_or_eq with inside | top
  · exact sqrt_le_truncSqrt_of_rounds pos rounded inside
  · rw [top, truncSqrt_two_pow_106]
    exact (Nat.sqrt_lt'.2 (by simpa [← pow_mul] using small)).le

/-! ## The bound from above -/

/-- The nearest integer to `√a` is at most one above `⌊√a⌋`. -/
theorem nearestSqrt_le_succ (a : ℕ) : nearestSqrt a ≤ Nat.sqrt a + 1 := by
  simp only [nearestSqrt]
  split <;> omega

/-- The truncated root of `x` is at most `2^(e+1)` for `e = log2 x / 2`, as `x < 4^(e+1)`. -/
theorem truncSqrt_le (x : ℕ) : truncSqrt x ≤ 2 ^ (x.log2 / 2 + 1) := by
  have below : x < 4 ^ (x.log2 / 2 + 1) :=
    calc x < 2 ^ (x.log2 + 1) := Nat.lt_log2_self
      _ ≤ 2 ^ (2 * (x.log2 / 2 + 1)) := Nat.pow_le_pow_right (by norm_num) (by omega)
      _ = 4 ^ (x.log2 / 2 + 1) := by rw [pow_mul]; norm_num
  simp only [truncSqrt]
  generalize x.log2 / 2 = e at below ⊢
  split
  · have root : Nat.sqrt (x * 4 ^ (52 - e)) < 2 ^ 53 := by
      rw [Nat.sqrt_lt']
      calc x * 4 ^ (52 - e) < 4 ^ (e + 1) * 4 ^ (52 - e) :=
            Nat.mul_lt_mul_of_pos_right below (by positivity)
        _ = (2 ^ 53) ^ 2 := by rw [← pow_add, show e + 1 + (52 - e) = 53 by omega]; norm_num
    apply Nat.div_le_of_le_mul
    calc nearestSqrt (x * 4 ^ (52 - e)) ≤ 2 ^ 53 := by
          have := nearestSqrt_le_succ (x * 4 ^ (52 - e)); omega
      _ = 2 ^ (52 - e) * 2 ^ (e + 1) := by rw [← pow_add]; congr 1; omega
  · have quotient : x / 4 ^ (e - 52) < (2 ^ 53) ^ 2 := by
      rw [Nat.div_lt_iff_lt_mul (by positivity)]
      calc x < 4 ^ (e + 1) := below
        _ = 4 ^ 53 * 4 ^ (e - 52) := by rw [← pow_add]; congr 1; omega
        _ = (2 ^ 53) ^ 2 * 4 ^ (e - 52) := by norm_num
    have root := Nat.sqrt_lt'.2 quotient
    calc _ ≤ 2 ^ 53 * 2 ^ (e - 52) := Nat.mul_le_mul_right _ (by split <;> omega)
      _ = 2 ^ (e + 1) := by rw [← pow_add]; congr 1; omega

/-- Below `2^106`, `int(math.sqrt(n))` returns a bound at least `⌊√n⌋` and at most `2^54`, so
that `range(3, bound + 1, 2)` is built. -/
theorem intSqrt_of_lt {n : ℤ} (nonneg : 0 ≤ n) (small : n < 2 ^ 106) :
    ∃ bound, intSqrt n = .ok bound ∧ (Nat.sqrt n.toNat : ℤ) ≤ bound ∧
      rangeError 3 (bound + 1) 2 = none := by
  lift n to ℕ using nonneg
  have smallNat : n < 2 ^ 106 := by exact_mod_cast small
  have rounded : (roundToDouble n).log2 / 2 + 1 ≤ 54 := by
    have bits := log2_lt_of_lt smallNat (by norm_num)
    have top := (roundToDouble_le_pow n).trans (Nat.pow_le_pow_right (by norm_num) bits)
    have := log2_lt_of_lt (top.trans_lt (by norm_num : (2 : ℕ) ^ 106 < 2 ^ 107)) (by norm_num)
    omega
  refine ⟨truncSqrt (roundToDouble n), ?_, ?_, ?_⟩
  · rw [intSqrt_eq, if_neg (by simp only [Int.natAbs_ofNat]; omega), if_neg (by omega)]
    rfl
  · rw [Int.toNat_natCast]
    exact_mod_cast sqrt_le_truncSqrt_roundToDouble smallNat
  · have := (truncSqrt_le (roundToDouble n)).trans (Nat.pow_le_pow_right (by norm_num) rounded)
    rw [rangeError_three, if_neg (by omega), if_neg (by omega)]

end GrupoDeEstudos.Verif.Float
