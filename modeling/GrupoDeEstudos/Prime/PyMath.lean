import Mathlib.Data.Nat.Sqrt
import Mathlib.Tactic.Lift
import Mathlib.Tactic.NormNum
import Mathlib.Tactic.Linarith
/-!
# `int(math.sqrt(n))` and `range` on Python integers

`primeFactors` bounds its odd trial divisors by `int(math.sqrt(n))`. Under CPython 2 this
converts the integer to the nearest binary64 number, ties to even, raising `OverflowError` when
that reaches `2^1024`; takes the correctly rounded square root, raising `ValueError` below zero;
and truncates toward zero. Every value on the way is a dyadic rational, so each of the three
steps is modelled exactly over natural numbers. IEEE 754 correct rounding of the conversion and of
`sqrt` is the trust boundary.

`range(3, stop, 2)` then builds a list under Python 2. On a 64-bit CPython 2, where `long` and
`Py_ssize_t` have 64 bits, `builtin_range` raises `OverflowError` when the length does not fit a
`long`, and `PyList_New` raises `MemoryError` when the pointer array would pass `PY_SSIZE_T_MAX`
bytes, that is from `2^60` items on. Below that `malloc` may still fail, depending on the memory
of the machine; that failure is not modelled.
-/

namespace GrupoDeEstudos.Prime

/-- The exceptions `int(math.sqrt(n))` and `range` raise on integers. -/
inductive PyError where
  /-- `ValueError: math domain error`: the square root of a negative number. -/
  | valueError
  /-- `OverflowError: long int too large to convert to float`. -/
  | overflowError
  /-- `OverflowError: range() result has too many items`. -/
  | rangeOverflowError
  /-- `MemoryError`, from `PyList_New`. -/
  | memoryError
  deriving DecidableEq, Repr

/-- `float(m)` for a natural `m`, as the integer value of the nearest binary64 number: the bits
below the 53-bit significand are dropped and the significand rounded, ties to even. -/
def roundToDouble (m : ℕ) : ℕ :=
  let drop := m.log2 - 52
  let q := m / 2 ^ drop
  let r := m % 2 ^ drop
  (if 2 ^ drop < 2 * r ∨ (2 * r = 2 ^ drop ∧ q % 2 = 1) then q + 1 else q) * 2 ^ drop

/-- The integer nearest to `√a`. It is never a tie: `(2k+1)^2` is odd and `4a` even. -/
def nearestSqrt (a : ℕ) : ℕ :=
  let k := Nat.sqrt a
  if (2 * k + 1) ^ 2 < 4 * a then k + 1 else k

/-- `int(math.sqrt(x))` for a binary64 `x` holding the natural `x`. With `2^e ≤ √x < 2^(e+1)`
the root is `k * 2^(e-52)` for `k` the integer nearest to `√x * 2^(52-e)`, ties to even, and
truncation keeps its integer part. While `e ≤ 52`, `k` is `nearestSqrt (x * 4^(52-e))`. -/
def truncSqrt (x : ℕ) : ℕ :=
  let e := x.log2 / 2
  if e ≤ 52 then nearestSqrt (x * 4 ^ (52 - e)) / 2 ^ (52 - e)
  else
    let s := e - 52
    let k := Nat.sqrt (x / 4 ^ s)
    let mid := (2 * k + 1) ^ 2 * 4 ^ s
    (if mid < 4 * x ∨ (mid = 4 * x ∧ k % 2 = 1) then k + 1 else k) * 2 ^ s

/-- `int(math.sqrt(n))` for a Python integer `n`. -/
def intSqrt (n : ℤ) : Except PyError ℤ :=
  let x := roundToDouble n.natAbs
  if 2 ^ 1024 ≤ x then .error .overflowError
  else if n < 0 then .error .valueError
  else .ok (truncSqrt x)

/-- Below `2^53` the conversion to binary64 is exact. -/
theorem roundToDouble_of_lt {m : ℕ} (small : m < 2 ^ 53) : roundToDouble m = m := by
  have drop : m.log2 - 52 = 0 := by
    rcases Nat.eq_zero_or_pos m with rfl | pos
    · simp [Nat.log2_zero]
    · have := (Nat.log2_lt pos.ne').2 small
      omega
  simp [roundToDouble, drop, Nat.mod_one]

/-- `t` is at most the nearest integer to `√a` once `t^2 - t < a`. -/
theorem le_nearestSqrt {t a : ℕ} (close : t * t + 1 ≤ a + t) : t ≤ nearestSqrt a := by
  rcases t with _ | t
  · exact Nat.zero_le _
  have close : t * t + t + 1 ≤ a := by nlinarith
  have below : t ≤ Nat.sqrt a := Nat.le_sqrt.2 (by omega)
  simp only [nearestSqrt]
  rcases below.lt_or_eq with above | rfl
  · split <;> omega
  · rw [if_pos (by nlinarith)]

/-- While `√x < 2^53`, the truncated binary64 root is at least the integer square root. -/
theorem sqrt_le_truncSqrt {x : ℕ} (range : x.log2 / 2 ≤ 52) : Nat.sqrt x ≤ truncSqrt x := by
  simp only [truncSqrt, if_pos range]
  generalize 52 - x.log2 / 2 = s
  have scaled : Nat.sqrt x * 2 ^ s ≤ Nat.sqrt (x * 4 ^ s) := by
    rw [Nat.le_sqrt']
    calc (Nat.sqrt x * 2 ^ s) ^ 2 = Nat.sqrt x ^ 2 * 4 ^ s := by
          rw [mul_pow, ← pow_mul, mul_comm s, pow_mul]; norm_num
      _ ≤ x * 4 ^ s := Nat.mul_le_mul_right _ (Nat.sqrt_le' x)
  rw [Nat.le_div_iff_mul_le (Nat.two_pow_pos s)]
  simp only [nearestSqrt]
  split <;> omega

/-- A bound is returned only for a nonnegative argument. -/
theorem nonneg_of_intSqrt_eq_ok {n bound : ℤ} (h : intSqrt n = .ok bound) : 0 ≤ n := by
  simp only [intSqrt] at h
  split_ifs at h
  omega

/-! ## `range(lo, hi, step)` -/

/-- `get_len_of_range(lo, hi, step)` for a positive `step`: `(hi - lo - 1) / step + 1` items when
`lo < hi`, none otherwise. -/
def rangeLength (lo hi : ℤ) (step : ℕ) : ℕ :=
  if lo < hi then (hi - lo - 1).toNat / step + 1 else 0

/-- The exception `range(lo, hi, step)` raises before it fills its list: more items than
`LONG_MAX = 2^63 - 1` give `OverflowError`, and `2^60` items or more a pointer array of more than
`PY_SSIZE_T_MAX` bytes, which `PyList_New` refuses with `MemoryError`. -/
def rangeError (lo hi : ℤ) (step : ℕ) : Option PyError :=
  let items := rangeLength lo hi step
  if 2 ^ 63 ≤ items then some .rangeOverflowError
  else if 2 ^ 60 ≤ items then some .memoryError
  else none

/-- The `range(3, b + 1, 2)` of `primeFactors` is built while `b ≤ 2^61`, raises `MemoryError`
up to `b = 2^64`, and `OverflowError` above. -/
theorem rangeError_three (b : ℤ) : rangeError 3 (b + 1) 2 =
    if 2 ^ 64 < b then some .rangeOverflowError
    else if 2 ^ 61 < b then some .memoryError else none := by
  simp only [rangeError, rangeLength]
  split_ifs <;> first | rfl | (exfalso; omega)

end GrupoDeEstudos.Prime
