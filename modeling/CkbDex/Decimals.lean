import Mathlib.Data.Nat.Log
import Mathlib.Tactic.Ring
import Mathlib.Tactic.NormNum

/-!
# Decimals of 34 digits

The whole numbers of the 128-bit decimal format: a coefficient of at most 34
digits and an exponent of at most 6111. Sums are rounded to the nearest such
number, ties to the even coefficient, and become infinite beyond the last.
-/
namespace CkbDex.Decimals

def precision : ℕ := 34
def maxExponent : ℕ := 6111

/-- Digits beyond the precision. -/
def excess (n : ℕ) : ℕ := Nat.log 10 n + 1 - precision

/-- A whole number that the format holds exactly. -/
def Fits (n : ℤ) : Prop := 10 ^ excess n.natAbs ∣ n.natAbs ∧ excess n.natAbs ≤ maxExponent

instance (n : ℤ) : Decidable (Fits n) := inferInstanceAs (Decidable (_ ∧ _))

inductive Decimal128 where
  | finite (n : ℤ) (fits : Fits n)
  | infinite

/-- Rounds a number without its last digits, half to even. -/
def roundDigits (digits n : ℕ) : ℕ :=
  let quotient := n / 10 ^ digits
  let remainder := n % 10 ^ digits
  if 10 ^ digits < 2 * remainder ∨ 2 * remainder = 10 ^ digits ∧ quotient % 2 = 1 then
    (quotient + 1) * 10 ^ digits
  else quotient * 10 ^ digits

def rounded (n : ℤ) : ℤ := n.sign * roundDigits (excess n.natAbs) n.natAbs

namespace Decimal128

/-- The nearest decimal. -/
def round (n : ℤ) : Decimal128 :=
  if h : Fits n then .finite n h
  else if h : Fits (rounded n) then .finite (rounded n) h
  else .infinite

/-- `Decimal128.fromString` of an integer's digits: inexact rounding is an
error. -/
def ofInt (n : ℤ) : Option Decimal128 := if h : Fits n then some (.finite n h) else none

def add : Decimal128 → Decimal128 → Decimal128
  | .finite m _, .finite n _ => round (m + n)
  | _, _ => .infinite

/-- `$lte` -/
def atMost : Decimal128 → Decimal128 → Bool
  | .finite m _, .finite n _ => m ≤ n
  | _, .infinite => true
  | .infinite, .finite _ _ => false

end Decimal128

theorem excess_le {n digits : ℕ} (h : n < 10 ^ (digits + precision)) : excess n ≤ digits := by
  by_cases hn : n = 0
  · subst hn
    simp [excess, precision]
  · have hlog := Nat.log_lt_of_lt_pow hn h
    unfold excess
    omega

/-- A number fits when it is a coefficient of 34 digits times a power of ten. -/
theorem fits_of_eq {n : ℤ} (coefficient exponent : ℕ) (hlt : coefficient < 10 ^ precision)
    (hle : exponent ≤ maxExponent) (h : n.natAbs = coefficient * 10 ^ exponent) : Fits n := by
  have hexcess : excess n.natAbs ≤ exponent := by
    refine excess_le ?_
    rw [h, Nat.pow_add, Nat.mul_comm (10 ^ exponent)]
    exact Nat.mul_lt_mul_of_pos_right hlt (by positivity)
  refine ⟨?_, hexcess.trans hle⟩
  rw [h] at hexcess ⊢
  exact (pow_dvd_pow 10 hexcess).trans (Nat.dvd_mul_left _ _)

theorem fits_neg {n : ℤ} : Fits (-n) ↔ Fits n := by rw [Fits, Fits, Int.natAbs_neg]

theorem fits_of_lt {n : ℕ} (h : n < 10 ^ precision) : Fits n :=
  fits_of_eq n 0 h (Nat.zero_le _) (by simp)

theorem fits_zero : Fits 0 := fits_of_lt (n := 0) (by decide)

namespace Decimal128

theorem round_of_fits {n : ℤ} (h : Fits n) : round n = .finite n h := dif_pos h

theorem ofInt_eq_some {n : ℤ} {d : Decimal128} : ofInt n = some d ↔ ∃ h, d = .finite n h := by
  unfold ofInt
  split_ifs with h
  · simp only [Option.some_inj, h, exists_true_left]
    exact eq_comm
  · simp [h]

end Decimal128

end CkbDex.Decimals
