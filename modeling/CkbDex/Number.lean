import CkbDex.Text
import Mathlib.Data.Int.Log
import Mathlib.Data.Rat.Floor

/-!
# Numbers of JavaScript

The values of `Number` with the rounding of binary64, and the texts that
`Number` reads. Signed zeros are not told apart.
-/
namespace CkbDex.Number
open Text

inductive JsNumber where
  | nan
  | infinity (negative : Bool)
  | finite (q : ℚ)
  deriving DecidableEq

/-- The nearest integer, ties to even. -/
def roundHalfEven (q : ℚ) : ℤ :=
  let below := ⌊q⌋
  let rest := q - below
  if rest < 1 / 2 then below
  else if 1 / 2 < rest then below + 1
  else if below % 2 = 0 then below
  else below + 1

/-- The exponent of the last of 53 significant bits. -/
def lastExponent (q : ℚ) : ℤ := max (Int.log 2 |q| - 52) (-1074)

/-- The nearest binary64 value. -/
def binary64 (q : ℚ) : JsNumber :=
  let unit : ℚ := 2 ^ lastExponent q
  let rounded := roundHalfEven (q / unit) * unit
  if 2 ^ 1024 ≤ |rounded| then .infinity (q < 0) else .finite rounded

def JsNumber.succ : JsNumber → JsNumber
  | .nan => .nan
  | .infinity negative => .infinity negative
  | .finite q => binary64 (q + 1)

/-- The array index that a number is as a property key. -/
def JsNumber.toIndex : JsNumber → Option ℕ
  | .finite q => if q.den = 1 ∧ 0 ≤ q.num then some q.num.toNat else none
  | _ => none

/-- `n ≥ x` as the database compares an integer with a double, for which NaN
comes before every number. -/
def JsNumber.atMost (x : JsNumber) (n : ℤ) : Bool :=
  match x with
  | .nan => true
  | .infinity negative => negative
  | .finite q => q ≤ n

def isDigit (c : Char) : Bool := (digitIn 10 c).isSome

/-- The exponent part of a decimal literal, if what is left is one. -/
def exponentPart : List Char → Option ℤ
  | [] => some 0
  | c :: rest => if c = 'e' ∨ c = 'E' then signedDigits rest else none

/-- The digits after a decimal point, if there is one, and the rest. -/
def fractionPart : List Char → List Char × List Char
  | '.' :: rest => rest.span isDigit
  | rest => ([], rest)

def decimalLiteral (l : List Char) : Option ℚ :=
  let (whole, rest) := l.span isDigit
  let (fraction, rest) := fractionPart rest
  (digitsValue 10 (whole ++ fraction)).bind fun n =>
    (exponentPart rest).map fun e => (n : ℚ) * (10 : ℚ) ^ (e - (fraction.length : ℤ))

def unsignedNumber (negative : Bool) (l : List Char) : JsNumber :=
  if l = "Infinity".toList then .infinity negative
  else match decimalLiteral l with
    | some q => binary64 (if negative then -q else q)
    | none => .nan

def signedNumber : List Char → JsNumber
  | [] => .finite 0
  | c :: rest =>
      if c = '+' then unsignedNumber false rest
      else if c = '-' then unsignedNumber true rest
      else unsignedNumber false (c :: rest)

/-- `Number(text)`. -/
def number (s : String) : JsNumber :=
  let l := trim s.toList
  match radixPrefix l with
  | some (base, digits) => (digitsValue base digits).elim .nan fun n => binary64 n
  | none => signedNumber l

theorem roundHalfEven_intCast (n : ℤ) : roundHalfEven n = n := by
  simp [roundHalfEven]

theorem binary64_of_multiple {q : ℚ} (k : ℤ) (h : q = k * 2 ^ lastExponent q)
    (hlt : |q| < 2 ^ 1024) : binary64 q = .finite q := by
  have hunit : (2 : ℚ) ^ lastExponent q ≠ 0 := zpow_ne_zero _ (by norm_num)
  have hdiv : q / 2 ^ lastExponent q = k := by
    rw [div_eq_iff hunit]
    exact h
  have hrounded : (roundHalfEven (q / 2 ^ lastExponent q) : ℚ) * 2 ^ lastExponent q = q := by
    rw [hdiv, roundHalfEven_intCast]
    exact h.symm
  simp only [binary64, hrounded, not_le.mpr hlt, if_false]

/-- Integers of at most 53 bits are exact. -/
theorem binary64_natCast {n : ℕ} (h : n < 2 ^ 53) : binary64 n = .finite n := by
  have hlog : Int.log 2 |(n : ℚ)| ≤ 52 := by
    rw [abs_of_nonneg (Nat.cast_nonneg n), Int.log_natCast]
    have hl : Nat.log 2 n < 53 := by
      rcases Nat.eq_zero_or_pos n with h0 | h0
      · subst h0
        decide
      · exact Nat.log_lt_of_lt_pow h0.ne' h
    omega
  obtain ⟨e, he⟩ : ∃ e : ℕ, lastExponent (n : ℚ) = -(e : ℤ) := by
    refine ⟨(-lastExponent (n : ℚ)).toNat, ?_⟩
    have hle : lastExponent (n : ℚ) ≤ 0 := by
      unfold lastExponent
      omega
    omega
  refine binary64_of_multiple ((n * 2 ^ e : ℕ) : ℤ) ?_ ?_
  · rw [he, zpow_neg, zpow_natCast]
    push_cast
    field_simp
  · rw [abs_of_nonneg (Nat.cast_nonneg n)]
    calc (n : ℚ) < 2 ^ 53 := by exact_mod_cast h
      _ ≤ 2 ^ 1024 := by gcongr <;> norm_num

theorem isDigit_of_digitsFrom {acc n : ℕ} {l : List Char} (h : digitsFrom 10 acc l = some n) :
    ∀ c ∈ l, isDigit c = true := by
  induction l generalizing acc with
  | nil =>
      intro c hc
      cases hc
  | cons c cs ih =>
      simp only [digitsFrom, Option.bind_eq_some_iff] at h
      obtain ⟨d, hd, hrest⟩ := h
      intro x hx
      rcases List.mem_cons.mp hx with rfl | hx
      · simp [isDigit, hd]
      · exact ih hrest x hx

/-- A text of decimal digits is a decimal literal of the same value. -/
theorem unsignedNumber_of_digits {negative : Bool} {l : List Char} {n : ℕ}
    (h : digitsValue 10 l = some n) :
    unsignedNumber negative l = binary64 (if negative then -(n : ℚ) else n) := by
  have hdigits : ∀ c ∈ l, isDigit c = true := by
    unfold digitsValue at h
    split_ifs at h
    exact isDigit_of_digitsFrom h
  have hne : l ≠ "Infinity".toList := by
    intro he
    have hI := hdigits 'I' (by rw [he]; decide)
    exact absurd hI (by decide)
  have hspan : l.span isDigit = (l, []) := by
    rw [List.span_eq_takeWhile_dropWhile, List.takeWhile_eq_self_iff.mpr hdigits,
      List.dropWhile_eq_nil_iff.mpr hdigits]
  have hliteral : decimalLiteral l = some (n : ℚ) := by
    simp only [decimalLiteral, hspan, fractionPart, exponentPart, List.append_nil, h,
      Option.bind_some, Option.map_some, List.length_nil]
    norm_num
  simp only [unsignedNumber, if_neg hne, hliteral]

theorem signedNumber_of_signedDigits {l : List Char} {n : ℕ} (h : signedDigits l = some (n : ℤ)) :
    signedNumber l = binary64 n := by
  cases l with
  | nil => cases h
  | cons c cs =>
      simp only [signedDigits] at h
      simp only [signedNumber]
      split_ifs at h ⊢
      · obtain ⟨m, hm, he⟩ := Option.map_eq_some_iff.mp h
        rw [unsignedNumber_of_digits hm, Int.ofNat.inj he]
        rfl
      · obtain ⟨m, hm, he⟩ := Option.map_eq_some_iff.mp h
        have hneg : -(m : ℤ) = n := he
        obtain ⟨rfl, rfl⟩ : m = 0 ∧ n = 0 := by omega
        rw [unsignedNumber_of_digits hm]
        simp
      · obtain ⟨m, hm, he⟩ := Option.map_eq_some_iff.mp h
        rw [unsignedNumber_of_digits hm, Int.ofNat.inj he]
        rfl

/-- Where `BigInt` reads a natural number, `Number` reads the nearest value. -/
theorem number_of_bigInt {s : String} {n : ℕ} (h : bigInt s = some (n : ℤ)) :
    number s = binary64 n := by
  unfold bigInt at h
  unfold number
  simp only at h ⊢
  cases hp : radixPrefix (trim s.toList) with
  | some radix =>
      obtain ⟨base, digits⟩ := radix
      rw [hp] at h
      obtain ⟨m, hm, he⟩ := Option.map_eq_some_iff.mp h
      simp only [hm, Option.elim_some, Int.ofNat.inj he]
  | none =>
      rw [hp] at h
      simp only at h ⊢
      split_ifs at h with hnil
      · obtain rfl : n = 0 := by
          have h0 := Option.some_inj.mp h
          omega
        rw [hnil, binary64_natCast (by norm_num)]
        norm_num [signedNumber]
      · exact signedNumber_of_signedDigits h

theorem number_of_bigInt_exact {s : String} {n : ℕ} (h : bigInt s = some (n : ℤ))
    (hn : n < 2 ^ 53) : number s = .finite n :=
  (number_of_bigInt h).trans (binary64_natCast hn)

theorem number_ne_nan_of_bigInt {s : String} {n : ℕ} (h : bigInt s = some (n : ℤ)) :
    number s ≠ .nan := by
  rw [number_of_bigInt h]
  simp only [binary64]
  split_ifs <;> exact fun h => nomatch h

/-- `Number` reads back the decimal text of an exact integer. -/
theorem number_toString {n : ℕ} (h : n < 2 ^ 53) : number (toString n) = .finite n :=
  number_of_bigInt_exact (bigInt_toString n) h

theorem toIndex_natCast (n : ℕ) : (JsNumber.finite n).toIndex = some n := by
  simp [JsNumber.toIndex]

end CkbDex.Number
