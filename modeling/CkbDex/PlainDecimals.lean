import CkbDex.Text
import Mathlib.Algebra.Order.Field.Rat
import Mathlib.Computability.RegularExpressions
import Mathlib.Tactic.FieldSimp
import Mathlib.Tactic.IntervalCases

/-!
# Plain decimals

Decimal numbers as they are written without a sign: digits with at most one
point among them. They are given by a regular expression, by their parts and by
their value.
-/
namespace CkbDex.PlainDecimals
open Text RegularExpression

/-- `\d` -/
def digit : RegularExpression Char :=
  "0123456789".toList.foldr (fun c others => char c + others) 0

/-- `\d*` -/
def digits : RegularExpression Char := star digit

/-- `\d+` -/
def someDigits : RegularExpression Char := digit * digits

/-- A point that may be absent, `\.?`. -/
def maybePoint : RegularExpression Char := char '.' + 1

theorem foldr_rmatch_iff (cs l : List Char) :
    (cs.foldr (fun c others => char c + others) 0).rmatch l = true ↔ ∃ c ∈ cs, l = [c] := by
  induction cs with
  | nil => simp [zero_rmatch]
  | cons c cs ih =>
      rw [List.foldr_cons, add_rmatch_iff, char_rmatch_iff, ih]
      simp

theorem isDigit_iff_mem {c : Char} : c.isDigit = true ↔ c ∈ "0123456789".toList := by
  constructor
  · intro h
    obtain ⟨hlow, hhigh⟩ := toNat_of_isDigit h
    rw [← Char.ofNat_toNat c]
    generalize c.toNat = n at hlow hhigh
    interval_cases n <;> decide
  · intro h
    have hall : "0123456789".toList.all Char.isDigit = true := by decide
    exact List.all_eq_true.mp hall c h

theorem digit_rmatch_iff {l : List Char} :
    digit.rmatch l = true ↔ ∃ c, c.isDigit = true ∧ l = [c] := by
  unfold digit
  rw [foldr_rmatch_iff]
  simp only [isDigit_iff_mem]

theorem digits_rmatch_iff {l : List Char} : digits.rmatch l = true ↔ ∀ c ∈ l, c.isDigit = true := by
  unfold digits
  rw [star_rmatch_iff]
  constructor
  · rintro ⟨words, rfl, hwords⟩ c hmem
    obtain ⟨word, hword, hc⟩ := List.mem_flatten.mp hmem
    obtain ⟨d, hd, rfl⟩ := digit_rmatch_iff.mp (hwords word hword).2
    rw [List.mem_singleton.mp hc]
    exact hd
  · intro hall
    apply Exists.intro (l.map fun c => [c])
    constructor
    · induction l with
      | nil => rfl
      | cons c l ih =>
          have hrest := ih fun d hmem => hall d (List.mem_cons_of_mem c hmem)
          rw [List.map_cons, List.flatten_cons, ← hrest]
          rfl
    · intro word hmem
      obtain ⟨c, hc, rfl⟩ := List.mem_map.mp hmem
      exact ⟨List.cons_ne_nil c [], digit_rmatch_iff.mpr ⟨c, hall c hc, rfl⟩⟩

theorem someDigits_rmatch_iff {l : List Char} :
    someDigits.rmatch l = true ↔ l ≠ [] ∧ ∀ c ∈ l, c.isDigit = true := by
  unfold someDigits
  rw [mul_rmatch_iff]
  constructor
  · rintro ⟨first, rest, rfl, hfirst, hrest⟩
    obtain ⟨c, hc, rfl⟩ := digit_rmatch_iff.mp hfirst
    have hdigits := digits_rmatch_iff.mp hrest
    constructor
    · exact List.cons_ne_nil c rest
    · intro d hmem
      rcases List.mem_cons.mp hmem with rfl | hmem
      · exact hc
      · exact hdigits d hmem
  · rintro ⟨hne, hall⟩
    cases l with
    | nil => exact absurd rfl hne
    | cons c l =>
        have hc := hall c List.mem_cons_self
        have hl : ∀ d ∈ l, d.isDigit = true := fun d hmem => hall d (List.mem_cons_of_mem c hmem)
        exact ⟨[c], l, rfl, digit_rmatch_iff.mpr ⟨c, hc, rfl⟩, digits_rmatch_iff.mpr hl⟩

/-- A text that writes a number with these digits before and after the point. -/
structure Writes (text whole frac : List Char) : Prop where
  wholeDigits : ∀ c ∈ whole, c.isDigit = true
  fracDigits : ∀ c ∈ frac, c.isDigit = true
  nonempty : whole ≠ [] ∨ frac ≠ []
  text : text = whole ∧ frac = [] ∨ text = whole ++ '.' :: frac

/-- `^\d*\.?\d+$|^\d+\.$` -/
def decimal : RegularExpression Char := digits * (maybePoint * someDigits) + someDigits * char '.'

theorem decimal_rmatch_iff {l : List Char} :
    decimal.rmatch l = true ↔ ∃ whole frac, Writes l whole frac := by
  unfold decimal maybePoint
  simp only [add_rmatch_iff, mul_rmatch_iff, char_rmatch_iff, one_rmatch_iff, digits_rmatch_iff,
    someDigits_rmatch_iff]
  constructor
  · rintro (⟨front, _, rfl, hfront, point, back, rfl, rfl | rfl, hne, hback⟩ |
      ⟨front, point, rfl, ⟨hne, hfront⟩, rfl⟩)
    · exact ⟨front, back, hfront, hback, Or.inr hne, Or.inr rfl⟩
    · apply Exists.intro (front ++ back)
      apply Exists.intro []
      constructor
      · intro c hmem
        rcases List.mem_append.mp hmem with hmem | hmem
        · exact hfront c hmem
        · exact hback c hmem
      · simp
      · exact Or.inl (List.append_ne_nil_of_right_ne_nil front hne)
      · exact Or.inl ⟨rfl, rfl⟩
    · exact ⟨front, [], hfront, by simp, Or.inl hne, Or.inr rfl⟩
  · rintro ⟨whole, frac, hwhole, hfrac, hne, ⟨rfl, rfl⟩ | rfl⟩
    · have hsome := hne.resolve_right (not_not.mpr rfl)
      exact Or.inl ⟨[], l, rfl, by simp, [], l, rfl, Or.inr rfl, hsome, hwhole⟩
    · cases frac with
      | nil =>
          have hsome := hne.resolve_right (not_not.mpr rfl)
          exact Or.inr ⟨whole, ['.'], rfl, ⟨hsome, hwhole⟩, rfl⟩
      | cons c frac =>
          exact Or.inl ⟨whole, '.' :: c :: frac, rfl, hwhole, ['.'], c :: frac, rfl, Or.inl rfl,
            List.cons_ne_nil c frac, hfrac⟩

section
variable {text whole frac : List Char} (h : Writes text whole frac)
include h

theorem Writes.not_point {part : List Char} (hpart : part = whole ∨ part = frac) :
    ∀ c ∈ part, (c == '.') = false := by
  intro c hmem
  have hdigit : c.isDigit = true := by
    rcases hpart with rfl | rfl
    · exact h.wholeDigits c hmem
    · exact h.fracDigits c hmem
  exact beq_eq_false_iff_ne.mpr (ne_of_isDigit hdigit rfl)

/-- The text splits into its parts. -/
theorem Writes.split : text.splitOn '.' = [whole] ∧ frac = [] ∨ text.splitOn '.' = [whole, frac] := by
  have hwhole := h.not_point (Or.inl rfl)
  have hfrac := h.not_point (Or.inr rfl)
  rcases h.text with ⟨rfl, rfl⟩ | rfl
  · exact Or.inl ⟨List.splitOnP_eq_singleton hwhole, rfl⟩
  · have hparts := List.splitOnP_append_cons (p := fun c => c == '.') whole frac (beq_self_eq_true '.')
    rw [List.splitOnP_eq_singleton hwhole, List.splitOnP_eq_singleton hfrac] at hparts
    exact Or.inr hparts

theorem Writes.split_whole : (text.splitOn '.').getD 0 [] = whole := by
  rcases h.split with ⟨hparts, -⟩ | hparts
  · rw [hparts]
    rfl
  · rw [hparts]
    rfl

theorem Writes.split_frac : (text.splitOn '.').getD 1 [] = frac := by
  rcases h.split with ⟨hparts, hnone⟩ | hparts
  · rw [hparts, hnone]
    rfl
  · rw [hparts]
    rfl

theorem Writes.trim : trim text = text := by
  apply trim_of_no_space
  intro c hmem
  rcases h.text with ⟨rfl, rfl⟩ | rfl
  · exact isSpace_of_isDigit (h.wholeDigits c hmem)
  · rcases List.mem_append.mp hmem with hmem | hmem
    · exact isSpace_of_isDigit (h.wholeDigits c hmem)
    · rcases List.mem_cons.mp hmem with rfl | hmem
      · decide
      · exact isSpace_of_isDigit (h.fracDigits c hmem)

end

def digitValue (c : Char) : ℕ := c.toNat - '0'.toNat

/-- The number that digits write. -/
def valueOf (digits : List Char) : ℕ := digits.foldl (fun value c => 10 * value + digitValue c) 0

theorem valueOf_append (front back : List Char) :
    valueOf (front ++ back) = valueOf front * 10 ^ back.length + valueOf back := by
  induction back using List.reverseRecOn with
  | nil => simp [valueOf]
  | append_singleton back c ih =>
      have hlast : ∀ l : List Char, valueOf (l ++ [c]) = 10 * valueOf l + digitValue c := by
        intro l
        unfold valueOf
        rw [List.foldl_append]
        rfl
      rw [← List.append_assoc, hlast, hlast, ih, List.length_append, List.length_singleton, pow_succ]
      ring

theorem valueOf_zeros (n : ℕ) : valueOf (List.replicate n '0') = 0 := by
  induction n with
  | zero => rfl
  | succ n ih =>
      have happend := valueOf_append ['0'] (List.replicate n '0')
      rw [ih] at happend
      rw [List.replicate_succ]
      exact happend.trans (by simp [valueOf, digitValue])

/-- The number with these digits before and after the point. -/
def numberOf (whole frac : List Char) : ℚ := valueOf whole + valueOf frac / 10 ^ frac.length

/-- With no more digits after the point than units have, a number is a whole number
of units. -/
theorem numberOf_mul_pow (whole : List Char) {frac : List Char} {decimals : ℕ} (h : frac.length ≤ decimals) :
    numberOf whole frac * 10 ^ decimals =
      ((valueOf whole * 10 ^ decimals + valueOf frac * 10 ^ (decimals - frac.length) : ℕ) : ℚ) := by
  obtain ⟨extra, rfl⟩ := Nat.exists_eq_add_of_le h
  unfold numberOf
  rw [Nat.add_sub_cancel_left]
  push_cast
  rw [pow_add]
  field_simp

end CkbDex.PlainDecimals
