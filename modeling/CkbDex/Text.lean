import CkbDex.Bytes
import Mathlib.Data.List.DropRight

/-!
# Hexadecimal text and integer literals

Conversions between text and values as JavaScript programs make them: byte
strings behind a `0x` marker, letter case, and the strings that `BigInt`
accepts. Decimal rendering is Lean's own.
-/
namespace CkbDex.Text
open Bytes

def hexDigit (c : Char) : Option ℕ :=
  if 48 ≤ c.toNat ∧ c.toNat ≤ 57 then some (c.toNat - 48)
  else if 97 ≤ c.toNat ∧ c.toNat ≤ 102 then some (c.toNat - 87)
  else if 65 ≤ c.toNat ∧ c.toNat ≤ 70 then some (c.toNat - 55)
  else none

theorem hexDigit_digitChar {n : ℕ} (h : n < 16) : hexDigit n.digitChar = some n := by
  have hall : ∀ m < 16, hexDigit m.digitChar = some m := by decide
  exact hall n h

theorem hexDigit_lt {c : Char} {n : ℕ} (h : hexDigit c = some n) : n < 16 := by
  unfold hexDigit at h
  split_ifs at h <;> simp only [Option.some_inj] at h <;> omega

theorem toNat_toLower (c : Char) :
    c.toLower.toNat = if 65 ≤ c.toNat ∧ c.toNat ≤ 90 then c.toNat + 32 else c.toNat := by
  unfold Char.toLower
  by_cases h : 65 ≤ c.toNat ∧ c.toNat ≤ 90
  · rw [if_pos h, dif_pos]
    · rw [Char.toNat, UInt32.toNat_add]
      have h₁ : c.val.toNat = c.toNat := rfl
      have h₂ : ('a'.val - 'A'.val).toNat = 32 := rfl
      rw [h₁, h₂]
      omega
    · exact ⟨h.1, h.2⟩
  · rw [if_neg h, dif_neg]
    intro h'
    exact h ⟨h'.1, h'.2⟩

@[simp] theorem hexDigit_toLower (c : Char) : hexDigit c.toLower = hexDigit c := by
  unfold hexDigit
  rw [toNat_toLower]
  by_cases h : 65 ≤ c.toNat ∧ c.toNat ≤ 90
  · simp only [h, and_self, if_true]
    grind
  · simp only [h, if_false]

/-- A hexadecimal digit in lower case is the digit of its value. -/
theorem toLower_eq_digitChar {c : Char} {n : ℕ} (h : hexDigit c = some n) :
    c.toLower = n.digitChar := by
  have hn := hexDigit_lt h
  apply Char.toNat_inj.mp
  rw [toNat_toLower]
  unfold hexDigit at h
  have hchar : ∀ m < 16, m.digitChar.toNat = if m < 10 then m + 48 else m + 87 := by decide
  rw [hchar n hn]
  split_ifs at h ⊢ <;> simp only [Option.some_inj] at h <;> omega

def hexPairs : List Char → Option (List Byte)
  | [] => some []
  | [_] => none
  | h :: l :: rest => do
      let high ← hexDigit h
      let low ← hexDigit l
      let bytes ← hexPairs rest
      return BitVec.ofNat 8 (16 * high + low) :: bytes

/-- What follows the marker `0x`. -/
def afterMarker : List Char → Option (List Char)
  | c₀ :: c₁ :: digits => if c₀ = '0' ∧ c₁ = 'x' then some digits else none
  | _ => none

/-- Bytes of a text that matches `/^0x(?:[0-9a-fA-F]{2})*$/`. -/
def hexBytes (s : String) : Option (List Byte) := (afterMarker s.toList).bind hexPairs

/-- Bytes of a text that may have an odd number of digits: a leading zero is
understood. -/
def bytesFrom (s : String) : Option (List Byte) :=
  (afterMarker s.toList).bind fun digits =>
    hexPairs (if digits.length % 2 = 0 then digits else '0' :: digits)

def hexPair (b : Byte) : List Char := [(b.toNat / 16).digitChar, (b.toNat % 16).digitChar]

/-- Lower-case hexadecimal text behind the marker. -/
def toHex (bs : List Byte) : String := String.ofList ('0' :: 'x' :: bs.flatMap hexPair)

/-- `toLowerCase` on ASCII text. -/
def lower (s : String) : String := String.ofList (s.toList.map Char.toLower)

/-- A string's length in UTF-16 code units. -/
def utf16Length (s : String) : ℕ := (s.toList.map fun c => if c.toNat < 65536 then 1 else 2).sum

theorem length_le_utf16Length (s : String) : s.toList.length ≤ utf16Length s := by
  rw [utf16Length]
  induction s.toList with
  | nil => exact le_rfl
  | cons c l ih =>
      rw [List.map_cons, List.sum_cons, List.length_cons]
      split_ifs <;> omega

/-- `/^0x[0-9a-fA-F]*$/` -/
def isHex (s : String) : Bool :=
  match afterMarker s.toList with
  | some digits => digits.all fun c => (hexDigit c).isSome
  | none => false

theorem afterMarker_eq_some {l digits : List Char} :
    afterMarker l = some digits ↔ l = '0' :: 'x' :: digits := by
  constructor
  · intro h
    match l with
    | [] => cases h
    | [_] => cases h
    | c₀ :: c₁ :: rest =>
        simp only [afterMarker] at h
        split_ifs at h with hc
        rw [hc.1, hc.2, Option.some_inj.mp h]
  · rintro rfl
    rfl

theorem hexPairs_flatMap (bs : List Byte) : hexPairs (bs.flatMap hexPair) = some bs := by
  induction bs with
  | nil => rfl
  | cons b bs ih =>
      have hb := b.isLt
      have hvalue : BitVec.ofNat 8 (16 * (b.toNat / 16) + b.toNat % 16) = b := by
        rw [Nat.div_add_mod, BitVec.ofNat_toNat, BitVec.setWidth_eq]
      simp [hexPair, hexPairs, hexDigit_digitChar (show b.toNat / 16 < 16 by omega),
        hexDigit_digitChar (show b.toNat % 16 < 16 by omega), ih, hvalue]

theorem length_flatMap_hexPair (bs : List Byte) : (bs.flatMap hexPair).length = 2 * bs.length := by
  induction bs with
  | nil => rfl
  | cons b bs ih =>
      simp only [List.flatMap_cons, List.length_append, ih, List.length_cons, hexPair,
        List.length_nil]
      omega

@[simp] theorem hexBytes_toHex (bs : List Byte) : hexBytes (toHex bs) = some bs := by
  rw [hexBytes, toHex, String.toList_ofList, afterMarker_eq_some.mpr rfl]
  exact hexPairs_flatMap bs

@[simp] theorem bytesFrom_toHex (bs : List Byte) : bytesFrom (toHex bs) = some bs := by
  rw [bytesFrom, toHex, String.toList_ofList, afterMarker_eq_some.mpr rfl, Option.bind_some,
    length_flatMap_hexPair, if_pos (by omega)]
  exact hexPairs_flatMap bs

theorem toHex_injective {xs ys : List Byte} (h : toHex xs = toHex ys) : xs = ys := by
  have hx := hexBytes_toHex xs
  rw [h, hexBytes_toHex] at hx
  exact (Option.some_inj.mp hx).symm

theorem hexPairs_map_toLower (l : List Char) : hexPairs (l.map Char.toLower) = hexPairs l := by
  fun_induction hexPairs l with
  | case1 => rfl
  | case2 => rfl
  | case3 h l rest ih => simp only [List.map_cons, hexPairs, hexDigit_toLower, ih]

theorem flatMap_hexPair_of_hexPairs {l : List Char} {bs : List Byte} (h : hexPairs l = some bs) :
    bs.flatMap hexPair = l.map Char.toLower := by
  fun_induction hexPairs l generalizing bs with
  | case1 =>
      obtain rfl := Option.some_inj.mp h
      rfl
  | case2 => cases h
  | case3 hc lc rest ih =>
      simp only [bind, Option.bind_eq_some_iff, pure, Option.some_inj] at h
      obtain ⟨high, hhigh, low, hlow, bytes, hbytes, rfl⟩ := h
      have h₁ := hexDigit_lt hhigh
      have h₂ := hexDigit_lt hlow
      have hvalue : (BitVec.ofNat 8 (16 * high + low)).toNat = 16 * high + low := by
        rw [BitVec.toNat_ofNat]
        omega
      have hdiv : (16 * high + low) / 16 = high := by omega
      have hmod : (16 * high + low) % 16 = low := by omega
      simp only [List.flatMap_cons, hexPair, hvalue, hdiv, hmod, List.map_cons, ih hbytes,
        toLower_eq_digitChar hhigh, toLower_eq_digitChar hlow, List.cons_append, List.nil_append]

/-- Text of an even number of digits is, in lower case, the rendering of its
bytes. -/
theorem lower_eq_toHex {s : String} {bs : List Byte} (h : hexBytes s = some bs) :
    lower s = toHex bs := by
  simp only [hexBytes, Option.bind_eq_some_iff, afterMarker_eq_some] at h
  obtain ⟨digits, hs, hd⟩ := h
  rw [lower, toHex, hs, flatMap_hexPair_of_hexPairs hd]
  rfl

@[simp] theorem lower_toHex (bs : List Byte) : lower (toHex bs) = toHex bs :=
  lower_eq_toHex (hexBytes_toHex bs)

theorem isHex_iff {s : String} : isHex s = true ↔ ∃ digits, s.toList = '0' :: 'x' :: digits ∧
    ∀ c ∈ digits, (hexDigit c).isSome = true := by
  unfold isHex
  cases hm : afterMarker s.toList with
  | none =>
      simp only [Bool.false_eq_true, false_iff, not_exists, not_and]
      intro digits hs
      rw [hs, afterMarker_eq_some.mpr rfl] at hm
      cases hm
  | some digits =>
      rw [afterMarker_eq_some] at hm
      simp [hm]

/-- Hexadecimal texts that agree up to letter case denote the same bytes. -/
theorem bytesFrom_congr {a b : String} (ha : isHex a = true) (hb : isHex b = true)
    (h : lower a = lower b) : bytesFrom a = bytesFrom b := by
  obtain ⟨da, hda, -⟩ := isHex_iff.mp ha
  obtain ⟨db, hdb, -⟩ := isHex_iff.mp hb
  simp only [lower, hda, hdb, String.ofList_inj, List.map_cons, List.cons.injEq] at h
  obtain ⟨-, -, h⟩ := h
  have hlen : da.length = db.length := by
    rw [← List.length_map Char.toLower, h, List.length_map]
  have hpad : ∀ l : List Char, hexPairs (if l.length % 2 = 0 then l else '0' :: l) =
      hexPairs (if l.length % 2 = 0 then l.map Char.toLower else '0' :: l.map Char.toLower) := by
    intro l
    split_ifs
    · exact (hexPairs_map_toLower l).symm
    · exact (hexPairs_map_toLower ('0' :: l)).symm
  rw [bytesFrom, bytesFrom, hda, hdb, afterMarker_eq_some.mpr rfl, afterMarker_eq_some.mpr rfl,
    Option.bind_some, Option.bind_some, hpad da, hpad db, hlen, h]

theorem isHex_toHex (bs : List Byte) : isHex (toHex bs) = true := by
  rw [isHex_iff]
  refine ⟨bs.flatMap hexPair, by rw [toHex, String.toList_ofList], ?_⟩
  intro c hc
  obtain ⟨b, -, hb⟩ := List.mem_flatMap.mp hc
  have hlt := b.isLt
  have hdigit : ∀ n < 16, (hexDigit n.digitChar).isSome = true := by decide
  simp only [hexPair, List.mem_cons, List.not_mem_nil, or_false] at hb
  rcases hb with rfl | rfl
  · exact hdigit _ (by omega)
  · exact hdigit _ (by omega)

theorem bytesFrom_of_lower {s : String} {bs : List Byte} (hs : isHex s = true)
    (h : lower s = toHex bs) : bytesFrom s = some bs := by
  rw [bytesFrom_congr hs (isHex_toHex bs) (h.trans (lower_toHex bs).symm), bytesFrom_toHex]

/-- White space and line terminators of the language. -/
def isSpace (c : Char) : Bool :=
  (9 ≤ c.toNat && c.toNat ≤ 13) || c.toNat ∈ [0x20, 0xA0, 0x1680, 0x2028, 0x2029, 0x202F,
    0x205F, 0x3000, 0xFEFF] || (0x2000 ≤ c.toNat && c.toNat ≤ 0x200A)

def trim (l : List Char) : List Char := (l.dropWhile isSpace).rdropWhile isSpace

def digitIn (base : ℕ) (c : Char) : Option ℕ := (hexDigit c).filter fun d => d < base

/-- The value of digits that follow a prefix of value `acc`. -/
def digitsFrom (base : ℕ) : ℕ → List Char → Option ℕ
  | acc, [] => some acc
  | acc, c :: cs => (digitIn base c).bind fun d => digitsFrom base (acc * base + d) cs

def digitsValue (base : ℕ) (l : List Char) : Option ℕ :=
  if l = [] then none else digitsFrom base 0 l

/-- The base that a prefix such as `0x` announces, and what follows it. -/
def radixPrefix : List Char → Option (ℕ × List Char)
  | c₀ :: c₁ :: digits =>
      if c₀ ≠ '0' then none
      else if c₁ = 'x' ∨ c₁ = 'X' then some (16, digits)
      else if c₁ = 'o' ∨ c₁ = 'O' then some (8, digits)
      else if c₁ = 'b' ∨ c₁ = 'B' then some (2, digits)
      else none
  | _ => none

/-- Decimal digits behind an optional sign. -/
def signedDigits : List Char → Option ℤ
  | [] => none
  | c :: digits =>
      if c = '+' then (digitsValue 10 digits).map Int.ofNat
      else if c = '-' then (digitsValue 10 digits).map fun n : ℕ => -(n : ℤ)
      else (digitsValue 10 (c :: digits)).map Int.ofNat

/-- `BigInt(text)`; `none` where it throws. A sign goes with decimal digits
only, and the empty text is zero. -/
def bigInt (s : String) : Option ℤ :=
  let l := trim s.toList
  match radixPrefix l with
  | some (base, digits) => (digitsValue base digits).map Int.ofNat
  | none => if l = [] then some 0 else signedDigits l

theorem digitsFrom_append (base acc : ℕ) (xs ys : List Char) :
    digitsFrom base acc (xs ++ ys) =
      (digitsFrom base acc xs).bind fun a => digitsFrom base a ys := by
  induction xs generalizing acc with
  | nil => rfl
  | cons c cs ih =>
      rw [List.cons_append, digitsFrom, digitsFrom, Option.bind_assoc]
      exact congrArg _ (funext fun d => ih _)

theorem digitIn_digitChar {d : ℕ} (h : d < 10) : digitIn 10 d.digitChar = some d := by
  rw [digitIn, hexDigit_digitChar (by omega)]
  simp [h]

theorem digitsFrom_toDigits (n : ℕ) : digitsFrom 10 0 (Nat.toDigits 10 n) = some n := by
  induction n using Nat.strong_induction_on with
  | _ n ih =>
      rw [Nat.toDigits_eq_if (by decide)]
      split_ifs with h
      · simp [digitsFrom, digitIn_digitChar h]
      · rw [digitsFrom_append, ih (n / 10) (by omega), Option.bind_some]
        simp only [digitsFrom, digitIn_digitChar (Nat.mod_lt n (by decide : 0 < 10)),
          Option.bind_some, Option.some_inj]
        omega

theorem digitsValue_toDigits (n : ℕ) : digitsValue 10 (Nat.toDigits 10 n) = some n := by
  rw [digitsValue, if_neg Nat.toDigits_ne_nil, digitsFrom_toDigits]

section
variable {c : Char} (h : c.isDigit = true)
include h

theorem toNat_of_isDigit : 48 ≤ c.toNat ∧ c.toNat ≤ 57 := by
  simp only [Char.isDigit, Bool.and_eq_true, decide_eq_true_eq] at h
  exact ⟨h.1, h.2⟩

theorem isSpace_of_isDigit : isSpace c = false := by
  obtain ⟨h₁, h₂⟩ := toNat_of_isDigit h
  have hmem : ∀ m ∈ [0x20, 0xA0, 0x1680, 0x2028, 0x2029, 0x202F, 0x205F, 0x3000, 0xFEFF],
      c.toNat ≠ m := by
    simp only [List.forall_mem_cons, List.not_mem_nil, false_implies, implies_true, and_true]
    omega
  have hnot : c.toNat ∉ [0x20, 0xA0, 0x1680, 0x2028, 0x2029, 0x202F, 0x205F, 0x3000, 0xFEFF] :=
    fun hm => hmem _ hm rfl
  rw [isSpace, decide_eq_false hnot]
  simp only [Bool.or_false, Bool.or_eq_false_iff, Bool.and_eq_false_iff, decide_eq_false_iff_not]
  omega

theorem ne_of_isDigit {d : Char} (hd : d.isDigit = false) : c ≠ d := by
  rintro rfl
  rw [h] at hd
  cases hd

end

theorem trim_of_no_space {l : List Char} (hspace : ∀ c ∈ l, isSpace c = false) : trim l = l := by
  have hfront : l.dropWhile isSpace = l := by
    cases l with
    | nil => rfl
    | cons c cs => rw [List.dropWhile_cons_of_neg]; simp [hspace c (by simp)]
  rw [trim, hfront, List.rdropWhile_eq_self_iff]
  intro hne hlast
  rw [hspace _ (List.getLast_mem hne)] at hlast
  cases hlast

theorem trim_digits {l : List Char} (h : ∀ c ∈ l, c.isDigit = true) : trim l = l :=
  trim_of_no_space fun c hc => isSpace_of_isDigit (h c hc)

theorem radixPrefix_digits {l : List Char} (h : ∀ c ∈ l, c.isDigit = true) :
    radixPrefix l = none := by
  match l with
  | [] => rfl
  | [_] => rfl
  | c₀ :: c₁ :: rest =>
      have h₁ := h c₁ (by simp)
      simp [radixPrefix, ne_of_isDigit h₁ (d := 'x') rfl, ne_of_isDigit h₁ (d := 'X') rfl,
        ne_of_isDigit h₁ (d := 'o') rfl, ne_of_isDigit h₁ (d := 'O') rfl,
        ne_of_isDigit h₁ (d := 'b') rfl, ne_of_isDigit h₁ (d := 'B') rfl]

theorem isDigit_toList_toString {n : ℕ} : ∀ c ∈ (toString n).toList, c.isDigit = true := by
  intro c hc
  rw [show (toString n).toList = Nat.toDigits 10 n from Nat.toList_repr] at hc
  exact Nat.isDigit_of_mem_toDigits (by decide) (by decide) hc

theorem toList_toString (n : ℕ) : (toString n).toList = Nat.toDigits 10 n := Nat.toList_repr

theorem bigInt_digits {s : String} {n : ℕ} (hdigits : ∀ c ∈ s.toList, c.isDigit = true)
    (hvalue : digitsValue 10 s.toList = some n) : bigInt s = some (n : ℤ) := by
  rw [bigInt, trim_digits hdigits, radixPrefix_digits hdigits]
  cases hl : s.toList with
  | nil =>
      rw [hl] at hvalue
      cases hvalue
  | cons c cs =>
      have hc : c.isDigit = true := hdigits c (hl ▸ List.mem_cons_self)
      rw [hl] at hvalue
      simp only [if_neg (List.cons_ne_nil c cs)]
      rw [signedDigits, if_neg (ne_of_isDigit hc rfl), if_neg (ne_of_isDigit hc rfl), hvalue]
      rfl

@[simp] theorem bigInt_toString (n : ℕ) : bigInt (toString n) = some (n : ℤ) := by
  refine bigInt_digits isDigit_toList_toString ?_
  rw [toList_toString, digitsValue_toDigits]

theorem toString_injective {m n : ℕ} (h : toString m = toString n) : m = n := by
  have hm := bigInt_toString m
  rw [h, bigInt_toString] at hm
  exact (Int.ofNat.inj (Option.some_inj.mp hm)).symm

theorem ne_colon_of_mem {n : ℕ} : ∀ c ∈ (toString n).toList, c ≠ ':' := by
  rintro c hc rfl
  have hdigit : ':'.isDigit = true := isDigit_toList_toString ':' hc
  exact absurd hdigit (by decide)

theorem append_colon_injective {xs ys as bs : List Char} (hxs : ∀ c ∈ xs, c ≠ ':')
    (hys : ∀ c ∈ ys, c ≠ ':') (h : xs ++ ':' :: as = ys ++ ':' :: bs) : xs = ys := by
  induction xs generalizing ys with
  | nil =>
      cases ys with
      | nil => rfl
      | cons y ys => exact (hys y List.mem_cons_self (List.cons.inj h).1.symm).elim
  | cons x xs ih =>
      cases ys with
      | nil => exact (hxs x List.mem_cons_self (List.cons.inj h).1).elim
      | cons y ys =>
          obtain ⟨rfl, hrest⟩ := List.cons.inj h
          rw [ih (fun c hc => hxs c (List.mem_cons_of_mem _ hc))
            (fun c hc => hys c (List.mem_cons_of_mem _ hc)) hrest]

theorem append_colon_right {xs ys as bs : List Char} (has : ∀ c ∈ as, c ≠ ':') (hbs : ∀ c ∈ bs, c ≠ ':')
    (h : xs ++ ':' :: as = ys ++ ':' :: bs) : xs = ys ∧ as = bs := by
  have hreverse := congrArg List.reverse h
  simp only [List.reverse_append, List.reverse_cons, List.append_assoc, List.singleton_append] at hreverse
  have hlast := append_colon_injective (fun c hc => has c (List.mem_reverse.mp hc))
    (fun c hc => hbs c (List.mem_reverse.mp hc)) hreverse
  rw [hlast, List.append_cancel_left_eq] at hreverse
  exact ⟨List.reverse_inj.mp (List.cons_eq_cons.mp hreverse).2, List.reverse_inj.mp hlast⟩

end CkbDex.Text
