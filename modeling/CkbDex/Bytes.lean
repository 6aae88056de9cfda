import Mathlib.Algebra.Order.Ring.Nat
import Mathlib.Tactic.Ring

/-!
# Byte strings and little-endian integers

Byte strings are lists of 8-bit words. A slice of known length becomes an
array by `tryInto`; an integer of `n` bytes is read and written little endian.
-/
namespace CkbDex.Bytes

abbrev Byte := BitVec 8

/-- Fixed-length byte arrays `[u8; n]`. -/
@[ext] structure FixedBytes (n : ℕ) where
  toList : List Byte
  length_toList : toList.length = n
  deriving DecidableEq

abbrev Hash := FixedBytes 32

/-- `bs[start..stop]` of a byte string that is long enough. -/
def slice (bs : List Byte) (start stop : ℕ) : List Byte := (bs.drop start).take (stop - start)

theorem length_slice {bs : List Byte} {start stop : ℕ} (h : stop ≤ bs.length) :
    (slice bs start stop).length = stop - start := by
  simp only [slice, List.length_take, List.length_drop]
  omega

theorem slice_append_slice {bs : List Byte} {i j k : ℕ} (hij : i ≤ j) (hjk : j ≤ k) :
    slice bs i j ++ slice bs j k = slice bs i k := by
  have hdrop : (bs.drop i).drop (j - i) = bs.drop j := by
    rw [List.drop_drop, Nat.add_sub_cancel' hij]
  have hlen : j - i + (k - j) = k - i := by omega
  rw [slice, slice, slice, ← hdrop, ← List.take_add, hlen]

/-- A slice as an array of `n` bytes, when it has that length. -/
def tryInto (n : ℕ) (bs : List Byte) : Option (FixedBytes n) :=
  if h : bs.length = n then some ⟨bs, h⟩ else none

theorem tryInto_eq_some {n : ℕ} {bs : List Byte} {a : FixedBytes n} :
    tryInto n bs = some a ↔ bs = a.toList := by
  unfold tryInto
  split_ifs with h
  · rw [Option.some_inj]
    exact ⟨fun e => e ▸ rfl, fun e => FixedBytes.ext e⟩
  · simp only [false_iff]
    intro e
    exact h (e ▸ a.length_toList)

def ofLe : List Byte → ℕ
  | [] => 0
  | b :: bs => b.toNat + 256 * ofLe bs

def toLe : ℕ → ℕ → List Byte
  | 0, _ => []
  | n + 1, v => BitVec.ofNat 8 v :: toLe n (v / 256)

@[simp] theorem length_toLe (n v : ℕ) : (toLe n v).length = n := by
  induction n generalizing v with
  | zero => rfl
  | succ n ih => simp [toLe, ih]

theorem ofLe_lt (bs : List Byte) : ofLe bs < 256 ^ bs.length := by
  induction bs with
  | nil => simp [ofLe]
  | cons b bs ih =>
      have hb := b.isLt
      simp only [ofLe, List.length_cons, pow_succ]
      omega

theorem ofLe_lt_of_length {bs : List Byte} {n : ℕ} (h : bs.length = n) :
    ofLe bs < 2 ^ (8 * n) := by
  have hb := ofLe_lt bs
  rwa [h, show (256 : ℕ) = 2 ^ 8 from rfl, ← pow_mul] at hb

/-- Every byte string is the encoding of the integer it denotes. -/
theorem toLe_ofLe (bs : List Byte) : toLe bs.length (ofLe bs) = bs := by
  induction bs with
  | nil => rfl
  | cons b bs ih =>
      have hb := b.isLt
      have hd : (b.toNat + 256 * ofLe bs) / 256 = ofLe bs := by omega
      have hm : BitVec.ofNat 8 (b.toNat + 256 * ofLe bs) = b := by
        apply BitVec.eq_of_toNat_eq
        rw [BitVec.toNat_ofNat]
        omega
      simp only [ofLe, List.length_cons, toLe, hd, hm, ih]

theorem ofLe_toLe {n v : ℕ} (h : v < 256 ^ n) : ofLe (toLe n v) = v := by
  induction n generalizing v with
  | zero =>
      simp only [pow_zero, Nat.lt_one_iff] at h
      simp [toLe, ofLe, h]
  | succ n ih =>
      have hv : v / 256 < 256 ^ n := by
        rw [pow_succ] at h
        omega
      simp only [toLe, ofLe, ih hv, BitVec.toNat_ofNat]
      omega

/-- Reading a fixed-width integer from as many bytes as it has. -/
def wordOfLe (w : ℕ) (bs : List Byte) : BitVec w := BitVec.ofNat w (ofLe bs)

theorem toNat_wordOfLe {n : ℕ} {bs : List Byte} (h : bs.length = n) :
    (wordOfLe (8 * n) bs).toNat = ofLe bs := by
  rw [wordOfLe, BitVec.toNat_ofNat, Nat.mod_eq_of_lt (ofLe_lt_of_length h)]

end CkbDex.Bytes
