import Mathlib.Algebra.BigOperators.Group.List.Basic
import Mathlib.Algebra.GroupWithZero.Nat

/-!
# Checked arithmetic on fixed-width unsigned integers

`checked_add` and `checked_sub` of the `u64` and `u128` types, at any width,
and the accumulating loops built from them. Every result is stated over the
exact natural values, so that a caller never reasons about wrapping.
-/
namespace CkbDex.Checked

universe u
variable {w : ℕ} {α β : Type u} {ε : Type*}

def checkedAdd (x y : BitVec w) : Option (BitVec w) :=
  if x.toNat + y.toNat < 2 ^ w then some (x + y) else none

def checkedSub (x y : BitVec w) : Option (BitVec w) :=
  if y.toNat ≤ x.toNat then some (x - y) else none

theorem checkedAdd_eq_some {x y z : BitVec w} :
    checkedAdd x y = some z ↔ x.toNat + y.toNat = z.toNat := by
  unfold checkedAdd
  split_ifs with h
  · have hs : (x + y).toNat = x.toNat + y.toNat := by
      rw [BitVec.toNat_add, Nat.mod_eq_of_lt h]
    rw [Option.some_inj, ← BitVec.toNat_inj, hs]
  · have hz := z.isLt
    simp only [false_iff]
    omega

theorem checkedSub_eq_some {x y z : BitVec w} :
    checkedSub x y = some z ↔ x.toNat = y.toNat + z.toNat := by
  unfold checkedSub
  split_ifs with h
  · have hs : (x - y).toNat = x.toNat - y.toNat := BitVec.toNat_sub_of_le h
    rw [Option.some_inj, ← BitVec.toNat_inj, hs]
    omega
  · simp only [false_iff]
    omega

theorem exists_checkedAdd {x y : BitVec w} {r n : ℕ} (hn : n < 2 ^ w) :
    (∃ a, checkedAdd x y = some a ∧ a.toNat + r = n) ↔ x.toNat + (y.toNat + r) = n := by
  simp only [checkedAdd_eq_some]
  constructor
  · rintro ⟨a, ha, hs⟩
    omega
  · intro hs
    refine ⟨BitVec.ofNat w (x.toNat + y.toNat), ?_, ?_⟩ <;>
      rw [BitVec.toNat_ofNat, Nat.mod_eq_of_lt (by omega)]
    omega

/-- `ok_or`: the error a missing value is reported as. -/
def okOr (o : Option α) (e : ε) : Except ε α :=
  match o with
  | some a => .ok a
  | none => .error e

@[simp] theorem okOr_eq_ok {o : Option α} {e : ε} {a : α} :
    okOr o e = .ok a ↔ o = some a := by
  cases o <;> simp [okOr]

theorem bind_eq_ok {x : Except ε α} {f : α → Except ε β} {b : β} :
    x >>= f = .ok b ↔ ∃ a, x = .ok a ∧ f a = .ok b := by
  cases x with
  | error e => simp [bind, Except.bind]
  | ok a => simp [bind, Except.bind]

theorem mapError_eq_ok {δ : Type*} {x : Except ε α} {g : ε → δ} {a : α} :
    x.mapError g = .ok a ↔ x = .ok a := by
  cases x <;> simp [Except.mapError]

/-- `if c { return Err(e) }`. -/
def throwIf (c : Prop) [Decidable c] (e : ε) : Except ε Unit :=
  if c then .error e else .ok ()

@[simp] theorem throwIf_eq_ok {c : Prop} [Decidable c] {e : ε} {u : Unit} :
    throwIf c e = .ok u ↔ ¬c := by
  by_cases h : c <;> simp [throwIf, h]

/-- A loop that adds `f x` for the elements the guard `p` admits, and stops
at the first addition that does not fit. -/
def sumLoop (p : α → Bool) (f : α → BitVec w) (e : ε) (acc : BitVec w) (x : α) :
    Except ε (BitVec w) :=
  if p x then okOr (checkedAdd acc (f x)) e else .ok acc

/-- The loop succeeds exactly when the exact sum fits, and then returns it. -/
theorem foldlM_sumLoop (p : α → Bool) (f : α → BitVec w) (e : ε) (xs : List α)
    (acc total : BitVec w) :
    xs.foldlM (sumLoop p f e) acc = .ok total ↔
      acc.toNat + ((xs.filter p).map fun x => (f x).toNat).sum = total.toNat := by
  induction xs generalizing acc with
  | nil =>
      simp only [List.foldlM_nil, List.filter_nil, List.map_nil, List.sum_nil, Nat.add_zero]
      rw [BitVec.toNat_inj]
      exact ⟨fun h => Except.ok.inj h, fun h => h ▸ rfl⟩
  | cons x xs ih =>
      rw [List.foldlM_cons, bind_eq_ok]
      by_cases hp : p x = true
      · simp only [sumLoop, hp, if_true, okOr_eq_ok, ih, List.filter_cons_of_pos, List.map_cons,
          List.sum_cons]
        exact exists_checkedAdd total.isLt
      · simp only [sumLoop, hp, if_false, Except.ok.injEq, exists_eq_left', ih,
          List.filter_cons_of_neg, not_false_eq_true, Bool.false_eq_true]

/-- A loop that adds two readings of the admitted elements, of which the first
may be unreadable. -/
def pairLoop {v : ℕ} (p : α → Bool) (readable : α → Bool) (f : α → BitVec v) (g : α → BitVec w)
    (unreadable overflow₁ overflow₂ : ε) (acc : BitVec v × BitVec w) (x : α) :
    Except ε (BitVec v × BitVec w) :=
  if p x then do
    throwIf (¬readable x) unreadable
    let a ← okOr (checkedAdd acc.1 (f x)) overflow₁
    let b ← okOr (checkedAdd acc.2 (g x)) overflow₂
    return (a, b)
  else .ok acc

theorem foldlM_pairLoop {v : ℕ} (p readable : α → Bool) (f : α → BitVec v) (g : α → BitVec w)
    (e e₁ e₂ : ε) (xs : List α) (acc total : BitVec v × BitVec w) :
    xs.foldlM (pairLoop p readable f g e e₁ e₂) acc = .ok total ↔
      (∀ x ∈ xs.filter p, readable x = true) ∧
      acc.1.toNat + ((xs.filter p).map fun x => (f x).toNat).sum = total.1.toNat ∧
      acc.2.toNat + ((xs.filter p).map fun x => (g x).toNat).sum = total.2.toNat := by
  induction xs generalizing acc with
  | nil =>
      simp only [List.foldlM_nil, List.filter_nil, List.map_nil, List.sum_nil, Nat.add_zero,
        List.not_mem_nil, false_implies, implies_true, true_and]
      rw [BitVec.toNat_inj, BitVec.toNat_inj, ← Prod.ext_iff]
      exact ⟨fun h => Except.ok.inj h, fun h => h ▸ rfl⟩
  | cons x xs ih =>
      rw [List.foldlM_cons, bind_eq_ok]
      by_cases hp : p x = true
      · have h₁ := exists_checkedAdd (x := acc.1) (y := f x)
          (r := ((xs.filter p).map fun x => (f x).toNat).sum) total.1.isLt
        have h₂ := exists_checkedAdd (x := acc.2) (y := g x)
          (r := ((xs.filter p).map fun x => (g x).toNat).sum) total.2.isLt
        simp only [List.filter_cons_of_pos hp, List.forall_mem_cons, List.map_cons, List.sum_cons,
          ← h₁, ← h₂, ih]
        simp only [pairLoop, hp, if_true, bind_eq_ok, throwIf_eq_ok, okOr_eq_ok]
        constructor
        · rintro ⟨b, ⟨-, hr, a₁, ha₁, a₂, ha₂, hb⟩, hall, hs₁, hs₂⟩
          obtain rfl := Except.ok.inj hb
          exact ⟨⟨by simpa only [not_not] using hr, hall⟩, ⟨a₁, ha₁, hs₁⟩, a₂, ha₂, hs₂⟩
        · rintro ⟨⟨hr, hall⟩, ⟨a₁, ha₁, hs₁⟩, a₂, ha₂, hs₂⟩
          exact ⟨(a₁, a₂), ⟨(), not_not.mpr hr, a₁, ha₁, a₂, ha₂, rfl⟩, hall, hs₁, hs₂⟩
      · simp only [pairLoop, hp, if_false, Except.ok.injEq, exists_eq_left', ih,
          List.filter_cons_of_neg, not_false_eq_true, Bool.false_eq_true]

end CkbDex.Checked
