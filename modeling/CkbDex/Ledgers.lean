import Mathlib.Algebra.BigOperators.Group.Multiset.Basic
import Mathlib.Algebra.Ring.Nat

/-!
# Ledgers

Transactions that consume live cells and create new ones. What every
transaction keeps or adds to is kept or added to by a run.
-/
namespace CkbDex.Ledgers

variable {α τ : Type*}

section
variable (inputs outputs : τ → List α) (valid : τ → Prop)

/-- Valid transactions one after another, from the live cells before to those after. -/
inductive Run : Multiset α → List τ → Multiset α → Prop
  | nil {live : Multiset α} : Run live [] live
  | cons {rest after : Multiset α} {tx : τ} {txs : List τ} : valid tx →
      Run (↑(outputs tx) + rest) txs after → Run (↑(inputs tx) + rest) (tx :: txs) after

end

/-- The worth of a collection of cells. -/
def worth (f : α → ℕ) (cells : Multiset α) : ℕ := (cells.map f).sum

@[simp] theorem worth_coe (f : α → ℕ) (cells : List α) : worth f ↑cells = (cells.map f).sum := rfl

@[simp] theorem worth_add (f : α → ℕ) (a b : Multiset α) : worth f (a + b) = worth f a + worth f b := by
  rw [worth, Multiset.map_add, Multiset.sum_add]
  rfl

section
variable {inputs outputs : τ → List α} {valid : τ → Prop} {live after : Multiset α} {txs : List τ}

theorem Run.all_valid (h : Run inputs outputs valid live txs after) : ∀ tx ∈ txs, valid tx := by
  induction h with
  | nil =>
      intro tx hmem
      exact absurd hmem List.not_mem_nil
  | cons hvalid _ ih =>
      intro tx hmem
      rcases List.mem_cons.mp hmem with rfl | hmem
      · exact hvalid
      · exact ih tx hmem

/-- What no transaction takes away, no run takes away. -/
theorem Run.worth_le {f : α → ℕ} (h : Run inputs outputs valid live txs after)
    (hstep : ∀ tx ∈ txs, worth f ↑(inputs tx) ≤ worth f ↑(outputs tx)) :
    worth f live ≤ worth f after := by
  induction h with
  | nil => exact le_rfl
  | cons _ _ ih =>
      rename_i rest after tx txs _ _
      have hfirst := hstep tx List.mem_cons_self
      have hrest := ih fun other hmem => hstep other (List.mem_cons_of_mem _ hmem)
      rw [Ledgers.worth_add] at hrest ⊢
      omega

/-- A cell that is not live any more was spent. -/
theorem Run.spent {c : α} (h : Run inputs outputs valid live txs after) (hmem : c ∈ live)
    (hnot : c ∉ after) : ∃ tx ∈ txs, c ∈ inputs tx := by
  induction h with
  | nil => exact absurd hmem hnot
  | cons _ _ ih =>
      rename_i rest after tx txs _ _
      rcases Multiset.mem_add.mp hmem with hin | hrest
      · exact ⟨tx, List.mem_cons_self, Multiset.mem_coe.mp hin⟩
      · obtain ⟨other, hother, hspent⟩ := ih (Multiset.mem_add.mpr (Or.inr hrest)) hnot
        exact ⟨other, List.mem_cons_of_mem _ hother, hspent⟩

end

end CkbDex.Ledgers
