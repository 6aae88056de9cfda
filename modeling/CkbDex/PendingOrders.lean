import Mathlib.Data.List.Nodup

/-!
# Pending orders

The orders that a wallet has submitted from this page and that are not indexed
yet. The browser keeps them, and every view reads them from here.
-/
namespace CkbDex.PendingOrders

/-- What the views read of a submitted order. A row of an old page may lack its
token. -/
structure PendingRow where
  txHash : String
  xudtTypeHash : Option String
  deriving DecidableEq, Repr

/-- A row comes first, in the place of one of its transaction. -/
def addPending (row : PendingRow) (rows : List PendingRow) : List PendingRow :=
  row :: rows.filter fun other => other.txHash ≠ row.txHash

/-- The rows of some transactions are dropped. -/
def removePending (txHashes : List String) (rows : List PendingRow) : List PendingRow :=
  rows.filter fun row => row.txHash ∉ txHashes

section
variable {rows : List PendingRow} {row other : PendingRow} {txHashes : List String}

theorem mem_addPending :
    row ∈ addPending other rows ↔ row = other ∨ row ∈ rows ∧ row.txHash ≠ other.txHash := by
  simp [addPending]

theorem mem_removePending : row ∈ removePending txHashes rows ↔ row ∈ rows ∧ row.txHash ∉ txHashes := by
  simp [removePending]

theorem nodup_addPending (h : (rows.map PendingRow.txHash).Nodup) (row : PendingRow) :
    ((addPending row rows).map PendingRow.txHash).Nodup := by
  rw [addPending, List.map_cons, List.nodup_cons]
  refine ⟨fun hmem => ?_, h.sublist (List.filter_sublist.map PendingRow.txHash)⟩
  obtain ⟨other, hother, hsame⟩ := List.mem_map.mp hmem
  exact of_decide_eq_true (List.mem_filter.mp hother).2 hsame

theorem nodup_removePending (h : (rows.map PendingRow.txHash).Nodup) (txHashes : List String) :
    ((removePending txHashes rows).map PendingRow.txHash).Nodup :=
  h.sublist (List.filter_sublist.map PendingRow.txHash)

end

end CkbDex.PendingOrders
