import CkbDex.GroundedDocuments
import Mathlib.Logic.Function.Basic

/-!
# Closed orders

The store of the user interface in which orders are recorded as filled or
cancelled, by the first message that says so. Every view reads this one store.
-/
namespace CkbDex.ClosedOrders
open Text Documents Projection

inductive ClosedStatus where
  | filled | canceled
  deriving DecidableEq, Repr

/-- The map from keys to statuses. -/
abbrev Closed := String → Option ClosedStatus

/-- The transaction hash and the index, however they are spelled. -/
def outPointKey (outPoint : OutPoint) : Option String :=
  if outPoint.txHash = "" then none
  else (bigInt outPoint.index).map fun index => lower outPoint.txHash ++ ":" ++ toString index

def markEntry (closed : Closed) (entry : OutPoint × ClosedStatus) : Closed :=
  (outPointKey entry.1).elim closed fun key =>
    if (closed key).isSome then closed else Function.update closed key (some entry.2)

def markClosed (entries : List (OutPoint × ClosedStatus)) (closed : Closed) : Closed :=
  entries.foldl markEntry closed

def closedStatus (closed : Closed) (outPoint : OutPoint) : Option ClosedStatus :=
  (outPointKey outPoint).bind closed

/-- The entries for both orders of a trade. -/
def filledEntries (trade : TradeDocument) : List (OutPoint × ClosedStatus) :=
  [(trade.buyOrderOutPoint, .filled), (trade.sellOrderOutPoint, .filled)]

def markTradesFilled (trades : List TradeDocument) (closed : Closed) : Closed :=
  markClosed (trades.flatMap filledEntries) closed

section
variable {closed : Closed} {entries : List (OutPoint × ClosedStatus)} {outPoint : OutPoint} {key : String}
  {status : ClosedStatus}

theorem closedStatus_of_key (h : outPointKey outPoint = some key) :
    closedStatus closed outPoint = closed key := by
  rw [closedStatus, h, Option.bind_some]

/-- The first message stands. -/
theorem markEntry_final {entry : OutPoint × ClosedStatus} (h : closed key = some status) :
    markEntry closed entry key = some status := by
  unfold markEntry
  cases outPointKey entry.1 with
  | none => exact h
  | some other =>
      simp only [Option.elim_some]
      split_ifs with hknown
      · exact h
      · have hne : key ≠ other := by
          rintro rfl
          rw [h] at hknown
          exact hknown rfl
        rw [Function.update_of_ne hne]
        exact h

theorem markClosed_final (h : closed key = some status) : markClosed entries closed key = some status := by
  induction entries generalizing closed with
  | nil => exact h
  | cons entry entries ih => exact ih (markEntry_final h)

theorem markEntry_self (h : outPointKey outPoint = some key) :
    (markEntry closed (outPoint, status) key).isSome := by
  rw [markEntry, h, Option.elim_some]
  split_ifs with hknown
  · exact hknown
  · rw [Function.update_self]
    rfl

/-- Every order that is recorded with a key is known to be closed. -/
theorem isSome_markClosed (hmem : (outPoint, status) ∈ entries) (h : outPointKey outPoint = some key) :
    (markClosed entries closed key).isSome := by
  induction entries generalizing closed with
  | nil => cases hmem
  | cons entry entries ih =>
      rcases List.mem_cons.mp hmem with rfl | hmem
      · obtain ⟨found, hfound⟩ := Option.isSome_iff_exists.mp (@markEntry_self closed _ _ status h)
        have hkept : markClosed entries (markEntry closed (outPoint, status)) key = some found :=
          markClosed_final hfound
        exact Option.isSome_iff_exists.mpr ⟨found, hkept⟩
      · exact ih hmem

end

/-- Nothing that was closed is open again, or closed in another way. -/
def Extends (closed later : Closed) : Prop :=
  ∀ key status, closed key = some status → later key = some status

section
variable {a b c : Closed} {key : String}

theorem Extends.refl (a : Closed) : Extends a a := fun _ _ h => h

theorem Extends.trans (hab : Extends a b) (hbc : Extends b c) : Extends a c :=
  fun key status h => hbc key status (hab key status h)

theorem Extends.isSome (h : Extends a b) (hkey : (a key).isSome) : (b key).isSome := by
  obtain ⟨status, hstatus⟩ := Option.isSome_iff_exists.mp hkey
  exact Option.isSome_iff_exists.mpr ⟨status, h key status hstatus⟩

theorem extends_markClosed (entries : List (OutPoint × ClosedStatus)) (a : Closed) :
    Extends a (markClosed entries a) := fun _ _ h => markClosed_final h

end

end CkbDex.ClosedOrders
