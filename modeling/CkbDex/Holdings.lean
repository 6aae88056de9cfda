import CkbDex.Ledgers
import CkbDex.ScriptIdentities
import CkbDex.SettlementSafety

/-!
# What a maker holds

Over a run of the ledger, whatever others do and in whatever order, the cells and
the open orders of a maker who signs nothing keep their worth together.
-/
namespace CkbDex.Holdings
open Bytes CellContext Ledgers OrderLock OrderLockRules ScriptIdentities

/-- The terms of a cell's order, if it is on a side and belongs to a maker. -/
def orderOf (identity : Identity) (side : Byte) (maker : Hash) (c : Cell) : Option OrderArgs :=
  if identityOf c.lock = identity then
    match parseOrderArgs c.lock.args with
    | .ok order => if order.side = side ∧ order.makerLockHash = maker then some order else none
    | .error _ => none
  else none

theorem orderOf_eq_some {identity : Identity} {side : Byte} {maker : Hash} {c : Cell} {order : OrderArgs} :
    orderOf identity side maker c = some order ↔ identityOf c.lock = identity ∧
      parseOrderArgs c.lock.args = .ok order ∧ order.side = side ∧ order.makerLockHash = maker := by
  unfold orderOf
  constructor
  · intro h
    split_ifs at h with hidentity
    split at h
    · rename_i other hparse
      split_ifs at h with hmine
      obtain rfl := Option.some_inj.mp h
      exact ⟨hidentity, hparse, hmine⟩
    · cases h
  · rintro ⟨hidentity, hparse, hmine⟩
    simp [hidentity, hparse, hmine]

/-- What a cell of a maker holds. -/
def held (maker : Hash) (type : Option Hash) (value : Cell → ℕ) (c : Cell) : ℕ :=
  if c.lockHash = maker ∧ c.typeHash = type then value c else 0

/-- What an order on a side promises its maker. -/
def promised (identity : Identity) (side : Byte) (maker : Hash) (due : Cell → OrderArgs → ℕ) (c : Cell) : ℕ :=
  (orderOf identity side maker c).elim 0 (due c)

/-- Tokens of a type: held, or to be received by a buy order. -/
def tokenStake (identity : Identity) (maker token : Hash) (c : Cell) : ℕ :=
  held maker (some token) heldAmount c +
    promised identity sideBuy maker (fun _ order =>
      if order.xudtTypeHash = token then order.tokenAmount.toNat else 0) c

/-- Plain CKB: held, or to be received for a sell order and its cell. -/
def paymentStake (identity : Identity) (maker : Hash) (c : Cell) : ℕ :=
  held maker none (fun c => c.capacity.toNat) c +
    promised identity sideSell maker (fun c order => c.capacity.toNat + order.price.toNat) c

/-- CKB in token cells: held, or left of a buy order after the price and the largest fee. -/
def changeStake (identity : Identity) (maker token : Hash) (c : Cell) : ℕ :=
  held maker (some token) (fun c => c.capacity.toNat) c +
    promised identity sideBuy maker (fun c order =>
      if order.xudtTypeHash = token then
        c.capacity.toNat - (order.price.toNat + maxSettlementFee.toNat)
      else 0) c

section
variable {identity : Identity} {side : Byte} {maker token : Hash} {type : Option Hash} {value : Cell → ℕ}
  {due : Cell → OrderArgs → ℕ} {tx : Tx}

theorem worth_held (cells : List Cell) : worth (held maker type value) ↑cells =
    ((cells.filter fun c => c.lockHash = maker ∧ c.typeHash = type).map value).sum := by
  rw [worth_coe]
  induction cells with
  | nil => rfl
  | cons c cells ih =>
      rw [List.map_cons, List.sum_cons, ih, held]
      by_cases hmine : c.lockHash = maker ∧ c.typeHash = type
      · simp [hmine]
      · simp [hmine]

theorem promised_eq_zero {c : Cell} (h : orderOf identity side maker c = none) :
    promised identity side maker due c = 0 := by
  rw [promised, h]
  rfl

theorem promised_of_order {c : Cell} {order : OrderArgs} (h : orderOf identity side maker c = some order) :
    promised identity side maker due c = due c order := by
  rw [promised, h]
  rfl

/-- An order promises nothing on the other side. -/
theorem promised_other_side {c : Cell} {order : OrderArgs} (hparse : parseOrderArgs c.lock.args = .ok order)
    (hside : order.side ≠ side) : promised identity side maker due c = 0 := by
  apply promised_eq_zero
  by_contra hsome
  obtain ⟨other, hother⟩ := Option.ne_none_iff_exists'.mp hsome
  obtain ⟨-, hsame, hon, -⟩ := orderOf_eq_some.mp hother
  rw [hparse] at hsame
  obtain rfl := Except.ok.inj hsame
  exact hside hon

/-- Accepted inputs promise a maker one order's due at most. -/
theorem worth_promised (haccepted : Accepted [identity] tx)
    (hunsigned : ∀ c ∈ tx.inputs, c.lockHash ≠ maker) :
    worth (promised identity side maker due) ↑tx.inputs = 0 ∨
      ∃ c order, (c, order) ∈ settledOrders [identity] tx.inputs side maker ∧
        worth (promised identity side maker due) ↑tx.inputs = due c order := by
  by_cases hnone : ∀ c ∈ tx.inputs, orderOf identity side maker c = none
  · left
    rw [worth_coe, List.sum_eq_zero]
    intro x hx
    obtain ⟨c, hc, rfl⟩ := List.mem_map.mp hx
    exact promised_eq_zero (hnone c hc)
  · right
    push Not at hnone
    obtain ⟨c, hc, hsome⟩ := hnone
    obtain ⟨order, horder⟩ := Option.ne_none_iff_exists'.mp hsome
    obtain ⟨hidentity, hparse, hside, hmaker⟩ := orderOf_eq_some.mp horder
    have hsettled : (c, order) ∈ settledOrders [identity] tx.inputs side maker :=
      mem_settledOrders.mpr ⟨mem_orderCells.mpr ⟨hc, by simp [hidentity]⟩, hparse, hside, hmaker, hunsigned⟩
    refine ⟨c, order, hsettled, ?_⟩
    obtain ⟨buy, sell, b, s, hpair⟩ := (haccepted.settles hsettled).pair
    have hdex : worth (promised identity side maker due) ↑tx.inputs =
        worth (promised identity side maker due) ↑(dexInputs tx c.lock) := by
      have hsplit := SettlementSafety.sum_filter_add_not (fun d => sameIdentity c.lock d.lock)
        (promised identity side maker due) tx.inputs
      have hothers : ((tx.inputs.filter fun d => !sameIdentity c.lock d.lock).map
          (promised identity side maker due)).sum = 0 := by
        apply List.sum_eq_zero
        intro x hx
        obtain ⟨d, hd, rfl⟩ := List.mem_map.mp hx
        apply promised_eq_zero
        rw [orderOf, if_neg]
        intro hsame
        have hother := (List.mem_filter.mp hd).2
        rw [← hidentity] at hsame
        simp only [identityOf, Prod.mk.injEq] at hsame
        simp [sameIdentity, hsame] at hother
      rw [worth_coe, worth_coe, dexInputs]
      omega
    have hbuy := parseOrderArgs_eq_ok.mpr ⟨hpair.buy_formed, hpair.buy_terms⟩
    have hsell := parseOrderArgs_eq_ok.mpr ⟨hpair.sell_formed, hpair.sell_terms⟩
    have hsides : b.side ≠ s.side := by
      rw [hpair.buy_side, hpair.sell_side]
      decide
    -- of the two orders of the pair only this one is on the side
    have hpromised : worth (promised identity side maker due) ↑(dexInputs tx c.lock) =
        promised identity side maker due buy + promised identity side maker due sell := by
      rw [worth_coe]
      rcases hpair.inputs with hin | hin <;> rw [hin] <;> simp [Nat.add_comm]
    have hself : c ∈ dexInputs tx c.lock := mem_dexInputs_self hc
    rw [hdex, hpromised]
    have hcase : c = buy ∨ c = sell := by
      rcases hpair.inputs with hin | hin <;> rw [hin] at hself <;> simp at hself <;> tauto
    rcases hcase with rfl | rfl
    · obtain rfl := Except.ok.inj (hbuy.symm.trans hparse)
      rw [promised_of_order horder, promised_other_side hsell (by rwa [← hside, ne_comm]), Nat.add_zero]
    · obtain rfl := Except.ok.inj (hsell.symm.trans hparse)
      rw [promised_of_order horder, promised_other_side hbuy (by rwa [← hside]), Nat.zero_add]

/-- A transaction that pays each of a maker's orders what it promises leaves the
maker with as much as before. -/
theorem worth_le_of_paid (haccepted : Accepted [identity] tx)
    (hunsigned : ∀ c ∈ tx.inputs, c.lockHash ≠ maker)
    (hpaid : ∀ c order, (c, order) ∈ settledOrders [identity] tx.inputs side maker → due c order ≤
      ((tx.outputs.filter fun c => c.lockHash = maker ∧ c.typeHash = type).map value).sum) :
    worth (fun c => held maker type value c + promised identity side maker due c) ↑tx.inputs ≤
      worth (fun c => held maker type value c + promised identity side maker due c) ↑tx.outputs := by
  have hsum : ∀ cells : List Cell,
      worth (fun c => held maker type value c + promised identity side maker due c)
      ↑cells = worth (held maker type value) ↑cells + worth (promised identity side maker due) ↑cells := by
    intro cells
    simp [List.sum_map_add]
  have hnothing : worth (held maker type value) ↑tx.inputs = 0 := by
    rw [worth_coe]
    apply List.sum_eq_zero
    intro x hx
    obtain ⟨c, hc, rfl⟩ := List.mem_map.mp hx
    exact if_neg fun hmine => hunsigned c hc hmine.1
  have hpromised : worth (promised identity side maker due) ↑tx.inputs ≤
      worth (held maker type value) ↑tx.outputs := by
    rw [worth_held]
    have hcases : worth (promised identity side maker due) ↑tx.inputs = 0 ∨
        ∃ c order, (c, order) ∈ settledOrders [identity] tx.inputs side maker ∧
          worth (promised identity side maker due) ↑tx.inputs = due c order :=
      worth_promised haccepted hunsigned
    rcases hcases with hnone | ⟨c, order, hsettled, hdue⟩
    · rw [hnone]
      exact Nat.zero_le _
    · rw [hdue]
      exact hpaid c order hsettled
  rw [hsum, hsum, hnothing]
  omega

theorem tokenStake_le (haccepted : Accepted [identity] tx) (hunsigned : ∀ c ∈ tx.inputs, c.lockHash ≠ maker) :
    worth (tokenStake identity maker token) ↑tx.inputs ≤ worth (tokenStake identity maker token)
        ↑tx.outputs := by
  apply worth_le_of_paid haccepted hunsigned
  intro c order hsettled
  have hreceived := (haccepted.buySide hsettled).received
  rw [(mem_settledOrders.mp hsettled).2.2.2.1] at hreceived
  split_ifs with htoken
  · rw [htoken] at hreceived
    exact hreceived.ge
  · exact Nat.zero_le _

theorem paymentStake_le (haccepted : Accepted [identity] tx)
    (hunsigned : ∀ c ∈ tx.inputs, c.lockHash ≠ maker) :
    worth (paymentStake identity maker) ↑tx.inputs ≤ worth (paymentStake identity maker) ↑tx.outputs := by
  apply worth_le_of_paid haccepted hunsigned
  intro c order hsettled
  have hpaid := (haccepted.sellSide hsettled).paid
  rwa [(mem_settledOrders.mp hsettled).2.2.2.1] at hpaid

theorem changeStake_le (haccepted : Accepted [identity] tx)
    (hunsigned : ∀ c ∈ tx.inputs, c.lockHash ≠ maker) :
    worth (changeStake identity maker token) ↑tx.inputs ≤ worth (changeStake identity maker token)
        ↑tx.outputs := by
  apply worth_le_of_paid haccepted hunsigned
  intro c order hsettled
  have hreturned := (haccepted.buySide hsettled).returned
  rw [(mem_settledOrders.mp hsettled).2.2.2.1] at hreturned
  split_ifs with htoken
  · rw [htoken] at hreturned
    have hfee : maxSettlementFee.toNat = 10000 := rfl
    rw [hfee]
    change _ ≤ totalCapacity (tokenOutputs tx maker token)
    omega
  · exact Nat.zero_le _

end

/-- The outputs of a transaction pay for an order of a maker. -/
def PaysFor (tx : Tx) (c : Cell) (order : OrderArgs) : Prop :=
  (order.side = sideBuy → BuySide tx c order) ∧ (order.side = sideSell → SellSide tx c order)

/-- **In a run that a maker signs nothing of, what it holds and its open orders promise
never gets less, each of its orders that a transaction spends is paid for by that
transaction, and an order that is gone was spent by one of them.** -/
theorem unsigned_maker_whole {identity : Identity} {maker : Hash} {live after : Multiset Cell} {txs : List Tx}
    (hrun : Run Tx.inputs Tx.outputs (Accepted [identity]) live txs after)
    (hunsigned : ∀ tx ∈ txs, ∀ c ∈ tx.inputs, c.lockHash ≠ maker) :
    (∀ token, worth (tokenStake identity maker token) live ≤ worth (tokenStake identity maker token) after ∧
      worth (changeStake identity maker token) live ≤ worth (changeStake identity maker token) after) ∧
    worth (paymentStake identity maker) live ≤ worth (paymentStake identity maker) after ∧
    (∀ tx ∈ txs, ∀ c ∈ tx.inputs, ∀ side order, orderOf identity side maker c = some order →
      PaysFor tx c order) ∧
    ∀ c ∈ live, c ∉ after → ∃ tx ∈ txs, c ∈ tx.inputs := by
  have haccepted := hrun.all_valid
  refine ⟨fun token => ⟨?_, ?_⟩, ?_, ?_, fun c hlive hgone => hrun.spent hlive hgone⟩
  · exact hrun.worth_le fun tx htx => tokenStake_le (haccepted tx htx) (hunsigned tx htx)
  · exact hrun.worth_le fun tx htx => changeStake_le (haccepted tx htx) (hunsigned tx htx)
  · exact hrun.worth_le fun tx htx => paymentStake_le (haccepted tx htx) (hunsigned tx htx)
  · intro tx htx c hspent side order horder
    obtain ⟨hidentity, hparse, hside, hmaker⟩ := orderOf_eq_some.mp horder
    have hsettles := (haccepted tx htx).settles (mem_settledOrders.mpr
      ⟨mem_orderCells.mpr ⟨hspent, by simp [hidentity]⟩, hparse, hside, hmaker, hunsigned tx htx⟩)
    exact ⟨hsettles.buy_side, hsettles.sell_side⟩

/-- The buyer of a settlement. -/
theorem unsigned_maker_whole_example :
    worth (tokenStake (identityOf exampleBuy.lock) (exampleHash 1) (exampleHash 9))
        ↑exampleSettlement.inputs ≤
      worth (tokenStake (identityOf exampleBuy.lock) (exampleHash 1) (exampleHash 9))
          ↑exampleSettlement.outputs ∧
    ∀ order, orderOf (identityOf exampleBuy.lock) sideBuy (exampleHash 1) exampleBuy = some order →
      PaysFor exampleSettlement exampleBuy order := by
  have haccepted : Accepted [identityOf exampleBuy.lock] exampleSettlement := by
    unfold Accepted
    decide
  have hrun : Run Tx.inputs Tx.outputs (Accepted [identityOf exampleBuy.lock]) ↑exampleSettlement.inputs
      [exampleSettlement] ↑exampleSettlement.outputs := by
    have hone : Run Tx.inputs Tx.outputs (Accepted [identityOf exampleBuy.lock])
        (↑exampleSettlement.inputs + 0) [exampleSettlement] (↑exampleSettlement.outputs + 0) :=
      .cons haccepted .nil
    rwa [add_zero, add_zero] at hone
  have hunsigned : ∀ tx ∈ [exampleSettlement], ∀ c ∈ tx.inputs, c.lockHash ≠ exampleHash 1 := by
    decide
  obtain ⟨hstakes, -, hpaid, -⟩ := unsigned_maker_whole hrun hunsigned
  refine ⟨(hstakes (exampleHash 9)).1, fun order horder => ?_⟩
  exact hpaid exampleSettlement (List.mem_singleton_self _) exampleBuy (by decide) sideBuy order horder

end CkbDex.Holdings
