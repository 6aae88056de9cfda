import CkbDex.ChainCells
import CkbDex.SettlementSafety

/-!
# The settlement that the bot builds

`allocateSettlementCapacity` and the first half of `executeTrade`: the checks
on the two documents and the transaction built from them. The client library
is a parameter: the hash of a script, the capacity it fills in for an output
left without one, and its fee estimate.
-/
namespace CkbDex.SettlementBuilder
open Bytes Checked CellContext OrderLock OrderLockRules Text Documents ChainCells

/-- `MAX_SETTLEMENT_FEE` of the shared module. -/
def maxSettlementFeeShannons : ℤ := 10000

structure Allocation where
  tokenCapacity : ℤ
  fee : ℤ
  deriving DecidableEq

def allocateSettlementCapacity (buyCapacity price minimumTokenCapacity fee : ℤ) :
    Except Failure (Option Allocation) := do
  throwIf (fee > maxSettlementFeeShannons)
    (.other s!"Settlement fee exceeds the {maxSettlementFeeShannons}-shannon contract cap")
  let tokenCapacity := buyCapacity - price - fee
  if tokenCapacity < minimumTokenCapacity then return none
  else return some { tokenCapacity, fee }

/-- The parts of the client library that a settlement is built with. -/
structure Client where
  hash : Script → Hash
  /-- Capacity that an output of this lock, type and data occupies. -/
  occupied : Script → Option Script → List Byte → ℕ
  /-- Fee of a transaction with these inputs and outputs. -/
  estimateFee : List OutPoint → List CellOutput → ℕ

structure Settlement where
  inputs : List OutPoint
  outputs : List CellOutput
  fee : ℤ

def toBigInt (s : String) : Except Failure ℤ :=
  okOr (bigInt s) (.other s!"Cannot convert {s} to a BigInt")

/-- `ccc.Transaction.from`: an output of no capacity gets what it occupies. -/
def outputFrom (ccc : Client) (capacity : ℤ) (lock : Script) (type : Option Script)
    (data : List Byte) : CellOutput where
  capacity := if capacity = 0 then ccc.occupied lock type data else capacity.toNat
  lock := lock
  type := type
  data := data

/-- `executeTrade` up to the reservation of the two orders. -/
def buildSettlement (ccc : Client) (supportedAssetHashes : List Hex)
    (buyOrder sellOrder : OrderDocument) : Except Failure Settlement := do
  throwIf (buyOrder.xudtTypeHash ∉ supportedAssetHashes)
    (appError 400 "Token type is not listed in the deployment manifest")
  throwIf (buyOrder.direction ≠ .bid ∨ sellOrder.direction ≠ .ask)
    (appError 400 "executeTrade requires a BID (buy) order and an ASK (sell) order")
  throwIf (buyOrder.xudtTypeHash ≠ sellOrder.xudtTypeHash ∨
      buyOrder.remainingAmount ≠ sellOrder.remainingAmount ∨
      buyOrder.pricePerToken ≠ sellOrder.pricePerToken)
    (appError 400 "buy and sell orders do not share the same token, amount and price")
  let sellCapacity ← toBigInt sellOrder.capacity
  let price ← toBigInt sellOrder.pricePerToken
  let sellerLock ← okOr (scriptFrom sellOrder.ownerLock) (.other "invalid seller lock")
  let buyerLock ← okOr (scriptFrom buyOrder.ownerLock) (.other "invalid buyer lock")
  let tokenType ← okOr (optionFrom scriptFrom sellOrder.typeScript) (.other "invalid type script")
  let tokenData ← okOr (bytesFrom sellOrder.cellData) (.other "invalid cell data")
  let sellerOutput := outputFrom ccc (sellCapacity + price) sellerLock none []
  let buyerOutput := outputFrom ccc 0 buyerLock tokenType tokenData
  let inputs := [buyOrder.outPoint, sellOrder.outPoint]
  let buyCapacity ← toBigInt buyOrder.capacity
  let allocation ← allocateSettlementCapacity buyCapacity price buyerOutput.capacity
    (ccc.estimateFee inputs [sellerOutput, buyerOutput])
  let id := buyOrder.id
  let allocated ← okOr allocation (.app 409
    s!"buy order {id} does not carry enough capacity to cover price + its token cell + the network fee"
    (some "INSUFFICIENT_BUY_CAPACITY"))
  return {
    inputs
    outputs := [sellerOutput, { buyerOutput with capacity := allocated.tokenCapacity.toNat }]
    fee := allocated.fee }

theorem allocateSettlementCapacity_eq_ok {buyCapacity price minimum fee : ℤ} {a : Allocation} :
    allocateSettlementCapacity buyCapacity price minimum fee = .ok (some a) ↔
      fee ≤ 10000 ∧ minimum ≤ buyCapacity - price - fee ∧ a = ⟨buyCapacity - price - fee, fee⟩ := by
  simp only [allocateSettlementCapacity, bind_eq_ok, throwIf_eq_ok, exists_const, gt_iff_lt,
    not_lt, maxSettlementFeeShannons]
  refine and_congr_right fun _ => ?_
  split_ifs with h
  · constructor
    · intro h'
      cases h'
    · rintro ⟨hle, -⟩
      exact (not_lt.mpr hle h).elim
  · constructor
    · intro h'
      exact ⟨not_lt.mp h, (Option.some_inj.mp (Except.ok.inj h')).symm⟩
    · rintro ⟨-, rfl⟩
      rfl

/-- What a built settlement consists of, in terms of what the documents
denote. -/
structure Built (ccc : Client) (buyOrder sellOrder : OrderDocument) (settlement : Settlement) :
    Prop where
  buy_direction : buyOrder.direction = .bid
  sell_direction : sellOrder.direction = .ask
  token : buyOrder.xudtTypeHash = sellOrder.xudtTypeHash
  amount : buyOrder.remainingAmount = sellOrder.remainingAmount
  price : buyOrder.pricePerToken = sellOrder.pricePerToken
  fee_le : settlement.fee ≤ 10000
  fee_nonneg : 0 ≤ settlement.fee
  inputs : settlement.inputs = [buyOrder.outPoint, sellOrder.outPoint]
  outputs : ∃ sellCapacity price buyCapacity sellerLock buyerLock tokenType tokenData,
    bigInt sellOrder.capacity = some sellCapacity ∧ bigInt sellOrder.pricePerToken = some price ∧
    bigInt buyOrder.capacity = some buyCapacity ∧ scriptFrom sellOrder.ownerLock = some sellerLock ∧
    scriptFrom buyOrder.ownerLock = some buyerLock ∧
    optionFrom scriptFrom sellOrder.typeScript = some tokenType ∧
    bytesFrom sellOrder.cellData = some tokenData ∧
    0 ≤ buyCapacity - price - settlement.fee ∧
    settlement.outputs = [outputFrom ccc (sellCapacity + price) sellerLock none [],
      ⟨(buyCapacity - price - settlement.fee).toNat, buyerLock, tokenType, tokenData⟩]

theorem built_of_buildSettlement {ccc : Client} {supported : List Hex}
    {buyOrder sellOrder : OrderDocument} {settlement : Settlement}
    (h : buildSettlement ccc supported buyOrder sellOrder = .ok settlement) :
    Built ccc buyOrder sellOrder settlement := by
  simp only [buildSettlement, toBigInt, bind_eq_ok, okOr_eq_ok, throwIf_eq_ok] at h
  simp only [exists_const, not_or, not_not] at h
  obtain ⟨-, ⟨hbid, hask⟩, ⟨ht, ha, hp⟩, sellCapacity, hsc, price, hpr, sellerLock, hsl,
    buyerLock, hbl, tokenType, htt, tokenData, htd, buyCapacity, hbc, allocation, hal,
    allocated, rfl, hret⟩ := h
  obtain ⟨hfee, hmin, rfl⟩ := allocateSettlementCapacity_eq_ok.mp hal
  obtain rfl := Except.ok.inj hret
  refine ⟨hbid, hask, ht, ha, hp, hfee, Int.natCast_nonneg _, rfl, sellCapacity, price, buyCapacity,
    sellerLock, buyerLock, tokenType, tokenData, hsc, hpr, hbc, hsl, hbl, htt, htd, ?_, rfl⟩
  exact le_trans (Int.natCast_nonneg _) hmin

def exampleOwner (b : Byte) : Script := ⟨exampleHash 8, .type, [b]⟩
def exampleTokenType : Script := ⟨exampleHash 6, .type, []⟩

/-- A hash that tells the scripts of the example apart. -/
def exampleScriptHash (script : Script) : Hash :=
  if script = exampleOwner 1 then exampleHash 1
  else if script = exampleOwner 2 then exampleHash 2
  else if script = exampleTokenType then exampleHash 9
  else exampleHash (32 + script.args.getD 1 0)

def exampleClient : Client where
  hash := exampleScriptHash
  occupied := fun lock type data =>
    (41 + lock.args.length + (type.elim 0 fun t => 33 + t.args.length) + data.length) * 10 ^ 8
  estimateFee := fun inputs outputs => 200 + 50 * inputs.length + 100 * outputs.length

def exampleDex : Script := ⟨exampleHash 7, .type, []⟩

def exampleBuyCell : CellOutput where
  capacity := 20000000000
  lock := { exampleDex with args := orderArgs (exampleOrder sideBuy (exampleHash 1)) }
  type := none
  data := []

/-- A sell cell whose data is longer than the amount it starts with. -/
def exampleSellCell : CellOutput where
  capacity := 30000000000
  lock := { exampleDex with args := orderArgs (exampleOrder sideSell (exampleHash 2)) }
  type := some exampleTokenType
  data := toLe 16 100 ++ [1, 2, 3]

def exampleDocument (index : String) (cell : CellOutput) (owner : Script) (order : OrderArgs) :
    OrderDocument :=
  indexedDocument ⟨hashText (exampleHash 5), index⟩ cell owner order "ckt1" 7
    (hashText (exampleHash 4)) 0 "order-confirmed"

end CkbDex.SettlementBuilder
