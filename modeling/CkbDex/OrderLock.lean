import CkbDex.CellContext

/-!
# The DEX order lock

The contract of `dex-order-lock`: its 90-byte order args, the checks of a sell
and of a buy order in a settlement, the check of a cancellation, and the entry
point that chooses between them. Each function keeps the source's order of
tests and its error codes.
-/
namespace CkbDex.OrderLock
open Checked Bytes CellContext

def orderArgsLen : ℕ := 90
def orderVersion : Byte := 1
def sideBuy : Byte := 0
def sideSell : Byte := 1
/-- Maximum CKB the buyer may lose beyond the agreed price: 0.0001 CKB. -/
def maxSettlementFee : BitVec 64 := 10000

inductive ErrorCode where
  | loadScript | argsLength | makerHash | price | loadCapacity | capacityOverflow
  | outputCapacityOverflow | loadOutputCapacity | sellerUnderpaid | dexInputCount
  | loadTypeHash | loadOutputTypeHash | version | side | xudtTypeHash | tokenAmount
  | orderPair | sellAsset | loadData | buyerTokenAmount | tokenAmountOverflow
  | buyerTokenCapacityOverflow | buyOrderCapacity | buyOrderType | buyerCapacityRefund
  | cancellationRefund
  deriving DecidableEq, Repr

def ErrorCode.code : ErrorCode → ℤ
  | loadScript => -1
  | argsLength => -2
  | makerHash => -3
  | price => -4
  | loadCapacity => -5
  | capacityOverflow => -6
  | outputCapacityOverflow => -7
  | loadOutputCapacity => -8
  | sellerUnderpaid => -9
  | dexInputCount => -10
  | loadTypeHash => -12
  | loadOutputTypeHash => -13
  | version => -14
  | side => -15
  | xudtTypeHash => -16
  | tokenAmount => -17
  | orderPair => -18
  | sellAsset => -19
  | loadData => -20
  | buyerTokenAmount => -21
  | tokenAmountOverflow => -22
  | buyerTokenCapacityOverflow => -23
  | buyOrderCapacity => -24
  | buyOrderType => -25
  | buyerCapacityRefund => -26
  | cancellationRefund => -27

structure OrderArgs where
  side : Byte
  makerLockHash : Hash
  xudtTypeHash : Hash
  tokenAmount : BitVec 128
  price : BitVec 64
  deriving DecidableEq

/-- `args[start..stop].try_into().map_err(..)`. -/
def field (args : List Byte) (start stop n : ℕ) (e : ErrorCode) :
    Except ErrorCode (FixedBytes n) :=
  okOr (tryInto n (slice args start stop)) e

def parseOrderArgs (args : List Byte) : Except ErrorCode OrderArgs := do
  throwIf (args.length ≠ orderArgsLen) .argsLength
  throwIf (args.getD 0 0 ≠ orderVersion) .version
  let side := args.getD 1 0
  throwIf (side ≠ sideBuy ∧ side ≠ sideSell) .side
  let makerLockHash ← field args 2 34 32 .makerHash
  let xudtTypeHash ← field args 34 66 32 .xudtTypeHash
  let tokenBytes ← field args 66 82 16 .tokenAmount
  let priceBytes ← field args 82 90 8 .price
  return {
    side, makerLockHash, xudtTypeHash
    tokenAmount := wordOfLe 128 tokenBytes.toList
    price := wordOfLe 64 priceBytes.toList }

section
variable (ctx : Context)

def loadTokenAmount (index : ℕ) (source : Source) : Except ErrorCode (BitVec 128) := do
  let data ← (ctx.loadCellData index source).mapError fun _ => .loadData
  throwIf (data.length < 16) .tokenAmount
  let amountBytes ← field data 0 16 16 .tokenAmount
  return wordOfLe 128 amountBytes.toList

/-- One output in the loop of `validate_sell_order`. -/
def addSellerOutput (order : OrderArgs) (sellerOutputCapacity : BitVec 64)
    (output : Hash × ℕ) : Except ErrorCode (BitVec 64) :=
  if output.1 ≠ order.makerLockHash then .ok sellerOutputCapacity else
    match ctx.loadCellTypeHash output.2 .output with
    | .ok none => do
        let capacity ← (ctx.loadCellCapacity output.2 .output).mapError fun _ =>
          .loadOutputCapacity
        okOr (checkedAdd sellerOutputCapacity capacity) .outputCapacityOverflow
    | .ok (some _) => .ok sellerOutputCapacity
    | .error _ => .error .loadOutputTypeHash

def validateSellOrder (index : ℕ) (order : OrderArgs) : Except ErrorCode Unit := do
  let typeHash ← (ctx.loadCellTypeHash index .input).mapError fun _ => .loadTypeHash
  throwIf (typeHash ≠ some order.xudtTypeHash) .sellAsset
  let held ← loadTokenAmount ctx index .input
  throwIf (held ≠ order.tokenAmount) .sellAsset
  let orderCapacity ← (ctx.loadCellCapacity index .input).mapError fun _ => .loadCapacity
  let requiredSellerCapacity ← okOr (checkedAdd orderCapacity order.price) .capacityOverflow
  let sellerOutputCapacity ← (ctx.queryIter Cell.lockHash .output).zipIdx.foldlM
    (addSellerOutput ctx order) 0
  throwIf (sellerOutputCapacity < requiredSellerCapacity) .sellerUnderpaid

/-- One output in the loop of `validate_buy_order`. -/
def addBuyerOutput (order : OrderArgs) (total : BitVec 128 × BitVec 64)
    (output : Hash × ℕ) : Except ErrorCode (BitVec 128 × BitVec 64) :=
  if output.1 ≠ order.makerLockHash then .ok total else
    match ctx.loadCellTypeHash output.2 .output with
    | .ok typeHash =>
        if typeHash = some order.xudtTypeHash then do
          let amount ← loadTokenAmount ctx output.2 .output
          let buyerTokenAmount ← okOr (checkedAdd total.1 amount) .tokenAmountOverflow
          let capacity ← (ctx.loadCellCapacity output.2 .output).mapError fun _ =>
            .loadOutputCapacity
          let buyerTokenCapacity ← okOr (checkedAdd total.2 capacity)
            .buyerTokenCapacityOverflow
          return (buyerTokenAmount, buyerTokenCapacity)
        else .ok total
    | .error _ => .error .loadOutputTypeHash

def validateBuyOrder (index : ℕ) (order : OrderArgs) : Except ErrorCode Unit := do
  let typeHash ← (ctx.loadCellTypeHash index .input).mapError fun _ => .loadTypeHash
  throwIf (typeHash ≠ none) .buyOrderType
  let buyOrderCapacity ← (ctx.loadCellCapacity index .input).mapError fun _ => .loadCapacity
  let total ← (ctx.queryIter Cell.lockHash .output).zipIdx.foldlM
    (addBuyerOutput ctx order) (0, 0)
  throwIf (total.1 ≠ order.tokenAmount) .buyerTokenAmount
  let requiredBuyCapacity ← okOr (checkedAdd order.price total.2) .capacityOverflow
  let unreturnedCapacity ← okOr (checkedSub buyOrderCapacity requiredBuyCapacity)
    .buyOrderCapacity
  throwIf (unreturnedCapacity > maxSettlementFee) .buyerCapacityRefund

/-- The loop of `validate_cancellation`: the first output that refunds the
whole order cell ends it. -/
def findRefund (order : OrderArgs) (capacity : BitVec 64) (typeHash : Option Hash)
    (data : List Byte) : List (Hash × ℕ) → Except ErrorCode Unit
  | [] => .error .cancellationRefund
  | output :: outputs => do
      if output.1 ≠ order.makerLockHash then
        findRefund order capacity typeHash data outputs
      else
      let outputType ← (ctx.loadCellTypeHash output.2 .output).mapError fun _ =>
        .loadOutputTypeHash
      if outputType ≠ typeHash then findRefund order capacity typeHash data outputs else
      let outputData ← (ctx.loadCellData output.2 .output).mapError fun _ => .loadData
      if outputData ≠ data then findRefund order capacity typeHash data outputs else
      let outputCapacity ← (ctx.loadCellCapacity output.2 .output).mapError fun _ =>
        .loadOutputCapacity
      if outputCapacity ≥ capacity then .ok () else
        findRefund order capacity typeHash data outputs

def validateCancellation (order : OrderArgs) : Except ErrorCode Unit := do
  let capacity ← (ctx.loadCellCapacity 0 .groupInput).mapError fun _ => .loadCapacity
  let typeHash ← (ctx.loadCellTypeHash 0 .groupInput).mapError fun _ => .loadTypeHash
  let data ← (ctx.loadCellData 0 .groupInput).mapError fun _ => .loadData
  findRefund ctx order capacity typeHash data (ctx.queryIter Cell.lockHash .output).zipIdx

end

/-- The code hash and the hash type of a lock, which together select the
inputs that the contract counts as DEX orders. -/
def sameIdentity (script inputLock : Script) : Bool :=
  inputLock.codeHash = script.codeHash && inputLock.hashType = script.hashType

structure Slots where
  buyOrder : Option (ℕ × OrderArgs) := none
  sellOrder : Option (ℕ × OrderArgs) := none

/-- One input in the loop that collects the buy and the sell order. -/
def collectOrder (script : Script) (slots : Slots) (input : Script × ℕ) :
    Except ErrorCode Slots :=
  if !sameIdentity script input.1 then .ok slots else do
    let order ← parseOrderArgs input.1.args
    if order.side = sideBuy ∧ slots.buyOrder.isNone then
      return { slots with buyOrder := some (input.2, order) }
    else if order.side = sideSell ∧ slots.sellOrder.isNone then
      return { slots with sellOrder := some (input.2, order) }
    else throw .orderPair

/-- The exit code of the entry point. -/
def exitCode : Except ErrorCode Unit → ℤ
  | .ok () => 0
  | .error e => e.code

/-- The settlement branch of the entry point. -/
def validateSettlement (ctx : Context) (script : Script) (ownOrder : OrderArgs) :
    Except ErrorCode Unit := do
  let slots ← (ctx.queryIter Cell.lock .input).zipIdx.foldlM (collectOrder script) {}
  let (buyIndex, buy) ← okOr slots.buyOrder .orderPair
  let (sellIndex, sell) ← okOr slots.sellOrder .orderPair
  throwIf (buy.xudtTypeHash ≠ sell.xudtTypeHash ∨ buy.tokenAmount ≠ sell.tokenAmount ∨
    buy.price ≠ sell.price) .orderPair
  if ownOrder.side = sideBuy then validateBuyOrder ctx buyIndex buy
  else if ownOrder.side = sideSell then validateSellOrder ctx sellIndex sell
  else throw .side

def programEntry (ctx : Context) : ℤ := exitCode <| do
  let script ← ctx.loadScript.mapError fun _ => .loadScript
  let ownOrder ← parseOrderArgs script.args
  let dexInputCount := ((ctx.queryIter Cell.lock .input).filter (sameIdentity script)).length
  let makerInputExists := (ctx.queryIter Cell.lockHash .input).any
    (fun lockHash => lockHash = ownOrder.makerLockHash)
  if makerInputExists then
    throwIf (dexInputCount ≠ 1) .dexInputCount
    validateCancellation ctx ownOrder
  else
    throwIf (dexInputCount ≠ 2) .dexInputCount
    validateSettlement ctx script ownOrder

end CkbDex.OrderLock
