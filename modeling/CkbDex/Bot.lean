import CkbDex.EventVerification
import Mathlib.Data.List.Infix

/-!
# The bot

The steps of one poll cycle: reorg detection, the scan for new order cells,
the reconciliation of spent orders, the retry of in-flight settlements, and
the execution of matched pairs. Which pairs are matched is left open here: it
decides what is attempted, not what an attempt does.
-/
namespace CkbDex.Bot
open Checked Bytes CellContext Text Documents BotEvents ChainCells Projection Programs
open Operations EventVerification
open SettlementBuilder (Client Settlement buildSettlement toBigInt)

def checkpointRetention : ℤ := 500
def checkpointWindow : ℕ := 50
def maxMatchesPerTick : ℕ := 10
/-- `RESERVATION_TTL_MS` -/
def reservationTtl : ℕ := 5 * 60 * 1000

/-- The configuration of the bot, and the client library it is built with. -/
structure Config where
  verification : ChainVerification
  client : Client
  /-- `ccc.Address.fromScript(..).toString()`, which may refuse a script. -/
  address : Script → Except Failure String
  /-- `Transaction.hash` of a settlement. -/
  settlementHash : Settlement → Hash

/-- Runs an action on each element in turn. -/
def forEach {α : Type} (f : α → Proc Unit) : List α → Proc Unit
  | [] => return ()
  | a :: as => do
      f a
      forEach f as

/-- What a template string shows of a hash that may be missing. -/
def blockHashText : Option Hash → String
  | some hash => hashText hash
  | none => "undefined"

/-- Ingests an event; "not buried deep enough yet" is retried on a later tick. -/
def emit (v : ChainVerification) (event : BotEvent) : Proc Bool :=
  tryCatch
    (do
      let _ ← ingest v event
      return true)
    fun error => match error with
      | .app 409 _ _ => return false
      | _ => throw error

/-- The first input whose cell's lock hashes to `lockHash`. -/
def findInputWithLockHash (hash : Script → Hash) (lockHash : Hex) : List CellRef → Proc (Option Script)
  | [] => return none
  | input :: inputs => do
      let prevCell : Option CellOutput ← request (.getCell input)
      match prevCell.filter fun cell => hashText (hash cell.lock) = lockHash with
      | some cell => return some cell.lock
      | none => findInputWithLockHash hash lockHash inputs

def deserializeLockScriptAndArgs (v : ChainVerification) (lock : Script) :
    Except Failure DecodedDexOrderArgs := do
  throwIf (hashText lock.codeHash ≠ v.dexLock.codeHash ∨
      hashTypeText lock.hashType ≠ v.dexLock.hashType)
    (appError 400 "script is not the configured DEX order lock script")
  decodeDexOrderArgs (toHex lock.args)

def decodeUdtAmount (data : List Byte) : Option ℕ :=
  if data.length < 16 then none else some (ofLe (slice data 0 16))

/-- Whether the cell of a decoded order holds what it declares. -/
def holdsDeclared (v : ChainVerification) (cell : CellOutput) (decoded : DecodedDexOrderArgs) : Bool :=
  if decoded.direction = .ask then
    cell.type.any (fun type => hashText (v.hash type) = decoded.udtTypeHash) &&
      decodeUdtAmount cell.data = some decoded.tokenAmount
  else cell.type = none && decoded.pricePerToken < cell.capacity

/-- The terms of a cell that the scan does not skip. -/
def admitted (v : ChainVerification) (cell : CellOutput) : Option DecodedDexOrderArgs :=
  match deserializeLockScriptAndArgs v cell.lock with
  | .error _ => none
  | .ok decoded =>
      if decoded.udtTypeHash ∈ v.supportedAssetHashes ∧ holdsDeclared v cell decoded then some decoded
      else none

def orderConfirmedEvent (ownerAddress : String) (cell : IndexedCell)
    (decoded : DecodedDexOrderArgs) (ownerLock : Script) (creatingTx : TxResponse)
    (blockNumber : ℕ) : OrderConfirmedEvent where
  eventId := "order-confirmed:" ++ toOrderId (outPointText cell.outPoint) ++ ":" ++
    blockHashText creatingTx.blockHash
  blockNumber := some (toString blockNumber)
  blockHash := creatingTx.blockHash.map hashText
  outPoint := outPointText cell.outPoint
  order := {
    lockScript := scriptText cell.cell.lock
    typeScript := cell.cell.type.map scriptText
    cellData := toHex cell.cell.data
    capacity := toString cell.cell.capacity
    ownerLock := scriptText ownerLock
    ownerLockHash := decoded.makerLockHash
    ownerAddress := some ownerAddress
    direction := decoded.direction
    pricePerToken := toString decoded.pricePerToken
    tokenAmount := toString decoded.tokenAmount
    xudtTypeHash := decoded.udtTypeHash
    blockNumber := toString blockNumber
    txIndex := toString (creatingTx.txIndex.getD 0) }

/-- The event of a cell with admitted terms, once its creating transaction and
its maker are known. -/
def eventOfCell (config : Config) (cell : IndexedCell) (decoded : DecodedDexOrderArgs) :
    Proc (Option OrderConfirmedEvent) := do
  let response : Option TxResponse ← request (.getTransaction cell.outPoint.txHash)
  match response with
  | none => return none
  | some creatingTx =>
      match (if creatingTx.status = "committed" then creatingTx.blockNumber else none) with
      | none => return none
      | some blockNumber => do
          -- The owner lock counts only if it is among the creating transaction's own inputs.
          let ownerLock ← findInputWithLockHash config.verification.hash decoded.makerLockHash
            creatingTx.transaction.inputs
          match ownerLock with
          | none => return none
          | some ownerLock => do
              let ownerAddress ← require (config.address ownerLock)
              return some (orderConfirmedEvent ownerAddress cell decoded ownerLock creatingTx blockNumber)

/-- `indexOrderCell` up to the event it emits, nothing for a cell it skips. -/
def orderEventOf (config : Config) (cell : IndexedCell) : Proc (Option OrderConfirmedEvent) := do
  let known : Option OrderDocument ← request (.findOrderById (toOrderId (outPointText cell.outPoint)))
  if known.any (fun order => order.status ≠ .orphaned) then return none
  else match admitted config.verification cell.cell with
    | none => return none
    | some decoded => eventOfCell config cell decoded

def emitOrder (config : Config) : Option OrderConfirmedEvent → Proc Unit
  | none => return ()
  | some event => do
      let _ ← emit config.verification (.orderConfirmed event)
      return ()

def indexOrderCell (config : Config) (cell : IndexedCell) : Proc Unit := do
  let event ← orderEventOf config cell
  emitOrder config event

def resolveScanCursor : Proc ℤ := do
  let checkpoints : List Checkpoint ← request (.newestCheckpoints 1)
  match checkpoints with
  | checkpoint :: _ => return checkpoint.blockNumber + 1
  | [] => do
      -- A fresh checkpoint store resumes from the newest indexed order.
      let latest : Option OrderDocument ← request .latestOrder
      match latest with
      | none => return 0
      | some order => do
          let blockNumber ← require (toBigInt order.blockNumber)
          return blockNumber + 1

/-- Records the scanned block's hash, the persisted cursor, and trims history. -/
def saveCheckpoint (blockNumber : ℕ) (blockHash : Hash) : Proc Unit := do
  let _ : Unit ← request (.upsertCheckpoint ⟨blockNumber, hashText blockHash⟩)
  let _ : Unit ← request (.trimCheckpoints ((blockNumber : ℤ) - checkpointRetention))
  return ()

/-- Scans the blocks from the cursor to the last one that is buried deep
enough. -/
def scanRange (config : Config) (fromBlock : ℤ) (safeTip : ℕ) : Proc Unit := do
  let endHash : Option Hash ← request (.getHeaderHash safeTip)
  match endHash with
  | none => return ()
  | some endHash => do
      let cells : List IndexedCell ← request (.findCells fromBlock.toNat safeTip)
      forEach (indexOrderCell config) cells
      let endHashAfter : Option Hash ← request (.getHeaderHash safeTip)
      -- Reorged during the scan: leave the cursor and rescan on the next tick.
      if endHashAfter ≠ some endHash then return ()
      else saveCheckpoint safeTip endHash

def scanForPendingOrders (config : Config) : Proc Unit := do
  let tip : ℕ ← request .getTip
  if tip < config.verification.confirmationDepth then return ()
  else do
    let safeTip := tip - config.verification.confirmationDepth
    let fromBlock ← resolveScanCursor
    if (safeTip : ℤ) < fromBlock then return ()
    else scanRange config fromBlock safeTip

/-- Compares checkpoints with the chain, newest first, up to the first that is
canonical; the evidence is the last one that is not. -/
def findFork : List Checkpoint → Option Checkpoint → Proc (Option ℕ × Option Checkpoint)
  | [], evidence => return (none, evidence)
  | checkpoint :: checkpoints, evidence => do
      let canonical : Option Hash ← request (.getHeaderHash checkpoint.blockNumber)
      if canonical.map hashText = some checkpoint.blockHash then
        return (some checkpoint.blockNumber, evidence)
      else findFork checkpoints (some checkpoint)

def chainReorgEvent (evidence : Checkpoint) (ancestorBlock : ℤ) : ChainReorgEvent where
  eventId := "chain-reorg:" ++ toString evidence.blockNumber ++ ":" ++ evidence.blockHash
  blockNumber := none
  blockHash := none
  revertedBlockHash := evidence.blockHash
  revertedBlockNumber := toString evidence.blockNumber
  ancestorBlockNumber := some (toString ancestorBlock)

/-- Without a common block in the window, the fork is assumed to be just below
its oldest entry. -/
def ancestorBlockOf (checkpoints : List Checkpoint) (ancestor : Option ℕ) : ℤ :=
  match ancestor with
  | some n => n
  | none => (checkpoints.getLast?.elim 0 fun c => (c.blockNumber : ℤ)) - 1

def detectReorg (v : ChainVerification) : Proc Unit := do
  let checkpoints : List Checkpoint ← request (.newestCheckpoints checkpointWindow)
  let (ancestor, evidence) ← findFork checkpoints none
  match evidence with
  | none => return ()
  | some evidence => do
      let ancestorBlock := ancestorBlockOf checkpoints ancestor
      let _ ← ingest v (.chainReorg (chainReorgEvent evidence ancestorBlock))
      -- Rewind only after the backend accepted the rollback.
      let _ : Unit ← request (.deleteCheckpointsAbove ancestorBlock)
      return ()

def orderCancelledEvent (order : OrderDocument) (txHash : Hash) (blockNumber : ℕ) (blockHash : Hash) :
    OrderCancelledEvent where
  eventId := "order-cancelled:" ++ hashText txHash ++ ":" ++ hashText blockHash ++ ":" ++ order.id
  blockNumber := some (toString blockNumber)
  blockHash := some (hashText blockHash)
  outPoint := order.outPoint
  cancelledByTxHash := hashText txHash

def tradeConfirmedEvent (buyOrder sellOrder : OrderDocument) (txHash : Hex) (blockNumber : ℕ)
    (blockHash : Option Hash) : TradeConfirmedEvent where
  eventId := "trade-confirmed:" ++ txHash ++ ":" ++ blockHashText blockHash
  blockNumber := some (toString blockNumber)
  blockHash := blockHash.map hashText
  buyOrderOutPoint := buyOrder.outPoint
  sellOrderOutPoint := sellOrder.outPoint
  trade := {
    settlementTxHash := txHash
    buyerLockHash := buyOrder.ownerLockHash
    sellerLockHash := sellOrder.ownerLockHash
    xudtTypeHash := sellOrder.xudtTypeHash
    tokenAmount := sellOrder.remainingAmount
    price := sellOrder.pricePerToken
    paidCapacity := sellOrder.pricePerToken
    confirmedAtBlock := toString blockNumber }

def spendsOutPoint (tx : RawTx) (outPoint : OutPoint) : Bool :=
  tx.inputs.any fun input => outPointText input = outPoint

/-- The first committed transaction among the records that spends the order. -/
def findSpendingTx (outPoint : OutPoint) : List TxRecord → Proc (Option (Hash × TxResponse))
  | [] => return none
  | record :: records =>
      if record.isInput = false then findSpendingTx outPoint records
      else do
        let candidate : Option TxResponse ← request (.getTransaction record.txHash)
        match candidate.filter fun tx =>
            tx.status = "committed" && spendsOutPoint tx.transaction outPoint with
        | some tx => return some (record.txHash, tx)
        | none => findSpendingTx outPoint records

/-- The orders of a settlement that are known, by side. -/
def settledPair (orders : List OrderDocument) : Option (OrderDocument × OrderDocument) := do
  let buyOrder ← orders.find? fun order => order.direction = .bid
  let sellOrder ← orders.find? fun order => order.direction = .ask
  return (buyOrder, sellOrder)

def confirmExternalSettlement (v : ChainVerification) (txHash : Hash) (spendingTx : TxResponse) :
    Proc Unit :=
  match spendingTx.blockNumber, spendingTx.blockHash with
  | some blockNumber, some blockHash => do
      let spentIds := spendingTx.transaction.inputs.map fun input => toOrderId (outPointText input)
      let orders : List OrderDocument ← request (.findOrders spentIds)
      match settledPair orders with
      | none => return ()
      | some (buyOrder, sellOrder) => do
          let _ ← emit v (.tradeConfirmed
            (tradeConfirmedEvent buyOrder sellOrder (hashText txHash) blockNumber (some blockHash)))
          return ()
  | _, _ => return ()

/-- The contract's own rule: a spend is a maker cancellation when one of its
inputs carries the maker's lock hash, and a settlement otherwise. -/
def recordSpend (v : ChainVerification) (order : OrderDocument) (txHash : Hash)
    (spendingTx : TxResponse) : Proc Unit := do
  let cancellationInput ← findInputWithLockHash v.hash order.ownerLockHash
    spendingTx.transaction.inputs
  match cancellationInput with
  | none => confirmExternalSettlement v txHash spendingTx
  | some _ =>
      match spendingTx.blockNumber, spendingTx.blockHash with
      | some blockNumber, some blockHash => do
          let _ ← emit v (.orderCancelled (orderCancelledEvent order txHash blockNumber blockHash))
          return ()
      | _, _ => return ()

def reconcileSpentOrder (v : ChainVerification) (order : OrderDocument) : Proc Unit :=
  if order.status = .filled ∨ order.status = .canceled then return ()
  else do
    let lock ← require (okOr (scriptFrom order.lockScript) (.other "invalid lock script"))
    let records : List TxRecord ← request (.findTransactionsByLock lock)
    let spend ← findSpendingTx order.outPoint records
    match spend with
    | none => return ()
    | some (txHash, spendingTx) => recordSpend v order txHash spendingTx

/-- `ccc.OutPoint.from`. -/
def refFrom (outPoint : OutPoint) : Option CellRef := do
  let txHash ← hashFrom outPoint.txHash
  let index ← bigInt outPoint.index
  if 0 ≤ index ∧ index < 2 ^ 32 then some ⟨txHash, BitVec.ofInt 32 index⟩ else none

def checkOrderLiveness (v : ChainVerification) (order : OrderDocument) : Proc Bool := do
  let ref ← require (okOr (refFrom order.outPoint) (.other "invalid out point"))
  let live : Bool ← request (.getCellLive ref)
  if live then return true
  else do
    reconcileSpentOrder v order
    return false

/-- Re-checks tracked orders for spends made outside `executeTrade`. -/
def sweepTrackedOrders (v : ChainVerification) : Proc Unit := do
  let tracked : List OrderDocument ← request (.findOrdersByStatus [.live, .reserved])
  forEach (fun order => do
    let _ ← checkOrderLiveness v order
    return ()) tracked

def expired (order : OrderDocument) : Proc Bool :=
  match order.reservedUntil with
  | none => return false
  | some deadline => do
      let now : ℕ ← request .now
      return decide (deadline ≤ now)

/-- Both legs of a confirmed settlement; false while the other leg is not
visible. -/
def confirmTrade (v : ChainVerification) (order : OrderDocument) (txHash : Hex)
    (pendingTx : TxResponse) : Proc Bool := do
  let found : Option OrderDocument ← request (.findCounterpart order.pendingTxHash order.id)
  match found, pendingTx.blockNumber with
  | some counterpart, some blockNumber => do
      let buyOrder := if order.direction = .bid then order else counterpart
      let sellOrder := if order.direction = .bid then counterpart else order
      let _ ← emit v (.tradeConfirmed
        (tradeConfirmedEvent buyOrder sellOrder txHash blockNumber pendingTx.blockHash))
      return true
  | _, _ => return false

def revertToLive (id : String) : Proc Unit := request (.revertToLive id)

def revertIfExpired (order : OrderDocument) : Proc Unit := do
  let due ← expired order
  if due then revertToLive order.id else return ()

/-- Resolves one in-flight order: confirms it, puts it back to LIVE, or leaves
it be. -/
def retryOrder (v : ChainVerification) (order : OrderDocument) : Proc Unit :=
  match order.pendingTxHash with
  | none => revertIfExpired order
  | some txHash => do
      let key ← require (okOr (hashFrom txHash) (.other "invalid transaction hash"))
      let pendingTx : Option TxResponse ← request (.getTransaction key)
      match pendingTx.filter fun tx => tx.status = "committed" with
      | some tx => do
          let recorded ← confirmTrade v order txHash tx
          -- A leg that lost its counterpart can never finish.
          if recorded then return () else revertIfExpired order
      | none =>
          let rejected := pendingTx.any fun tx => tx.status = "rejected"
          if pendingTx = none ∨ rejected then do
            let live ← checkOrderLiveness v order
            if live = false then return ()
            else if rejected then revertToLive order.id
            else revertIfExpired order
          else do
            let due ← expired order
            if due then do
              let now : ℕ ← request .now
              request (.extendReservation order.id (now + reservationTtl))
            else return ()

def retryFailSwaps (v : ChainVerification) : Proc Unit := do
  let inFlight : List OrderDocument ← request (.findOrdersByStatus [.reserved, .pending])
  forEach (retryOrder v) inFlight

/-- `/needle/i` -/
def mentions (needle message : String) : Bool :=
  decide (needle.toList.map Char.toLower <:+: message.toList.map Char.toLower)

/-- Node rejections caused by other matchers; an identical transaction in the
pool is success. -/
def translateRejection (settlementHash : Hash) (error : Failure) : Proc Hash :=
  let message := messageOf error
  if mentions "duplicat" message then return settlementHash
  else if mentions "Dead" message ∨ mentions "Unknown(OutPoint" message ∨
      mentions "Resolve" message then
    throw (.app 409 "a matched order cell was already spent on-chain" (some "ORDER_SPENT"))
  else if mentions "RBF" message ∨ mentions "conflict" message ∨ mentions "PoolRejected" message then
    throw (.app 409 "a competing settlement for these orders is already pending"
      (some "COMPETING_SETTLEMENT"))
  else throw error

def submit (config : Config) (settlement : Settlement) : Proc Hash :=
  tryCatch (request (.sendTransaction settlement))
    (translateRejection (config.settlementHash settlement))

def reserve (id : String) : Proc (Option OrderDocument) := do
  let now : ℕ ← request .now
  request (.reserve id (now + reservationTtl))

def settlementSubmittedEvent (buyOrder sellOrder : OrderDocument) (txHash : Hash) :
    SettlementSubmittedEvent where
  eventId := "settlement-submitted:" ++ hashText txHash
  blockNumber := none
  blockHash := none
  orderOutPoints := [buyOrder.outPoint, sellOrder.outPoint]
  settlementTxHash := hashText txHash

/-- What `executeTrade` does with two orders it has reserved. -/
def settleReserved (config : Config) (schedule : List Bool) (settlement : Settlement)
    (reservedBuy reservedSell : OrderDocument) : Proc Hash := do
  let v := config.verification
  let (buyLive, sellLive) ← promiseAll schedule (checkOrderLiveness v reservedBuy)
    (checkOrderLiveness v reservedSell)
  require (throwIf (buyLive = false ∨ sellLive = false)
    (appError 409 "one of the matched orders was already settled on-chain"))
  let txHash ← submit config settlement
  tryCatch
    (do
      let _ ← ingest v (.settlementSubmitted
        (settlementSubmittedEvent reservedBuy reservedSell txHash))
      return ())
    -- Already in the pool: releasing the orders now would build a competing settlement.
    fun _ => request (.trackPending [reservedBuy.id, reservedSell.id] (hashText txHash))
  return txHash

/-- `Promise.all` has sent both updates when it throws the error of one. -/
def revertBoth (schedule : List Bool) (buyId sellId : String) : Proc Unit := do
  let (buy, sell) ← promiseAll schedule (attempt (revertToLive buyId)) (attempt (revertToLive sellId))
  require buy
  require sell

def executeTrade (config : Config) (schedule : List Bool) (buyOrder sellOrder : OrderDocument) :
    Proc Hash := do
  let settlement ← require (buildSettlement config.client config.verification.supportedAssetHashes
    buyOrder sellOrder)
  let buy ← reserve buyOrder.id
  let buyId := buyOrder.id
  let reservedBuy ← require (okOr buy (appError 409 s!"buy order {buyId} is no longer LIVE"))
  let sell ← reserve sellOrder.id
  match sell with
  | none => do
      revertToLive reservedBuy.id
      let sellId := sellOrder.id
      throw (appError 409 s!"sell order {sellId} is no longer LIVE")
  | some reservedSell =>
      tryCatch (settleReserved config schedule settlement reservedBuy reservedSell)
        fun error => do
          -- the schedule of the checks is read from its other end
          revertBoth schedule.reverse reservedBuy.id reservedSell.id
          throw error

/-- `Promise.allSettled` waits for both and reports neither's failure. -/
def settled {α : Type} (x : Proc α) : Proc Unit :=
  tryCatch
    (do
      let _ ← x
      return ())
    fun _ => return ()

/-- After a failure that another matcher caused, both cells are looked at
again. -/
def handleMatchFailure (config : Config) (schedule : List Bool) (buy sell : OrderDocument)
    (error : Failure) : Proc Unit :=
  match error with
  | .app _ _ (some code) =>
      if code = "ORDER_SPENT" ∨ code = "COMPETING_SETTLEMENT" then do
        let _ ← promiseAll schedule (settled (checkOrderLiveness config.verification buy))
          (settled (checkOrderLiveness config.verification sell))
        return ()
      else return ()
  | _ => return ()

/-- Executes the matched pairs of one tick; a failure concerns its pair only. -/
def matchPendingOrders (config : Config) (schedule : List Bool)
    (pairs : List (OrderDocument × OrderDocument)) : Proc Unit :=
  forEach (fun (buy, sell) =>
    tryCatch
      (do
        let _ ← executeTrade config schedule buy sell
        return ())
      (handleMatchFailure config schedule buy sell)) (pairs.take maxMatchesPerTick)

/-- One poll cycle, with the matches that `findMatches` makes of the live
orders. The deployment check before it only reads. -/
def tick (config : Config) (schedule : List Bool)
    (findMatches : List OrderDocument → List (OrderDocument × OrderDocument)) : Proc Unit := do
  let v := config.verification
  detectReorg v
  scanForPendingOrders config
  sweepTrackedOrders v
  retryFailSwaps v
  let live : List OrderDocument ← request (.findOrdersByStatus [.live])
  matchPendingOrders config schedule (findMatches live)

end CkbDex.Bot
