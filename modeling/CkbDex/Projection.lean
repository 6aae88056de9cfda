import CkbDex.BotEvents
import CkbDex.Collections
import CkbDex.Number

/-!
# The projection and how events change it

The collections of the database and the transaction that applies one event:
the five `apply` functions, the transition table they respect, and the
deduplication ledger that commits with them. Two third-party conversions are
parameters: `Decimal128.fromString` and the database's `$convert` to `long`.
-/
namespace CkbDex.Projection
open Checked Text Number Documents BotEvents Collections

inductive TradeStatus where
  | confirmed | reverted
  deriving DecidableEq, Repr

structure TradeDocument where
  id : Hex
  settlementTxHash : Hex
  buyOrderOutPoint : OutPoint
  sellOrderOutPoint : OutPoint
  buyerLockHash : Hex
  sellerLockHash : Hex
  xudtTypeHash : Hex
  tokenAmount : String
  price : String
  paidCapacity : String
  blockNumber : String
  blockHash : Hex
  confirmedAtBlock : String
  status : TradeStatus
  lastEventId : String
  deriving DecidableEq, Repr

inductive ProcessingStatus where
  | applied | ignored | failed
  deriving DecidableEq, Repr

structure IngestionEvent where
  eventId : String
  processingStatus : ProcessingStatus
  processingError : Option String
  deriving DecidableEq, Repr

structure Checkpoint where
  blockNumber : ℕ
  blockHash : Hex
  deriving DecidableEq, Repr

structure Db where
  orders : Collection String OrderDocument OrderDocument.id
  trades : Collection Hex TradeDocument TradeDocument.id
  events : Collection String IngestionEvent IngestionEvent.eventId
  checkpoints : Collection ℕ Checkpoint Checkpoint.blockNumber

def Db.empty : Db := ⟨.empty, .empty, .empty, .empty⟩

structure Drivers where
  /-- Whether `Decimal128.fromString` reads a text. -/
  decimal128 : String → Bool
  /-- `$convert` of a text to `long`, null on error. -/
  toLong : String → Option ℤ

inductive ResultStatus where
  | applied | ignored
  deriving DecidableEq, Repr

structure IngestionResult where
  status : ResultStatus
  eventId : String
  reason : Option String := none
  deriving DecidableEq, Repr

def applied (eventId : String) : IngestionResult := { status := .applied, eventId }

def ignored (eventId reason : String) : IngestionResult :=
  { status := .ignored, eventId, reason := some reason }

def OrderStatus.text : OrderStatus → String
  | .discovered => "DISCOVERED"
  | .live => "LIVE"
  | .reserved => "RESERVED"
  | .pending => "PENDING"
  | .filled => "FILLED"
  | .canceled => "CANCELED"
  | .invalid => "INVALID"
  | .orphaned => "ORPHANED"
  | .settlementSubmitted => "SETTLEMENT_SUBMITTED"
  | .cancelled => "CANCELLED"

def allowedTransitions : OrderStatus → List OrderStatus
  | .discovered => [.live, .reserved, .pending, .settlementSubmitted, .canceled, .cancelled,
      .filled, .invalid, .orphaned]
  | .live => [.reserved, .pending, .settlementSubmitted, .canceled, .cancelled, .filled, .invalid,
      .orphaned]
  | .reserved => [.live, .pending, .canceled, .cancelled, .filled, .invalid, .orphaned]
  | .pending => [.live, .canceled, .cancelled, .filled, .invalid, .orphaned]
  | .settlementSubmitted => [.pending, .filled, .canceled, .cancelled, .orphaned, .invalid]
  | .filled => [.orphaned]
  | .canceled => [.orphaned]
  | .cancelled => [.orphaned]
  | .invalid => []
  | .orphaned => [.live, .canceled, .cancelled, .filled, .invalid]

def canTransition (currentStatus nextStatus : OrderStatus) : Bool :=
  nextStatus ∈ allowedTransitions currentStatus

def toOrderId (outPoint : OutPoint) : String := outPoint.txHash ++ ":" ++ outPoint.index

/-- `OrderModel.find({ _id: { $in: ids } })` -/
def Db.findOrders (db : Db) (ids : List String) : List OrderDocument :=
  db.orders.filter fun order => order.id ∈ ids

/-- The upsert of one order. -/
def Db.putOrder (db : Db) (order : OrderDocument) : Db := { db with orders := db.orders.put order }

/-- The loop that saves one update on each of the orders found by id. -/
def Db.saveOrders (db : Db) (ids : List String) (update : OrderDocument → OrderDocument)
    (hid : ∀ order, (update order).id = order.id) : Db where
  orders := db.orders.map (fun order => if order.id ∈ ids then update order else order) <| by
    intro order
    split_ifs
    · exact hid order
    · rfl
  trades := db.trades
  events := db.events
  checkpoints := db.checkpoints

/-- The stored document after `$set` and `$unset`. A key that the event leaves
undefined is not part of the update, so the stored value stays. -/
def confirmedDocument (existing : Option OrderDocument) (event : OrderConfirmedEvent) :
    OrderDocument where
  id := toOrderId event.outPoint
  outPoint := event.outPoint
  lockScript := event.order.lockScript
  typeScript := event.order.typeScript <|> existing.bind OrderDocument.typeScript
  cellData := event.order.cellData
  capacity := event.order.capacity
  ownerLock := event.order.ownerLock
  ownerLockHash := event.order.ownerLockHash
  ownerAddress := event.order.ownerAddress <|> existing.bind OrderDocument.ownerAddress
  direction := event.order.direction
  pricePerToken := event.order.pricePerToken
  remainingAmount := event.order.tokenAmount
  tokenPair := event.order.xudtTypeHash ++ ":CKB"
  xudtTypeHash := event.order.xudtTypeHash
  blockNumber := event.order.blockNumber
  txIndex := event.order.txIndex
  status := .live
  reservedUntil := none
  pendingTxHash := none
  settlementTxHash := none
  lastEventId := some event.eventId
  confirmedAtBlock := event.blockNumber <|> existing.bind OrderDocument.confirmedAtBlock
  createdAtBlock := some event.order.blockNumber
  createdBlockHash := event.blockHash <|> existing.bind OrderDocument.createdBlockHash
  spentAtBlock := none
  spentBlockHash := none

/-- Redelivery for the block that created an order which is not orphaned. -/
def alreadyIndexed (existing : Option OrderDocument) (event : OrderConfirmedEvent) : Bool :=
  existing.any fun order => order.createdBlockHash = event.blockHash && order.status ≠ .orphaned

/-- Casting a number to the schema's type fails on NaN only. -/
def castNumber (s : String) : Except Failure Unit :=
  throwIf (number s = .nan) (.other "Cast to Number failed for value \"NaN\"")

def applyOrderConfirmed (drivers : Drivers) (event : OrderConfirmedEvent) (db : Db) :
    Except Failure (IngestionResult × Db) :=
  let existing := db.orders.find? (toOrderId event.outPoint)
  if alreadyIndexed existing event then
    return (ignored event.eventId "order-already-indexed", db)
  else do
    throwIf (¬drivers.decimal128 event.order.pricePerToken)
      (.other "not a valid Decimal128 string")
    castNumber event.order.blockNumber
    castNumber event.order.txIndex
    return (applied event.eventId,
      db.putOrder (confirmedDocument existing event))

def cancelledDocument (event : OrderCancelledEvent) (order : OrderDocument) : OrderDocument :=
  { order with
    status := .canceled
    lastEventId := some event.eventId
    confirmedAtBlock := event.blockNumber
    spentAtBlock := event.blockNumber
    spentBlockHash := event.blockHash
    settlementTxHash := some event.cancelledByTxHash }

def applyOrderCancelled (event : OrderCancelledEvent) (db : Db) :
    Except Failure (IngestionResult × Db) :=
  match db.orders.find? (toOrderId event.outPoint) with
  | none => return (ignored event.eventId "order-not-found", db)
  | some order => do
      let current := OrderStatus.text order.status
      throwIf (¬canTransition order.status .canceled)
        (.other s!"Invalid order transition from {current} to CANCELED")
      return (applied event.eventId,
        db.putOrder (cancelledDocument event order))

def pendingDocument (event : SettlementSubmittedEvent) (order : OrderDocument) : OrderDocument :=
  { order with
    status := .pending
    pendingTxHash := some event.settlementTxHash
    settlementTxHash := some event.settlementTxHash
    lastEventId := some event.eventId }

def applySettlementSubmitted (event : SettlementSubmittedEvent) (db : Db) :
    Except Failure (IngestionResult × Db) :=
  let orderIds := event.orderOutPoints.map toOrderId
  let orders := db.findOrders orderIds
  if orders.length ≠ event.orderOutPoints.length then
    return (ignored event.eventId "order-not-found", db)
  else if orders.any fun order => !canTransition order.status .pending then
    return (ignored event.eventId "invalid-transition-to-pending", db)
  else
    return (applied event.eventId,
      db.saveOrders orderIds (pendingDocument event) fun _ => rfl)

def filledDocument (event : TradeConfirmedEvent) (order : OrderDocument) : OrderDocument :=
  { order with
    status := .filled
    confirmedAtBlock := some event.trade.confirmedAtBlock
    spentAtBlock := some event.trade.confirmedAtBlock
    spentBlockHash := event.blockHash
    pendingTxHash := some event.trade.settlementTxHash
    settlementTxHash := some event.trade.settlementTxHash
    lastEventId := some event.eventId }

/-- The trade of a settlement: its facts are written on insertion only, its
block each time it is confirmed. -/
def confirmedTrade (existing : Option TradeDocument) (event : TradeConfirmedEvent) :
    TradeDocument :=
  let inserted : TradeDocument := existing.getD {
    id := event.trade.settlementTxHash
    settlementTxHash := event.trade.settlementTxHash
    buyOrderOutPoint := event.buyOrderOutPoint
    sellOrderOutPoint := event.sellOrderOutPoint
    buyerLockHash := event.trade.buyerLockHash
    sellerLockHash := event.trade.sellerLockHash
    xudtTypeHash := event.trade.xudtTypeHash
    tokenAmount := event.trade.tokenAmount
    price := event.trade.price
    paidCapacity := event.trade.paidCapacity
    blockNumber := ""
    blockHash := ""
    confirmedAtBlock := ""
    status := .confirmed
    lastEventId := "" }
  { inserted with
    blockNumber := event.blockNumber.getD event.trade.confirmedAtBlock
    blockHash := event.blockHash.getD ""
    confirmedAtBlock := event.trade.confirmedAtBlock
    status := .confirmed
    lastEventId := event.eventId }

def applyTradeConfirmed (event : TradeConfirmedEvent) (db : Db) :
    Except Failure (IngestionResult × Db) :=
  let orderIds := [toOrderId event.buyOrderOutPoint, toOrderId event.sellOrderOutPoint]
  let orders := db.findOrders orderIds
  if orders.length ≠ 2 then
    return (ignored event.eventId "order-not-found", db)
  else if orders.any fun order => !canTransition order.status .filled then
    return (ignored event.eventId "invalid-transition-to-filled", db)
  else do
    castNumber (event.blockNumber.getD event.trade.confirmedAtBlock)
    let filled := db.saveOrders orderIds (filledDocument event) fun _ => rfl
    let trade := confirmedTrade (db.trades.find? event.trade.settlementTxHash) event
    return (applied event.eventId, { filled with trades := db.trades.put trade })

/-- The first block to roll back: everything above the last block known to be
canonical. -/
def rollbackFrom (event : ChainReorgEvent) : JsNumber :=
  match event.ancestorBlockNumber with
  | some ancestor => (number ancestor).succ
  | none => number event.revertedBlockNumber

/-- `$gte: [{ $convert: .. }, from]`; a text that is no `long` is null, which
comes before every number. -/
def atOrAfter (drivers : Drivers) (start : JsNumber) (blockNumber : Option String) : Bool :=
  match blockNumber.bind drivers.toLong with
  | some n => start.atMost n
  | none => false

def createdReverted (drivers : Drivers) (start : JsNumber) (order : OrderDocument) : Bool :=
  atOrAfter drivers start (some order.blockNumber) && order.status ≠ .orphaned

def spentReverted (drivers : Drivers) (start : JsNumber) (order : OrderDocument) : Bool :=
  atOrAfter drivers start order.spentAtBlock &&
    order.status ∈ [OrderStatus.filled, .canceled, .cancelled] &&
    !createdReverted drivers start order

def rollBackOrder (drivers : Drivers) (event : ChainReorgEvent) (order : OrderDocument) :
    OrderDocument :=
  if createdReverted drivers (rollbackFrom event) order then
    { order with
      status := .orphaned
      reservedUntil := none
      pendingTxHash := none
      lastEventId := some event.eventId }
  else if spentReverted drivers (rollbackFrom event) order then
    { order with
      status := .live
      reservedUntil := none
      pendingTxHash := none
      spentAtBlock := none
      spentBlockHash := none
      settlementTxHash := none
      lastEventId := some event.eventId }
  else order

def rollBackTrade (drivers : Drivers) (event : ChainReorgEvent) (trade : TradeDocument) :
    TradeDocument :=
  if atOrAfter drivers (rollbackFrom event) (some trade.blockNumber) ∧ trade.status ≠ .reverted then
    { trade with status := .reverted, lastEventId := event.eventId }
  else trade

theorem rollBackOrder_id (drivers : Drivers) (event : ChainReorgEvent) (order : OrderDocument) :
    (rollBackOrder drivers event order).id = order.id := by
  unfold rollBackOrder
  split_ifs <;> rfl

theorem rollBackTrade_id (drivers : Drivers) (event : ChainReorgEvent) (trade : TradeDocument) :
    (rollBackTrade drivers event trade).id = trade.id := by
  unfold rollBackTrade
  split_ifs <;> rfl

def rollBack (drivers : Drivers) (event : ChainReorgEvent) (db : Db) : Db where
  orders := db.orders.map (rollBackOrder drivers event) (rollBackOrder_id drivers event)
  trades := db.trades.map (rollBackTrade drivers event) (rollBackTrade_id drivers event)
  events := db.events
  checkpoints := db.checkpoints

def applyChainReorg (drivers : Drivers) (event : ChainReorgEvent) (db : Db) :
    Except Failure (IngestionResult × Db) :=
  return (applied event.eventId, rollBack drivers event db)

def applyEvent (drivers : Drivers) (event : BotEvent) (db : Db) :
    Except Failure (IngestionResult × Db) :=
  match event with
  | .orderConfirmed e => applyOrderConfirmed drivers e db
  | .orderCancelled e => applyOrderCancelled e db
  | .settlementSubmitted e => applySettlementSubmitted e db
  | .tradeConfirmed e => applyTradeConfirmed e db
  | .chainReorg e => applyChainReorg drivers e db

inductive Outcome where
  | committed (result : IngestionResult)
  | duplicateKey
  | aborted (error : Failure)
  deriving DecidableEq

def Db.isFailed (event : IngestionEvent) : Bool := event.processingStatus = .failed

/-- `findOne({ eventId, processingStatus: { $ne: "FAILED" } })` -/
def Db.processed (db : Db) (eventId : String) : Bool :=
  (db.events.find? eventId).any fun event => !Db.isFailed event

def processingStatusOf : ResultStatus → ProcessingStatus
  | .applied => .applied
  | .ignored => .ignored

/-- The transaction of `ingest`: the projection update and the dedupe record
commit together or not at all. -/
def transact (drivers : Drivers) (event : BotEvent) (db : Db) : Outcome × Db :=
  match applyEvent drivers event db with
  | .error e => (.aborted e, db)
  | .ok (result, next) =>
      let events := next.events.deleteWhere fun record =>
        record.eventId = event.eventId && Db.isFailed record
      if (events.find? event.eventId).isSome then (.duplicateKey, db)
      else (.committed result, { next with events := events.put {
        eventId := event.eventId
        processingStatus := processingStatusOf result.status
        processingError := result.reason } })

/-- `recordFailedEvent`: one record for each event id, rewritten on each
failure; the unique index refuses it beside a processed one. -/
def recordFailed (eventId message : String) (db : Db) : Db :=
  if db.processed eventId then db
  else { db with events := db.events.put {
    eventId, processingStatus := .failed, processingError := some message } }

end CkbDex.Projection
