import CkbDex.Operations

/-!
# Verification of events against the chain

The chain reader, the checks that every kind of event has to pass, and
`ingest`: deduplication, verification, then the transaction. Each check keeps
the source's order and its reason.
-/
namespace CkbDex.EventVerification
open Checked Bytes CellContext Text Number Documents BotEvents ChainCells Projection Programs
open Operations
open SettlementBuilder (toBigInt)

structure ChainOutput where
  lock : ScriptDocument
  type : Option ScriptDocument
  capacity : ℕ
  data : Hex
  deriving DecidableEq

structure ChainTransaction where
  status : String
  blockNumber : Option ℕ
  blockHash : Option Hex
  txIndex : Option ℕ
  inputs : List OutPoint
  outputs : List ChainOutput
  inputLockHashes : List Hex
  deriving DecidableEq

structure ChainVerification where
  /-- `Script.hash` of the client library. -/
  hash : Script → Hash
  dexLock : ScriptDocument
  confirmationDepth : ℕ
  supportedAssetHashes : List Hex

def outPointText (ref : CellRef) : OutPoint :=
  { txHash := hashText ref.txHash, index := toString ref.index.toNat }

def outputText (cell : CellOutput) : ChainOutput where
  lock := scriptText cell.lock
  type := cell.type.map scriptText
  capacity := cell.capacity
  data := toHex cell.data

/-- Lock hashes of the inputs that resolve, in input order. -/
def readInputLockHashes (hash : Script → Hash) : List CellRef → Proc (List Hex)
  | [] => return []
  | input :: inputs => do
      let previous : Option CellOutput ← request (.getCell input)
      let rest ← readInputLockHashes hash inputs
      return (previous.map fun cell => hashText (hash cell.lock)).toList ++ rest

def transactionText (response : TxResponse) (inputLockHashes : List Hex) : ChainTransaction where
  status := response.status
  blockNumber := response.blockNumber
  blockHash := response.blockHash.map hashText
  txIndex := response.txIndex
  inputs := response.transaction.inputs.map outPointText
  outputs := response.transaction.outputs.map outputText
  inputLockHashes := inputLockHashes

def readTransaction (hash : Script → Hash) (txHash : Hex) : Proc (Option ChainTransaction) := do
  let key ← require (okOr (hashFrom txHash) (.other "invalid transaction hash"))
  let response : Option TxResponse ← request (.getTransactionNoCache key)
  match response with
  | none => return none
  | some found => do
      let inputLockHashes ← readInputLockHashes hash found.transaction.inputs
      return some (transactionText found inputLockHashes)

def rejection (reason : String) : Failure :=
  appError 422 s!"Event failed chain verification: {reason}"

/-- `if (c) return reject(reason)`. -/
def rejectIf (c : Prop) [Decidable c] (reason : String) : Except Failure Unit :=
  throwIf c (rejection reason)

def sameHex (left right : Hex) : Bool := lower left = lower right

def scriptHash (hash : Script → Hash) (script : ScriptDocument) : Except Failure Hex :=
  okOr ((scriptFrom script).map fun s => hashText (hash s)) (.other "invalid script")

def spends (tx : ChainTransaction) (outPoint : OutPoint) : Except Failure Bool :=
  let candidates := tx.inputs.filter fun input => sameHex input.txHash outPoint.txHash
  if candidates = [] then return false
  else do
    let index ← toBigInt outPoint.index
    return candidates.any fun input => bigInt input.index = some index

def confirmationsOf (tip blockNumber : ℕ) : ℕ :=
  if blockNumber ≤ tip then tip - blockNumber + 1 else 0

/-- The block in which a committed transaction is, when the event names it. -/
def checkBlock (txHash : Hex) (event : EventBase) (tx : Option ChainTransaction) :
    Except Failure (ChainTransaction × ℕ) := do
  let missing := rejection s!"transaction {txHash} is not committed"
  let found ← okOr tx missing
  throwIf (found.status ≠ "committed") missing
  let blockNumber ← okOr found.blockNumber missing
  let blockHash ← okOr found.blockHash missing
  rejectIf (¬event.blockHash.any fun claimed => sameHex claimed blockHash)
    "block hash does not match the chain"
  let claimed ← okOr event.blockNumber (rejection "block number does not match the chain")
  let number ← toBigInt claimed
  rejectIf (number ≠ blockNumber) "block number does not match the chain"
  return (found, blockNumber)

/-- A committed transaction in the block the event names, buried at least
`confirmationDepth` deep. -/
def requireConfirmed (v : ChainVerification) (txHash : Hex) (event : EventBase) :
    Proc ChainTransaction := do
  let tx ← readTransaction v.hash txHash
  let (found, blockNumber) ← require (checkBlock txHash event tx)
  let tip : ℕ ← request .getTip
  let confirmations := confirmationsOf tip blockNumber
  let required := v.confirmationDepth
  require (throwIf (confirmations < required)
    (appError 409 s!"insufficient-confirmations: {confirmations} of {required} required"))
  return found

/-- The checks that compare the order with the terms decoded from its args. -/
def checkTerms (v : ChainVerification) (order : ConfirmedOrder) (decoded : DecodedDexOrderArgs) :
    Except Failure Unit := do
  rejectIf (decoded.direction ≠ order.direction) "direction differs from lock args"
  let price ← toBigInt order.pricePerToken
  rejectIf ((decoded.pricePerToken : ℤ) ≠ price) "price differs from lock args"
  let amount ← toBigInt order.tokenAmount
  rejectIf ((decoded.tokenAmount : ℤ) ≠ amount) "token amount differs from lock args"
  rejectIf (¬sameHex decoded.udtTypeHash order.xudtTypeHash) "token type differs from lock args"
  rejectIf (¬sameHex decoded.makerLockHash order.ownerLockHash) "maker differs from lock args"
  rejectIf (decoded.udtTypeHash ∉ v.supportedAssetHashes) "token is not a supported manifest asset"

/-- A sell order holds exactly the token and the amount it declares; a buy
order carries no type. -/
def checkHolding (v : ChainVerification) (order : ConfirmedOrder) (output : ChainOutput)
    (decoded : DecodedDexOrderArgs) : Except Failure Unit :=
  if decoded.direction = .ask then do
    let outputType ← okOr output.type (rejection "sell order lacks the declared token type")
    let outputHash ← scriptHash v.hash outputType
    rejectIf (¬sameHex outputHash decoded.udtTypeHash) "sell order lacks the declared token type"
    let claimedType ← okOr order.typeScript (rejection "event type script differs from the chain")
    let claimedHash ← scriptHash v.hash claimedType
    rejectIf (¬sameHex claimedHash decoded.udtTypeHash) "event type script differs from the chain"
    let data ← okOr (bytesFrom output.data) (.other "invalid cell data")
    let held := ofLe (slice data 0 16)
    rejectIf (data.length < 16 ∨ held ≠ decoded.tokenAmount)
      "held token amount differs from lock args"
  else rejectIf (output.type ≠ none) "buy order must not carry a type script"

/-- The maker lock never runs at creation, so it is tied to the inputs of the
creating transaction. -/
def checkOwner (v : ChainVerification) (order : ConfirmedOrder) (tx : ChainTransaction)
    (decoded : DecodedDexOrderArgs) : Except Failure Unit := do
  let ownerHash ← scriptHash v.hash order.ownerLock
  rejectIf (¬sameHex ownerHash decoded.makerLockHash)
    "owner lock does not hash to the maker lock hash"
  rejectIf (¬tx.inputLockHashes.any fun hash => sameHex hash decoded.makerLockHash)
    "maker did not fund the order transaction"

def checkTxIndex (order : ConfirmedOrder) : Option ℕ → Except Failure Unit
  | none => return ()
  | some txIndex => do
      let claimed ← toBigInt order.txIndex
      rejectIf (claimed ≠ txIndex) "tx index does not match the chain"

def checkOutput (v : ChainVerification) (order : ConfirmedOrder) (output : ChainOutput) :
    Except Failure Unit := do
  rejectIf (¬sameHex output.lock.codeHash v.dexLock.codeHash ∨
    output.lock.hashType ≠ v.dexLock.hashType) "output is not locked by the configured DEX script"
  rejectIf (¬sameHex output.lock.args order.lockScript.args) "lock args differ from the chain"
  rejectIf (¬sameHex output.data order.cellData) "cell data differs from the chain"
  let capacity ← toBigInt order.capacity
  rejectIf ((output.capacity : ℤ) ≠ capacity) "capacity differs from the chain"

/-- The reason a failed decoding is rejected with. -/
def decodingRejection : Failure → Failure
  | .app _ message _ => rejection message
  | .other message => rejection message

def checkOrderConfirmed (v : ChainVerification) (event : OrderConfirmedEvent)
    (tx : ChainTransaction) : Except Failure Unit := do
  rejectIf (some event.order.blockNumber ≠ event.blockNumber)
    "order block number disagrees with event"
  checkTxIndex event.order tx.txIndex
  let output ← okOr ((number event.outPoint.index).toIndex.bind fun i => tx.outputs[i]?)
    (rejection "output does not exist")
  checkOutput v event.order output
  let decoded ← (decodeDexOrderArgs output.lock.args).mapError decodingRejection
  checkTerms v event.order decoded
  checkHolding v event.order output decoded
  checkOwner v event.order tx decoded

def verifyOrderConfirmed (v : ChainVerification) (event : OrderConfirmedEvent) : Proc Unit := do
  let tx ← requireConfirmed v event.outPoint.txHash event.toEventBase
  require (checkOrderConfirmed v event tx)

def load (ids : List String) : Proc (List OrderDocument) := request (.findOrders ids)

/-- What a transaction must show of the order it cancels. -/
def checkCancellation (event : OrderCancelledEvent) (order : OrderDocument)
    (tx : ChainTransaction) : Except Failure Unit := do
  let spent ← spends tx event.outPoint
  rejectIf (¬spent) "transaction does not spend the order cell"
  rejectIf (¬tx.inputLockHashes.any fun hash => sameHex hash order.ownerLockHash)
    "spend is not authorized by the maker lock"

def verifyOrderCancelled (v : ChainVerification) (event : OrderCancelledEvent) : Proc Unit := do
  let orders ← load [toOrderId event.outPoint]
  match orders.head? with
  | none => return ()
  | some order => do
      let tx ← requireConfirmed v event.cancelledByTxHash event.toEventBase
      require (checkCancellation event order tx)

def checkSpendsAll (tx : ChainTransaction) : List OutPoint → Except Failure Unit
  | [] => return ()
  | outPoint :: outPoints => do
      let spent ← spends tx outPoint
      rejectIf (¬spent) "settlement does not spend a claimed order"
      checkSpendsAll tx outPoints

def verifySettlementSubmitted (v : ChainVerification) (event : SettlementSubmittedEvent) :
    Proc Unit := do
  let tx ← readTransaction v.hash event.settlementTxHash
  require do
    let found ← okOr tx (rejection "settlement transaction is unknown to the node")
    rejectIf (found.status ∉ ["pending", "proposed", "committed"])
      "settlement transaction is unknown to the node"
    checkSpendsAll found event.orderOutPoints

/-- The named orders are a buy and a sell order. -/
def checkPair (event : TradeConfirmedEvent) (orders : List OrderDocument) :
    Except Failure (OrderDocument × OrderDocument) := do
  let mismatch := rejection "orders are not a buy/sell pair"
  let buy ← okOr (orders.find? fun order => order.id = toOrderId event.buyOrderOutPoint) mismatch
  let sell ← okOr (orders.find? fun order => order.id = toOrderId event.sellOrderOutPoint) mismatch
  throwIf (buy.direction ≠ .bid ∨ sell.direction ≠ .ask) mismatch
  return (buy, sell)

def checkTrade (event : TradeConfirmedEvent) (buy sell : OrderDocument) (tx : ChainTransaction) :
    Except Failure Unit := do
  let spendsBuy ← spends tx event.buyOrderOutPoint
  rejectIf (¬spendsBuy) "settlement does not spend both orders"
  let spendsSell ← spends tx event.sellOrderOutPoint
  rejectIf (¬spendsSell) "settlement does not spend both orders"
  rejectIf (¬(sameHex event.trade.buyerLockHash buy.ownerLockHash ∧
      sameHex event.trade.sellerLockHash sell.ownerLockHash ∧
      sameHex event.trade.xudtTypeHash sell.xudtTypeHash ∧
      event.trade.tokenAmount = sell.remainingAmount ∧
      event.trade.price = sell.pricePerToken)) "trade fields differ from the matched orders"

def verifyTradeConfirmed (v : ChainVerification) (event : TradeConfirmedEvent) : Proc Unit := do
  require (rejectIf (some event.trade.confirmedAtBlock ≠ event.blockNumber)
    "confirmed block disagrees with event block")
  let orders ← load [toOrderId event.buyOrderOutPoint, toOrderId event.sellOrderOutPoint]
  if orders.length ≠ 2 then return ()
  else do
    let (buy, sell) ← require (checkPair event orders)
    let tx ← requireConfirmed v event.trade.settlementTxHash event.toEventBase
    require (checkTrade event buy sell tx)

def checkAncestor (event : ChainReorgEvent) : Except Failure Unit :=
  match event.ancestorBlockNumber with
  | none => return ()
  | some ancestor => do
      let last ← toBigInt ancestor
      let reverted ← toBigInt event.revertedBlockNumber
      rejectIf (reverted ≤ last) "ancestor block must precede the reverted block"

def verifyChainReorg (event : ChainReorgEvent) : Proc Unit := do
  require (checkAncestor event)
  let reverted ← require (toBigInt event.revertedBlockNumber)
  let canonical : Option Hash ← request (.getHeaderHash reverted)
  require (rejectIf (canonical.any fun hash => sameHex (hashText hash) event.revertedBlockHash)
    "claimed reverted block is still canonical")

def verifyEvent (v : ChainVerification) : BotEvent → Proc Unit
  | .orderConfirmed e => verifyOrderConfirmed v e
  | .orderCancelled e => verifyOrderCancelled v e
  | .settlementSubmitted e => verifySettlementSubmitted v e
  | .tradeConfirmed e => verifyTradeConfirmed v e
  | .chainReorg e => verifyChainReorg e

def messageOf : Failure → String
  | .app _ message _ => message
  | .other message => message

/-- The audit record of a failed event; a failure to write it is only logged. -/
def auditFailure (event : BotEvent) (error : Failure) : Proc Unit :=
  tryCatch (request (.recordFailed event.eventId (messageOf error))) fun _ => pure ()

/-- Rejections are audited, transient trouble is reported as 503. -/
def reportFailure (event : BotEvent) (error : Failure) : Proc Unit :=
  match error with
  | .app statusCode _ _ =>
      if statusCode = 422 then do
        auditFailure event error
        throw error
      else throw error
  | .other message => throw (appError 503 s!"Unable to verify event against CKB: {message}")

def verify (v : ChainVerification) (event : BotEvent) : Proc Unit :=
  tryCatch (verifyEvent v event) (reportFailure event)

/-- How the outcome of the transaction is reported. -/
def reportOutcome (event : BotEvent) : Outcome → Proc IngestionResult
  | .committed result => return result
  | .duplicateKey => return ignored event.eventId "duplicate-event-id"
  | .aborted error => do
      auditFailure event error
      throw error

def ingest (v : ChainVerification) (event : BotEvent) : Proc IngestionResult := do
  let existing : Bool ← request (.processed event.eventId)
  if existing then return ignored event.eventId "duplicate-event-id"
  else do
    verify v event
    let outcome : Outcome ← request (.transact event)
    reportOutcome event outcome

end CkbDex.EventVerification
