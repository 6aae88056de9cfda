import CkbDex.Documents

/-!
# Bot events

The versioned payloads that a producer sends, and the schema they pass before
ingestion. Fields that nothing but the audit record reads are left out.
-/
namespace CkbDex.BotEvents
open Bytes Text Documents

structure EventBase where
  eventId : String
  blockNumber : Option String
  blockHash : Option Hex
  deriving DecidableEq, Repr

structure ConfirmedOrder where
  lockScript : ScriptDocument
  typeScript : Option ScriptDocument
  cellData : Hex
  capacity : String
  ownerLock : ScriptDocument
  ownerLockHash : Hex
  ownerAddress : Option String
  direction : Direction
  pricePerToken : String
  tokenAmount : String
  xudtTypeHash : Hex
  blockNumber : String
  txIndex : String
  deriving DecidableEq, Repr

structure OrderConfirmedEvent extends EventBase where
  outPoint : OutPoint
  order : ConfirmedOrder
  deriving DecidableEq, Repr

structure OrderCancelledEvent extends EventBase where
  outPoint : OutPoint
  cancelledByTxHash : Hex
  deriving DecidableEq, Repr

structure SettlementSubmittedEvent extends EventBase where
  orderOutPoints : List OutPoint
  settlementTxHash : Hex
  deriving DecidableEq, Repr

structure ConfirmedTrade where
  settlementTxHash : Hex
  buyerLockHash : Hex
  sellerLockHash : Hex
  xudtTypeHash : Hex
  tokenAmount : String
  price : String
  paidCapacity : String
  confirmedAtBlock : String
  deriving DecidableEq, Repr

structure TradeConfirmedEvent extends EventBase where
  buyOrderOutPoint : OutPoint
  sellOrderOutPoint : OutPoint
  trade : ConfirmedTrade
  deriving DecidableEq, Repr

structure ChainReorgEvent extends EventBase where
  revertedBlockHash : Hex
  revertedBlockNumber : String
  ancestorBlockNumber : Option String
  deriving DecidableEq, Repr

inductive BotEvent where
  | orderConfirmed (e : OrderConfirmedEvent)
  | orderCancelled (e : OrderCancelledEvent)
  | settlementSubmitted (e : SettlementSubmittedEvent)
  | tradeConfirmed (e : TradeConfirmedEvent)
  | chainReorg (e : ChainReorgEvent)
  deriving DecidableEq, Repr

def BotEvent.base : BotEvent → EventBase
  | .orderConfirmed e => e.toEventBase
  | .orderCancelled e => e.toEventBase
  | .settlementSubmitted e => e.toEventBase
  | .tradeConfirmed e => e.toEventBase
  | .chainReorg e => e.toEventBase

abbrev BotEvent.eventId (e : BotEvent) : String := e.base.eventId

/-- `/^0x[0-9a-fA-F]{64}$/` -/
def isHash (s : String) : Bool := isHex s && s.toList.length = 66

/-- `z.string().min(1)` -/
def isNonempty (s : String) : Bool := s ≠ ""

def OutPoint.valid (o : OutPoint) : Bool := isHash o.txHash && isNonempty o.index

def ScriptDocument.valid (s : ScriptDocument) : Bool :=
  isHash s.codeHash && (hashTypeFrom s.hashType).isSome && isHex s.args

def EventBase.valid (e : EventBase) : Bool :=
  isNonempty e.eventId && e.blockNumber.all isNonempty && e.blockHash.all isHash

def ConfirmedOrder.valid (o : ConfirmedOrder) : Bool :=
  ScriptDocument.valid o.lockScript && o.typeScript.all ScriptDocument.valid && isHex o.cellData &&
    isNonempty o.capacity && ScriptDocument.valid o.ownerLock && isHash o.ownerLockHash &&
    isNonempty o.pricePerToken && isNonempty o.tokenAmount && isHash o.xudtTypeHash &&
    isNonempty o.blockNumber && isNonempty o.txIndex

def ConfirmedTrade.valid (t : ConfirmedTrade) : Bool :=
  isHash t.settlementTxHash && isHash t.buyerLockHash && isHash t.sellerLockHash &&
    isHash t.xudtTypeHash && isNonempty t.tokenAmount && isNonempty t.price &&
    isNonempty t.paidCapacity && isNonempty t.confirmedAtBlock

/-- `botEventSchema` -/
def BotEvent.valid (event : BotEvent) : Bool :=
  EventBase.valid event.base && match event with
    | .orderConfirmed e => OutPoint.valid e.outPoint && ConfirmedOrder.valid e.order
    | .orderCancelled e => OutPoint.valid e.outPoint && isHash e.cancelledByTxHash
    | .settlementSubmitted e =>
        (e.orderOutPoints.length = 2) && e.orderOutPoints.all OutPoint.valid &&
          isHash e.settlementTxHash
    | .tradeConfirmed e => OutPoint.valid e.buyOrderOutPoint && OutPoint.valid e.sellOrderOutPoint &&
        ConfirmedTrade.valid e.trade
    | .chainReorg e => isHash e.revertedBlockHash && isNonempty e.revertedBlockNumber &&
        e.ancestorBlockNumber.all isNonempty

theorem isHex_of_isHash {s : Hex} (h : isHash s = true) : isHex s = true :=
  (Bool.and_eq_true_iff.mp h).1

theorem length_of_isHash {s : Hex} (h : isHash s = true) : s.toList.length = 66 := by
  simpa using (Bool.and_eq_true_iff.mp h).2

@[simp] theorem isHash_hashText (hash : Hash) : isHash (hashText hash) = true := by
  rw [isHash, hashText, isHex_toHex, Bool.true_and, decide_eq_true_eq, toHex, String.toList_ofList,
    List.length_cons, List.length_cons, length_flatMap_hexPair, hash.length_toList]

/-- A text that passes the hash schema denotes the hash whose rendering it is
up to letter case. -/
theorem hashFrom_of_lower {s : Hex} {hash : Hash} (hs : isHash s = true)
    (h : lower s = hashText hash) : hashFrom s = some hash := by
  rw [hashFrom, bytesFrom_of_lower (isHex_of_isHash hs) h, Option.bind_some, tryInto_eq_some]

/-- A hash text of the schema and the hash it denotes. -/
def DenotesHash (s : Hex) (hash : Hash) : Prop := isHash s = true ∧ lower s = hashText hash

theorem DenotesHash.hashFrom {s : Hex} {hash : Hash} (h : DenotesHash s hash) :
    hashFrom s = some hash :=
  hashFrom_of_lower h.1 h.2

theorem DenotesHash.unique {s : Hex} {a b : Hash} (ha : DenotesHash s a) (hb : DenotesHash s b) :
    a = b :=
  hashText_injective (ha.2.symm.trans hb.2)

theorem DenotesHash.of_lower {s t : Hex} {hash : Hash} (h : DenotesHash s hash)
    (ht : isHash t = true) (hsame : lower t = lower s) : DenotesHash t hash :=
  ⟨ht, hsame.trans h.2⟩

theorem denotesHash_of_hashFrom {s : Hex} {hash : Hash} (hs : isHash s = true)
    (h : hashFrom s = some hash) : DenotesHash s hash := by
  refine ⟨hs, ?_⟩
  obtain ⟨digits, hd, hdigits⟩ := isHex_iff.mp (isHex_of_isHash hs)
  have hlen := length_of_isHash hs
  rw [hd] at hlen
  simp only [List.length_cons] at hlen
  have heven : digits.length % 2 = 0 := by omega
  have hbytes : hexBytes s = some hash.toList := by
    rw [hashFrom, Option.bind_eq_some_iff] at h
    obtain ⟨bs, hbs, hinto⟩ := h
    rw [tryInto_eq_some] at hinto
    rw [bytesFrom, hd, afterMarker_eq_some.mpr rfl, Option.bind_some, if_pos heven] at hbs
    rw [hexBytes, hd, afterMarker_eq_some.mpr rfl, Option.bind_some, hbs, hinto]
  exact lower_eq_toHex hbytes

end CkbDex.BotEvents
