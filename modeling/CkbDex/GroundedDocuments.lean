import CkbDex.ProjectionSteps
import CkbDex.Chains
import CkbDex.Bot
import Mathlib.Logic.Relation

/-!
# Documents grounded in the chain

A transaction hash commits to a transaction, so the cell that an out point
denotes never changes, whatever the chain does. In every state that ingestion
reaches, each order stands for such a cell and each trade for a transaction
that spends two of them.
-/
namespace CkbDex.GroundedDocuments
open Bytes CellContext OrderLock Text Number Documents BotEvents ChainCells Collections Projection
open Programs Operations Chains EventVerification IngestionSteps ProjectionSteps

/-- The cell that the verifier finds under an out point. -/
def cellOf (content : Content) (outPoint : OutPoint) : Option CellOutput := do
  let hash ← hashFrom outPoint.txHash
  let i ← (number outPoint.index).toIndex
  let tx ← content hash
  tx.outputs[i]?

theorem toOrderId_injective {a b : OutPoint} (ha : OutPoint.valid a = true)
    (hb : OutPoint.valid b = true) (h : toOrderId a = toOrderId b) : a = b := by
  have hla := length_of_isHash (Bool.and_eq_true_iff.mp ha).1
  have hlb := length_of_isHash (Bool.and_eq_true_iff.mp hb).1
  have hlist := congrArg String.toList h
  simp only [toOrderId, String.toList_append, List.append_assoc] at hlist
  obtain ⟨hhash, hrest⟩ := List.append_inj hlist (hla.trans hlb.symm)
  obtain ⟨txHash, index⟩ := a
  obtain ⟨txHash', index'⟩ := b
  obtain rfl : txHash = txHash' := String.toList_inj.mp hhash
  obtain rfl : index = index' := String.toList_inj.mp (List.append_cancel_left hrest)
  rfl

/-- An out point and the reference that an input to the same cell carries. -/
structure Locates (outPoint : OutPoint) (ref : CellRef) : Prop where
  txHash : lower outPoint.txHash = hashText ref.txHash
  index : bigInt outPoint.index = some (ref.index.toNat : ℤ)

theorem spends_iff {inputs : List CellRef} {outPoint : OutPoint} :
    Spends inputs outPoint ↔ ∃ ref ∈ inputs, Locates outPoint ref :=
  exists_congr fun _ => and_congr_right fun _ => ⟨fun h => ⟨h.1, h.2⟩, fun h => ⟨h.1, h.2⟩⟩

theorem Locates.unique {outPoint : OutPoint} {a b : CellRef} (ha : Locates outPoint a)
    (hb : Locates outPoint b) : a = b := by
  obtain ⟨txHash, index⟩ := a
  obtain ⟨txHash', index'⟩ := b
  obtain rfl : txHash = txHash' := hashText_injective (ha.txHash.symm.trans hb.txHash)
  have hindex := ha.index.symm.trans hb.index
  rw [Option.some_inj, Nat.cast_inj, BitVec.toNat_inj] at hindex
  exact congrArg _ hindex

/-- Two out points that denote the same cell for the verifier. -/
structure SameCell (a b : OutPoint) : Prop where
  txHash : hashFrom a.txHash = hashFrom b.txHash
  index : (number a.index).toIndex = (number b.index).toIndex

theorem Locates.hashFrom {outPoint : OutPoint} {ref : CellRef} (h : Locates outPoint ref)
    (hv : OutPoint.valid outPoint = true) : hashFrom outPoint.txHash = some ref.txHash :=
  hashFrom_of_lower (Bool.and_eq_true_iff.mp hv).1 h.txHash

theorem Locates.toIndex {outPoint : OutPoint} {ref : CellRef} (h : Locates outPoint ref) :
    (number outPoint.index).toIndex = some ref.index.toNat := by
  rw [number_of_bigInt_exact h.index (lt_trans ref.index.isLt (by norm_num)), toIndex_natCast]

/-- An input that spends an out point refers to the cell found under it. -/
theorem Locates.cellOf {content : Content} {outPoint : OutPoint} {ref : CellRef}
    (h : Locates outPoint ref) (hv : OutPoint.valid outPoint = true) :
    cellOf content outPoint = cellAt content ref := by
  simp only [GroundedDocuments.cellOf, h.hashFrom hv, h.toIndex, bind, Option.bind_some, cellAt]

/-- Out points denote the same cell exactly when they are those of one input. -/
theorem Locates.sameCell_iff {a b : OutPoint} {r s : CellRef} (ha : Locates a r) (hb : Locates b s)
    (hva : OutPoint.valid a = true) (hvb : OutPoint.valid b = true) : SameCell a b ↔ r = s := by
  constructor
  · rintro ⟨hhash, hindex⟩
    obtain ⟨txHash, index⟩ := r
    obtain ⟨txHash', index'⟩ := s
    rw [ha.hashFrom hva, hb.hashFrom hvb, Option.some_inj] at hhash
    rw [ha.toIndex, hb.toIndex, Option.some_inj, BitVec.toNat_inj] at hindex
    exact congrArg₂ _ hhash hindex
  · rintro rfl
    exact ⟨(ha.hashFrom hva).trans (hb.hashFrom hvb).symm, ha.toIndex.trans hb.toIndex.symm⟩

/-- A cell under the configured DEX lock whose args parse. -/
structure IsOrder (v : ChainVerification) (cell : CellOutput) (terms : OrderArgs) : Prop where
  codeHash : lower v.dexLock.codeHash = hashText cell.lock.codeHash
  hashType : hashTypeText cell.lock.hashType = v.dexLock.hashType
  terms : parseOrderArgs cell.lock.args = .ok terms

/-- The order cell of one side that a reference points to. -/
def OrderAt (v : ChainVerification) (content : Content) (ref : CellRef) (side : Direction)
    (terms : OrderArgs) : Prop :=
  ∃ cell, cellAt content ref = some cell ∧ IsOrder v cell terms ∧ directionOf terms.side = side

theorem OrderAt.terms_unique {v : ChainVerification} {content : Content} {ref : CellRef}
    {s t : Direction} {a b : OrderArgs} (ha : OrderAt v content ref s a)
    (hb : OrderAt v content ref t b) : a = b := by
  obtain ⟨cell, hcell, horder, -⟩ := ha
  obtain ⟨cell', hcell', horder', -⟩ := hb
  obtain rfl := Option.some_inj.mp (hcell.symm.trans hcell')
  exact Except.ok.inj (horder.terms.symm.trans horder'.terms)

theorem OrderAt.side_unique {v : ChainVerification} {content : Content} {ref : CellRef}
    {s t : Direction} {a b : OrderArgs} (ha : OrderAt v content ref s a)
    (hb : OrderAt v content ref t b) : s = t := by
  obtain rfl := ha.terms_unique hb
  obtain ⟨-, -, -, rfl⟩ := ha
  obtain ⟨-, -, -, rfl⟩ := hb
  rfl

/-- Every transaction spends at most one order cell of each side. -/
def OneOrderPerSide (v : ChainVerification) (content : Content) : Prop :=
  ∀ hash tx, content hash = some tx → ∀ r₁ ∈ tx.inputs, ∀ r₂ ∈ tx.inputs, ∀ side t₁ t₂,
    OrderAt v content r₁ side t₁ → OrderAt v content r₂ side t₂ → r₁ = r₂

/-- The facts of an order stand for a cell on chain: what the verifier compares
of them is what the cell and its lock args say. -/
structure Stands (v : ChainVerification) (content : Content) (order : OrderFacts)
    (cell : CellOutput) (terms : OrderArgs) : Prop where
  id : order.id = toOrderId order.outPoint
  valid : OutPoint.valid order.outPoint = true
  found : cellOf content order.outPoint = some cell
  isOrder : IsOrder v cell terms
  args : bytesFrom order.lockScript.args = some cell.lock.args
  data : bytesFrom order.cellData = some cell.data
  capacity : bigInt order.capacity = some (cell.capacity : ℤ)
  direction : order.direction = directionOf terms.side
  price : bigInt order.pricePerToken = some (terms.price.toNat : ℤ)
  amount : bigInt order.remainingAmount = some (terms.tokenAmount.toNat : ℤ)
  token : DenotesHash order.xudtTypeHash terms.xudtTypeHash
  maker : DenotesHash order.ownerLockHash terms.makerLockHash
  owner : ∃ owner, scriptFrom order.ownerLock = some owner ∧ v.hash owner = terms.makerLockHash

section
variable {v : ChainVerification} {content : Content} {drivers : Drivers} {node : Node}
  {db next : Db} {cell : CellOutput} {terms : OrderArgs}

/-- The reference under which a transaction spends a stored order. -/
theorem Stands.orderAt {order : OrderFacts} (h : Stands v content order cell terms)
    {outPoint : OutPoint} {ref : CellRef} (hv : OutPoint.valid outPoint = true)
    (hid : order.id = toOrderId outPoint) (hl : Locates outPoint ref) :
    OrderAt v content ref order.direction terms := by
  obtain rfl : order.outPoint = outPoint :=
    toOrderId_injective h.valid hv (h.id.symm.trans hid)
  exact ⟨cell, hl.cellOf hv ▸ h.found, h.isOrder, h.direction.symm⟩

theorem stands_confirmedDocument {event : OrderConfirmedEvent} {response : TxResponse}
    {tx : ChainTransaction} (ht : Truthful content node)
    (hv : (BotEvent.orderConfirmed event).valid = true)
    (h : OrderVerified v node event response tx cell terms) (existing : Option OrderDocument) :
    Stands v content (factsOf (confirmedDocument existing event)) cell terms := by
  obtain ⟨key, hkey, hget⟩ := h.confirmed.key
  obtain ⟨i, hi, hcell⟩ := h.checked.output
  simp only [BotEvent.valid, ConfirmedOrder.valid, ScriptDocument.valid, Bool.and_eq_true] at hv
  obtain ⟨-, hout, ⟨⟨⟨⟨⟨⟨⟨⟨⟨⟨⟨-, hargs⟩, -⟩, hdata⟩, -⟩, -⟩, hmaker⟩, -⟩, -⟩, htoken⟩, -⟩, -⟩⟩ := hv
  have hchecked := h.checked
  refine ⟨rfl, hout, ?_, ⟨hchecked.dexLock.1, hchecked.dexLock.2, hchecked.decoded⟩,
    bytesFrom_of_lower hargs hchecked.args, bytesFrom_of_lower hdata hchecked.data,
    hchecked.capacity, hchecked.direction, hchecked.price, hchecked.amount,
    ⟨htoken, hchecked.token⟩, ⟨hmaker, hchecked.maker⟩, hchecked.owner⟩
  simp only [factsOf, confirmedDocument, cellOf, hkey, hi, ht.transaction key response hget, bind,
    Option.bind_some, hcell]

end

/-- The facts of a trade stand for a transaction that spends a buy and a sell
order cell, and repeat the terms of these cells. -/
structure TradeStands (v : ChainVerification) (content : Content) (trade : TradeFacts) (tx : RawTx)
    (buyRef sellRef : CellRef) (buy sell : OrderArgs) : Prop where
  id : trade.id = trade.settlementTxHash
  buyValid : OutPoint.valid trade.buyOrderOutPoint = true
  sellValid : OutPoint.valid trade.sellOrderOutPoint = true
  settlement : ∃ hash, DenotesHash trade.settlementTxHash hash ∧ content hash = some tx
  buy_mem : buyRef ∈ tx.inputs
  sell_mem : sellRef ∈ tx.inputs
  buy_locates : Locates trade.buyOrderOutPoint buyRef
  sell_locates : Locates trade.sellOrderOutPoint sellRef
  buy_order : OrderAt v content buyRef .bid buy
  sell_order : OrderAt v content sellRef .ask sell
  buyer : DenotesHash trade.buyerLockHash buy.makerLockHash
  seller : DenotesHash trade.sellerLockHash sell.makerLockHash
  token : DenotesHash trade.xudtTypeHash sell.xudtTypeHash
  amount : bigInt trade.tokenAmount = some (sell.tokenAmount.toNat : ℤ)
  price : bigInt trade.price = some (sell.price.toNat : ℤ)

/-- Every order stands for a cell on chain. -/
def OrdersStand (v : ChainVerification) (content : Content) (db : Db) : Prop :=
  ∀ order ∈ db.orders.docs, ∃ cell terms, Stands v content (factsOf order) cell terms

/-- Every document stands for what the chain has. -/
structure Grounded (v : ChainVerification) (content : Content) (db : Db) : Prop where
  orders : OrdersStand v content db
  trades : ∀ trade ∈ db.trades.docs, ∃ tx buyRef sellRef buy sell,
    TradeStands v content (tradeFactsOf trade) tx buyRef sellRef buy sell

section
variable {v : ChainVerification} {content : Content} {drivers : Drivers} {node : Node}
  {db next : Db}

theorem tradeStands_claimedFacts {event : TradeConfirmedEvent} {response : TxResponse}
    {tx : ChainTransaction} {buy sell : OrderDocument} (hg : OrdersStand v content db)
    (ht : Truthful content node) (hv : (BotEvent.tradeConfirmed event).valid = true)
    (hbuy : db.orders.find? (toOrderId event.buyOrderOutPoint) = some buy)
    (hsell : db.orders.find? (toOrderId event.sellOrderOutPoint) = some sell)
    (h : TradeVerified v node event buy sell response tx) :
    ∃ buyRef sellRef b s, TradeStands v content (claimedFacts event) response.transaction
      buyRef sellRef b s := by
  obtain ⟨hbm, hbid⟩ := Collection.find?_eq_some.mp hbuy
  obtain ⟨hsm, hsid⟩ := Collection.find?_eq_some.mp hsell
  obtain ⟨bcell, b, hb⟩ := hg buy hbm
  obtain ⟨scell, s, hs⟩ := hg sell hsm
  obtain ⟨buyRef, hbmem, hbl⟩ := spends_iff.mp h.spends_buy
  obtain ⟨sellRef, hsmem, hsl⟩ := spends_iff.mp h.spends_sell
  obtain ⟨key, hkey, hget⟩ := h.confirmed.key
  simp only [BotEvent.valid, ConfirmedTrade.valid, Bool.and_eq_true] at hv
  obtain ⟨-, ⟨hbv, hsv⟩, ⟨⟨⟨⟨⟨⟨⟨htx, hbuyer⟩, hseller⟩, htoken⟩, -⟩, -⟩, -⟩, -⟩⟩ := hv
  have hbo := hb.orderAt hbv hbid hbl
  have hso := hs.orderAt hsv hsid hsl
  have hbd : (factsOf buy).direction = .bid := h.buy_direction
  have hsd : (factsOf sell).direction = .ask := h.sell_direction
  rw [hbd] at hbo
  rw [hsd] at hso
  refine ⟨buyRef, sellRef, b, s, rfl, hbv, hsv,
    ⟨key, denotesHash_of_hashFrom htx hkey, ht.transaction key response hget⟩, hbmem, hsmem, hbl,
    hsl, hbo, hso, hb.maker.of_lower hbuyer h.buyer, hs.maker.of_lower hseller h.seller,
    hs.token.of_lower htoken h.token, ?_, ?_⟩
  · exact (congrArg bigInt h.amount).trans hs.amount
  · exact (congrArg bigInt h.price).trans hs.price

/-- Both orders that a trade names are stored. -/
def tradeOrdersStored (db : Db) : BotEvent → Prop
  | .tradeConfirmed e => (db.findOrders (tradeIds e)).length = 2
  | _ => True

/-- What an event shows by passing verification on a state, whatever becomes of
that state later. A trade whose orders are not stored shows nothing. -/
def Shown (v : ChainVerification) (content : Content) (seen : Db) : BotEvent → Prop
  | .orderConfirmed e => (BotEvent.orderConfirmed e).valid = true ∧
      ∃ node response tx cell terms, Truthful content node ∧
        OrderVerified v node e response tx cell terms
  | .tradeConfirmed e => tradeOrdersStored seen (.tradeConfirmed e) →
      e.blockHash ≠ none ∧ e.blockNumber = some e.trade.confirmedAtBlock ∧
      ∃ tx buyRef sellRef buy sell, TradeStands v content (claimedFacts e) tx buyRef sellRef buy sell
  | _ => True

theorem shown_of_verified {event : BotEvent} (hg : OrdersStand v content db)
    (ht : Truthful content node) (hv : event.valid = true)
    (hverify : run drivers node (verifyEvent v event) db = (.ok (), db)) :
    Shown v content db event := by
  cases event with
  | orderConfirmed e =>
      obtain ⟨response, tx, cell, terms, hverified⟩ := run_verifyOrderConfirmed hverify
      exact ⟨hv, node, response, tx, cell, terms, ht, hverified⟩
  | tradeConfirmed e =>
      intro hstored
      obtain ⟨hnumber, buy, sell, response, tx, hbuy, hsell, hverified⟩ :=
        run_verifyTradeConfirmed hverify hstored
      obtain ⟨n, hash, -, -, ⟨text, htext, -⟩, -⟩ := hverified.confirmed.block
      obtain ⟨buyRef, sellRef, b, s, hstands⟩ :=
        tradeStands_claimedFacts hg ht hv hbuy hsell hverified
      exact ⟨by simp [htext], hnumber, _, buyRef, sellRef, b, s, hstands⟩
  | _ => trivial

theorem stored_of_applied {event : BotEvent} {result : IngestionResult}
    (happly : applyEvent drivers event db = .ok (result, next)) (happlied : result.status = .applied) :
    tradeOrdersStored db event := by
  cases event with
  | tradeConfirmed e =>
      rcases applyTradeConfirmed_eq_ok happly with ⟨hignored, -⟩ | ⟨hready, -, -⟩
      · rw [happlied] at hignored
        cases hignored
      · exact hready.found
  | _ => trivial

theorem grounded_empty : Grounded v content Db.empty where
  orders := fun _ h => nomatch h
  trades := fun _ h => nomatch h

theorem OrdersStand.of_facts (h : OrdersStand v content db)
    (hfacts : ∀ order ∈ next.orders.docs, ∃ old ∈ db.orders.docs, factsOf order = factsOf old) :
    OrdersStand v content next := by
  intro order hmem
  obtain ⟨old, hold, hsame⟩ := hfacts order hmem
  rw [hsame]
  exact h old hold

theorem Grounded.congr (h : Grounded v content db) (ho : next.orders = db.orders)
    (ht : next.trades = db.trades) : Grounded v content next where
  orders := fun order hmem => h.orders order (ho ▸ hmem)
  trades := ht ▸ h.trades

theorem Grounded.of_same {a b : Db} (hg : Grounded v content a) (h : SameProjection a b) :
    Grounded v content b :=
  hg.congr h.orders h.trades

section
variable {seen : Db} {event : BotEvent} {result : IngestionResult}

theorem OrdersStand.applyEvent (h : OrdersStand v content db) (hshown : Shown v content seen event)
    (happly : applyEvent drivers event db = .ok (result, next)) : OrdersStand v content next := by
  intro order hmem
  rcases facts_of_applyEvent happly hmem with ⟨old, hold, hfacts⟩ | ⟨e, rfl, rfl⟩
  · rw [hfacts]
    exact h old hold
  · obtain ⟨hv, node, response, tx, cell, terms, ht, hverified⟩ := hshown
    exact ⟨cell, terms, stands_confirmedDocument ht hv hverified _⟩

/-- An event that has shown what it claims keeps every document grounded. -/
theorem Grounded.applyEvent (hg : Grounded v content db) (hshown : Shown v content seen event)
    (happly : applyEvent drivers event db = .ok (result, next))
    (hstored : result.status = .applied → tradeOrdersStored seen event) : Grounded v content next where
  orders := hg.orders.applyEvent hshown happly
  trades := by
    cases hstatus : result.status with
    | ignored =>
        obtain rfl := applyEvent_ignored happly hstatus
        exact hg.trades
    | applied =>
        intro trade hmem
        rcases tradeFacts_of_applyEvent happly hmem with ⟨old, hold, hfacts⟩ | ⟨e, rfl, -, -, rfl⟩
        · rw [hfacts]
          exact hg.trades old hold
        · exact (hshown (hstored hstatus)).2.2

theorem Grounded.ingest (hg : Grounded v content db) (ht : Truthful content node)
    (hv : event.valid = true) : Grounded v content (run drivers node (ingest v event) db).2 := by
  rcases run_ingest drivers node v event db with hsame | ⟨result, next, -, hverify, happly, hrun, hnext⟩
  · exact hg.of_same hsame
  · rw [hrun]
    have hshown := shown_of_verified hg.orders ht hv hverify
    exact (hg.applyEvent hshown happly (stored_of_applied happly)).of_same hnext

theorem OrdersStand.write {op : Op} (h : OrdersStand v content db) (hop : isTransact op = false) :
    OrdersStand v content (handle drivers node op db).2 :=
  h.of_facts fun _ hmem => facts_of_write hop node hmem

theorem Grounded.write {op : Op} (hg : Grounded v content db) (hop : isTransact op = false) :
    Grounded v content (handle drivers node op db).2 where
  orders := hg.orders.write hop
  trades := by
    rw [trades_of_write hop node]
    exact hg.trades

end

/-- One event is delivered to the ingestion service, which asks an honest node.
An event that is applied keeps to a condition on the state it finds. -/
inductive Delivers (drivers : Drivers) (v : ChainVerification) (content : Content)
    (keeps : Db → BotEvent → Prop) (db : Db) : Db → Prop
  | ingest (node : Node) (event : BotEvent) (honest : Truthful content node)
      (valid : event.valid = true)
      (kept : ∀ result, (run drivers node (ingest v event) db).1 = .ok result →
        result.status = .applied → keeps db event) :
      Delivers drivers v content keeps db (run drivers node (ingest v event) db).2

/-- A condition that every event keeps to. -/
def unrestricted : Db → BotEvent → Prop := fun _ _ => True

theorem Delivers.free {keeps : Db → BotEvent → Prop}
    (h : Delivers drivers v content keeps db next) : Delivers drivers v content unrestricted db next := by
  cases h with
  | ingest node event honest valid kept => exact .ingest node event honest valid fun _ _ _ => trivial

theorem Grounded.delivers {keeps : Db → BotEvent → Prop} (hg : Grounded v content db)
    (h : Delivers drivers v content keeps db next) : Grounded v content next := by
  cases h with
  | ingest node event honest valid kept => exact hg.ingest honest valid

theorem grounded_of_delivers {keeps : Db → BotEvent → Prop}
    (h : Relation.ReflTransGen (Delivers drivers v content keeps) Db.empty db) :
    Grounded v content db := by
  induction h with
  | refl => exact grounded_empty
  | tail _ hstep ih => exact ih.delivers hstep

/-- An event that passed verification, and the state that it was compared with. -/
structure Verified where
  seen : Db
  event : BotEvent

/-- The database, and the deliveries whose transaction is still to run. -/
structure Service where
  db : Db
  verified : List Verified

/-- An event passes verification, the transaction of a verified event runs, or
the bot writes to the database by itself. The transaction reads the orders
again, on a state that others may have changed since the verification. An event
that is applied keeps to a condition on both states. -/
inductive Advances (drivers : Drivers) (v : ChainVerification) (content : Content)
    (keeps : Db → Db → BotEvent → Prop) (s : Service) : Service → Prop
  | verify (node : Node) (event : BotEvent) (honest : Truthful content node)
      (valid : event.valid = true)
      (passed : run drivers node (verifyEvent v event) s.db = (.ok (), s.db)) :
      Advances drivers v content keeps s ⟨s.db, ⟨s.db, event⟩ :: s.verified⟩
  | commit (checked : Verified) (mem : checked ∈ s.verified)
      (kept : ∀ result, (transact drivers checked.event s.db).1 = .committed result →
        result.status = .applied → keeps checked.seen s.db checked.event) :
      Advances drivers v content keeps s ⟨(transact drivers checked.event s.db).2, s.verified⟩
  | write (node : Node) (op : Op) (direct : isTransact op = false) :
      Advances drivers v content keeps s ⟨(handle drivers node op s.db).2, s.verified⟩

/-- A condition on the state that the transaction of an event finds. -/
def onFound (keeps : Db → BotEvent → Prop) : Db → Db → BotEvent → Prop :=
  fun _ db event => keeps db event

/-- A condition on the state that an event was verified on. -/
def onSeen (keeps : Db → BotEvent → Prop) : Db → Db → BotEvent → Prop :=
  fun seen _ event => keeps seen event

abbrev Leads (drivers : Drivers) (v : ChainVerification) (content : Content)
    (keeps : Db → Db → BotEvent → Prop) : Service → Service → Prop :=
  Relation.ReflTransGen (Advances drivers v content keeps)

def Service.empty : Service := ⟨Db.empty, []⟩

/-- The orders stand for cells, each verified event has shown what it claims,
and a trade is stored under the hash of its settlement. -/
structure Reliable (v : ChainVerification) (content : Content) (s : Service) : Prop where
  orders : OrdersStand v content s.db
  shown : ∀ checked ∈ s.verified, Shown v content checked.seen checked.event
  trades : ∀ trade ∈ s.db.trades.docs, trade.id = trade.settlementTxHash

section
variable {keeps : Db → Db → BotEvent → Prop} {s t : Service}

theorem reliable_empty : Reliable v content Service.empty where
  orders := fun _ h => nomatch h
  shown := fun _ h => nomatch h
  trades := fun _ h => nomatch h

/-- A trade keeps the hash that it was stored under. -/
theorem id_of_applyEvent {event : BotEvent} {result : IngestionResult}
    (h : ∀ trade ∈ db.trades.docs, trade.id = trade.settlementTxHash)
    (happly : applyEvent drivers event db = .ok (result, next)) :
    ∀ trade ∈ next.trades.docs, trade.id = trade.settlementTxHash := by
  intro trade hmem
  rcases tradeFacts_of_applyEvent happly hmem with ⟨old, hold, hfacts⟩ | ⟨e, -, -, -, rfl⟩
  · have hid : trade.id = old.id := congrArg TradeFacts.id hfacts
    have hhash : trade.settlementTxHash = old.settlementTxHash :=
      congrArg TradeFacts.settlementTxHash hfacts
    rw [hid, hhash]
    exact h old hold
  · rfl

theorem Reliable.advances (h : Reliable v content s) (hstep : Advances drivers v content keeps s t) :
    Reliable v content t := by
  cases hstep with
  | verify node event honest valid passed =>
      refine ⟨h.orders, fun checked hmem => ?_, h.trades⟩
      rcases List.mem_cons.mp hmem with rfl | hmem
      · exact shown_of_verified h.orders honest valid passed
      · exact h.shown checked hmem
  | commit checked mem kept =>
      rcases transact_cases drivers checked.event s.db with ⟨result, next, happly, -, hsame⟩ | ⟨hsame, -⟩
      · refine ⟨fun order hmem => ?_, h.shown, fun trade hmem => ?_⟩
        · rw [hsame.orders] at hmem
          exact h.orders.applyEvent (h.shown checked mem) happly order hmem
        · rw [hsame.trades] at hmem
          exact id_of_applyEvent h.trades happly trade hmem
      · rw [hsame]
        exact h
  | write node op direct =>
      refine ⟨h.orders.write direct, h.shown, ?_⟩
      rw [trades_of_write direct node]
      exact h.trades

/-- Whatever the interleaving of verifications, transactions and writes, every
order stands for a cell on chain. -/
theorem Reliable.leads (h : Reliable v content s) (hrun : Leads drivers v content keeps s t) :
    Reliable v content t := by
  induction hrun with
  | refl => exact h
  | tail _ hstep ih => exact ih.advances hstep

theorem Grounded.advances (hg : Grounded v content s.db) (h : Reliable v content s)
    (hkeeps : ∀ seen db event, keeps seen db event → tradeOrdersStored seen event)
    (hstep : Advances drivers v content keeps s t) : Grounded v content t.db := by
  cases hstep with
  | verify node event honest valid passed => exact hg
  | commit checked mem kept =>
      rcases transact_cases drivers checked.event s.db with
        ⟨result, next, happly, hcommitted, hsame⟩ | ⟨hsame, -⟩
      · refine Grounded.of_same ?_ hsame
        refine hg.applyEvent (h.shown checked mem) happly fun happlied => ?_
        exact hkeeps _ _ _ (kept result hcommitted happlied)
      · rw [hsame]
        exact hg
  | write node op direct => exact hg.write direct

/-- Where the orders of a trade are stored when it is verified, every document
stands for what the chain has. -/
theorem grounded_of_leads
    (hkeeps : ∀ seen db event, keeps seen db event → tradeOrdersStored seen event)
    (h : Leads drivers v content keeps Service.empty s) : Grounded v content s.db := by
  induction h with
  | refl => exact grounded_empty
  | tail hrun hstep ih => exact ih.advances (reliable_empty.leads hrun) hkeeps hstep

theorem advances_of_committed {checked : Verified} {result : IngestionResult}
    (mem : checked ∈ s.verified)
    (hcommit : transact drivers checked.event s.db = (.committed result, next))
    (hkeeps : keeps checked.seen s.db checked.event) :
    Advances drivers v content keeps s ⟨next, s.verified⟩ := by
  have h : Advances drivers v content keeps s _ := .commit checked mem fun _ _ _ => hkeeps
  rw [hcommit] at h
  exact h

/-- A whole delivery is a verification and a transaction with nothing in between. -/
theorem leads_of_delivers {keeps : Db → BotEvent → Prop}
    (h : Delivers drivers v content keeps db next) (verified : List Verified) :
    ∃ more, Leads drivers v content (onFound keeps) ⟨db, verified⟩ ⟨next, more⟩ := by
  cases h with
  | ingest node event honest valid kept =>
      rcases ingest_cases drivers node v event db with
        haudited | ⟨result, next, -, hverify, -, hcommitted, hrun, -⟩
      · rcases haudited with hsame | ⟨message, hsame⟩
        · rw [hsame]
          exact ⟨verified, .refl⟩
        · rw [hsame]
          exact ⟨verified, .single (.write node (.recordFailed event.eventId message) rfl)⟩
      · rw [hrun]
        refine ⟨⟨db, event⟩ :: verified, .tail (.single (.verify node event honest valid hverify)) ?_⟩
        refine .commit ⟨db, event⟩ List.mem_cons_self fun r hr happlied => ?_
        rw [hcommitted, Outcome.committed.injEq] at hr
        subst hr
        exact kept result (congrArg Prod.fst hrun) happlied

theorem leads_of_deliveries {keeps : Db → BotEvent → Prop}
    (h : Relation.ReflTransGen (Delivers drivers v content keeps) db next) (verified : List Verified) :
    ∃ more, Leads drivers v content (onFound keeps) ⟨db, verified⟩ ⟨next, more⟩ := by
  induction h with
  | refl => exact ⟨verified, .refl⟩
  | tail _ hstep ih =>
      obtain ⟨more, hlead⟩ := ih
      obtain ⟨last, hlast⟩ := leads_of_delivers hstep more
      exact ⟨last, hlead.trans hlast⟩

end

end

open SettlementBuilder OrderLockRules in
/-- Two makers are funded, create a buy and a sell order, and are settled or
cancel the buy order. -/
def exampleTxs : List (Hash × RawTx) :=
  [(exampleHash 10, ⟨[], [⟨40000000000, exampleOwner 1, none, []⟩,
      ⟨60000000000, exampleOwner 2, some exampleTokenType, exampleSellCell.data⟩,
      ⟨10000000000, exampleOwner 1, none, []⟩]⟩),
    (exampleHash 5, ⟨[⟨exampleHash 10, 0⟩, ⟨exampleHash 10, 1⟩], [exampleBuyCell, exampleSellCell]⟩),
    (exampleHash 11, ⟨[⟨exampleHash 5, 0⟩, ⟨exampleHash 5, 1⟩],
      [⟨30000005000, exampleOwner 2, none, []⟩,
        ⟨19999994500, exampleOwner 1, some exampleTokenType, exampleSellCell.data⟩]⟩),
    (exampleHash 12, ⟨[⟨exampleHash 5, 0⟩, ⟨exampleHash 10, 2⟩],
      [⟨20000000000, exampleOwner 1, none, []⟩]⟩)]

open SettlementBuilder OrderLockRules in
/-- The orders are created in block 1 of either branch. -/
def exampleBlocks : List (Hash × Block) :=
  [(exampleHash 20, ⟨exampleHash 0, [exampleHash 10]⟩),
    (exampleHash 21, ⟨exampleHash 20, [exampleHash 5]⟩),
    (exampleHash 22, ⟨exampleHash 21, [exampleHash 11]⟩),
    (exampleHash 23, ⟨exampleHash 21, [exampleHash 12]⟩),
    (exampleHash 31, ⟨exampleHash 20, [exampleHash 5]⟩)]

def exampleWorld : World where
  content hash := (exampleTxs.find? fun tx => tx.1 = hash).map Prod.snd
  block hash := (exampleBlocks.find? fun block => block.1 = hash).map Prod.snd

open OrderLockRules in
def exampleChain : Chain exampleWorld :=
  ⟨[exampleHash 20, exampleHash 21, exampleHash 22], by decide, by decide, by decide⟩

open OrderLockRules in
/-- The chain after block 1 was replaced by another that also creates the
orders. -/
def exampleFork : Chain exampleWorld :=
  ⟨[exampleHash 20, exampleHash 31], by decide, by decide, by decide⟩

open SettlementBuilder OrderLockRules in
def exampleVerification : ChainVerification where
  hash := exampleScriptHash
  dexLock := scriptText exampleDex
  confirmationDepth := 1
  supportedAssetHashes := [hashText (exampleHash 9)]

/-- Conversions that read decimal digits only. -/
def exampleDrivers : Drivers where
  decimal128 text := (digitsValue 10 text.toList).isSome
  toLong text := (digitsValue 10 text.toList).map Int.ofNat

end CkbDex.GroundedDocuments
