import CkbDex.IngestionSteps

/-!
# What applying an event can do

One inversion lemma for each `apply` function, and the facts of an order
document that no event changes once the order is confirmed.
-/
namespace CkbDex.ProjectionSteps
open Checked Text Documents BotEvents Collections Projection Operations IngestionSteps

variable {drivers : Drivers} {db next : Db} {result : IngestionResult}

theorem castNumber_eq_ok {s : String} {u : Unit} :
    castNumber s = .ok u ↔ Number.number s ≠ .nan :=
  throwIf_eq_ok

/-- An order-confirmed event is ignored for an indexed order; otherwise it
stores the order anew. -/
theorem applyOrderConfirmed_eq_ok {event : OrderConfirmedEvent} :
    applyOrderConfirmed drivers event db = .ok (result, next) ↔
      (alreadyIndexed (db.orders.find? (toOrderId event.outPoint)) event = true ∧
        result = ignored event.eventId "order-already-indexed" ∧ next = db) ∨
      (alreadyIndexed (db.orders.find? (toOrderId event.outPoint)) event = false ∧
        drivers.decimal128 event.order.pricePerToken = true ∧
        Number.number event.order.blockNumber ≠ .nan ∧ Number.number event.order.txIndex ≠ .nan ∧
        result = applied event.eventId ∧ next = db.putOrder
          (confirmedDocument (db.orders.find? (toOrderId event.outPoint)) event)) := by
  have hdef : applyOrderConfirmed drivers event db =
      if alreadyIndexed (db.orders.find? (toOrderId event.outPoint)) event then
        .ok (ignored event.eventId "order-already-indexed", db)
      else do
        throwIf (¬drivers.decimal128 event.order.pricePerToken)
          (.other "not a valid Decimal128 string")
        castNumber event.order.blockNumber
        castNumber event.order.txIndex
        return (applied event.eventId,
          db.putOrder (confirmedDocument (db.orders.find? (toOrderId event.outPoint)) event)) := rfl
  rw [hdef]
  cases alreadyIndexed (db.orders.find? (toOrderId event.outPoint)) event with
  | true =>
      simp only [if_true, true_and, Bool.true_eq_false, false_and, or_false, Except.ok.injEq,
        Prod.mk.injEq]
      exact and_congr eq_comm eq_comm
  | false =>
      simp only [Bool.false_eq_true, if_false, bind_eq_ok, throwIf_eq_ok, castNumber_eq_ok]
      simp only [exists_const, not_not, false_and, true_and, false_or, pure, Except.pure,
        Except.ok.injEq, Prod.mk.injEq]
      exact and_congr_right fun _ => and_congr_right fun _ => and_congr_right fun _ =>
        and_congr eq_comm eq_comm

theorem applyOrderCancelled_eq_ok {event : OrderCancelledEvent} :
    applyOrderCancelled event db = .ok (result, next) ↔
      (db.orders.find? (toOrderId event.outPoint) = none ∧
        result = ignored event.eventId "order-not-found" ∧ next = db) ∨
      ∃ order, db.orders.find? (toOrderId event.outPoint) = some order ∧
        canTransition order.status .canceled = true ∧ result = applied event.eventId ∧
        next = db.putOrder (cancelledDocument event order) := by
  unfold applyOrderCancelled
  cases hx : db.orders.find? (toOrderId event.outPoint) with
  | none =>
      simp only [true_and, reduceCtorEq, false_and, pure, Except.pure, Except.ok.injEq,
        Prod.mk.injEq]
      simp only [exists_false, or_false]
      exact and_congr eq_comm eq_comm
  | some order =>
      simp only [bind_eq_ok, throwIf_eq_ok]
      simp only [exists_const, not_not, reduceCtorEq, false_and, false_or, Option.some_inj,
        exists_eq_left', pure, Except.pure, Except.ok.injEq, Prod.mk.injEq]
      exact and_congr_right fun _ => and_congr eq_comm eq_comm

/-- The orders found by id are all there and may all turn to a status. -/
structure Ready (db : Db) (ids : List String) (status : OrderStatus) : Prop where
  found : (db.findOrders ids).length = ids.length
  allowed : ∀ order ∈ db.orders.docs, order.id ∈ ids → canTransition order.status status = true

theorem findOrders_subperm (db : Db) (ids : List String) :
    ((db.findOrders ids).map OrderDocument.id).Subperm ids := by
  apply List.subperm_of_subset (db.orders.nodup.sublist (List.filter_sublist.map _))
  intro id hid
  obtain ⟨order, hmem, rfl⟩ := List.mem_map.mp hid
  exact of_decide_eq_true (Collection.mem_filter.mp hmem).2

/-- A search for several orders that finds as many as there are ids finds all. -/
theorem find?_of_length_findOrders {ids : List String} (h : (db.findOrders ids).length = ids.length) :
    ∀ id ∈ ids, ∃ order, db.orders.find? id = some order := by
  have hperm := (findOrders_subperm db ids).perm_of_length_le (by rw [List.length_map, h])
  intro id hid
  obtain ⟨order, hmem, rfl⟩ := List.mem_map.mp (hperm.mem_iff.mpr hid)
  exact ⟨order, Collection.find?_of_mem (Collection.mem_filter.mp hmem).1⟩

theorem length_findOrders_iff {ids : List String} (hids : ids.Nodup) :
    (db.findOrders ids).length = ids.length ↔ ∀ id ∈ ids, db.orders.find? id ≠ none := by
  constructor
  · intro h id hid
    exact Option.ne_none_iff_exists'.mpr (find?_of_length_findOrders h id hid)
  · intro h
    have hall : ids.Subperm ((db.findOrders ids).map OrderDocument.id) := by
      apply List.subperm_of_subset hids
      intro id hid
      obtain ⟨order, horder⟩ := Option.ne_none_iff_exists'.mp (h id hid)
      obtain ⟨hmem, rfl⟩ := Collection.find?_eq_some.mp horder
      exact List.mem_map_of_mem (Collection.mem_filter.mpr ⟨hmem, decide_eq_true hid⟩)
    rw [← List.length_map OrderDocument.id]
    exact le_antisymm (findOrders_subperm db ids).length_le hall.length_le

theorem any_blocked {ids : List String} {status : OrderStatus} :
    ((db.findOrders ids).any fun order => !canTransition order.status status) = false ↔
      ∀ order ∈ db.orders.docs, order.id ∈ ids → canTransition order.status status = true := by
  simp only [List.any_eq_false, Db.findOrders, Collection.mem_filter, decide_eq_true_eq,
    Bool.not_eq_true', Bool.not_eq_false, and_imp]

theorem applySettlementSubmitted_eq_ok {event : SettlementSubmittedEvent}
    (h : applySettlementSubmitted event db = .ok (result, next)) :
    (result.status = .ignored ∧ next = db) ∨
      Ready db (event.orderOutPoints.map toOrderId) .pending ∧ result = applied event.eventId ∧
        next = db.saveOrders (event.orderOutPoints.map toOrderId) (pendingDocument event)
          fun _ => rfl := by
  unfold applySettlementSubmitted at h
  simp only at h
  split_ifs at h with hlen hany
  · obtain ⟨rfl, rfl⟩ := Prod.mk.inj (Except.ok.inj h)
    exact Or.inl ⟨rfl, rfl⟩
  · obtain ⟨rfl, rfl⟩ := Prod.mk.inj (Except.ok.inj h)
    exact Or.inl ⟨rfl, rfl⟩
  · obtain ⟨rfl, rfl⟩ := Prod.mk.inj (Except.ok.inj h)
    refine Or.inr ⟨⟨?_, any_blocked.mp (Bool.eq_false_iff.mpr hany)⟩, rfl, rfl⟩
    rw [List.length_map]
    exact not_not.mp hlen

/-- Orders that may all turn to PENDING do so. -/
theorem applySettlementSubmitted_of_ready {event : SettlementSubmittedEvent}
    (hready : Ready db (event.orderOutPoints.map toOrderId) .pending) :
    applySettlementSubmitted event db = .ok (applied event.eventId,
      db.saveOrders (event.orderOutPoints.map toOrderId) (pendingDocument event) fun _ => rfl) := by
  have hlen : (db.findOrders (event.orderOutPoints.map toOrderId)).length =
      event.orderOutPoints.length := by
    rw [hready.found, List.length_map]
  have hany := any_blocked.mpr hready.allowed
  unfold applySettlementSubmitted
  simp only [hlen, hany, ne_eq, not_true_eq_false, if_false, Bool.false_eq_true]
  rfl

/-- The ids of the two orders that a trade names. -/
def tradeIds (event : TradeConfirmedEvent) : List String :=
  [toOrderId event.buyOrderOutPoint, toOrderId event.sellOrderOutPoint]

theorem applyTradeConfirmed_eq_ok {event : TradeConfirmedEvent}
    (h : applyTradeConfirmed event db = .ok (result, next)) :
    (result.status = .ignored ∧ next = db) ∨
      Ready db (tradeIds event) .filled ∧ result = applied event.eventId ∧
        next = { db.saveOrders (tradeIds event) (filledDocument event) fun _ => rfl with
          trades := db.trades.put
            (confirmedTrade (db.trades.find? event.trade.settlementTxHash) event) } := by
  unfold applyTradeConfirmed at h
  simp only at h
  split_ifs at h with hlen hany
  · obtain ⟨rfl, rfl⟩ := Prod.mk.inj (Except.ok.inj h)
    exact Or.inl ⟨rfl, rfl⟩
  · obtain ⟨rfl, rfl⟩ := Prod.mk.inj (Except.ok.inj h)
    exact Or.inl ⟨rfl, rfl⟩
  · rw [bind_eq_ok] at h
    obtain ⟨_, -, hret⟩ := h
    obtain ⟨rfl, rfl⟩ := Prod.mk.inj (Except.ok.inj hret)
    exact Or.inr ⟨⟨not_not.mp hlen, any_blocked.mp (Bool.eq_false_iff.mpr hany)⟩, rfl, rfl⟩

/-- Two orders that may be filled are filled. -/
theorem applyTradeConfirmed_of_ready {event : TradeConfirmedEvent}
    (hready : Ready db (tradeIds event) .filled)
    (hnumber : Number.number (event.blockNumber.getD event.trade.confirmedAtBlock) ≠ .nan) :
    applyTradeConfirmed event db = .ok (applied event.eventId,
      { db.saveOrders (tradeIds event) (filledDocument event) fun _ => rfl with
        trades := db.trades.put
          (confirmedTrade (db.trades.find? event.trade.settlementTxHash) event) }) := by
  have hlen : (db.findOrders (tradeIds event)).length = 2 := hready.found
  have hany := any_blocked.mpr hready.allowed
  have hcast : castNumber (event.blockNumber.getD event.trade.confirmedAtBlock) = .ok () :=
    castNumber_eq_ok.mpr hnumber
  unfold applyTradeConfirmed
  rw [tradeIds] at hlen hany
  simp only [hlen, hany, hcast, ne_eq, not_true_eq_false, if_false, Bool.false_eq_true]
  rfl

theorem applyChainReorg_eq_ok {event : ChainReorgEvent} :
    applyChainReorg drivers event db = .ok (result, next) ↔
      result = applied event.eventId ∧ next = rollBack drivers event db := by
  simp only [applyChainReorg, pure, Except.pure, Except.ok.injEq, Prod.mk.injEq]
  exact and_congr eq_comm eq_comm

/-- An ignored event changes nothing. -/
theorem applyEvent_ignored {event : BotEvent}
    (h : applyEvent drivers event db = .ok (result, next))
    (hignored : result.status = .ignored) : next = db := by
  cases event with
  | orderConfirmed e =>
      rcases applyOrderConfirmed_eq_ok.mp h with ⟨-, -, rfl⟩ | ⟨-, -, -, -, rfl, -⟩
      · rfl
      · cases hignored
  | orderCancelled e =>
      rcases applyOrderCancelled_eq_ok.mp h with ⟨-, -, rfl⟩ | ⟨order, -, -, rfl, -⟩
      · rfl
      · cases hignored
  | settlementSubmitted e =>
      rcases applySettlementSubmitted_eq_ok h with ⟨-, rfl⟩ | ⟨-, rfl, -⟩
      · rfl
      · cases hignored
  | tradeConfirmed e =>
      rcases applyTradeConfirmed_eq_ok h with ⟨-, rfl⟩ | ⟨-, rfl, -⟩
      · rfl
      · cases hignored
  | chainReorg e =>
      obtain ⟨rfl, -⟩ := applyChainReorg_eq_ok.mp h
      cases hignored

/-- The facts of an order that its confirmation fixes. -/
structure OrderFacts where
  id : String
  outPoint : OutPoint
  lockScript : ScriptDocument
  typeScript : Option ScriptDocument
  cellData : Hex
  capacity : String
  ownerLock : ScriptDocument
  ownerLockHash : Hex
  direction : Direction
  pricePerToken : String
  remainingAmount : String
  xudtTypeHash : Hex
  blockNumber : String
  txIndex : String
  createdBlockHash : Option Hex

def factsOf (order : OrderDocument) : OrderFacts where
  id := order.id
  outPoint := order.outPoint
  lockScript := order.lockScript
  typeScript := order.typeScript
  cellData := order.cellData
  capacity := order.capacity
  ownerLock := order.ownerLock
  ownerLockHash := order.ownerLockHash
  direction := order.direction
  pricePerToken := order.pricePerToken
  remainingAmount := order.remainingAmount
  xudtTypeHash := order.xudtTypeHash
  blockNumber := order.blockNumber
  txIndex := order.txIndex
  createdBlockHash := order.createdBlockHash

@[simp] theorem factsOf_cancelledDocument (event : OrderCancelledEvent) (order : OrderDocument) :
    factsOf (cancelledDocument event order) = factsOf order := rfl

@[simp] theorem factsOf_pendingDocument (event : SettlementSubmittedEvent) (order : OrderDocument) :
    factsOf (pendingDocument event order) = factsOf order := rfl

@[simp] theorem factsOf_filledDocument (event : TradeConfirmedEvent) (order : OrderDocument) :
    factsOf (filledDocument event order) = factsOf order := rfl

@[simp] theorem factsOf_rollBackOrder (event : ChainReorgEvent) (order : OrderDocument) :
    factsOf (rollBackOrder drivers event order) = factsOf order := by
  unfold rollBackOrder
  split_ifs <;> rfl

theorem mem_saveOrders {ids : List String} {update : OrderDocument → OrderDocument}
    {hid : ∀ order, (update order).id = order.id} {order : OrderDocument} :
    order ∈ (db.saveOrders ids update hid).orders.docs ↔
      ∃ old ∈ db.orders.docs, order = if old.id ∈ ids then update old else old := by
  simp only [Db.saveOrders, Collection.mem_docs_map]
  exact exists_congr fun old => and_congr_right fun _ => eq_comm

theorem find?_saveOrders (ids : List String) (update : OrderDocument → OrderDocument)
    (hid : ∀ order, (update order).id = order.id) {id : String} :
    (db.saveOrders ids update hid).orders.find? id =
      (db.orders.find? id).map fun order => if order.id ∈ ids then update order else order := by
  simp only [Db.saveOrders, Collection.find?_map]

theorem facts_of_saveOrders (ids : List String) (update : OrderDocument → OrderDocument)
    (hid : ∀ order, (update order).id = order.id)
    (hupdate : ∀ order, factsOf (update order) = factsOf order) {order : OrderDocument}
    (hmem : order ∈ (db.saveOrders ids update hid).orders.docs) :
    ∃ old ∈ db.orders.docs, factsOf order = factsOf old := by
  obtain ⟨old, hold, rfl⟩ := mem_saveOrders.mp hmem
  refine ⟨old, hold, ?_⟩
  split_ifs
  · exact hupdate old
  · rfl

/-- An order after an event is one from before with the same facts, or the
order that the event confirmed. -/
theorem facts_of_applyEvent {event : BotEvent} (h : applyEvent drivers event db = .ok (result, next))
    {order : OrderDocument} (hmem : order ∈ next.orders.docs) :
    (∃ old ∈ db.orders.docs, factsOf order = factsOf old) ∨
      ∃ e, event = .orderConfirmed e ∧
        order = confirmedDocument (db.orders.find? (toOrderId e.outPoint)) e := by
  have hkeep : ∀ {db' : Db}, db' = db → order ∈ db'.orders.docs →
      ∃ old ∈ db.orders.docs, factsOf order = factsOf old := by
    rintro _ rfl hm
    exact ⟨order, hm, rfl⟩
  cases event with
  | orderConfirmed e =>
      rcases applyOrderConfirmed_eq_ok.mp h with ⟨-, -, rfl⟩ | ⟨-, -, -, -, -, rfl⟩
      · exact Or.inl (hkeep rfl hmem)
      · rcases Collection.mem_docs_put.mp hmem with rfl | ⟨hm, -⟩
        · exact Or.inr ⟨e, rfl, rfl⟩
        · exact Or.inl (hkeep rfl hm)
  | orderCancelled e =>
      refine Or.inl ?_
      rcases applyOrderCancelled_eq_ok.mp h with ⟨-, -, rfl⟩ | ⟨old, hold, -, -, rfl⟩
      · exact hkeep rfl hmem
      · rcases Collection.mem_docs_put.mp hmem with rfl | ⟨hm, -⟩
        · exact ⟨old, (Collection.find?_eq_some.mp hold).1, rfl⟩
        · exact hkeep rfl hm
  | settlementSubmitted e =>
      refine Or.inl ?_
      rcases applySettlementSubmitted_eq_ok h with ⟨-, rfl⟩ | ⟨-, -, rfl⟩
      · exact hkeep rfl hmem
      · exact facts_of_saveOrders _ (pendingDocument e) (fun _ => rfl) (fun _ => rfl) hmem
  | tradeConfirmed e =>
      refine Or.inl ?_
      rcases applyTradeConfirmed_eq_ok h with ⟨-, rfl⟩ | ⟨-, -, rfl⟩
      · exact hkeep rfl hmem
      · exact facts_of_saveOrders (tradeIds e) (filledDocument e) (fun _ => rfl) (fun _ => rfl) hmem
  | chainReorg e =>
      refine Or.inl ?_
      obtain ⟨-, rfl⟩ := applyChainReorg_eq_ok.mp h
      simp only [rollBack, Collection.mem_docs_map] at hmem
      obtain ⟨old, hold, rfl⟩ := hmem
      exact ⟨old, hold, factsOf_rollBackOrder e old⟩

/-- The facts of a trade that are written on insertion only. -/
structure TradeFacts where
  id : Hex
  settlementTxHash : Hex
  buyOrderOutPoint : OutPoint
  sellOrderOutPoint : OutPoint
  buyerLockHash : Hex
  sellerLockHash : Hex
  xudtTypeHash : Hex
  tokenAmount : String
  price : String
  paidCapacity : String

def tradeFactsOf (trade : TradeDocument) : TradeFacts where
  id := trade.id
  settlementTxHash := trade.settlementTxHash
  buyOrderOutPoint := trade.buyOrderOutPoint
  sellOrderOutPoint := trade.sellOrderOutPoint
  buyerLockHash := trade.buyerLockHash
  sellerLockHash := trade.sellerLockHash
  xudtTypeHash := trade.xudtTypeHash
  tokenAmount := trade.tokenAmount
  price := trade.price
  paidCapacity := trade.paidCapacity

def claimedFacts (event : TradeConfirmedEvent) : TradeFacts where
  id := event.trade.settlementTxHash
  settlementTxHash := event.trade.settlementTxHash
  buyOrderOutPoint := event.buyOrderOutPoint
  sellOrderOutPoint := event.sellOrderOutPoint
  buyerLockHash := event.trade.buyerLockHash
  sellerLockHash := event.trade.sellerLockHash
  xudtTypeHash := event.trade.xudtTypeHash
  tokenAmount := event.trade.tokenAmount
  price := event.trade.price
  paidCapacity := event.trade.paidCapacity

theorem tradeFactsOf_confirmedTrade (existing : Option TradeDocument) (event : TradeConfirmedEvent) :
    tradeFactsOf (confirmedTrade existing event) = existing.elim (claimedFacts event) tradeFactsOf := by
  cases existing <;> rfl

@[simp] theorem tradeFactsOf_rollBackTrade (event : ChainReorgEvent) (trade : TradeDocument) :
    tradeFactsOf (rollBackTrade drivers event trade) = tradeFactsOf trade := by
  unfold rollBackTrade
  split_ifs <;> rfl

/-- A trade after an event is one from before with the same facts, or the
trade that the event inserted. -/
theorem tradeFacts_of_applyEvent {event : BotEvent}
    (h : applyEvent drivers event db = .ok (result, next)) {trade : TradeDocument}
    (hmem : trade ∈ next.trades.docs) :
    (∃ old ∈ db.trades.docs, tradeFactsOf trade = tradeFactsOf old) ∨
      ∃ e, event = .tradeConfirmed e ∧ Ready db (tradeIds e) .filled ∧
        db.trades.find? e.trade.settlementTxHash = none ∧ trade = confirmedTrade none e := by
  have hkeep : ∀ {db' : Db}, db'.trades = db.trades → trade ∈ db'.trades.docs →
      ∃ old ∈ db.trades.docs, tradeFactsOf trade = tradeFactsOf old := by
    intro db' hsame hm
    exact ⟨trade, hsame ▸ hm, rfl⟩
  cases event with
  | orderConfirmed e =>
      rcases applyOrderConfirmed_eq_ok.mp h with ⟨-, -, rfl⟩ | ⟨-, -, -, -, -, rfl⟩
      · exact Or.inl (hkeep rfl hmem)
      · exact Or.inl (hkeep rfl hmem)
  | orderCancelled e =>
      rcases applyOrderCancelled_eq_ok.mp h with ⟨-, -, rfl⟩ | ⟨order, -, -, -, rfl⟩
      · exact Or.inl (hkeep rfl hmem)
      · exact Or.inl (hkeep rfl hmem)
  | settlementSubmitted e =>
      rcases applySettlementSubmitted_eq_ok h with ⟨-, rfl⟩ | ⟨-, -, rfl⟩
      · exact Or.inl (hkeep rfl hmem)
      · exact Or.inl (hkeep rfl hmem)
  | tradeConfirmed e =>
      rcases applyTradeConfirmed_eq_ok h with ⟨-, rfl⟩ | ⟨hready, -, rfl⟩
      · exact Or.inl (hkeep rfl hmem)
      · rcases Collection.mem_docs_put.mp hmem with htrade | ⟨hm, -⟩
        · cases hold : db.trades.find? e.trade.settlementTxHash with
          | none =>
              rw [hold] at htrade
              exact Or.inr ⟨e, rfl, hready, hold, htrade⟩
          | some old =>
              refine Or.inl ⟨old, (Collection.find?_eq_some.mp hold).1, ?_⟩
              rw [htrade, hold, tradeFactsOf_confirmedTrade]
              rfl
        · exact Or.inl (hkeep rfl hm)
  | chainReorg e =>
      obtain ⟨-, rfl⟩ := applyChainReorg_eq_ok.mp h
      simp only [rollBack, Collection.mem_docs_map] at hmem
      obtain ⟨old, hold, rfl⟩ := hmem
      exact Or.inl ⟨old, hold, tradeFactsOf_rollBackTrade e old⟩

def isTransact : Op → Bool
  | .transact _ => true
  | _ => false

theorem facts_of_updateOrder (id : String) (update : OrderDocument → OrderDocument)
    (hupdate : ∀ order, factsOf (update order) = factsOf order) {order : OrderDocument}
    (hmem : order ∈ (Db.updateOrder db id update).orders.docs) :
    ∃ old ∈ db.orders.docs, factsOf order = factsOf old := by
  unfold Db.updateOrder at hmem
  split at hmem
  · rename_i old hold
    rcases Collection.mem_docs_put.mp hmem with rfl | ⟨hm, -⟩
    · exact ⟨old, (Collection.find?_eq_some.mp hold).1, hupdate old⟩
    · exact ⟨order, hm, rfl⟩
  · exact ⟨order, hmem, rfl⟩

/-- The bot's own writes leave every order's facts and all trades alone. -/
theorem facts_of_write {op : Op} (hop : isTransact op = false) {order : OrderDocument} (node : Node)
    (hmem : order ∈ (handle drivers node op db).2.orders.docs) :
    ∃ old ∈ db.orders.docs, factsOf order = factsOf old := by
  have hkeep : order ∈ db.orders.docs → ∃ old ∈ db.orders.docs, factsOf order = factsOf old :=
    fun h => ⟨order, h, rfl⟩
  cases op with
  | transact event => cases hop
  | recordFailed id message =>
      simp only [handle, recordFailed] at hmem
      split_ifs at hmem <;> exact hkeep hmem
  | reserve id t =>
      simp only [handle, Db.reserve] at hmem
      split at hmem
      · rename_i old hold
        split_ifs at hmem
        · rcases Collection.mem_docs_put.mp hmem with rfl | ⟨hm, -⟩
          · exact ⟨old, (Collection.find?_eq_some.mp hold).1, rfl⟩
          · exact hkeep hm
        · exact hkeep hmem
      · exact hkeep hmem
  | revertToLive id => exact facts_of_updateOrder id releasedDocument (fun _ => rfl) hmem
  | extendReservation id t =>
      exact facts_of_updateOrder id (extendedDocument t) (fun _ => rfl) hmem
  | trackPending ids txHash =>
      exact facts_of_saveOrders ids (trackedDocument txHash) (fun _ => rfl) (fun _ => rfl) hmem
  | _ => exact hkeep hmem

theorem trades_of_write {op : Op} (hop : isTransact op = false) (node : Node) :
    (handle drivers node op db).2.trades = db.trades := by
  cases op with
  | transact event => cases hop
  | recordFailed id message =>
      simp only [handle, recordFailed]
      split_ifs <;> rfl
  | reserve id t =>
      simp only [handle, Db.reserve]
      split
      · split_ifs <;> rfl
      · rfl
  | revertToLive id =>
      simp only [handle, Db.revertToLive, Db.updateOrder]
      split <;> rfl
  | extendReservation id t =>
      simp only [handle, Db.extendReservation, Db.updateOrder]
      split <;> rfl
  | _ => rfl

end CkbDex.ProjectionSteps
