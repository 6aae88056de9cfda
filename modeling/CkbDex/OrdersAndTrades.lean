import CkbDex.Acceptance

/-!
# Orders and trades in step

Two orders and one trade record the same settlement, and each of the five
event handlers writes a part of it. An invariant over every delivery of
accepted events, and the three events that may break it.
-/
namespace CkbDex.OrdersAndTrades
open Checked Bytes CellContext Text Number Documents BotEvents ChainCells Collections Projection
open Programs Operations Chains EventVerification IngestionSteps ProjectionSteps GroundedDocuments
open Acceptance

/-- The id of the order that a trade names on one side. -/
def sideId (trade : TradeDocument) : Direction → String
  | .bid => toOrderId trade.buyOrderOutPoint
  | .ask => toOrderId trade.sellOrderOutPoint

/-- What an order records of the trade that filled it. -/
structure FilledBy (order : OrderDocument) (trade : TradeDocument) : Prop where
  status : order.status = .filled
  settlement : order.settlementTxHash = some trade.id
  blockHash : order.spentBlockHash = some trade.blockHash
  block : order.spentAtBlock = some trade.blockNumber
  named : order.id = sideId trade order.direction

/-- Every filled order has the confirmed trade that filled it. -/
def FilledHaveTrades (db : Db) : Prop :=
  ∀ order ∈ db.orders.docs, order.status = .filled →
    ∃ trade ∈ db.trades.docs, trade.status = .confirmed ∧ FilledBy order trade

/-- Filled orders and confirmed trades record the same settlements. -/
structure InStep (db : Db) : Prop where
  filled : FilledHaveTrades db
  confirmed : ∀ trade ∈ db.trades.docs, trade.status = .confirmed → ∀ side,
    ∃ order ∈ db.orders.docs, order.id = sideId trade side ∧ order.direction = side ∧
      FilledBy order trade

/-- The events after which orders and trades stay in step: no confirmation of
an order that is filled, no second confirmation of a settlement under other
spellings of its out points, and no rollback from a block between the
settlement and a later creation of a filled order. -/
def keepsInStep (drivers : Drivers) (db : Db) : BotEvent → Prop
  | .orderConfirmed e => ∀ order, db.orders.find? (toOrderId e.outPoint) = some order →
      order.status ≠ .filled
  | .tradeConfirmed e => ∀ trade, db.trades.find? e.trade.settlementTxHash = some trade →
      (SameCell trade.buyOrderOutPoint e.buyOrderOutPoint →
        trade.buyOrderOutPoint = e.buyOrderOutPoint) ∧
      (SameCell trade.sellOrderOutPoint e.sellOrderOutPoint →
        trade.sellOrderOutPoint = e.sellOrderOutPoint)
  | .chainReorg e => ∀ order ∈ db.orders.docs, order.status = .filled →
      atOrAfter drivers (rollbackFrom e) (some order.blockNumber) = true →
      atOrAfter drivers (rollbackFrom e) order.spentAtBlock = true
  | _ => True

section
variable {drivers : Drivers} {node : Node} {v : ChainVerification} {content : Content}
  {db next : Db} {result : IngestionResult}

theorem inStep_empty : InStep Db.empty where
  filled := fun _ h => nomatch h
  confirmed := fun _ h => nomatch h

/-- The order that a confirmed trade names is filled by it. -/
theorem InStep.filledBy (h : InStep db) {trade : TradeDocument} {order : OrderDocument}
    {side : Direction} (htrade : trade ∈ db.trades.docs) (hconfirmed : trade.status = .confirmed)
    (horder : order ∈ db.orders.docs) (hid : order.id = sideId trade side) :
    FilledBy order trade := by
  obtain ⟨named, hnamed, hnamedId, -, hfilled⟩ := h.confirmed trade htrade hconfirmed side
  obtain rfl : order = named :=
    List.inj_on_of_nodup_map db.orders.nodup horder hnamed (hid.trans hnamedId.symm)
  exact hfilled

/-- No order is part of two confirmed trades. -/
theorem InStep.trade_unique (h : InStep db) {a b : TradeDocument} {s t : Direction}
    (ha : a ∈ db.trades.docs) (hb : b ∈ db.trades.docs) (hac : a.status = .confirmed)
    (hbc : b.status = .confirmed) (hid : sideId a s = sideId b t) : a = b := by
  obtain ⟨order, horder, horderId, -, hfa⟩ := h.confirmed a ha hac s
  have hfb := h.filledBy hb hbc horder (horderId.trans hid)
  have hsame : a.id = b.id := Option.some_inj.mp (hfa.settlement.symm.trans hfb.settlement)
  exact List.inj_on_of_nodup_map db.trades.nodup ha hb hsame

theorem FilledHaveTrades.of_filled (h : FilledHaveTrades db) (htrades : next.trades = db.trades)
    (hfilled : ∀ order ∈ next.orders.docs, order.status = .filled → order ∈ db.orders.docs) :
    FilledHaveTrades next := by
  intro order horder hstatus
  rw [htrades]
  exact h order (hfilled order horder hstatus) hstatus

/-- Only filled orders and trades matter. -/
theorem InStep.of_filled (h : InStep db) (htrades : next.trades = db.trades)
    (hfilled : ∀ order, order.status = .filled →
      (order ∈ next.orders.docs ↔ order ∈ db.orders.docs)) : InStep next where
  filled := h.filled.of_filled htrades fun order horder hstatus => (hfilled order hstatus).mp horder
  confirmed := by
    intro trade htrade hconfirmed side
    rw [htrades] at htrade
    obtain ⟨order, horder, hid, hside, hby⟩ := h.confirmed trade htrade hconfirmed side
    exact ⟨order, (hfilled order hby.status).mpr horder, hid, hside, hby⟩

theorem InStep.of_same (h : InStep db) (hsame : SameProjection db next) : InStep next :=
  h.of_filled hsame.trades fun order _ => by rw [hsame.orders]

theorem InStep.putOrder (h : InStep db) {doc : OrderDocument} (hdoc : doc.status ≠ .filled)
    (hold : ∀ order, db.orders.find? doc.id = some order → order.status ≠ .filled) :
    InStep (db.putOrder doc) := by
  refine h.of_filled rfl fun order hstatus => ?_
  rw [Db.putOrder, Collection.mem_docs_put]
  constructor
  · rintro (rfl | ⟨horder, -⟩)
    · exact (hdoc hstatus).elim
    · exact horder
  · intro horder
    refine Or.inr ⟨horder, fun hid => ?_⟩
    exact hold order (Collection.find?_eq_some.mpr ⟨horder, hid⟩) hstatus

theorem InStep.saveOrders (h : InStep db) {ids : List String}
    {update : OrderDocument → OrderDocument} {hid : ∀ order, (update order).id = order.id}
    (hbefore : ∀ order ∈ db.orders.docs, order.id ∈ ids → order.status ≠ .filled)
    (hafter : ∀ order, (update order).status ≠ .filled) :
    InStep (db.saveOrders ids update hid) := by
  refine h.of_filled rfl fun order hstatus => ?_
  rw [mem_saveOrders]
  constructor
  · rintro ⟨old, hold, rfl⟩
    split_ifs at hstatus ⊢
    · exact (hafter old hstatus).elim
    · exact hold
  · intro horder
    exact ⟨order, horder, (if_neg fun hmem => hbefore order horder hmem hstatus).symm⟩

/-- Nothing but a rollback leaves the filled status. -/
theorem not_filled_of_canTransition {current status : OrderStatus} (hstatus : status ≠ .orphaned)
    (h : canTransition current status = true) : current ≠ .filled := by
  rintro rfl
  revert hstatus h
  cases status <;> decide

theorem InStep.orderConfirmed {event : OrderConfirmedEvent} (h : InStep db)
    (hkeeps : keepsInStep drivers db (.orderConfirmed event)) :
    InStep (db.putOrder (confirmedDocument (db.orders.find? (toOrderId event.outPoint)) event)) :=
  h.putOrder (by simp [confirmedDocument]) hkeeps

theorem InStep.orderCancelled {event : OrderCancelledEvent} {order : OrderDocument} (h : InStep db)
    (horder : db.orders.find? (toOrderId event.outPoint) = some order)
    (hallowed : canTransition order.status .canceled = true) :
    InStep (db.putOrder (cancelledDocument event order)) := by
  have hid : order.id = toOrderId event.outPoint := Collection.key_of_find? horder
  refine h.putOrder (by simp [cancelledDocument]) fun found hfound => ?_
  rw [cancelledDocument, hid, horder] at hfound
  obtain rfl := Option.some_inj.mp hfound
  exact not_filled_of_canTransition (by decide) hallowed

theorem InStep.settlementSubmitted {event : SettlementSubmittedEvent} (h : InStep db)
    (hready : Ready db (event.orderOutPoints.map toOrderId) .pending) :
    InStep (db.saveOrders (event.orderOutPoints.map toOrderId) (pendingDocument event)
      fun _ => rfl) := by
  refine h.saveOrders (fun order horder hmem => ?_) (fun _ => by simp [pendingDocument])
  exact not_filled_of_canTransition (by decide) (hready.allowed order horder hmem)

/-- A trade and the two orders that it fills, with what verification and the
spelling condition give. -/
structure SettlesOrders (db : Db) (event : TradeConfirmedEvent) (buy sell : OrderDocument) : Prop where
  ready : Ready db (tradeIds event) .filled
  buy_stored : db.orders.find? (toOrderId event.buyOrderOutPoint) = some buy
  sell_stored : db.orders.find? (toOrderId event.sellOrderOutPoint) = some sell
  buy_direction : buy.direction = .bid
  sell_direction : sell.direction = .ask
  blockHash : event.blockHash ≠ none
  blockNumber : event.blockNumber = some event.trade.confirmedAtBlock
  spelled : ∀ trade, db.trades.find? event.trade.settlementTxHash = some trade →
    trade.buyOrderOutPoint = event.buyOrderOutPoint ∧
    trade.sellOrderOutPoint = event.sellOrderOutPoint

theorem mem_tradeIds {event : TradeConfirmedEvent} {id : String} :
    id ∈ tradeIds event ↔ id = toOrderId event.buyOrderOutPoint ∨
      id = toOrderId event.sellOrderOutPoint := by
  simp [tradeIds]

section
variable {event : TradeConfirmedEvent} {buy sell : OrderDocument}

/-- The trade that the event leaves behind. -/
def settledTrade (db : Db) (event : TradeConfirmedEvent) : TradeDocument :=
  confirmedTrade (db.trades.find? event.trade.settlementTxHash) event

theorem id_settledTrade : (settledTrade db event).id = event.trade.settlementTxHash := by
  unfold settledTrade
  cases hold : db.trades.find? event.trade.settlementTxHash with
  | none => rfl
  | some trade =>
      have hid : trade.id = event.trade.settlementTxHash := Collection.key_of_find? hold
      exact hid

theorem SettlesOrders.sideId_eq (h : SettlesOrders db event buy sell) (side : Direction) :
    sideId (settledTrade db event) side =
      match side with
      | .bid => toOrderId event.buyOrderOutPoint
      | .ask => toOrderId event.sellOrderOutPoint := by
  unfold settledTrade
  cases hold : db.trades.find? event.trade.settlementTxHash with
  | none => cases side <;> rfl
  | some trade =>
      obtain ⟨hbuy, hsell⟩ := h.spelled trade hold
      cases side with
      | bid => exact congrArg toOrderId hbuy
      | ask => exact congrArg toOrderId hsell

/-- The order that the event names on a side. -/
theorem SettlesOrders.stored (h : SettlesOrders db event buy sell) (side : Direction) :
    ∃ order ∈ db.orders.docs, order.id = sideId (settledTrade db event) side ∧
      order.id ∈ tradeIds event ∧ order.direction = side := by
  rw [h.sideId_eq]
  cases side with
  | bid =>
      obtain ⟨hmem, hid⟩ := Collection.find?_eq_some.mp h.buy_stored
      exact ⟨buy, hmem, hid, mem_tradeIds.mpr (Or.inl hid), h.buy_direction⟩
  | ask =>
      obtain ⟨hmem, hid⟩ := Collection.find?_eq_some.mp h.sell_stored
      exact ⟨sell, hmem, hid, mem_tradeIds.mpr (Or.inr hid), h.sell_direction⟩

theorem SettlesOrders.named (h : SettlesOrders db event buy sell) {order : OrderDocument}
    (horder : order ∈ db.orders.docs) (hmem : order.id ∈ tradeIds event) :
    order.id = sideId (settledTrade db event) order.direction := by
  have hsides : ∃ side, order.id = sideId (settledTrade db event) side := by
    rcases mem_tradeIds.mp hmem with hid | hid
    · exact ⟨.bid, hid.trans (h.sideId_eq .bid).symm⟩
    · exact ⟨.ask, hid.trans (h.sideId_eq .ask).symm⟩
  obtain ⟨side, hid⟩ := hsides
  obtain ⟨named, hnamed, hnamedId, -, hdir⟩ := h.stored side
  obtain rfl : order = named :=
    List.inj_on_of_nodup_map db.orders.nodup horder hnamed (hid.trans hnamedId.symm)
  rw [hdir]
  exact hid

theorem SettlesOrders.filledBy (h : SettlesOrders db event buy sell) {order : OrderDocument}
    (horder : order ∈ db.orders.docs) (hmem : order.id ∈ tradeIds event) :
    FilledBy (filledDocument event order) (settledTrade db event) where
  status := rfl
  settlement := by
    rw [id_settledTrade]
    rfl
  blockHash := by
    obtain ⟨hash, hhash⟩ := Option.ne_none_iff_exists'.mp h.blockHash
    simp [filledDocument, settledTrade, confirmedTrade, hhash]
  block := by
    simp [filledDocument, settledTrade, confirmedTrade, h.blockNumber]
  named := by
    have hnamed := h.named horder hmem
    exact hnamed

theorem FilledHaveTrades.tradeConfirmed (hfilled : FilledHaveTrades db)
    (h : SettlesOrders db event buy sell)
    (horders : next.orders =
      (db.saveOrders (tradeIds event) (filledDocument event) fun _ => rfl).orders)
    (htrades : next.trades = db.trades.put (settledTrade db event)) : FilledHaveTrades next := by
  intro order horder hstatus
  rw [horders] at horder
  rw [htrades]
  obtain ⟨old, hold, rfl⟩ := mem_saveOrders.mp horder
  split_ifs at hstatus ⊢ with hmem
  · exact ⟨settledTrade db event, Collection.mem_docs_put.mpr (Or.inl rfl), rfl,
      h.filledBy hold hmem⟩
  · obtain ⟨trade, htrade, hconfirmed, hby⟩ := hfilled old hold hstatus
    refine ⟨trade, Collection.mem_docs_put.mpr (Or.inr ⟨htrade, fun hid => hmem ?_⟩), hconfirmed, hby⟩
    -- The stored trade of this settlement names the event's orders only.
    have hfind : db.trades.find? event.trade.settlementTxHash = some trade :=
      Collection.find?_eq_some.mpr ⟨htrade, hid.trans id_settledTrade⟩
    obtain ⟨hbuy, hsell⟩ := h.spelled trade hfind
    rw [mem_tradeIds, hby.named, ← hbuy, ← hsell]
    cases old.direction with
    | bid => exact Or.inl rfl
    | ask => exact Or.inr rfl

theorem InStep.tradeConfirmed (hstep : InStep db) (h : SettlesOrders db event buy sell)
    (horders : next.orders =
      (db.saveOrders (tradeIds event) (filledDocument event) fun _ => rfl).orders)
    (htrades : next.trades = db.trades.put (settledTrade db event)) : InStep next where
  filled := hstep.filled.tradeConfirmed h horders htrades
  confirmed := by
    intro trade htrade hconfirmed side
    rw [htrades] at htrade
    rw [horders]
    rcases Collection.mem_docs_put.mp htrade with rfl | ⟨htrade, -⟩
    · obtain ⟨order, horder, hid, hmem, hdir⟩ := h.stored side
      refine ⟨filledDocument event order, ?_, hid, hdir, h.filledBy horder hmem⟩
      exact mem_saveOrders.mpr ⟨order, horder, (if_pos hmem).symm⟩
    · obtain ⟨order, horder, hid, hdir, hby⟩ := hstep.confirmed trade htrade hconfirmed side
      refine ⟨order, ?_, hid, hdir, hby⟩
      refine mem_saveOrders.mpr ⟨order, horder, (if_neg fun hmem => ?_).symm⟩
      exact not_filled_of_canTransition (by decide) (h.ready.allowed order horder hmem) hby.status

end

theorem mem_orders_rollBack {event : ChainReorgEvent} {order : OrderDocument} :
    order ∈ (rollBack drivers event db).orders.docs ↔
      ∃ old ∈ db.orders.docs, rollBackOrder drivers event old = order := by
  simp only [rollBack, Collection.mem_docs_map]

theorem mem_trades_rollBack {event : ChainReorgEvent} {trade : TradeDocument} :
    trade ∈ (rollBack drivers event db).trades.docs ↔
      ∃ old ∈ db.trades.docs, rollBackTrade drivers event old = trade := by
  simp only [rollBack, Collection.mem_docs_map]

theorem rollBackOrder_eq_self {event : ChainReorgEvent} {order : OrderDocument}
    (hcreated : createdReverted drivers (rollbackFrom event) order = false)
    (hspent : atOrAfter drivers (rollbackFrom event) order.spentAtBlock = false) :
    rollBackOrder drivers event order = order := by
  simp [rollBackOrder, spentReverted, hcreated, hspent]

/-- An order that is filled after a rollback was not touched by it. -/
theorem filled_of_rollBackOrder {event : ChainReorgEvent} {order : OrderDocument}
    (h : (rollBackOrder drivers event order).status = .filled) :
    rollBackOrder drivers event order = order ∧
      atOrAfter drivers (rollbackFrom event) order.spentAtBlock = false := by
  unfold rollBackOrder at h ⊢
  split_ifs at h ⊢ with hcreated hspent
  refine ⟨rfl, ?_⟩
  simpa [spentReverted, hcreated, h] using hspent

theorem confirmed_of_rollBackTrade {event : ChainReorgEvent} {trade : TradeDocument}
    (h : (rollBackTrade drivers event trade).status = .confirmed) :
    rollBackTrade drivers event trade = trade ∧
      atOrAfter drivers (rollbackFrom event) (some trade.blockNumber) = false := by
  unfold rollBackTrade at h ⊢
  split_ifs at h ⊢ with hreverted
  refine ⟨rfl, ?_⟩
  simpa [h] using hreverted

theorem FilledHaveTrades.chainReorg {event : ChainReorgEvent} (h : FilledHaveTrades db) :
    FilledHaveTrades (rollBack drivers event db) := by
  intro order horder hstatus
  obtain ⟨old, hold, rfl⟩ := mem_orders_rollBack.mp horder
  obtain ⟨hsame, hbefore⟩ := filled_of_rollBackOrder hstatus
  rw [hsame] at hstatus ⊢
  obtain ⟨trade, htrade, hconfirmed, hby⟩ := h old hold hstatus
  rw [hby.block] at hbefore
  refine ⟨trade, mem_trades_rollBack.mpr ⟨trade, htrade, ?_⟩, hconfirmed, hby⟩
  simp [rollBackTrade, hbefore]

/-- Orders and trades are rolled back from the same block. -/
theorem InStep.chainReorg {event : ChainReorgEvent} (h : InStep db)
    (hkeeps : keepsInStep drivers db (.chainReorg event)) :
    InStep (rollBack drivers event db) where
  filled := h.filled.chainReorg
  confirmed := by
    intro trade htrade hconfirmed side
    obtain ⟨old, hold, rfl⟩ := mem_trades_rollBack.mp htrade
    obtain ⟨hsame, hbefore⟩ := confirmed_of_rollBackTrade hconfirmed
    rw [hsame] at hconfirmed ⊢
    obtain ⟨order, horder, hid, hdir, hby⟩ := h.confirmed old hold hconfirmed side
    rw [← hby.block] at hbefore
    have hcreated : createdReverted drivers (rollbackFrom event) order = false := by
      by_contra hrolled
      simp only [Bool.not_eq_false, createdReverted, Bool.and_eq_true] at hrolled
      rw [hkeeps order horder hby.status hrolled.1] at hbefore
      cases hbefore
    refine ⟨order, mem_orders_rollBack.mpr ⟨order, horder, ?_⟩, hid, hdir, hby⟩
    exact rollBackOrder_eq_self hcreated hbefore

section
variable {seen : Db}

/-- The direction of the order that a trade names is the one of the cell that
its settlement spends. -/
theorem direction_of_named {outPoint : OutPoint} {ref : CellRef} {side : Direction}
    {terms : OrderLock.OrderArgs} {order : OrderDocument} (hg : OrdersStand v content db)
    (horder : db.orders.find? (toOrderId outPoint) = some order) (hv : OutPoint.valid outPoint = true)
    (hl : Locates outPoint ref) (hat : OrderAt v content ref side terms) : order.direction = side := by
  obtain ⟨hmem, hid⟩ := Collection.find?_eq_some.mp horder
  obtain ⟨cell, stored, hstands⟩ := hg order hmem
  exact (hstands.orderAt hv hid hl).side_unique hat

/-- What an applied trade-confirmed event has shown. -/
theorem settles_of_shown {event : TradeConfirmedEvent} (hone : OneOrderPerSide v content)
    (hg : Grounded v content db) (hshown : Shown v content seen (.tradeConfirmed event))
    (hstored : tradeOrdersStored seen (.tradeConfirmed event))
    (hready : Ready db (tradeIds event) .filled)
    (hkeeps : keepsInStep drivers db (.tradeConfirmed event)) :
    ∃ buy sell, SettlesOrders db event buy sell := by
  obtain ⟨hblock, hnumber, tx, buyRef, sellRef, b, s, hclaimed⟩ := hshown hstored
  obtain ⟨buy, hbuy⟩ := find?_of_length_findOrders hready.found _ (mem_tradeIds.mpr (Or.inl rfl))
  obtain ⟨sell, hsell⟩ := find?_of_length_findOrders hready.found _ (mem_tradeIds.mpr (Or.inr rfl))
  refine ⟨buy, sell, hready, hbuy, hsell,
    direction_of_named hg.orders hbuy hclaimed.buyValid hclaimed.buy_locates hclaimed.buy_order,
    direction_of_named hg.orders hsell hclaimed.sellValid hclaimed.sell_locates hclaimed.sell_order,
    hblock, hnumber, fun trade htrade => ?_⟩
  -- Both name the only order cells that this settlement spends.
  obtain ⟨hmem, hid⟩ := Collection.find?_eq_some.mp htrade
  obtain ⟨tx', buyRef', sellRef', b', s', hstands⟩ := hg.trades trade hmem
  obtain ⟨hash₁, hdenotes₁, hcontent₁⟩ := hclaimed.settlement
  obtain ⟨hash₂, hdenotes₂, hcontent₂⟩ := hstands.settlement
  have htext : (tradeFactsOf trade).settlementTxHash = (claimedFacts event).settlementTxHash :=
    hstands.id.symm.trans hid
  rw [htext] at hdenotes₂
  obtain rfl : hash₁ = hash₂ := hdenotes₁.unique hdenotes₂
  rw [hcontent₁, Option.some_inj] at hcontent₂
  subst hcontent₂
  have hbuyRef : buyRef' = buyRef := hone _ _ hcontent₁ _ hstands.buy_mem _ hclaimed.buy_mem .bid _ _
    hstands.buy_order hclaimed.buy_order
  have hsellRef : sellRef' = sellRef := hone _ _ hcontent₁ _ hstands.sell_mem _ hclaimed.sell_mem
    .ask _ _ hstands.sell_order hclaimed.sell_order
  subst hbuyRef hsellRef
  obtain ⟨hspellBuy, hspellSell⟩ := hkeeps trade htrade
  refine ⟨hspellBuy ?_, hspellSell ?_⟩
  · exact (hstands.buy_locates.sameCell_iff hclaimed.buy_locates hstands.buyValid
      hclaimed.buyValid).mpr rfl
  · exact (hstands.sell_locates.sameCell_iff hclaimed.sell_locates hstands.sellValid
      hclaimed.sellValid).mpr rfl

theorem InStep.applyEvent {event : BotEvent} (h : InStep db) (hone : OneOrderPerSide v content)
    (hg : Grounded v content db) (hshown : Shown v content seen event)
    (happly : applyEvent drivers event db = .ok (result, next))
    (hstored : result.status = .applied → tradeOrdersStored seen event)
    (hkeeps : result.status = .applied → keepsInStep drivers db event) : InStep next := by
  cases event with
  | orderConfirmed e =>
      rcases applyOrderConfirmed_eq_ok.mp happly with ⟨-, -, rfl⟩ | ⟨-, -, -, -, rfl, rfl⟩
      · exact h
      · exact h.orderConfirmed (hkeeps rfl)
  | orderCancelled e =>
      rcases applyOrderCancelled_eq_ok.mp happly with ⟨-, -, rfl⟩ | ⟨order, horder, hallowed, -, rfl⟩
      · exact h
      · exact h.orderCancelled horder hallowed
  | settlementSubmitted e =>
      rcases applySettlementSubmitted_eq_ok happly with ⟨-, rfl⟩ | ⟨hready, -, rfl⟩
      · exact h
      · exact h.settlementSubmitted hready
  | tradeConfirmed e =>
      rcases applyTradeConfirmed_eq_ok happly with ⟨-, rfl⟩ | ⟨hready, rfl, rfl⟩
      · exact h
      · obtain ⟨buy, sell, hsettles⟩ :=
          settles_of_shown hone hg hshown (hstored rfl) hready (hkeeps rfl)
        exact h.tradeConfirmed hsettles rfl rfl
  | chainReorg e =>
      obtain ⟨rfl, rfl⟩ := applyChainReorg_eq_ok.mp happly
      exact h.chainReorg (hkeeps rfl)

end

theorem InStep.delivers (h : InStep db) (hone : OneOrderPerSide v content)
    (hg : Grounded v content db) (hd : Delivers drivers v content (keepsInStep drivers) db next) :
    InStep next := by
  cases hd with
  | ingest node event honest valid kept =>
      rcases run_ingest drivers node v event db with hsame |
        ⟨result, next, -, hverify, happly, hrun, hnext⟩
      · exact h.of_same hsame
      · rw [hrun]
        refine InStep.of_same ?_ hnext
        have hshown := shown_of_verified hg.orders honest valid hverify
        exact h.applyEvent hone hg hshown happly (stored_of_applied happly) fun hstatus =>
          kept result (congrArg Prod.fst hrun) hstatus

theorem inStep_of_delivers (hone : OneOrderPerSide v content)
    (h : Relation.ReflTransGen (Delivers drivers v content (keepsInStep drivers)) Db.empty db) :
    InStep db := by
  induction h with
  | refl => exact inStep_empty
  | tail hrun hd ih => exact ih.delivers hone (grounded_of_delivers hrun) hd

end

/-- Every delivery of accepted events keeps filled orders and confirmed trades
in step, as long as no order is confirmed anew while it is filled, no
settlement is confirmed again under other spellings, and no rollback parts a
filled order from its trade. -/
theorem orders_and_trades_in_step (drivers : Drivers) (v : ChainVerification) (content : Content)
    (hone : OneOrderPerSide v content) (db : Db)
    (h : Relation.ReflTransGen (Delivers drivers v content (keepsInStep drivers)) Db.empty db) :
    (∀ order ∈ db.orders.docs, order.status = .filled →
      ∃ trade ∈ db.trades.docs, trade.status = .confirmed ∧
        order.id = sideId trade order.direction ∧ order.settlementTxHash = some trade.id ∧
        order.spentBlockHash = some trade.blockHash) ∧
    (∀ trade ∈ db.trades.docs, trade.status = .confirmed → ∀ side,
      ∃ order ∈ db.orders.docs, order.id = sideId trade side ∧ order.direction = side ∧
        order.status = .filled ∧ order.settlementTxHash = some trade.id) ∧
    (∀ a ∈ db.trades.docs, ∀ b ∈ db.trades.docs, a.status = .confirmed → b.status = .confirmed →
      ∀ s t, sideId a s = sideId b t → a = b) ∧
    (∀ trade ∈ db.trades.docs, trade.status = .confirmed → ∀ side, ∀ order ∈ db.orders.docs,
      order.id = sideId trade side → order.status = .filled) := by
  have hstep := inStep_of_delivers hone h
  refine ⟨?_, ?_, ?_, ?_⟩
  · intro order horder hstatus
    obtain ⟨trade, htrade, hconfirmed, hby⟩ := hstep.filled order horder hstatus
    exact ⟨trade, htrade, hconfirmed, hby.named, hby.settlement, hby.blockHash⟩
  · intro trade htrade hconfirmed side
    obtain ⟨order, horder, hid, hdir, hby⟩ := hstep.confirmed trade htrade hconfirmed side
    exact ⟨order, horder, hid, hdir, hby.status, hby.settlement⟩
  · intro a ha b hb hac hbc s t hid
    exact hstep.trade_unique ha hb hac hbc hid
  · intro trade htrade hconfirmed side order horder hid
    exact (hstep.filledBy htrade hconfirmed horder hid).status

section
open OrderLock OrderLockRules SettlementBuilder

theorem mem_exampleTxs {hash : Hash} {tx : RawTx} (h : exampleWorld.content hash = some tx) :
    (hash, tx) ∈ exampleTxs := by
  obtain ⟨entry, hfind, rfl⟩ := Option.map_eq_some_iff.mp h
  have hhash : entry.1 = hash := by simpa using List.find?_some hfind
  rw [← hhash]
  exact List.mem_of_find?_eq_some hfind

/-- The only order cells of the example are the buy and the sell cell. -/
def exampleOrderCell : Direction → CellOutput
  | .bid => exampleBuyCell
  | .ask => exampleSellCell

theorem exampleWorld_orderAt {ref : CellRef} {side : Direction} {terms : OrderArgs}
    (h : OrderAt exampleVerification exampleWorld.content ref side terms) :
    cellAt exampleWorld.content ref = some (exampleOrderCell side) := by
  obtain ⟨cell, hcell, horder, rfl⟩ := h
  obtain ⟨tx, htx, hout⟩ := Option.bind_eq_some_iff.mp hcell
  have hcode : exampleDex.codeHash = cell.lock.codeHash := by
    refine hashText_injective (Eq.trans ?_ horder.codeHash)
    exact (lower_toHex _).symm
  have hcells : ∀ entry ∈ exampleTxs, ∀ cell ∈ entry.2.outputs,
      exampleDex.codeHash = cell.lock.codeHash → cell = exampleBuyCell ∨ cell = exampleSellCell := by
    decide
  have hparsed := horder.terms
  rcases hcells _ (mem_exampleTxs htx) cell (List.mem_of_getElem? hout) hcode with rfl | rfl
  · obtain rfl := Except.ok.inj (exampleBuy_indexable.parsed.symm.trans hparsed)
    exact hcell
  · obtain rfl := Except.ok.inj (exampleSell_indexable.parsed.symm.trans hparsed)
    exact hcell

theorem exampleWorld_oneOrderPerSide : OneOrderPerSide exampleVerification exampleWorld.content := by
  intro hash tx htx r₁ h₁ r₂ h₂ side t₁ t₂ ho₁ ho₂
  have hrefs : ∀ entry ∈ exampleTxs, ∀ a ∈ entry.2.inputs, ∀ b ∈ entry.2.inputs,
      ∀ side ∈ [Direction.bid, .ask], cellAt exampleWorld.content a = some (exampleOrderCell side) →
      cellAt exampleWorld.content b = some (exampleOrderCell side) → a = b := by
    decide
  refine hrefs _ (mem_exampleTxs htx) r₁ h₁ r₂ h₂ side ?_ (exampleWorld_orderAt ho₁)
    (exampleWorld_orderAt ho₂)
  cases side <;> simp

theorem delivers_of_run {db next : Db} {keeps : Db → BotEvent → Prop} {event : BotEvent} {node : Node}
    {result : IngestionResult} (honest : Truthful exampleWorld.content node)
    (valid : event.valid = true) (hkeeps : keeps db event)
    (hrun : run exampleDrivers node (ingest exampleVerification event) db = (.ok result, next)) :
    Delivers exampleDrivers exampleVerification exampleWorld.content keeps db next := by
  have h : Delivers exampleDrivers exampleVerification exampleWorld.content keeps db _ :=
    .ingest node event honest valid fun _ _ _ => hkeeps
  rw [hrun] at h
  exact h

theorem exampleOpen_delivers :
    Relation.ReflTransGen (Delivers exampleDrivers exampleVerification exampleWorld.content
      (keepsInStep exampleDrivers)) Db.empty exampleOpen := by
  have hnode := exampleChain.truthful_node exampleDex 0
  have hbuy : Delivers exampleDrivers exampleVerification exampleWorld.content
      (keepsInStep exampleDrivers) Db.empty exampleIndexed :=
    delivers_of_run hnode (valid_indexedEvent _) (fun _ h => nomatch h) exampleConfirmed_ingested
  have hsell : Delivers exampleDrivers exampleVerification exampleWorld.content
      (keepsInStep exampleDrivers) exampleIndexed exampleOpen := by
    refine delivers_of_run hnode (valid_indexedEvent _) ?_ exampleSellConfirmed_ingested
    intro order horder
    exact (Option.some_ne_none order (horder.symm.trans exampleIndexed_find_sell)).elim
  exact (Relation.ReflTransGen.single hbuy).tail hsell

/-- Both orders are confirmed, and then settled. -/
theorem exampleFilled_delivers :
    Relation.ReflTransGen (Delivers exampleDrivers exampleVerification exampleWorld.content
      (keepsInStep exampleDrivers)) Db.empty exampleFilled :=
  exampleOpen_delivers.tail
    (delivers_of_run (exampleChain.truthful_node exampleDex 0) exampleSettled_valid
      (fun _ h => nomatch h) exampleSettled_ingested)

theorem orders_and_trades_in_step_example :
    OneOrderPerSide exampleVerification exampleWorld.content ∧
    ∀ trade ∈ exampleFilled.trades.docs, trade.status = .confirmed → ∀ side,
      ∃ order ∈ exampleFilled.orders.docs, order.id = sideId trade side ∧ order.direction = side ∧
        order.status = .filled ∧ order.settlementTxHash = some trade.id :=
  ⟨exampleWorld_oneOrderPerSide,
    (orders_and_trades_in_step exampleDrivers exampleVerification exampleWorld.content
      exampleWorld_oneOrderPerSide exampleFilled exampleFilled_delivers).2.1⟩

theorem exampleBuy_reincluded : Indexable exampleVerification exampleFork exampleBuyIndexed
    (exampleOrder sideBuy (exampleHash 1)) (exampleOwner 1) ⟨1, exampleHash 31, 0, exampleHash 5⟩
    exampleCreation := by
  constructor <;> first | rfl | decide

/-- The buy order, created in the block of another branch. -/
def exampleReincluded : OrderConfirmedEvent :=
  indexedEvent (fun _ => "ckt1") exampleBuyIndexed (exampleOrder sideBuy (exampleHash 1))
    (exampleOwner 1) ⟨1, exampleHash 31, 0, exampleHash 5⟩ exampleCreation

theorem exampleFilled_buy :
    exampleFilled.orders.find? exampleBuy.id = some (filledDocument exampleSettled exampleBuy) := by
  refine (find?_saveOrders (tradeIds exampleSettled) (filledDocument exampleSettled)
    fun _ => rfl).trans ?_
  rw [exampleOpen_buy, Option.map_some, if_pos]
  exact mem_tradeIds.mpr (Or.inl rfl)

theorem exampleReincluded_new : exampleFilled.processed exampleReincluded.eventId = false := by
  have hids : exampleReincluded.eventId ∉
      [exampleSettled.eventId, exampleSellConfirmed.eventId, exampleConfirmed.eventId] := by
    decide +kernel
  simp only [List.mem_cons, List.not_mem_nil, or_false, not_or] at hids
  have hbuy : exampleIndexed.processed exampleReincluded.eventId ≠ true := by
    rw [exampleIndexed, ne_eq, processed_recorded, not_or]
    exact ⟨hids.2.2, by decide⟩
  have hsell : exampleOpen.processed exampleReincluded.eventId ≠ true := by
    rw [exampleOpen, ne_eq, processed_recorded, not_or]
    exact ⟨hids.2.1, hbuy⟩
  rw [Bool.eq_false_iff, exampleFilled, ne_eq, processed_recorded, not_or]
  exact ⟨hids.1, hsell⟩

/-- A settled order that is confirmed for another block is open again, and its
trade stays confirmed. -/
theorem reinclusion_reopens_settled_order :
    OneOrderPerSide exampleVerification exampleWorld.content ∧
    ∃ db, Relation.ReflTransGen (Delivers exampleDrivers exampleVerification exampleWorld.content
        unrestricted) Db.empty db ∧
      ∃ trade ∈ db.trades.docs, trade.status = .confirmed ∧
        ∃ order ∈ db.orders.docs, order.id = sideId trade .bid ∧ order.status = .live := by
  have hopen : alreadyIndexed (some (filledDocument exampleSettled exampleBuy)) exampleReincluded =
      false := by
    decide +kernel
  have hlast : Delivers exampleDrivers exampleVerification exampleWorld.content unrestricted
      exampleFilled _ :=
    delivers_of_run (exampleFork.truthful_node exampleDex 0) (valid_indexedEvent _) trivial
      (exampleBuy_reincluded.ingested (fun _ => "ckt1") exampleDrivers_reads exampleReincluded_new
        exampleFilled_buy hopen)
  have hfilled := Relation.ReflTransGen.mono (fun _ _ hd => Delivers.free hd) _ _ exampleFilled_delivers
  refine ⟨exampleWorld_oneOrderPerSide, _, hfilled.tail hlast, confirmedTrade none exampleSettled, ?_,
    rfl, _, Collection.mem_docs_put.mpr (Or.inl rfl), rfl, rfl⟩
  exact Collection.mem_docs_put.mpr (Or.inl rfl)

end

end CkbDex.OrdersAndTrades
