import CkbDex.SpentOrders
import CkbDex.InFlightDeadlines

/-!
# What a look at a spent order records

A transaction that spends an order of a projection is a cancellation of it or a
settlement of two orders. The event that tells so is applied or was before.
-/
namespace CkbDex.Reconciliation
open CellContext OrderLock OrderLockRules Text Number Documents BotEvents ChainCells Collections
open Projection Operations Chains EventVerification IngestionSteps ProjectionSteps CkbDex.Bot
open GroundedDocuments Acceptance OrdersAndTrades SpendClassification PaidTrades Observation
open SpentOrders

section
variable {w : World} {c : Chain w} {dex : Script} {now : ℕ} {drivers : Drivers} {v : ChainVerification}
  {db next : Db} {order current other buy sell : OrderDocument} {ref buyRef sellRef : CellRef}
  {cell : CellOutput} {terms : OrderArgs} {p : Position} {tx : RawTx}

theorem run_emit_processed {event : BotEvent} (h : db.processed event.eventId = true) (node : Node) :
    run drivers node (emit v event) db = (.ok true, db) :=
  run_emit (run_ingest_processed event h)

theorem spentBy_iff (ht : AllMirrored v w.content db)
    (horder : order ∈ db.orders.docs) (hm : Mirrored v w.content order ref cell terms)
    (hrefs : dexRefs dex w.content tx = [ref]) (hother : other ∈ db.orders.docs) :
    SpentBy dex w.content tx other ↔ other = order := by
  simp only [SpentBy, hrefs, List.mem_singleton, exists_eq_left]
  constructor
  · intro hout
    obtain ⟨r, cell', terms', hm'⟩ := ht other hother
    refine List.inj_on_of_nodup_map db.orders.nodup hother horder ?_
    rw [hm'.id, hm.id, hout, hm.outPoint]
  · rintro rfl
    exact hm.outPoint

/-- The record of a cancellation. -/
theorem records_cancelled (ht : AllMirrored v w.content db)
    (h : CancelledBy v c db order current ref cell terms p tx) (hfacts : factsOf current = factsOf order)
    (hopen : Open current) (hrefs : dexRefs dex w.content tx = [ref]) :
    Records dex c p tx db (withCancelled db (cancellationOf order p) current) := by
  have hcurrent := (Collection.find?_eq_some.mp h.stored).1
  have hm : Mirrored v w.content current ref cell terms := Mirrored.congr h.mirrored hfacts
  have hone : (dexRefs dex w.content tx).length = 1 := by rw [hrefs, List.length_singleton]
  have hid : ∀ id, spendId dex w.content tx p id =
      "order-cancelled:" ++ hashText p.txHash ++ ":" ++ hashText p.blockHash ++ ":" ++ id :=
    fun id => if_pos hone
  have hevent : (cancellationOf order p).eventId = spendId dex w.content tx p current.id := by
    rw [hid, id_of_facts hfacts]
    rfl
  have hcloses : Closes dex w.content p tx current
      (cancelledDocument (cancellationOf order p) current) :=
    ⟨hopen, (spentBy_iff ht hcurrent hm hrefs hcurrent).mpr rfl, rfl, (if_pos hone).symm, rfl,
      (if_pos hone).symm⟩
  have hmem : ∀ doc, doc ∈ (withCancelled db (cancellationOf order p) current).orders.docs ↔
      doc = cancelledDocument (cancellationOf order p) current ∨ doc ∈ db.orders.docs ∧ doc.id ≠ current.id :=
    fun doc => Collection.mem_docs_put
  have hprocessed : ∀ id, (withCancelled db (cancellationOf order p) current).processed id = true ↔
      id = (cancellationOf order p).eventId ∨ db.processed id = true := fun id => processed_recorded
  have hkept : ∀ doc ∈ db.orders.docs, doc.id ≠ current.id → ¬SpentBy dex w.content tx doc := by
    intro doc hdoc hne hspends
    exact hne (congrArg OrderDocument.id ((spentBy_iff ht hcurrent hm hrefs hdoc).mp hspends))
  refine ⟨h.found, h.content, Or.inl hone, ?_, ?_, ?_, fun id hid => (hprocessed id).mpr (Or.inr hid), ?_,
    ?_, fun q hq => hq, fun hne => (hne hone).elim⟩
  · intro r hr
    rw [hrefs, List.mem_singleton] at hr
    exact ⟨current, hcurrent, hr ▸ hm.outPoint⟩
  · intro doc hdoc
    rcases (hmem doc).mp hdoc with rfl | ⟨hold, hne⟩
    · exact ⟨current, hcurrent, Or.inr hcloses⟩
    · exact ⟨doc, hold, Or.inl ⟨rfl, hkept doc hold hne⟩⟩
  · intro old hold
    by_cases hsame : old.id = current.id
    · obtain rfl : old = current := List.inj_on_of_nodup_map db.orders.nodup hold hcurrent hsame
      exact ⟨_, (hmem _).mpr (Or.inl rfl), Or.inr hcloses⟩
    · exact ⟨old, (hmem old).mpr (Or.inr ⟨hold, hsame⟩), Or.inl ⟨rfl, hkept old hold hsame⟩⟩
  · intro id hprocess
    rcases (hprocessed id).mp hprocess with rfl | hbefore
    · exact Or.inr ⟨current, hcurrent, hcloses.spent, hevent⟩
    · exact Or.inl hbefore
  · intro doc hdoc hspends
    obtain rfl := (spentBy_iff ht hcurrent hm hrefs hdoc).mp hspends
    exact (hprocessed _).mpr (Or.inl hevent.symm)

/-- The event for a settlement at a position. -/
def settlementOf (buy sell : OrderDocument) (p : Position) : TradeConfirmedEvent :=
  tradeConfirmedEvent buy sell (hashText p.txHash) p.blockNumber (some p.blockHash)

theorem settlementOf_congr {buy' sell' : OrderDocument} (hb : factsOf buy' = factsOf buy)
    (hs : factsOf sell' = factsOf sell) : settlementOf buy' sell' p = settlementOf buy sell p := by
  have hbuyer : buy'.ownerLockHash = buy.ownerLockHash := congrArg OrderFacts.ownerLockHash hb
  have hseller : sell'.ownerLockHash = sell.ownerLockHash := congrArg OrderFacts.ownerLockHash hs
  have htoken : sell'.xudtTypeHash = sell.xudtTypeHash := congrArg OrderFacts.xudtTypeHash hs
  have hamount : sell'.remainingAmount = sell.remainingAmount := congrArg OrderFacts.remainingAmount hs
  have hprice : sell'.pricePerToken = sell.pricePerToken := congrArg OrderFacts.pricePerToken hs
  unfold settlementOf tradeConfirmedEvent
  rw [outPoint_of_facts hb, outPoint_of_facts hs, hbuyer, hseller, htoken, hamount, hprice]

theorem filledDocument_id (event : TradeConfirmedEvent) (order : OrderDocument) :
    (filledDocument event order).id = order.id := rfl

/-- The state after a settlement was recorded. -/
def withSettled (db : Db) (event : TradeConfirmedEvent) : Db :=
  recorded { db.saveOrders (tradeIds event) (filledDocument event) (filledDocument_id event) with
      trades := db.trades.put (settledTrade db event) } (applied event.eventId) event.eventId

/-- Two open orders that a settlement of the chain spends. -/
structure Legs (v : ChainVerification) (dex : Script) (c : Chain w) (db : Db) (p : Position) (tx : RawTx)
    (buy sell : OrderDocument) (buyRef sellRef : CellRef) : Prop where
  buy_stored : buy ∈ db.orders.docs
  sell_stored : sell ∈ db.orders.docs
  buy_open : Open buy
  sell_open : Open sell
  buy_id : buy.id = toOrderId buy.outPoint
  sell_id : sell.id = toOrderId sell.outPoint
  buy_spent : SpentAt c buy buyRef p tx
  sell_spent : SpentAt c sell sellRef p tx
  bid : buy.direction = .bid
  ask : sell.direction = .ask
  refs : dexRefs dex w.content tx = [buyRef, sellRef] ∨ dexRefs dex w.content tx = [sellRef, buyRef]
  deep : v.confirmationDepth ≤ confirmationsOf c.tip p.blockNumber
  new : db.processed (settlementOf buy sell p).eventId = false

theorem Legs.tradeIds (h : Legs v dex c db p tx buy sell buyRef sellRef) :
    ProjectionSteps.tradeIds (settlementOf buy sell p) = [buy.id, sell.id] := by
  rw [h.buy_id, h.sell_id]
  rfl

theorem Legs.two (h : Legs v dex c db p tx buy sell buyRef sellRef) :
    (dexRefs dex w.content tx).length = 2 := by
  rcases h.refs with hrefs | hrefs <;> rw [hrefs] <;> rfl

theorem Legs.eventId (h : Legs v dex c db p tx buy sell buyRef sellRef) (id : String) :
    (settlementOf buy sell p).eventId = spendId dex w.content tx p id := by
  rw [spendId, h.two, if_neg (by decide)]
  rfl

theorem Legs.matches (h : Legs v dex c db p tx buy sell buyRef sellRef) :
    Matches db (settlementOf buy sell p) buy sell where
  buy_stored := Collection.find?_eq_some.mpr ⟨h.buy_stored, h.buy_id⟩
  sell_stored := Collection.find?_eq_some.mpr ⟨h.sell_stored, h.sell_id⟩
  buy_direction := h.bid
  sell_direction := h.ask
  buyer := rfl
  seller := rfl
  token := rfl
  amount := rfl
  price := rfl
  block := rfl

theorem Legs.verified (h : Legs v dex c db p tx buy sell buyRef sellRef) :
    run drivers (c.node dex now) (verifyEvent v (.tradeConfirmed (settlementOf buy sell p))) db =
      (.ok (), db) := by
  have hnames : Names c v.confirmationDepth (settlementOf buy sell p).trade.settlementTxHash
      (settlementOf buy sell p).toEventBase p tx :=
    ⟨hashFrom_hashText _, h.buy_spent.found, h.buy_spent.content, ⟨_, rfl, lower_toHex _⟩,
      ⟨_, rfl, bigInt_toString _⟩, h.deep⟩
  have hbuy : Spends tx.inputs (settlementOf buy sell p).buyOrderOutPoint := by
    change Spends tx.inputs buy.outPoint
    rw [h.buy_spent.outPoint]
    exact spends_outPointText h.buy_spent.input
  have hsell : Spends tx.inputs (settlementOf buy sell p).sellOrderOutPoint := by
    change Spends tx.inputs sell.outPoint
    rw [h.sell_spent.outPoint]
    exact spends_outPointText h.sell_spent.input
  exact run_verifyTradeConfirmed_chain hnames h.matches hbuy hsell

theorem Legs.eq_of_id (h : Legs v dex c db p tx buy sell buyRef sellRef) (horder : order ∈ db.orders.docs)
    (hid : order.id ∈ ProjectionSteps.tradeIds (settlementOf buy sell p)) : order = buy ∨ order = sell := by
  rw [h.tradeIds, List.mem_cons, List.mem_singleton] at hid
  exact hid.imp (List.inj_on_of_nodup_map db.orders.nodup horder h.buy_stored)
    (List.inj_on_of_nodup_map db.orders.nodup horder h.sell_stored)

theorem Legs.ready (h : Legs v dex c db p tx buy sell buyRef sellRef) :
    Ready db (ProjectionSteps.tradeIds (settlementOf buy sell p)) .filled where
  found := h.matches.length_eq
  allowed := by
    intro order horder hid
    rcases h.eq_of_id horder hid with rfl | rfl
    · exact h.buy_open.canTransition.1
    · exact h.sell_open.canTransition.1

theorem Legs.emitted (h : Legs v dex c db p tx buy sell buyRef sellRef) :
    run drivers (c.node dex now) (emit v (.tradeConfirmed (settlementOf buy sell p))) db =
      (.ok true, withSettled db (settlementOf buy sell p)) := by
  have hnumber : number ((settlementOf buy sell p).blockNumber.getD
      (settlementOf buy sell p).trade.confirmedAtBlock) ≠ .nan :=
    number_ne_nan_of_bigInt (bigInt_toString p.blockNumber)
  exact run_emit (run_ingest_eq _ h.new h.verified (applyTradeConfirmed_of_ready h.ready hnumber))

theorem Legs.spentBy_iff (h : Legs v dex c db p tx buy sell buyRef sellRef)
    (ht : AllMirrored v w.content db) (horder : order ∈ db.orders.docs) :
    SpentBy dex w.content tx order ↔ order.id ∈ ProjectionSteps.tradeIds (settlementOf buy sell p) := by
  obtain ⟨ref, cell, terms, hm⟩ := ht order horder
  have hmem : ∀ r, r ∈ dexRefs dex w.content tx ↔ r = buyRef ∨ r = sellRef := by
    intro r
    rcases h.refs with hrefs | hrefs <;> simp [hrefs, or_comm]
  have hid : ∀ {leg legRef}, leg.id = toOrderId leg.outPoint → SpentAt c leg legRef p tx →
      (order.outPoint = outPointText legRef ↔ order.id = leg.id) := by
    intro leg legRef hlegId hleg
    rw [hm.id, hlegId, hleg.outPoint]
    constructor
    · intro hout
      rw [hout]
    · intro hsame
      rw [hm.outPoint] at hsame ⊢
      exact toOrderId_injective (outPointText_valid _) (outPointText_valid _) hsame
  rw [h.tradeIds, List.mem_cons, List.mem_singleton, ← hid h.buy_id h.buy_spent,
    ← hid h.sell_id h.sell_spent]
  simp only [SpentBy, hmem, or_and_right, exists_or, exists_eq_left]

theorem mem_withSettled {event : TradeConfirmedEvent} : order ∈ (withSettled db event).orders.docs ↔
    ∃ old ∈ db.orders.docs,
      order = if old.id ∈ ProjectionSteps.tradeIds event then filledDocument event old else old := by
  have hsaved : order ∈ (db.saveOrders (ProjectionSteps.tradeIds event) (filledDocument event)
      (filledDocument_id event)).orders.docs ↔ _ := mem_saveOrders
  exact hsaved

theorem hasTrade_put {trade : TradeDocument} {q : Position} (hstatus : trade.status = .confirmed)
    (hq : HasTrade db q) : ∃ found ∈ (db.trades.put trade).docs,
      found.id = hashText q.txHash ∧ found.status = .confirmed := by
  obtain ⟨old, hold, hid, hconfirmed⟩ := hq
  by_cases hsame : old.id = trade.id
  · exact ⟨trade, Collection.mem_docs_put.mpr (Or.inl rfl), hsame.symm.trans hid, hstatus⟩
  · exact ⟨old, Collection.mem_docs_put.mpr (Or.inr ⟨hold, hsame⟩), hid, hconfirmed⟩

/-- The record of a settlement. -/
theorem Legs.records (h : Legs v dex c db p tx buy sell buyRef sellRef) (ht : AllMirrored v w.content db) :
    Records dex c p tx db (withSettled db (settlementOf buy sell p)) := by
  have hne : (dexRefs dex w.content tx).length ≠ 1 := by rw [h.two]; decide
  have hopen : ∀ {old}, old ∈ db.orders.docs →
      old.id ∈ ProjectionSteps.tradeIds (settlementOf buy sell p) → Open old := by
    intro old hold hid
    rcases h.eq_of_id hold hid with rfl | rfl
    · exact h.buy_open
    · exact h.sell_open
  have hbecomes : ∀ old ∈ db.orders.docs, Becomes dex w.content p tx old
      (if old.id ∈ ProjectionSteps.tradeIds (settlementOf buy sell p) then
        filledDocument (settlementOf buy sell p) old else old) := by
    intro old hold
    by_cases hid : old.id ∈ ProjectionSteps.tradeIds (settlementOf buy sell p)
    · rw [if_pos hid]
      exact Or.inr ⟨hopen hold hid, (h.spentBy_iff ht hold).mpr hid, rfl, (if_neg hne).symm, rfl,
        (if_neg hne).symm⟩
    · rw [if_neg hid]
      exact Or.inl ⟨rfl, mt (h.spentBy_iff ht hold).mp hid⟩
  have hmem : ∀ doc, doc ∈ (withSettled db (settlementOf buy sell p)).orders.docs ↔
      ∃ old ∈ db.orders.docs, doc = if old.id ∈ ProjectionSteps.tradeIds (settlementOf buy sell p) then
        filledDocument (settlementOf buy sell p) old else old := fun doc => mem_withSettled
  have hprocessed : ∀ id, (withSettled db (settlementOf buy sell p)).processed id = true ↔
      id = (settlementOf buy sell p).eventId ∨ db.processed id = true := fun id => processed_recorded
  refine ⟨h.buy_spent.found, h.buy_spent.content, Or.inr h.two, ?_, ?_, ?_,
    fun id hid => (hprocessed id).mpr (Or.inr hid), ?_, ?_, ?_, fun _ => ?_⟩
  · intro r hr
    have hlegs : r = buyRef ∨ r = sellRef := by
      rcases h.refs with hrefs | hrefs <;> rw [hrefs, List.mem_cons, List.mem_singleton] at hr
      · exact hr
      · exact hr.symm
    rcases hlegs with rfl | rfl
    · exact ⟨buy, h.buy_stored, h.buy_spent.outPoint⟩
    · exact ⟨sell, h.sell_stored, h.sell_spent.outPoint⟩
  · intro doc hdoc
    obtain ⟨old, hold, rfl⟩ := (hmem doc).mp hdoc
    exact ⟨old, hold, hbecomes old hold⟩
  · intro old hold
    exact ⟨_, (hmem _).mpr ⟨old, hold, rfl⟩, hbecomes old hold⟩
  · intro id hid
    rcases (hprocessed id).mp hid with rfl | hbefore
    · refine Or.inr ⟨buy, h.buy_stored, ?_, h.eventId buy.id⟩
      exact (h.spentBy_iff ht h.buy_stored).mpr (by rw [h.tradeIds]; exact List.mem_cons_self)
    · exact Or.inl hbefore
  · intro doc _ _
    exact (hprocessed _).mpr (Or.inl (h.eventId doc.id).symm)
  · intro q hq
    exact hasTrade_put rfl hq
  · exact ⟨settledTrade db (settlementOf buy sell p), Collection.mem_docs_put.mpr (Or.inl rfl),
      id_settledTrade, rfl⟩

theorem nodup_inputs (hp : p ∈ positions w c.hashes) (hcontent : w.content p.txHash = some tx) :
    tx.inputs.Nodup := by
  have hnodup := (List.nodup_flatMap.mp c.spentOnce).1 p hp
  rwa [inputsOf, hcontent] at hnodup

theorem direction_ne {otherRef : CellRef} {otherCell : CellOutput} {otherTerms : OrderArgs}
    (hm : Mirrored v w.content order ref cell terms)
    (ho : Mirrored v w.content other otherRef otherCell otherTerms)
    (hsides : terms.side ≠ otherTerms.side) : order.direction ≠ other.direction := by
  rw [hm.direction, ho.direction]
  rcases side_of_wellFormed hm.terms_declared.1 hm.terms_declared.2 with h | h <;>
    rcases side_of_wellFormed ho.terms_declared.1 ho.terms_declared.2 with h' | h'
  · exact (hsides (h.trans h'.symm)).elim
  · rw [h, h']
    decide
  · rw [h, h']
    decide
  · exact (hsides (h.trans h'.symm)).elim

/-- The orders of a settlement that one of them waits for. -/
theorem exists_legs (ht : Tracked v dex c db) (hd : Deployed v dex) (he : ChainEnforced v dex c)
    (hcurrent : current ∈ db.orders.docs) (hopen : Open current) (hspent : SpentAt c current ref p tx)
    (htwo : (dexRefs dex w.content tx).length = 2) :
    ∃ buy sell buyRef sellRef, Legs v dex c db p tx buy sell buyRef sellRef ∧
      (current = buy ∨ current = sell) := by
  have hawaits := ht.awaits current hcurrent hopen ref p tx hspent
  have henforced := he p hspent.found tx hspent.content
  obtain ⟨r₁, r₂, hrefs⟩ := List.length_eq_two.mp htwo
  have hne : r₁ ≠ r₂ := by
    have hnodup := (nodup_inputs hspent.found hspent.content).filter (isDexRef dex w.content)
    have hpair : (dexRefs dex w.content tx).Nodup := hnodup
    rw [hrefs, List.nodup_cons, List.mem_singleton] at hpair
    exact hpair.1
  have hleg : ∀ r ∈ dexRefs dex w.content tx, ∃ leg ∈ db.orders.docs, Open leg ∧ SpentAt c leg r p tx ∧
      ∃ cell terms, Mirrored v w.content leg r cell terms := by
    intro r hr
    obtain ⟨leg, hstored, hout, hlegOpen⟩ := hawaits.together r hr
    obtain ⟨r', cell, terms, hm⟩ := ht.mirrored leg hstored
    obtain rfl : r' = r := outPointText_injective (hm.outPoint.symm.trans hout)
    exact ⟨leg, hstored, hlegOpen,
      ⟨hout, hspent.found, hspent.content, (List.mem_filter.mp hr).1⟩, cell, terms, hm⟩
  obtain ⟨x, hx, hxo, hxs, xcell, xterms, hxm⟩ := hleg r₁ (by simp [hrefs])
  obtain ⟨y, hy, hyo, hys, ycell, yterms, hym⟩ := hleg r₂ (by simp [hrefs])
  have hxi : OrderInput v w.content tx r₁ xcell xterms := ⟨hxs.input, hxm.found, hxm.isOrder⟩
  have hyi : OrderInput v w.content tx r₂ ycell yterms := ⟨hys.input, hym.found, hym.isOrder⟩
  have hsides := direction_ne hxm hym (hxi.side_ne hyi hne hd henforced)
  have hmine : current = x ∨ current = y := by
    obtain ⟨r, cell, terms, hm⟩ := ht.mirrored current hcurrent
    obtain ⟨r', hr', hout⟩ := hspent.spentBy hd
      (outPointText_injective (hm.outPoint.symm.trans hspent.outPoint) ▸ hm)
    rw [hrefs, List.mem_cons, List.mem_singleton] at hr'
    refine hr'.imp (fun h => ?_) fun h => ?_
    · refine List.inj_on_of_nodup_map db.orders.nodup hcurrent hx ?_
      rw [hm.id, hxm.id, hout, hxm.outPoint, h]
    · refine List.inj_on_of_nodup_map db.orders.nodup hcurrent hy ?_
      rw [hm.id, hym.id, hout, hym.outPoint, h]
  have hnew : ∀ b s, db.processed (settlementOf b s p).eventId = false := by
    intro b s
    have hid : (settlementOf b s p).eventId = spendId dex w.content tx p current.id := by
      rw [spendId, htwo, if_neg (by decide)]
      rfl
    rw [hid]
    exact hawaits.new
  -- One of the two is the buy order, the other the sell order.
  cases hxd : x.direction with
  | bid =>
      cases hyd : y.direction with
      | bid => exact (hsides (hxd.trans hyd.symm)).elim
      | ask =>
          exact ⟨x, y, r₁, r₂, ⟨hx, hy, hxo, hyo, hxm.id, hym.id, hxs, hys, hxd, hyd, Or.inl hrefs,
            hawaits.deep, hnew x y⟩, hmine⟩
  | ask =>
      cases hyd : y.direction with
      | bid =>
          exact ⟨y, x, r₂, r₁, ⟨hy, hx, hyo, hxo, hym.id, hxm.id, hys, hxs, hyd, hxd, Or.inr hrefs,
            hawaits.deep, hnew y x⟩, hmine.symm⟩
      | ask => exact (hsides (hxd.trans hyd.symm)).elim

/-- The pair that the bot finds for a settlement is its two orders. -/
theorem Legs.settledPair (h : Legs v dex c db p tx buy sell buyRef sellRef) (hd : Deployed v dex)
    (ht : AllMirrored v w.content db) :
    settledPair (db.findOrders (tx.inputs.map fun input => toOrderId (outPointText input))) =
      some (buy, sell) := by
  have honly : ∀ x ∈ db.findOrders (tx.inputs.map fun input => toOrderId (outPointText input)),
      x = buy ∨ x = sell := by
    intro x hx
    obtain ⟨hmem, hid⟩ := Collection.mem_filter.mp hx
    rw [decide_eq_true_eq, List.mem_map] at hid
    obtain ⟨input, hinput, hsame⟩ := hid
    obtain ⟨ref, cell, terms, hm⟩ := ht x hmem
    obtain rfl : input = ref := outPointText_injective
      ((hm.locates (outPointText_valid input) hsame.symm).trans rfl)
    have hspent : SpentAt c x input p tx := ⟨hm.outPoint, h.buy_spent.found, h.buy_spent.content, hinput⟩
    exact h.eq_of_id hmem ((h.spentBy_iff ht hmem).mp (hspent.spentBy hd hm))
  have hfound : ∀ {leg legRef}, leg ∈ db.orders.docs → leg.id = toOrderId leg.outPoint →
      SpentAt c leg legRef p tx →
      leg ∈ db.findOrders (tx.inputs.map fun input => toOrderId (outPointText input)) := by
    intro leg legRef hleg hlegId hlegSpent
    refine Collection.mem_filter.mpr ⟨hleg, ?_⟩
    rw [decide_eq_true_eq, List.mem_map]
    exact ⟨legRef, hlegSpent.input, by rw [hlegId, hlegSpent.outPoint]⟩
  have hpick : ∀ {leg : OrderDocument} {side : Direction},
      leg ∈ db.findOrders (tx.inputs.map fun input => toOrderId (outPointText input)) →
      leg.direction = side → (∀ x, x = buy ∨ x = sell → x.direction = side → x = leg) →
      (db.findOrders (tx.inputs.map fun input => toOrderId (outPointText input))).find?
        (fun order => order.direction = side) = some leg := by
    intro leg side hleg hside honce
    obtain ⟨x, hx⟩ : ∃ x, (db.findOrders (tx.inputs.map fun input => toOrderId (outPointText input))).find?
        (fun order => order.direction = side) = some x := by
      rw [← Option.isSome_iff_exists, List.find?_isSome]
      exact ⟨leg, hleg, by rw [decide_eq_true_eq]; exact hside⟩
    have hxside : x.direction = side := by simpa using List.find?_some hx
    rw [hx, honce x (honly x (List.mem_of_find?_eq_some hx)) hxside]
  have hbuy := hpick (hfound h.buy_stored h.buy_id h.buy_spent) h.bid (by
    rintro x (rfl | rfl) hx
    · rfl
    · rw [h.ask] at hx
      cases hx)
  have hsell := hpick (hfound h.sell_stored h.sell_id h.sell_spent) h.ask (by
    rintro x (rfl | rfl) hx
    · rw [h.bid] at hx
      cases hx
    · rfl)
  simp only [Bot.settledPair, hbuy, hsell, bind, Option.bind_some, pure]

end

end CkbDex.Reconciliation
