import CkbDex.GroundedDocuments

/-!
# When ingestion accepts

Verification and ingestion against a node that is in step with a chain: what
an event has to say about the chain for its verification to succeed, and the
state that its ingestion then leaves.
-/
namespace CkbDex.Acceptance
open Checked Bytes CellContext OrderLock Text Documents BotEvents ChainCells Collections Projection
open Programs Operations Chains EventVerification IngestionSteps ProjectionSteps GroundedDocuments
open SettlementBuilder (toBigInt)

theorem events_of_applyEvent {drivers : Drivers} {event : BotEvent} {db next : Db}
    {result : IngestionResult} (h : applyEvent drivers event db = .ok (result, next)) :
    next.events = db.events ∧ next.checkpoints = db.checkpoints := by
  cases event with
  | orderConfirmed e =>
      rcases applyOrderConfirmed_eq_ok.mp h with ⟨-, -, rfl⟩ | ⟨-, -, -, -, -, rfl⟩ <;>
        exact ⟨rfl, rfl⟩
  | orderCancelled e =>
      rcases applyOrderCancelled_eq_ok.mp h with ⟨-, -, rfl⟩ | ⟨order, -, -, -, rfl⟩ <;>
        exact ⟨rfl, rfl⟩
  | settlementSubmitted e =>
      rcases applySettlementSubmitted_eq_ok h with ⟨-, rfl⟩ | ⟨-, -, rfl⟩ <;> exact ⟨rfl, rfl⟩
  | tradeConfirmed e =>
      rcases applyTradeConfirmed_eq_ok h with ⟨-, rfl⟩ | ⟨-, -, rfl⟩ <;> exact ⟨rfl, rfl⟩
  | chainReorg e =>
      obtain ⟨-, rfl⟩ := applyChainReorg_eq_ok.mp h
      exact ⟨rfl, rfl⟩

/-- The state after a committed event: the projection it made, and its record. -/
def recorded (next : Db) (result : IngestionResult) (eventId : String) : Db :=
  { next with events := (next.events.deleteWhere fun record =>
      record.eventId = eventId && Db.isFailed record).put {
        eventId
        processingStatus := processingStatusOf result.status
        processingError := result.reason } }

theorem sameProjection_recorded (next : Db) (result : IngestionResult) (eventId : String) :
    SameProjection next (recorded next result eventId) := ⟨rfl, rfl, rfl⟩

section
variable {drivers : Drivers} {node : Node} {v : ChainVerification} {event : BotEvent} {db next : Db}
  {result : IngestionResult}

theorem processed_recorded {eventId other : String} :
    (recorded next result eventId).processed other = true ↔
      other = eventId ∨ next.processed other = true := by
  have hstatus : Db.isFailed ⟨eventId, processingStatusOf result.status, result.reason⟩ = false := by
    cases hs : result.status <;> simp [Db.isFailed, processingStatusOf]
  simp only [Db.processed, recorded, Collection.find?_put, Collection.find?_deleteWhere]
  by_cases hid : eventId = other
  · subst hid
    simp [hstatus]
  · have hne : other ≠ eventId := fun h => hid h.symm
    rw [if_neg hid]
    cases hfind : next.events.find? other with
    | none => simp [hne]
    | some record =>
        have hkey := Collection.key_of_find? hfind
        simp [Option.filter, hkey, hne]

theorem transact_eq (hnew : db.processed event.eventId = false)
    (happly : applyEvent drivers event db = .ok (result, next)) :
    transact drivers event db = (.committed result, recorded next result event.eventId) := by
  have hnone : (next.events.deleteWhere fun record =>
      record.eventId = event.eventId && Db.isFailed record).find? event.eventId = none := by
    rw [(events_of_applyEvent happly).1, Collection.find?_deleteWhere]
    cases hfind : db.events.find? event.eventId with
    | none => rfl
    | some record =>
        have hid := Collection.key_of_find? hfind
        simp only [Db.processed, hfind, Option.any_some, Bool.not_eq_false'] at hnew
        exact Option.filter_some_neg (by simp [hid, hnew])
  simp only [transact, happly, hnone, Option.isSome_none, Bool.false_eq_true, if_false, recorded]

/-- A processed event is not committed again. -/
theorem transact_ne_committed (h : db.processed event.eventId = true) (r : IngestionResult) :
    (transact drivers event db).1 ≠ .committed r := by
  unfold transact
  cases happly : applyEvent drivers event db with
  | error error => simp
  | ok applied =>
      obtain ⟨result, next⟩ := applied
      obtain ⟨record, hfind, hlive⟩ : ∃ record, db.events.find? event.eventId = some record ∧
          Db.isFailed record = false := by
        simpa [Db.processed, Option.any_eq_true] using h
      have hsome : ((next.events.deleteWhere fun record =>
          record.eventId = event.eventId && Db.isFailed record).find? event.eventId).isSome = true := by
        rw [(events_of_applyEvent happly).1, Collection.find?_deleteWhere, hfind]
        simp [Option.filter, hlive]
      simp [hsome]

/-- The transaction of a processed event changes nothing. -/
theorem transact_processed (h : db.processed event.eventId = true) :
    (transact drivers event db).2 = db := by
  rcases transact_cases drivers event db with ⟨result, next, -, hcommitted, -⟩ | ⟨hsame, -⟩
  · exact (transact_ne_committed h result hcommitted).elim
  · exact hsame

variable (event)

/-- A new event that passes verification and applies is committed. -/
theorem run_ingest_eq (hnew : db.processed event.eventId = false)
    (hverify : run drivers node (verifyEvent v event) db = (.ok (), db))
    (happly : applyEvent drivers event db = .ok (result, next)) :
    run drivers node (ingest v event) db = (.ok result, recorded next result event.eventId) := by
  have hfirst : eval (handle drivers node) (request (.processed event.eventId)) db =
      (.ok (db.processed event.eventId), db) := rfl
  have hv : eval (handle drivers node) (verify v event) db = (.ok (), db) := by
    rw [verify, eval_tryCatch, show eval (handle drivers node) (verifyEvent v event) db = (.ok (), db)
      from hverify]
  have ht : eval (handle drivers node) (request (.transact event)) db =
      (.ok (transact drivers event db).1, (transact drivers event db).2) := rfl
  rw [run, ingest, eval_bind, hfirst, hnew]
  simp only [Bool.false_eq_true, if_false, eval_bind, hv, ht, transact_eq hnew happly]
  rfl

/-- An event that fails to apply leaves an audit record. -/
theorem run_ingest_error {error : Failure} (hnew : db.processed event.eventId = false)
    (hverify : run drivers node (verifyEvent v event) db = (.ok (), db))
    (happly : applyEvent drivers event db = .error error) :
    run drivers node (ingest v event) db =
      (.error error, recordFailed event.eventId (messageOf error) db) := by
  have hfirst : eval (handle drivers node) (request (.processed event.eventId)) db =
      (.ok (db.processed event.eventId), db) := rfl
  have hv : eval (handle drivers node) (verify v event) db = (.ok (), db) := by
    rw [verify, eval_tryCatch, show eval (handle drivers node) (verifyEvent v event) db = (.ok (), db)
      from hverify]
  have ht : eval (handle drivers node) (request (.transact event)) db = (.ok (.aborted error), db) := by
    change (Except.ok (transact drivers event db).1, (transact drivers event db).2) = _
    simp only [transact, happly]
  rw [run, ingest, eval_bind, hfirst, hnew]
  simp only [Bool.false_eq_true, if_false, eval_bind, hv, ht, reportOutcome, eval_auditFailure,
    eval_throw]

/-- An event that ingestion answers without an error was processed before, or
passed verification and was applied. -/
theorem run_ingest_ok {db' : Db} (hnew : db.processed event.eventId = false)
    (h : run drivers node (ingest v event) db = (.ok result, db')) :
    ∃ next, run drivers node (verifyEvent v event) db = (.ok (), db) ∧
      applyEvent drivers event db = .ok (result, next) ∧
      db' = recorded next result event.eventId := by
  have hverified : run drivers node (verifyEvent v event) db = (.ok (), db) := by
    rcases eval_verify drivers node v event db with ⟨-, hv⟩ | ⟨error, u, hv, -⟩
    · exact hv
    · have hfirst : eval (handle drivers node) (request (.processed event.eventId)) db =
          (.ok (db.processed event.eventId), db) := rfl
      rw [run, ingest, eval_bind, hfirst, hnew] at h
      simp only [Bool.false_eq_true, if_false, eval_bind, hv, Prod.mk.injEq, reduceCtorEq,
        false_and] at h
  cases happly : applyEvent drivers event db with
  | ok applied =>
      obtain ⟨r, next⟩ := applied
      rw [run_ingest_eq event hnew hverified happly] at h
      obtain ⟨hr, hdb⟩ := Prod.mk.inj h
      obtain rfl := Except.ok.inj hr
      exact ⟨next, hverified, rfl, hdb.symm⟩
  | error error =>
      rw [run_ingest_error event hnew hverified happly] at h
      cases (Prod.mk.inj h).1

/-- A processed event changes nothing. -/
theorem run_ingest_processed (h : db.processed event.eventId = true) :
    run drivers node (ingest v event) db = (.ok (ignored event.eventId "duplicate-event-id"), db) := by
  have hfirst : eval (handle drivers node) (request (.processed event.eventId)) db =
      (.ok (db.processed event.eventId), db) := rfl
  rw [run, ingest, eval_bind, hfirst, h]
  rfl

end

def lockHashesOf (hash : Script → Hash) (content : Content) (inputs : List CellRef) : List Hex :=
  inputs.filterMap fun ref => (cellAt content ref).map fun cell => hashText (hash cell.lock)

theorem mem_lockHashesOf {hash : Script → Hash} {content : Content} {inputs : List CellRef}
    {text : Hex} : text ∈ lockHashesOf hash content inputs ↔ ∃ ref ∈ inputs, ∃ cell,
      cellAt content ref = some cell ∧ text = hashText (hash cell.lock) := by
  simp only [lockHashesOf, List.mem_filterMap, Option.map_eq_some_iff]
  exact exists_congr fun ref => and_congr_right fun _ => exists_congr fun cell =>
    and_congr_right fun _ => eq_comm

/-- An event names the block in which the chain has a transaction, deep enough. -/
structure Names {w : World} (c : Chain w) (depth : ℕ) (txHash : Hex) (event : EventBase)
    (p : Position) (tx : RawTx) : Prop where
  key : hashFrom txHash = some p.txHash
  found : p ∈ positions w c.hashes
  content : w.content p.txHash = some tx
  blockHash : ∃ claimed, event.blockHash = some claimed ∧ lower claimed = hashText p.blockHash
  blockNumber : ∃ claimed, event.blockNumber = some claimed ∧ bigInt claimed = some (p.blockNumber : ℤ)
  deep : depth ≤ confirmationsOf c.tip p.blockNumber

section
variable {w : World} {c : Chain w} {dex : Script} {now : ℕ} {drivers : Drivers}
  {v : ChainVerification} {db : Db} {p : Position} {tx : RawTx}

theorem run_readInputLockHashes_of {node : Node} {content : Content}
    (hcell : ∀ ref, node.getCell ref = .ok (cellAt content ref)) (hash : Script → Hash)
    (inputs : List CellRef) :
    run drivers node (readInputLockHashes hash inputs) db =
      (.ok (lockHashesOf hash content inputs), db) := by
  induction inputs with
  | nil => rfl
  | cons input inputs ih =>
      have hget : eval (handle drivers node) (request (.getCell input)) db =
          (.ok (cellAt content input), db) := by
        change (node.getCell input, db) = _
        rw [hcell]
      have ih' : eval (handle drivers node) (readInputLockHashes hash inputs) db =
          (.ok (lockHashesOf hash content inputs), db) := ih
      simp only [readInputLockHashes, run, eval_bind, hget, ih']
      cases h : cellAt content input <;> simp [lockHashesOf, h]

theorem run_readInputLockHashes_chain (hash : Script → Hash) (inputs : List CellRef) :
    run drivers (c.node dex now) (readInputLockHashes hash inputs) db =
      (.ok (lockHashesOf hash w.content inputs), db) :=
  run_readInputLockHashes_of (fun _ => rfl) hash inputs

theorem response_of_found (hfound : p ∈ positions w c.hashes) (hcontent : w.content p.txHash = some tx) :
    c.response p.txHash = some (p.response tx) :=
  Chain.response_eq_some.mpr
    ⟨p, tx, Chain.positionOf_eq_some.mpr ⟨hfound, rfl⟩, hcontent, rfl⟩

theorem hashes_ne_nil (hfound : p ∈ positions w c.hashes) : c.hashes ≠ [] := by
  intro h
  rw [h] at hfound
  cases hfound

theorem run_requireConfirmed_chain {txHash : Hex} {event : EventBase}
    (h : Names c v.confirmationDepth txHash event p tx) :
    run drivers (c.node dex now) (requireConfirmed v txHash event) db =
      (.ok (transactionText (p.response tx) (lockHashesOf v.hash w.content tx.inputs)), db) := by
  have hget : eval (handle drivers (c.node dex now)) (request (.getTransactionNoCache p.txHash)) db =
      (.ok (c.response p.txHash), db) := rfl
  have hread : eval (handle drivers (c.node dex now)) (readTransaction v.hash txHash) db =
      (.ok (some (transactionText (p.response tx) (lockHashesOf v.hash w.content tx.inputs))), db) := by
    have hlocks : eval (handle drivers (c.node dex now)) (readInputLockHashes v.hash tx.inputs) db =
        (.ok (lockHashesOf v.hash w.content tx.inputs), db) := run_readInputLockHashes_chain _ _
    simp only [readTransaction, h.key, okOr, eval_bind, eval_require, hget,
      response_of_found h.found h.content, Position.response, hlocks, eval_pure]
  obtain ⟨claimedHash, hclaimedHash, hsame⟩ := h.blockHash
  obtain ⟨claimedNumber, hclaimedNumber, hnumber⟩ := h.blockNumber
  have hcheck : checkBlock txHash event
      (some (transactionText (p.response tx) (lockHashesOf v.hash w.content tx.inputs))) =
        .ok (transactionText (p.response tx) (lockHashesOf v.hash w.content tx.inputs),
          p.blockNumber) := by
    have hhex : sameHex claimedHash (hashText p.blockHash) = true := by
      rw [sameHex, hsame, hashText, lower_toHex, decide_eq_true_eq]
    simp [checkBlock, transactionText, Position.response, okOr, throwIf, rejectIf, hclaimedHash,
      hclaimedNumber, hhex, toBigInt, hnumber, bind, Except.bind, pure, Except.pure]
  have htip : eval (handle drivers (c.node dex now)) (request .getTip) db = (.ok c.tip, db) := by
    change ((c.node dex now).getTip, db) = _
    simp only [Chain.node, if_neg (hashes_ne_nil h.found)]
  have hdeep : ¬confirmationsOf c.tip p.blockNumber < v.confirmationDepth := not_lt.mpr h.deep
  simp only [requireConfirmed, run, eval_bind, hread, eval_require, hcheck, htip, throwIf, hdeep,
    if_false, eval_pure]

/-- A transaction that verification accepts is in the block that the event
names. -/
theorem position_of_confirmed {event : EventBase} {txHash : Hex} {response : TxResponse}
    {tx : ChainTransaction} (h : Confirmed v (c.node dex now) txHash event response tx) :
    ∃ p ∈ positions w c.hashes, hashFrom txHash = some p.txHash ∧
      w.content p.txHash = some response.transaction ∧ response = p.response response.transaction ∧
      (∃ text, event.blockHash = some text ∧ lower text = hashText p.blockHash) ∧
      ∃ text, event.blockNumber = some text ∧ bigInt text = some (p.blockNumber : ℤ) := by
  obtain ⟨key, hkey, hget⟩ := h.key
  obtain ⟨p, raw, hp, hraw, rfl⟩ := Chain.response_eq_some.mp (Except.ok.inj hget)
  obtain ⟨hmem, rfl⟩ := Chain.positionOf_eq_some.mp hp
  obtain ⟨n, hash, hn, hhash, hclaimed, hnumber, -⟩ := h.block
  obtain rfl : p.blockNumber = n := Option.some_inj.mp hn
  obtain rfl : p.blockHash = hash := Option.some_inj.mp hhash
  exact ⟨p, hmem, hkey, hraw, rfl, hclaimed, hnumber⟩

theorem run_verifyOrderConfirmed_chain {event : OrderConfirmedEvent} {cell : CellOutput}
    {terms : OrderArgs} (h : Names c v.confirmationDepth event.outPoint.txHash event.toEventBase p tx)
    (hchecked : OrderChecked v event (p.response tx) (lockHashesOf v.hash w.content tx.inputs) cell
      terms) :
    run drivers (c.node dex now) (verifyEvent v (.orderConfirmed event)) db = (.ok (), db) := by
  have hconfirmed : eval (handle drivers (c.node dex now))
      (requireConfirmed v event.outPoint.txHash event.toEventBase) db = _ :=
    run_requireConfirmed_chain h
  rw [verifyEvent, verifyOrderConfirmed, run, eval_bind, hconfirmed]
  simp only [eval_require, checkOrderConfirmed_eq_ok.mpr ⟨cell, terms, hchecked⟩]

theorem run_verifyOrderCancelled_chain {event : OrderCancelledEvent} {order : OrderDocument}
    (h : Names c v.confirmationDepth event.cancelledByTxHash event.toEventBase p tx)
    (horder : db.orders.find? (toOrderId event.outPoint) = some order)
    (hspends : Spends tx.inputs event.outPoint)
    (hauthorized : ∃ text ∈ lockHashesOf v.hash w.content tx.inputs,
      lower text = lower order.ownerLockHash) :
    run drivers (c.node dex now) (verifyEvent v (.orderCancelled event)) db = (.ok (), db) := by
  have hload : eval (handle drivers (c.node dex now)) (load [toOrderId event.outPoint]) db =
      (.ok (db.findOrders [toOrderId event.outPoint]), db) := rfl
  have hconfirmed : eval (handle drivers (c.node dex now))
      (requireConfirmed v event.cancelledByTxHash event.toEventBase) db = _ :=
    run_requireConfirmed_chain h
  have hcheck : checkCancellation event order
      (transactionText (p.response tx) (lockHashesOf v.hash w.content tx.inputs)) = .ok () := by
    obtain ⟨text, htext, hsame⟩ := hauthorized
    have hany : ((lockHashesOf v.hash w.content tx.inputs).any fun hash =>
        sameHex hash order.ownerLockHash) = true :=
      List.any_eq_true.mpr ⟨text, htext, by rw [sameHex, hsame, decide_eq_true_eq]⟩
    simp only [checkCancellation, bind_eq_ok]
    exact ⟨true, spends_eq_ok.mpr hspends, (), rejectIf_eq_ok.mpr (not_not.mpr rfl),
      rejectIf_eq_ok.mpr (not_not.mpr hany)⟩
  rw [verifyEvent, verifyOrderCancelled, run, eval_bind, hload]
  simp only [head?_findOrders, horder, eval_bind, hconfirmed, eval_require, hcheck]

/-- The orders that a settlement names are stored, on their sides, and the
trade repeats their terms. -/
structure Matches (db : Db) (event : TradeConfirmedEvent) (buy sell : OrderDocument) : Prop where
  buy_stored : db.orders.find? (toOrderId event.buyOrderOutPoint) = some buy
  sell_stored : db.orders.find? (toOrderId event.sellOrderOutPoint) = some sell
  buy_direction : buy.direction = .bid
  sell_direction : sell.direction = .ask
  buyer : lower event.trade.buyerLockHash = lower buy.ownerLockHash
  seller : lower event.trade.sellerLockHash = lower sell.ownerLockHash
  token : lower event.trade.xudtTypeHash = lower sell.xudtTypeHash
  amount : event.trade.tokenAmount = sell.remainingAmount
  price : event.trade.price = sell.pricePerToken
  block : event.blockNumber = some event.trade.confirmedAtBlock

/-- Two stored orders with different ids are all that a search for both ids
finds. -/
theorem length_findOrders_pair {a b : OrderDocument} (ha : a ∈ db.orders.docs)
    (hb : b ∈ db.orders.docs) (hne : a.id ≠ b.id) : (db.findOrders [a.id, b.id]).length = 2 := by
  have hab : a ≠ b := fun h => hne (congrArg OrderDocument.id h)
  have hperm : (db.findOrders [a.id, b.id]).Perm [a, b] := by
    refine (List.perm_ext_iff_of_nodup ?_ ?_).mpr fun x => ?_
    · exact (List.Nodup.of_map _ db.orders.nodup).sublist List.filter_sublist
    · simpa using hab
    · simp only [Db.findOrders, Collection.mem_filter, decide_eq_true_eq, List.mem_cons,
        List.not_mem_nil, or_false]
      constructor
      · rintro ⟨hx, hid | hid⟩
        · exact Or.inl (List.inj_on_of_nodup_map db.orders.nodup hx ha hid)
        · exact Or.inr (List.inj_on_of_nodup_map db.orders.nodup hx hb hid)
      · rintro (rfl | rfl)
        · exact ⟨ha, Or.inl rfl⟩
        · exact ⟨hb, Or.inr rfl⟩
  exact hperm.length_eq

theorem Matches.length_eq {event : TradeConfirmedEvent} {buy sell : OrderDocument}
    (h : Matches db event buy sell) : (db.findOrders (tradeIds event)).length = 2 := by
  obtain ⟨hbm, hbid⟩ := Collection.find?_eq_some.mp h.buy_stored
  obtain ⟨hsm, hsid⟩ := Collection.find?_eq_some.mp h.sell_stored
  have hne : buy.id ≠ sell.id := by
    intro hid
    have hsame := List.inj_on_of_nodup_map db.orders.nodup hbm hsm hid
    have hdir := h.buy_direction
    rw [hsame, h.sell_direction] at hdir
    cases hdir
  rw [tradeIds, ← hbid, ← hsid]
  exact length_findOrders_pair hbm hsm hne

theorem run_verifyTradeConfirmed_chain {event : TradeConfirmedEvent} {buy sell : OrderDocument}
    (h : Names c v.confirmationDepth event.trade.settlementTxHash event.toEventBase p tx)
    (hmatches : Matches db event buy sell) (hbuy : Spends tx.inputs event.buyOrderOutPoint)
    (hsell : Spends tx.inputs event.sellOrderOutPoint) :
    run drivers (c.node dex now) (verifyEvent v (.tradeConfirmed event)) db = (.ok (), db) := by
  have hload : eval (handle drivers (c.node dex now))
      (load [toOrderId event.buyOrderOutPoint, toOrderId event.sellOrderOutPoint]) db =
      (.ok (db.findOrders (tradeIds event)), db) := rfl
  have hconfirmed : eval (handle drivers (c.node dex now))
      (requireConfirmed v event.trade.settlementTxHash event.toEventBase) db = _ :=
    run_requireConfirmed_chain h
  have hfirst : rejectIf (some event.trade.confirmedAtBlock ≠ event.blockNumber)
      "confirmed block disagrees with event block" = .ok () :=
    rejectIf_eq_ok.mpr (not_not.mpr hmatches.block.symm)
  have hpair : checkPair event (db.findOrders (tradeIds event)) = .ok (buy, sell) := by
    have hb : (db.findOrders (tradeIds event)).find?
        (fun order => order.id = toOrderId event.buyOrderOutPoint) = some buy :=
      Collection.find?_filter hmatches.buy_stored
        (by simp [tradeIds, Collection.key_of_find? hmatches.buy_stored])
    have hs : (db.findOrders (tradeIds event)).find?
        (fun order => order.id = toOrderId event.sellOrderOutPoint) = some sell :=
      Collection.find?_filter hmatches.sell_stored
        (by simp [tradeIds, Collection.key_of_find? hmatches.sell_stored])
    simp only [checkPair, bind_eq_ok, okOr_eq_ok, throwIf_eq_ok]
    refine ⟨buy, hb, sell, hs, (), ?_, rfl⟩
    simp [hmatches.buy_direction, hmatches.sell_direction]
  have hcheck : checkTrade event buy sell
      (transactionText (p.response tx) (lockHashesOf v.hash w.content tx.inputs)) = .ok () := by
    simp only [checkTrade, bind_eq_ok]
    refine ⟨true, spends_eq_ok.mpr hbuy, (), rejectIf_eq_ok.mpr (not_not.mpr rfl), true,
      spends_eq_ok.mpr hsell, (), rejectIf_eq_ok.mpr (not_not.mpr rfl), rejectIf_eq_ok.mpr ?_⟩
    simp [sameHex, hmatches.buyer, hmatches.seller, hmatches.token, hmatches.amount, hmatches.price]
  simp only [verifyEvent, verifyTradeConfirmed, run, eval_bind, eval_require, hfirst, hload,
    hmatches.length_eq, ne_eq, not_true_eq_false, if_false, hpair, hconfirmed, hcheck]

theorem checkSpendsAll_eq_ok {response : TxResponse} {lockHashes : List Hex}
    {outPoints : List OutPoint} {u : Unit} :
    checkSpendsAll (transactionText response lockHashes) outPoints = .ok u ↔
      ∀ outPoint ∈ outPoints, Spends response.transaction.inputs outPoint := by
  induction outPoints with
  | nil => simp [checkSpendsAll, pure, Except.pure]
  | cons outPoint outPoints ih =>
      simp only [checkSpendsAll, bind_eq_ok]
      rw [List.forall_mem_cons, ← rejectUnless_spends (u := ()), ← ih]
      constructor
      · rintro ⟨spent, hspent, u, hreject, hrest⟩
        exact ⟨⟨spent, hspent, hreject⟩, hrest⟩
      · rintro ⟨⟨spent, hspent, hreject⟩, hrest⟩
        exact ⟨spent, hspent, (), hreject, hrest⟩

/-- A settlement that a node knows, in its pool or committed, passes. -/
theorem run_verifySettlementSubmitted_of {node : Node} {content : Content}
    {event : SettlementSubmittedEvent} {key : Hash} {response : TxResponse}
    (hcell : ∀ ref, node.getCell ref = .ok (cellAt content ref))
    (hkey : hashFrom event.settlementTxHash = some key)
    (hfound : node.getTransactionNoCache key = .ok (some response))
    (hstatus : response.status ∈ ["pending", "proposed", "committed"])
    (hspends : ∀ outPoint ∈ event.orderOutPoints, Spends response.transaction.inputs outPoint) :
    run drivers node (verifyEvent v (.settlementSubmitted event)) db = (.ok (), db) := by
  have hget : eval (handle drivers node) (request (.getTransactionNoCache key)) db =
      (.ok (some response), db) := by
    change (node.getTransactionNoCache key, db) = _
    rw [hfound]
  have hlocks : eval (handle drivers node)
      (readInputLockHashes v.hash response.transaction.inputs) db = _ :=
    run_readInputLockHashes_of hcell _ _
  have hread : eval (handle drivers node) (readTransaction v.hash event.settlementTxHash) db =
      (.ok (some (transactionText response (lockHashesOf v.hash content
        response.transaction.inputs))), db) := by
    simp only [readTransaction, hkey, okOr, eval_bind, eval_require, hget, hlocks, eval_pure]
  have hknown : rejectIf ((transactionText response (lockHashesOf v.hash content
      response.transaction.inputs)).status ∉ ["pending", "proposed", "committed"])
      "settlement transaction is unknown to the node" = .ok () :=
    rejectIf_eq_ok.mpr (not_not.mpr hstatus)
  have hall : checkSpendsAll (transactionText response (lockHashesOf v.hash content
      response.transaction.inputs)) event.orderOutPoints = .ok () :=
    checkSpendsAll_eq_ok.mpr hspends
  simp only [verifyEvent, verifySettlementSubmitted, run, eval_bind, hread, eval_require, okOr]
  simp only [bind, Except.bind, hknown, hall]

theorem run_verifyChainReorg_chain {event : ChainReorgEvent} {reverted ancestor : ℤ}
    (hreverted : bigInt event.revertedBlockNumber = some reverted)
    (hancestor : ∀ text, event.ancestorBlockNumber = some text → bigInt text = some ancestor)
    (hlt : ancestor < reverted) (hnonneg : 0 ≤ reverted)
    (hstale : ∀ hash, c.hashes[reverted.toNat]? = some hash →
      lower event.revertedBlockHash ≠ hashText hash) :
    run drivers (c.node dex now) (verifyEvent v (.chainReorg event)) db = (.ok (), db) := by
  have hfirst : checkAncestor event = .ok () := by
    unfold checkAncestor
    cases htext : event.ancestorBlockNumber with
    | none => rfl
    | some text =>
        simp only [bind_eq_ok, toBigInt_eq_ok]
        exact ⟨ancestor, hancestor text htext, reverted, hreverted,
          rejectIf_eq_ok.mpr (not_le.mpr hlt)⟩
  have hheader : eval (handle drivers (c.node dex now)) (request (.getHeaderHash reverted)) db =
      (.ok c.hashes[reverted.toNat]?, db) := by
    change ((c.node dex now).getHeaderHash reverted, db) = _
    simp only [Chain.node, if_pos hnonneg]
  have hlast : rejectIf ((c.hashes[reverted.toNat]?).any fun hash =>
      sameHex (hashText hash) event.revertedBlockHash)
      "claimed reverted block is still canonical" = .ok () := by
    rw [rejectIf_eq_ok, Bool.not_eq_true]
    cases hhash : c.hashes[reverted.toNat]? with
    | none => rfl
    | some hash =>
        rw [Option.any_some, ← Bool.not_eq_true, sameHex_hashText]
        exact hstale hash hhash
  simp only [verifyEvent, verifyChainReorg, run, eval_bind, eval_require, hfirst,
    toBigInt_eq_ok.mpr hreverted, hheader, hlast]

end

/-- The two conversions read the decimal texts of the integers that occur. -/
structure Reads (drivers : Drivers) : Prop where
  decimal128 : ∀ n : ℕ, n < 2 ^ 64 → drivers.decimal128 (toString n) = true
  toLong : ∀ n : ℕ, n < 2 ^ 63 → drivers.toLong (toString n) = some (n : ℤ)

/-- An order cell that the scan indexes: created by a buried transaction that
its maker funded, and holding what its args declare. -/
structure Indexable {w : World} (v : ChainVerification) (c : Chain w) (cell : IndexedCell)
    (terms : OrderArgs) (owner : Script) (p : Position) (tx : RawTx) : Prop where
  found : p ∈ positions w c.hashes
  txHash : p.txHash = cell.outPoint.txHash
  content : w.content p.txHash = some tx
  output : tx.outputs[cell.outPoint.index.toNat]? = some cell.cell
  codeHash : hashText cell.cell.lock.codeHash = v.dexLock.codeHash
  hashType : hashTypeText cell.cell.lock.hashType = v.dexLock.hashType
  parsed : parseOrderArgs cell.cell.lock.args = .ok terms
  supported : hashText terms.xudtTypeHash ∈ v.supportedAssetHashes
  asset : directionOf terms.side = .ask → ∃ type, cell.cell.type = some type ∧
    v.hash type = terms.xudtTypeHash ∧ 16 ≤ cell.cell.data.length ∧
    ofLe (slice cell.cell.data 0 16) = terms.tokenAmount.toNat
  plain : directionOf terms.side ≠ .ask → cell.cell.type = none
  maker : v.hash owner = terms.makerLockHash
  funded : ∃ ref ∈ tx.inputs, ∃ funding, cellAt w.content ref = some funding ∧ funding.lock = owner
  deep : v.confirmationDepth ≤ confirmationsOf c.tip p.blockNumber

/-- The event that the bot emits for an indexable cell. -/
def indexedEvent (address : Script → String) (cell : IndexedCell) (terms : OrderArgs)
    (owner : Script) (p : Position) (tx : RawTx) : OrderConfirmedEvent :=
  Bot.orderConfirmedEvent (address owner) cell (decodedOf terms) owner (p.response tx) p.blockNumber

section
variable {w : World} {v : ChainVerification} {c : Chain w} {cell : IndexedCell} {terms : OrderArgs}
  {owner : Script} {p : Position} {tx : RawTx} {drivers : Drivers} {db : Db} {dex : Script} {now : ℕ}
  (address : Script → String)

theorem Indexable.names (h : Indexable v c cell terms owner p tx) :
    Names c v.confirmationDepth (indexedEvent address cell terms owner p tx).outPoint.txHash
      (indexedEvent address cell terms owner p tx).toEventBase p tx where
  key := by
    rw [h.txHash]
    exact hashFrom_hashText _
  found := h.found
  content := h.content
  blockHash := ⟨hashText p.blockHash, rfl, lower_toHex _⟩
  blockNumber := ⟨toString p.blockNumber, rfl, bigInt_toString _⟩
  deep := h.deep

theorem Indexable.checked (h : Indexable v c cell terms owner p tx) :
    OrderChecked v (indexedEvent address cell terms owner p tx) (p.response tx)
      (lockHashesOf v.hash w.content tx.inputs) cell.cell terms where
  blockNumber := rfl
  txIndex := by
    rintro i ⟨⟩
    exact bigInt_toString _
  output := by
    have hlt : cell.outPoint.index.toNat < 2 ^ 53 := lt_trans cell.outPoint.index.isLt (by norm_num)
    refine ⟨cell.outPoint.index.toNat, ?_, h.output⟩
    change (Number.number (toString cell.outPoint.index.toNat)).toIndex = _
    rw [Number.number_toString hlt, Number.toIndex_natCast]
  dexLock := by
    refine ⟨?_, h.hashType⟩
    rw [← h.codeHash]
    exact lower_toHex _
  args := lower_toHex _
  data := lower_toHex _
  capacity := bigInt_toString _
  decoded := h.parsed
  direction := rfl
  price := bigInt_toString _
  amount := bigInt_toString _
  token := lower_toHex _
  maker := lower_toHex _
  supported := h.supported
  asset := by
    intro hask
    obtain ⟨type, htype, hhash, hlen, hheld⟩ := h.asset hask
    refine ⟨⟨type, htype, hhash⟩, ⟨scriptText type, type, ?_, scriptFrom_scriptText _, hhash⟩, hlen,
      hheld⟩
    change cell.cell.type.map scriptText = _
    rw [htype, Option.map_some]
  plain := h.plain
  owner := ⟨owner, scriptFrom_scriptText _, h.maker⟩
  funded := by
    obtain ⟨ref, href, funding, hcell, hlock⟩ := h.funded
    refine ⟨_, mem_lockHashesOf.mpr ⟨ref, href, funding, hcell, rfl⟩, ?_⟩
    rw [hlock, h.maker]
    exact lower_toHex _

theorem isNonempty_toString (n : ℕ) : isNonempty (toString n) = true := by simp [isNonempty]

theorem outPointText_valid (ref : CellRef) : OutPoint.valid (outPointText ref) = true :=
  Bool.and_eq_true_iff.mpr ⟨isHash_hashText _, isNonempty_toString _⟩

theorem valid_scriptText (script : Script) : ScriptDocument.valid (scriptText script) = true := by
  simp [ScriptDocument.valid, scriptText, isHex_toHex]

theorem isNonempty_append {a b : String} (h : isNonempty a = true) : isNonempty (a ++ b) = true := by
  simp only [isNonempty, decide_eq_true_eq] at h ⊢
  intro hab
  have hl := congrArg String.toList hab
  rw [String.toList_append] at hl
  exact h (String.toList_inj.mp (List.append_eq_nil_iff.mp hl).1)

theorem valid_indexedOrder :
    ConfirmedOrder.valid (indexedEvent address cell terms owner p tx).order = true := by
  have htype : (cell.cell.type.map scriptText).all ScriptDocument.valid = true := by
    cases cell.cell.type <;> simp [valid_scriptText]
  simp only [ConfirmedOrder.valid, Bool.and_eq_true]
  exact ⟨⟨⟨⟨⟨⟨⟨⟨⟨⟨valid_scriptText _, htype⟩, isHex_toHex _⟩, isNonempty_toString _⟩,
    valid_scriptText _⟩, isHash_hashText _⟩, isNonempty_toString _⟩, isNonempty_toString _⟩,
    isHash_hashText _⟩, isNonempty_toString _⟩, isNonempty_toString _⟩

theorem valid_indexedEvent :
    (BotEvent.orderConfirmed (indexedEvent address cell terms owner p tx)).valid = true := by
  have hid : isNonempty (indexedEvent address cell terms owner p tx).eventId = true :=
    isNonempty_append (isNonempty_append (isNonempty_append (by simp [isNonempty])))
  have hbase : EventBase.valid (indexedEvent address cell terms owner p tx).toEventBase = true := by
    rw [EventBase.valid, hid]
    exact Bool.and_eq_true_iff.mpr ⟨isNonempty_toString _, isHash_hashText _⟩
  have hout : OutPoint.valid (indexedEvent address cell terms owner p tx).outPoint = true :=
    outPointText_valid _
  simp only [BotEvent.valid, BotEvent.base, hbase, hout, valid_indexedOrder, Bool.and_self]

theorem valid_tradeConfirmedEvent {buy sell : OrderDocument} {txHash blockHash : Hash} {n : ℕ}
    (hbuyOut : OutPoint.valid buy.outPoint = true) (hsellOut : OutPoint.valid sell.outPoint = true)
    (hbuyer : isHash buy.ownerLockHash = true) (hseller : isHash sell.ownerLockHash = true)
    (htoken : isHash sell.xudtTypeHash = true) (hamount : isNonempty sell.remainingAmount = true)
    (hprice : isNonempty sell.pricePerToken = true) :
    (BotEvent.tradeConfirmed
      (Bot.tradeConfirmedEvent buy sell (hashText txHash) n (some blockHash))).valid = true := by
  have hid : isNonempty (Bot.tradeConfirmedEvent buy sell (hashText txHash) n
      (some blockHash)).eventId = true :=
    isNonempty_append (isNonempty_append (isNonempty_append (by simp [isNonempty])))
  have hbase : EventBase.valid (Bot.tradeConfirmedEvent buy sell (hashText txHash) n
      (some blockHash)).toEventBase = true := by
    rw [EventBase.valid, hid]
    exact Bool.and_eq_true_iff.mpr ⟨isNonempty_toString _, isHash_hashText _⟩
  have htrade : ConfirmedTrade.valid (Bot.tradeConfirmedEvent buy sell (hashText txHash) n
      (some blockHash)).trade = true := by
    simp only [ConfirmedTrade.valid, Bool.and_eq_true]
    exact ⟨⟨⟨⟨⟨⟨⟨isHash_hashText _, hbuyer⟩, hseller⟩, htoken⟩, hamount⟩, hprice⟩, hprice⟩,
      isNonempty_toString _⟩
  refine Bool.and_eq_true_iff.mpr ⟨hbase, Bool.and_eq_true_iff.mpr ⟨?_, htrade⟩⟩
  exact Bool.and_eq_true_iff.mpr ⟨hbuyOut, hsellOut⟩

theorem valid_settlementSubmittedEvent {buy sell : OrderDocument} {txHash : Hash}
    (hbuyOut : OutPoint.valid buy.outPoint = true) (hsellOut : OutPoint.valid sell.outPoint = true) :
    (BotEvent.settlementSubmitted (Bot.settlementSubmittedEvent buy sell txHash)).valid = true := by
  have hid : isNonempty (Bot.settlementSubmittedEvent buy sell txHash).eventId = true :=
    isNonempty_append (by simp [isNonempty])
  have hbase : EventBase.valid (Bot.settlementSubmittedEvent buy sell txHash).toEventBase = true := by
    rw [EventBase.valid, hid]
    rfl
  have hpoints : (Bot.settlementSubmittedEvent buy sell txHash).orderOutPoints.all OutPoint.valid =
      true := by
    change (OutPoint.valid buy.outPoint && (OutPoint.valid sell.outPoint && true)) = true
    rw [hbuyOut, hsellOut, Bool.and_self, Bool.and_self]
  refine Bool.and_eq_true_iff.mpr ⟨hbase, Bool.and_eq_true_iff.mpr ⟨?_, isHash_hashText _⟩⟩
  exact Bool.and_eq_true_iff.mpr ⟨rfl, hpoints⟩

/-- The bot's event for an indexable cell passes verification. -/
theorem Indexable.verified (h : Indexable v c cell terms owner p tx) :
    run drivers (c.node dex now)
      (verifyEvent v (.orderConfirmed (indexedEvent address cell terms owner p tx))) db =
        (.ok (), db) :=
  run_verifyOrderConfirmed_chain (h.names address) (h.checked address)

/-- Unless the order is indexed already, the bot's event stores it anew. -/
theorem applies_indexedEvent (hreads : Reads drivers) {existing : Option OrderDocument}
    (hfind : db.orders.find? (toOrderId (outPointText cell.outPoint)) = existing)
    (hopen : alreadyIndexed existing (indexedEvent address cell terms owner p tx) = false) :
    applyEvent drivers (.orderConfirmed (indexedEvent address cell terms owner p tx)) db =
      .ok (applied (indexedEvent address cell terms owner p tx).eventId,
        db.putOrder (confirmedDocument existing (indexedEvent address cell terms owner p tx))) := by
  subst hfind
  refine applyOrderConfirmed_eq_ok.mpr (Or.inr ⟨hopen, ?_, ?_, ?_, rfl, rfl⟩)
  · exact hreads.decimal128 _ terms.price.isLt
  · exact Number.number_ne_nan_of_bigInt (bigInt_toString p.blockNumber)
  · exact Number.number_ne_nan_of_bigInt (bigInt_toString p.txIndex)

theorem Indexable.ingested (h : Indexable v c cell terms owner p tx) (hreads : Reads drivers)
    {existing : Option OrderDocument}
    (hnew : db.processed (indexedEvent address cell terms owner p tx).eventId = false)
    (hfind : db.orders.find? (toOrderId (outPointText cell.outPoint)) = existing)
    (hopen : alreadyIndexed existing (indexedEvent address cell terms owner p tx) = false) :
    run drivers (c.node dex now)
      (ingest v (.orderConfirmed (indexedEvent address cell terms owner p tx))) db =
        (.ok (applied (indexedEvent address cell terms owner p tx).eventId),
          recorded (db.putOrder (confirmedDocument existing
            (indexedEvent address cell terms owner p tx)))
            (applied (indexedEvent address cell terms owner p tx).eventId)
            (indexedEvent address cell terms owner p tx).eventId) :=
  run_ingest_eq _ hnew (h.verified address) (applies_indexedEvent address hreads hfind hopen)

end

open SettlementBuilder OrderLockRules

theorem exampleDrivers_reads : Reads exampleDrivers where
  decimal128 := by
    intro n _
    simp [exampleDrivers, digitsValue_toDigits]
  toLong := by
    intro n _
    simp [exampleDrivers, digitsValue_toDigits]

def exampleBuyIndexed : IndexedCell := ⟨⟨exampleHash 5, 0⟩, exampleBuyCell⟩
def exampleSellIndexed : IndexedCell := ⟨⟨exampleHash 5, 1⟩, exampleSellCell⟩

/-- The transaction that creates both orders. -/
def exampleCreation : RawTx :=
  ⟨[⟨exampleHash 10, 0⟩, ⟨exampleHash 10, 1⟩], [exampleBuyCell, exampleSellCell]⟩

theorem exampleBuy_indexable : Indexable exampleVerification exampleChain exampleBuyIndexed
    (exampleOrder sideBuy (exampleHash 1)) (exampleOwner 1) ⟨1, exampleHash 21, 0, exampleHash 5⟩
    exampleCreation := by
  constructor <;> first | rfl | decide

theorem exampleSell_indexable : Indexable exampleVerification exampleChain exampleSellIndexed
    (exampleOrder sideSell (exampleHash 2)) (exampleOwner 2) ⟨1, exampleHash 21, 0, exampleHash 5⟩
    exampleCreation := by
  constructor <;> first | rfl | decide

def exampleConfirmed : OrderConfirmedEvent :=
  indexedEvent (fun _ => "ckt1") exampleBuyIndexed (exampleOrder sideBuy (exampleHash 1))
    (exampleOwner 1) ⟨1, exampleHash 21, 0, exampleHash 5⟩ exampleCreation

/-- The state after the first delivery. -/
def exampleIndexed : Db :=
  recorded (Db.empty.putOrder (confirmedDocument none exampleConfirmed))
    (applied exampleConfirmed.eventId) exampleConfirmed.eventId

theorem exampleConfirmed_ingested :
    run exampleDrivers (exampleChain.node exampleDex 0)
      (ingest exampleVerification (.orderConfirmed exampleConfirmed)) Db.empty =
        (.ok (applied exampleConfirmed.eventId), exampleIndexed) :=
  exampleBuy_indexable.ingested _ exampleDrivers_reads rfl rfl rfl

theorem exampleConfirmed_committed :
    transact exampleDrivers (.orderConfirmed exampleConfirmed) Db.empty =
      (.committed (applied exampleConfirmed.eventId), exampleIndexed) :=
  transact_eq rfl (applies_indexedEvent _ exampleDrivers_reads rfl rfl)

def exampleSellConfirmed : OrderConfirmedEvent :=
  indexedEvent (fun _ => "ckt1") exampleSellIndexed (exampleOrder sideSell (exampleHash 2))
    (exampleOwner 2) ⟨1, exampleHash 21, 0, exampleHash 5⟩ exampleCreation

def exampleBuy : OrderDocument := confirmedDocument none exampleConfirmed
def exampleSell : OrderDocument := confirmedDocument none exampleSellConfirmed

/-- The state with both orders. -/
def exampleOpen : Db :=
  recorded (exampleIndexed.putOrder exampleSell) (applied exampleSellConfirmed.eventId)
    exampleSellConfirmed.eventId

theorem exampleBuy_id_ne : exampleBuy.id ≠ exampleSell.id := by decide +kernel

theorem exampleIndexed_find_sell : exampleIndexed.orders.find? exampleSell.id = none :=
  Collection.find?_put.trans (if_neg exampleBuy_id_ne)

theorem exampleSellConfirmed_new : exampleIndexed.processed exampleSellConfirmed.eventId = false := by
  rw [Bool.eq_false_iff, ne_eq, exampleIndexed, processed_recorded, not_or]
  exact ⟨by decide +kernel, by decide⟩

theorem exampleSellConfirmed_ingested :
    run exampleDrivers (exampleChain.node exampleDex 0)
      (ingest exampleVerification (.orderConfirmed exampleSellConfirmed)) exampleIndexed =
        (.ok (applied exampleSellConfirmed.eventId), exampleOpen) :=
  exampleSell_indexable.ingested (fun _ => "ckt1") exampleDrivers_reads exampleSellConfirmed_new
    exampleIndexed_find_sell rfl

theorem exampleSellConfirmed_committed :
    transact exampleDrivers (.orderConfirmed exampleSellConfirmed) exampleIndexed =
      (.committed (applied exampleSellConfirmed.eventId), exampleOpen) :=
  transact_eq exampleSellConfirmed_new
    (applies_indexedEvent _ exampleDrivers_reads exampleIndexed_find_sell rfl)

theorem exampleOpen_buy : exampleOpen.orders.find? exampleBuy.id = some exampleBuy :=
  Collection.find?_put.trans ((if_neg exampleBuy_id_ne.symm).trans (Collection.find?_put.trans (if_pos rfl)))

theorem exampleOpen_sell : exampleOpen.orders.find? exampleSell.id = some exampleSell :=
  Collection.find?_put.trans (if_pos rfl)

/-- The transaction that settles both orders. -/
def exampleSettlement : RawTx :=
  ⟨[⟨exampleHash 5, 0⟩, ⟨exampleHash 5, 1⟩],
    [⟨30000005000, exampleOwner 2, none, []⟩,
      ⟨19999994500, exampleOwner 1, some exampleTokenType, exampleSellCell.data⟩]⟩

def exampleSettled : TradeConfirmedEvent :=
  Bot.tradeConfirmedEvent exampleBuy exampleSell (hashText (exampleHash 11)) 2 (some (exampleHash 22))

theorem exampleSettled_names : Names exampleChain exampleVerification.confirmationDepth
    exampleSettled.trade.settlementTxHash exampleSettled.toEventBase
    ⟨2, exampleHash 22, 0, exampleHash 11⟩ exampleSettlement where
  key := hashFrom_hashText _
  found := by decide
  content := by rfl
  blockHash := ⟨hashText (exampleHash 22), rfl, lower_toHex _⟩
  blockNumber := ⟨toString 2, rfl, bigInt_toString 2⟩
  deep := by decide

/-- An order document that a cell's index event stores is spent through the
cell's out point. -/
theorem spends_outPointText {inputs : List CellRef} {ref : CellRef} (h : ref ∈ inputs) :
    Spends inputs (outPointText ref) :=
  ⟨ref, h, lower_toHex _, bigInt_toString _⟩

theorem exampleSettled_matches : Matches exampleOpen exampleSettled exampleBuy exampleSell where
  buy_stored := exampleOpen_buy
  sell_stored := exampleOpen_sell
  buy_direction := by decide
  sell_direction := by decide
  buyer := rfl
  seller := rfl
  token := rfl
  amount := rfl
  price := rfl
  block := rfl

/-- The state after the settlement. -/
def exampleFilled : Db :=
  recorded { exampleOpen.saveOrders (tradeIds exampleSettled) (filledDocument exampleSettled)
      fun _ => rfl with trades := exampleOpen.trades.put (confirmedTrade none exampleSettled) }
    (applied exampleSettled.eventId) exampleSettled.eventId

theorem exampleOpen_docs {order : OrderDocument} :
    order ∈ exampleOpen.orders.docs ↔ order = exampleBuy ∨ order = exampleSell := by
  have hput : order ∈ exampleOpen.orders.docs ↔ order = exampleSell ∨
      order ∈ exampleIndexed.orders.docs ∧ order.id ≠ exampleSell.id := Collection.mem_docs_put
  have hfirst : order ∈ exampleIndexed.orders.docs ↔ order = exampleBuy ∨
      order ∈ Db.empty.orders.docs ∧ order.id ≠ exampleBuy.id := Collection.mem_docs_put
  have hnone : order ∉ Db.empty.orders.docs := List.not_mem_nil
  simp only [hput, hfirst, hnone, false_and, or_false]
  constructor
  · rintro (rfl | ⟨rfl, -⟩)
    · exact Or.inr rfl
    · exact Or.inl rfl
  · rintro (rfl | rfl)
    · exact Or.inr ⟨rfl, exampleBuy_id_ne⟩
    · exact Or.inl rfl

theorem exampleSettled_ready : Ready exampleOpen (tradeIds exampleSettled) .filled where
  found := exampleSettled_matches.length_eq
  allowed := by
    intro order horder _
    rcases exampleOpen_docs.mp horder with rfl | rfl <;> rfl

theorem exampleSettled_verified :
    run exampleDrivers (exampleChain.node exampleDex 0)
      (verifyEvent exampleVerification (.tradeConfirmed exampleSettled)) exampleOpen =
        (.ok (), exampleOpen) :=
  run_verifyTradeConfirmed_chain exampleSettled_names exampleSettled_matches
    (spends_outPointText (by decide)) (spends_outPointText (by decide))

theorem exampleSettled_new : exampleOpen.processed exampleSettled.eventId = false := by
  rw [Bool.eq_false_iff, ne_eq, exampleOpen, processed_recorded, not_or]
  refine ⟨by decide +kernel, ?_⟩
  change exampleIndexed.processed exampleSettled.eventId ≠ true
  rw [exampleIndexed, ne_eq, processed_recorded, not_or]
  exact ⟨by decide +kernel, by decide⟩

theorem exampleSettled_applies : applyEvent exampleDrivers (.tradeConfirmed exampleSettled) exampleOpen =
    .ok (applied exampleSettled.eventId,
      { exampleOpen.saveOrders (tradeIds exampleSettled) (filledDocument exampleSettled) fun _ => rfl with
        trades := exampleOpen.trades.put (confirmedTrade none exampleSettled) }) :=
  applyTradeConfirmed_of_ready exampleSettled_ready (Number.number_ne_nan_of_bigInt (bigInt_toString 2))

theorem exampleSettled_ingested :
    run exampleDrivers (exampleChain.node exampleDex 0)
      (ingest exampleVerification (.tradeConfirmed exampleSettled)) exampleOpen =
        (.ok (applied exampleSettled.eventId), exampleFilled) :=
  run_ingest_eq (.tradeConfirmed exampleSettled) exampleSettled_new exampleSettled_verified
    exampleSettled_applies

theorem exampleSettled_committed :
    transact exampleDrivers (.tradeConfirmed exampleSettled) exampleOpen =
      (.committed (applied exampleSettled.eventId), exampleFilled) :=
  transact_eq exampleSettled_new exampleSettled_applies

theorem exampleSettled_valid : (BotEvent.tradeConfirmed exampleSettled).valid = true :=
  valid_tradeConfirmedEvent (outPointText_valid _) (outPointText_valid _) (isHash_hashText _)
    (isHash_hashText _) (isHash_hashText _) (isNonempty_toString _) (isNonempty_toString _)

end CkbDex.Acceptance
