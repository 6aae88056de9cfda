import CkbDex.SettlementRecords

/-!
# Settlements that are followed

When an event of the settlement's id was processed before, the orders stay as they
were reserved. So a settlement is followed just when it is recorded for the first
time.
-/
namespace CkbDex.SettlementTracking
open OrderLockRules hiding exampleBuy exampleSell
open Checked Bytes OrderLock Documents Collections Projection Programs Operations Chains
open EventVerification IngestionSteps CkbDex.Bot Acceptance Observation Interleaving
open SettlementBuilder Interference Admission
open GroundedDocuments (exampleDrivers exampleVerification exampleWorld)
open TerminalStatuses (Runs Performs System performs_handle run_delivered unlimited
  exampleOpen_indexed exampleConfig exampleEarly exampleBuy_early exampleSell_early)
open InFlightDeadlines (run_revertIfExpired exampleUnmined exampleSubmitted exampleSubmitted_new
  exampleSubmitted_valid)

section
variable {drivers : Drivers} {node : Node} {buyId sellId : String} {txHash : Hash} {db : Db}
  {buy sell : OrderDocument}

/-- Calls that one node and the database answer, with nothing in between. -/
def alone (drivers : Drivers) (node : Node) : Setting Op (fun op => Answer (Res op)) Db where
  drifts := fun s t => t = s
  performs := fun op s answer t => handle drivers node op s = (answer, t)
  guarantee := fun _ _ => True
  refl := fun _ => trivial
  trans := fun _ _ => trivial

theorem alone_supervised : Supervised (alone drivers node) drivers (fun other => other = node) buyId sellId
    (fun db => db.processed (submissionId txHash) = true) (fun _ => False) where
  free := fun _ _ => trivial
  performs := fun _ _ _ _ h => ⟨trivial, Or.inl ⟨node, rfl, h⟩⟩
  drifts := by
    rintro s t rfl
    exact Or.inl ⟨rfl, rfl, id⟩
  stays := fun _ _ _ h => h
  notLive := fun _ _ h => h.elim
  events := by
    intro s t hevents hs
    rw [Db.processed, hevents]
    exact hs

/-- Nothing is recorded of a settlement whose event was processed. -/
theorem safe_recordSettlement_processed (v : ChainVerification)
    (hdb : Held (fun db => db.processed (submissionId txHash) = true) (fun _ => False) buyId sellId
      (some buy) (some sell) db) :
    Safe (alone drivers node) (recordSettlement v buy sell txHash)
      (fun r u => r = .ok () → u.orders.find? buyId = some buy) db := by
  obtain ⟨hbuy, -, hprocessed⟩ | hclosed := hdb
  · refine safe_tryCatch.mpr (safe_bind.mpr (safe_bind.mpr ?_))
    rintro t answer u rfl hcall
    obtain ⟨hanswer, hnext⟩ := Prod.mk.inj hcall
    have hknown : answer = .ok true := by
      rw [← hanswer]
      exact congrArg Except.ok hprocessed
    have hsame : t = u := hnext
    subst hknown hsame
    exact ⟨trivial, fun _ => hbuy⟩
  · exact hclosed.elim

/-- While the settlement of a marked order is neither committed nor rejected, the
order is not released. -/
theorem retryOrder_follows {order : OrderDocument} {tx : TxResponse} (v : ChainVerification)
    (h : Tracks (hashText txHash) order) (hfound : node.getTransaction txHash = .ok (some tx))
    (hcommitted : tx.status ≠ "committed") (hrejected : tx.status ≠ "rejected") :
    run drivers node (retryOrder v order) db = (.ok (), db) ∨
      ∃ reservedUntil, run drivers node (retryOrder v order) db =
        (.ok (), Db.extendReservation db order.id reservedUntil) := by
  have hfetched : eval (handle drivers node) (request (.getTransaction txHash)) db =
      (.ok (some tx), db) := congrArg (·, db) hfound
  have hnow : eval (handle drivers node) (request .now) db = (.ok node.now, db) := rfl
  have hopen : (some tx).filter (fun tx => tx.status = "committed") = none :=
    Option.filter_some_neg (by simpa using hcommitted)
  have hkept : (some tx : Option TxResponse).any (fun tx => tx.status = "rejected") = false :=
    decide_eq_false hrejected
  rw [run, retryOrder, h.pending]
  simp only [eval_bind, eval_require, hashFrom_hashText, okOr, hfetched, hopen, hkept, reduceCtorEq,
    Bool.false_eq_true, or_self, if_false, expired]
  cases hdeadline : order.reservedUntil with
  | none => exact Or.inl rfl
  | some deadline =>
      simp only [eval_bind, hnow, eval_pure]
      by_cases hover : deadline ≤ node.now
      · simp only [hover, decide_true, if_true, eval_bind, hnow]
        exact Or.inr ⟨_, rfl⟩
      · simp only [hover, decide_false, Bool.false_eq_true, if_false, eval_pure]
        exact Or.inl trivial

end

/-- A trade that returns a hash has marked both of its orders for that
settlement, whatever calls fail and whatever else goes on that spares the orders,
as long as no event of the settlement's id was processed before: also when the
node had the settlement already. When one was, the orders are not marked. A
marked order is not released while its settlement is under way. -/
theorem submitted_settlement_tracked (drivers : Drivers) (config : Config) (nodes : Node → Prop)
    (hhash : Hashes config nodes) {before : System}
    (hreached : Runs drivers config nodes unlimited ⟨Db.empty, []⟩ before) (schedule : List Bool)
    (buyOrder sellOrder : OrderDocument) {settlement : Settlement}
    (hbuild : buildSettlement config.client config.verification.supportedAssetHashes buyOrder sellOrder =
      .ok settlement) :
    (Unrecorded (config.settlementHash settlement) before.state → ∀ txHash after,
      Interference.Run (Spares buyOrder.id sellOrder.id (config.settlementHash settlement))
        (Performs drivers nodes unlimited) (fun _ _ _ => False)
        (before.state, some (executeTrade config schedule buyOrder sellOrder).run)
        (after, some (.pure (.ok txHash))) →
      BothTrack after buyOrder.id sellOrder.id (hashText txHash)) ∧
    (∀ node txHash after, nodes node →
      run drivers node (executeTrade config schedule buyOrder sellOrder) before.state =
        (.ok txHash, after) →
      (BothTrack after buyOrder.id sellOrder.id (hashText txHash) ↔
        Unrecorded (config.settlementHash settlement) before.state)) ∧
    (∀ txHash order, Tracks (hashText txHash) order → ∀ node db tx,
      node.getTransaction txHash = .ok (some tx) → tx.status ≠ "committed" → tx.status ≠ "rejected" →
      run drivers node (retryOrder config.verification order) db = (.ok (), db) ∨
        ∃ reservedUntil, run drivers node (retryOrder config.verification order) db =
          (.ok (), Db.extendReservation db order.id reservedUntil)) := by
  have hidentified := identified_of_runs hreached
  have hsafe : Unrecorded (config.settlementHash settlement) before.state → Safe
      (sparing drivers nodes buyOrder.id sellOrder.id (config.settlementHash settlement))
      (executeTrade config schedule buyOrder sellOrder) (fun r u => ∀ txHash, r = .ok txHash →
        txHash = config.settlementHash settlement ∧ BothTrack u buyOrder.id sellOrder.id
          (hashText (config.settlementHash settlement))) before.state := by
    intro hnew
    refine safe_executeTrade sparing_supervised hhash schedule rfl rfl hbuild hnew ?_
    intro foundBuy foundSell hbuy hsell hne t t' s hs
    obtain ⟨hbuyMem, hbuyId⟩ := Collection.find?_eq_some.mp hbuy
    obtain ⟨hsellMem, hsellId⟩ := Collection.find?_eq_some.mp hsell
    have hreserved : Reserved buyOrder.id sellOrder.id (reservedDocument t foundBuy)
        (reservedDocument t' foundSell) :=
      ⟨hbuyId, hsellId, hne, hidentified foundBuy hbuyMem, hidentified foundSell hsellMem, rfl, rfl⟩
    exact safe_recordSettlement hreserved config.verification hs
  refine ⟨fun hnew txHash after hrun => ?_, fun node txHash after hnode hrun => ⟨?_, fun hnew => ?_⟩,
    fun txHash order htracks node db tx => retryOrder_follows config.verification htracks⟩
  · obtain ⟨u, hended, hdrifted⟩ := run_ends (S := sparing drivers nodes buyOrder.id sellOrder.id
      (config.settlementHash settlement)) spares_refl spares_trans (hsafe hnew) hrun
    obtain ⟨rfl, hmarked⟩ := hended txHash rfl
    exact hmarked.spared hdrifted
  · rintro ⟨buy, sell, hbuy, -, htracks, -⟩
    rw [Unrecorded, ← Bool.not_eq_true]
    intro hprocessed
    have hended := eval_safe (S := alone drivers node) (fun _ => rfl) (handle drivers node)
      (fun _ _ => rfl) (safe_executeTrade alone_supervised (hhash.of_node hnode) schedule rfl rfl hbuild
        (R := fun u => ∃ order, u.orders.find? buyOrder.id = some order ∧ order.status = .reserved)
        hprocessed fun foundBuy foundSell _ _ _ t t' s hs =>
          Safe.mono (safe_recordSettlement_processed config.verification hs)
            fun r u _ hr hok => ⟨_, hr hok, rfl⟩)
    obtain ⟨-, order, hfound, hstatus⟩ := hended txHash (congrArg Prod.fst hrun)
    have hafter : (run drivers node (executeTrade config schedule buyOrder sellOrder) before.state).2 =
        after := congrArg Prod.snd hrun
    rw [← hafter] at hbuy
    obtain rfl := Option.some_inj.mp (hbuy.symm.trans hfound)
    rcases htracks.status with h | h <;> rw [hstatus] at h <;> cases h
  · have hended := eval_safe (S := sparing drivers nodes buyOrder.id sellOrder.id
      (config.settlementHash settlement)) spares_refl (handle drivers node)
      (fun op s => performs_handle hnode trivial) (hsafe hnew)
    obtain ⟨rfl, hmarked⟩ := hended txHash (congrArg Prod.fst hrun)
    have hafter : (run drivers node (executeTrade config schedule buyOrder sellOrder) before.state).2 =
        after := congrArg Prod.snd hrun
    rw [← hafter]
    exact hmarked

section
variable {drivers : Drivers} {node : Node} {config : Config} {settlement : Settlement}
  {buyOrder sellOrder buy sell : OrderDocument} {buyRef sellRef : CellRef} {txHash : Hash} {db : Db}

theorem run_reserve {id : String} {order : OrderDocument} (hfind : db.orders.find? id = some order)
    (hlive : order.status = .live) : run drivers node (Bot.reserve id) db =
      (.ok (some (reservedDocument (node.now + reservationTtl) order)),
        db.putOrder (reservedDocument (node.now + reservationTtl) order)) := by
  have hop : Db.reserve db id (node.now + reservationTtl) =
      (some (reservedDocument (node.now + reservationTtl) order),
        db.putOrder (reservedDocument (node.now + reservationTtl) order)) := by
    rw [Db.reserve, hfind]
    exact if_pos hlive
  change (Except.ok (Db.reserve db id (node.now + reservationTtl)).1,
    (Db.reserve db id (node.now + reservationTtl)).2) = _
  rw [hop]

theorem run_bothLive (v : ChainVerification) (hbuy : refFrom buy.outPoint = some buyRef)
    (hsell : refFrom sell.outPoint = some sellRef) (hbuyLive : node.getCellLive buyRef = .ok true)
    (hsellLive : node.getCellLive sellRef = .ok true) :
    run drivers node (promiseAll [] (checkOrderLiveness v buy) (checkOrderLiveness v sell)) db =
      (.ok (true, true), db) := by
  change Prog.eval (handle drivers node)
    (beside (checkOrderLiveness v buy).run [] (checkOrderLiveness v sell).run) db = _
  rw [run_checkOrderLiveness hbuy, run_checkOrderLiveness hsell]
  have hfirst : handle drivers node (.getCellLive buyRef) db = (.ok true, db) :=
    congrArg (·, db) hbuyLive
  have hsecond : handle drivers node (.getCellLive sellRef) db = (.ok true, db) :=
    congrArg (·, db) hsellLive
  simp only [beside, besideCall, List.headD, if_true, Prog.eval, hfirst]
  change Prog.eval (handle drivers node) ((Prog.call (Op.getCellLive sellRef)
    (ExceptT.bindCont (afterLook v sell))).bind (ExceptT.bindCont (pure ∘ Prod.mk true))) db = _
  simp only [Prog.bind, Prog.eval, hsecond]
  rfl

/-- A trade whose settlement's event was processed leaves the orders reserved. -/
theorem run_executeTrade_processed (hbuild : buildSettlement config.client
      config.verification.supportedAssetHashes buyOrder sellOrder = .ok settlement)
    (hfindBuy : db.orders.find? buyOrder.id = some buy) (hfindSell : db.orders.find? sellOrder.id = some sell)
    (hne : buyOrder.id ≠ sellOrder.id) (hbuyStatus : buy.status = .live) (hsellStatus : sell.status = .live)
    (hbuyRef : refFrom buy.outPoint = some buyRef) (hsellRef : refFrom sell.outPoint = some sellRef)
    (hbuyLive : node.getCellLive buyRef = .ok true) (hsellLive : node.getCellLive sellRef = .ok true)
    (hsubmit : ∀ t, run drivers node (submit config settlement) t = (.ok txHash, t))
    (hprocessed : db.processed (submissionId txHash) = true) :
    run drivers node (executeTrade config [] buyOrder sellOrder) db = (.ok txHash,
      (db.putOrder (reservedDocument (node.now + reservationTtl) buy)).putOrder
        (reservedDocument (node.now + reservationTtl) sell)) := by
  have hkey : buy.id = buyOrder.id := Collection.key_of_find? hfindBuy
  have hfindSell' : (db.putOrder (reservedDocument (node.now + reservationTtl) buy)).orders.find?
      sellOrder.id = some sell := by
    refine Collection.find?_put.trans ((if_neg ?_).trans hfindSell)
    intro hsame
    exact hne (hkey.symm.trans hsame)
  have hreserveBuy : eval (handle drivers node) (Bot.reserve buyOrder.id) db = _ :=
    run_reserve hfindBuy hbuyStatus
  have hreserveSell : eval (handle drivers node) (Bot.reserve sellOrder.id)
      (db.putOrder (reservedDocument (node.now + reservationTtl) buy)) = _ :=
    run_reserve hfindSell' hsellStatus
  have hsettle : ∀ t, t.processed (submissionId txHash) = true → eval (handle drivers node)
      (settleReserved config [] settlement (reservedDocument (node.now + reservationTtl) buy)
        (reservedDocument (node.now + reservationTtl) sell)) t = (.ok txHash, t) := by
    intro t ht
    have hlooked : eval (handle drivers node) (promiseAll []
        (checkOrderLiveness config.verification (reservedDocument (node.now + reservationTtl) buy))
        (checkOrderLiveness config.verification (reservedDocument (node.now + reservationTtl) sell))) t =
          _ := run_bothLive config.verification hbuyRef hsellRef hbuyLive hsellLive
    have hsubmitted : eval (handle drivers node) (submit config settlement) t = _ := hsubmit t
    have hthrow : ¬((true : Bool) = false ∨ (true : Bool) = false) := by decide
    have hingested : eval (handle drivers node) (ingest config.verification (.settlementSubmitted
        (settlementSubmittedEvent (reservedDocument (node.now + reservationTtl) buy)
          (reservedDocument (node.now + reservationTtl) sell) txHash))) t = _ :=
      run_ingest_processed _ ht
    rw [settleReserved, eval_bind, hlooked]
    simp only [eval_bind, eval_require, throwIf, if_neg hthrow, hsubmitted, eval_tryCatch, hingested,
      eval_pure]
  rw [run, executeTrade, eval_bind, eval_require, hbuild]
  simp only [eval_bind, hreserveBuy, eval_require, okOr, hreserveSell, eval_tryCatch]
  have hstill : ((db.putOrder (reservedDocument (node.now + reservationTtl) buy)).putOrder
      (reservedDocument (node.now + reservationTtl) sell)).processed (submissionId txHash) = true :=
    hprocessed
  rw [hsettle _ hstill]

end

/-- A node of the early chain whose pool holds the settlement. -/
def exampleMempool : Node :=
  { exampleEarly.node exampleDex 0 with
    getTransactionNoCache := fun _ => .ok (some exampleUnmined)
    getTransaction := fun _ => .ok (some exampleUnmined)
    sendTransaction := fun _ => .error (.other "PoolRejectedDuplicatedTransaction") }

def exampleMempoolNodes (node : Node) : Prop :=
  node = exampleEarly.node exampleDex 0 ∨ node = exampleMempool

theorem exampleMempool_hashes : Hashes exampleConfig exampleMempoolNodes := by
  rintro _ (rfl | rfl) settlement txHash hsent
  · cases hsent
  · cases hsent

/-- The settlement's event was delivered before its orders were known. -/
def exampleNoted : Db :=
  recorded Db.empty (ignored exampleSubmitted.eventId "order-not-found") exampleSubmitted.eventId

def exampleNotedBuy : Db :=
  recorded (exampleNoted.putOrder exampleBuy) (applied exampleConfirmed.eventId) exampleConfirmed.eventId

def exampleNotedOpen : Db :=
  recorded (exampleNotedBuy.putOrder exampleSell) (applied exampleSellConfirmed.eventId)
    exampleSellConfirmed.eventId

theorem exampleNoted_ingested : run exampleDrivers exampleMempool
    (ingest exampleVerification (.settlementSubmitted exampleSubmitted)) Db.empty =
      (.ok (ignored exampleSubmitted.eventId "order-not-found"), exampleNoted) := by
  refine run_ingest_eq _ rfl ?_ rfl
  have hcell : ∀ ref, exampleMempool.getCell ref = .ok (cellAt exampleWorld.content ref) := fun _ => rfl
  have hfound : exampleMempool.getTransactionNoCache (exampleHash 11) = .ok (some exampleUnmined) := rfl
  refine run_verifySettlementSubmitted_of hcell (hashFrom_hashText _) hfound (by decide) ?_
  intro outPoint hmem
  rcases List.mem_pair.mp hmem with rfl | rfl
  · exact spends_outPointText (by decide)
  · exact spends_outPointText (by decide)

theorem exampleNotedOpen_reached : ∃ running, Runs exampleDrivers exampleConfig exampleMempoolNodes
    unlimited ⟨Db.empty, []⟩ ⟨exampleNotedOpen, running⟩ := by
  have hearly : exampleMempoolNodes (exampleEarly.node exampleDex 0) := Or.inl rfl
  have hnewBuy : exampleNoted.processed exampleConfirmed.eventId = false := by
    rw [Bool.eq_false_iff, ne_eq, exampleNoted, processed_recorded, not_or]
    exact ⟨by decide +kernel, by decide⟩
  have hnewSell : exampleNotedBuy.processed exampleSellConfirmed.eventId = false := by
    rw [Bool.eq_false_iff, ne_eq, exampleNotedBuy, processed_recorded, not_or]
    refine ⟨by decide +kernel, ?_⟩
    change exampleNoted.processed _ ≠ true
    rw [exampleNoted, ne_eq, processed_recorded, not_or]
    exact ⟨by decide +kernel, by decide⟩
  have hfindSell : exampleNotedBuy.orders.find? exampleSell.id = none :=
    Collection.find?_put.trans (if_neg exampleBuy_id_ne)
  have hbuyRun : run exampleDrivers (exampleEarly.node exampleDex 0)
      (ingest exampleVerification (.orderConfirmed exampleConfirmed)) exampleNoted =
        (.ok (applied exampleConfirmed.eventId), exampleNotedBuy) :=
    exampleBuy_early.ingested _ exampleDrivers_reads hnewBuy rfl rfl
  have hsellRun : run exampleDrivers (exampleEarly.node exampleDex 0)
      (ingest exampleVerification (.orderConfirmed exampleSellConfirmed)) exampleNotedBuy =
        (.ok (applied exampleSellConfirmed.eventId), exampleNotedOpen) :=
    exampleSell_early.ingested _ exampleDrivers_reads hnewSell hfindSell rfl
  have hpool : exampleMempoolNodes exampleMempool := Or.inr rfl
  obtain ⟨p, hnoted⟩ := run_delivered exampleConfig hpool exampleSubmitted_valid
    exampleNoted_ingested []
  obtain ⟨q, hbuy⟩ := run_delivered exampleConfig hearly (valid_indexedEvent _) hbuyRun [p]
  obtain ⟨r, hsell⟩ := run_delivered exampleConfig hearly (valid_indexedEvent _) hsellRun [q, p]
  exact ⟨[r, q, p], (hnoted.trans hbuy).trans hsell⟩

theorem exampleTrade_builds : ∃ settlement, buildSettlement exampleConfig.client
    exampleConfig.verification.supportedAssetHashes exampleBuy exampleSell = .ok settlement := by
  have hbuy : Repeats exampleBuyCell _ _ exampleBuy :=
    repeats_confirmedDocument none _ exampleBuyIndexed _ _ _ _
  have hsell : Repeats exampleSellCell _ _ exampleSell :=
    repeats_confirmedDocument none _ exampleSellIndexed _ _ _ _
  have hpair : Pairs (exampleOrder sideBuy (exampleHash 1)) (exampleOrder sideSell (exampleHash 2)) := by
    constructor <;> decide
  have hbuilt : buildSettlement exampleConfig.client exampleConfig.verification.supportedAssetHashes
      exampleBuy exampleSell = _ :=
    buildSettlement_pair hbuy hsell hpair rfl exampleBuy_indexable.supported
  have hallocated : allocateSettlementCapacity exampleBuyCell.capacity 5000 9400000000 500 = _ :=
    allocateSettlementCapacity_eq_ok.mpr ⟨by decide, by decide, rfl⟩
  exact ⟨_, hbuilt.trans (bind_eq_ok.mpr ⟨_, hallocated, rfl⟩)⟩

/-- Whatever goes on that spares the two orders, a trade of the example that
returns a hash has marked both of them. -/
theorem submitted_settlement_tracked_example : ∃ before : System, before.state = exampleOpen ∧
    ∀ txHash after, Interference.Run (Spares exampleBuy.id exampleSell.id (exampleHash 11))
      (Performs exampleDrivers exampleMempoolNodes unlimited) (fun _ _ _ => False)
      (before.state, some (executeTrade exampleConfig [] exampleBuy exampleSell).run)
      (after, some (.pure (.ok txHash))) →
    BothTrack after exampleBuy.id exampleSell.id (hashText txHash) := by
  have hearly : exampleMempoolNodes (exampleEarly.node exampleDex 0) := Or.inl rfl
  obtain ⟨running, hopen⟩ := exampleOpen_indexed hearly
  obtain ⟨settlement, hbuild⟩ := exampleTrade_builds
  exact ⟨_, rfl, (submitted_settlement_tracked exampleDrivers exampleConfig exampleMempoolNodes
    exampleMempool_hashes hopen [] exampleBuy exampleSell hbuild).1 exampleSubmitted_new⟩

theorem exampleMempool_adopts (settlement : Settlement) (db : Db) :
    run exampleDrivers exampleMempool (submit exampleConfig settlement) db =
      (.ok (exampleHash 11), db) := by
  have hmentions : mentions "duplicat" (messageOf (.other "PoolRejectedDuplicatedTransaction")) = true := by
    decide
  have hsent : eval (handle exampleDrivers exampleMempool) (request (.sendTransaction settlement)) db =
      (.error (.other "PoolRejectedDuplicatedTransaction"), db) := rfl
  rw [run, submit, eval_tryCatch, hsent]
  simp only [translateRejection, hmentions, if_true, eval_pure]
  rfl

theorem exampleMempool_live (index : BitVec 32) (h : exampleEarly.isLive ⟨exampleHash 5, index⟩ = true) :
    exampleMempool.getCellLive ⟨exampleHash 5, index⟩ = .ok true :=
  congrArg Except.ok h

theorem processed_putOrder (db : Db) (order : OrderDocument) (eventId : String) :
    (db.putOrder order).processed eventId = db.processed eventId := rfl

theorem exampleNotedOpen_processed :
    exampleNotedOpen.processed (submissionId (exampleHash 11)) = true := by
  have hnoted : exampleNoted.processed (submissionId (exampleHash 11)) = true :=
    processed_recorded.mpr (Or.inl rfl)
  rw [exampleNotedOpen, processed_recorded, processed_putOrder, exampleNotedBuy, processed_recorded,
    processed_putOrder]
  exact Or.inr (Or.inr hnoted)

/-- The settlement is in the pool, and its event came before the orders. The
trade adopts the settlement and returns its hash, yet the orders stay reserved
without it; once the reservation is over they are released, with the settlement
still in the pool. -/
theorem adopted_settlement_untracked : ∃ (before : System) (after : Db) (order : OrderDocument),
    Runs exampleDrivers exampleConfig exampleMempoolNodes unlimited ⟨Db.empty, []⟩ before ∧
    run exampleDrivers exampleMempool (executeTrade exampleConfig [] exampleBuy exampleSell) before.state =
      (.ok (exampleHash 11), after) ∧
    after.orders.find? exampleBuy.id = some order ∧ order.status = .reserved ∧
    order.pendingTxHash = none ∧ order.settlementTxHash = none ∧
    ∀ node, reservationTtl ≤ node.now → run exampleDrivers node
      (retryOrder exampleVerification order) after = (.ok (), Db.revertToLive after exampleBuy.id) := by
  obtain ⟨running, hreached⟩ := exampleNotedOpen_reached
  obtain ⟨settlement, hbuild⟩ := exampleTrade_builds
  have hfindSell : exampleNotedOpen.orders.find? exampleSell.id = some exampleSell :=
    Collection.find?_put.trans (if_pos rfl)
  have hfindBuy : exampleNotedOpen.orders.find? exampleBuy.id = some exampleBuy :=
    Collection.find?_put.trans
      ((if_neg exampleBuy_id_ne.symm).trans (Collection.find?_put.trans (if_pos rfl)))
  have hbuyRef : refFrom exampleBuy.outPoint = some ⟨exampleHash 5, 0⟩ := refFrom_outPointText _
  have hsellRef : refFrom exampleSell.outPoint = some ⟨exampleHash 5, 1⟩ := refFrom_outPointText _
  have htrade : run exampleDrivers exampleMempool (executeTrade exampleConfig [] exampleBuy exampleSell)
      exampleNotedOpen = _ := run_executeTrade_processed hbuild hfindBuy hfindSell exampleBuy_id_ne rfl rfl
    hbuyRef hsellRef (exampleMempool_live 0 (by decide)) (exampleMempool_live 1 (by decide))
    (exampleMempool_adopts settlement) exampleNotedOpen_processed
  refine ⟨_, _, reservedDocument (0 + reservationTtl) exampleBuy, hreached, htrade, ?_, rfl, rfl, rfl,
    fun node hover => ?_⟩
  · exact Collection.find?_put.trans
      ((if_neg exampleBuy_id_ne.symm).trans (Collection.find?_put.trans (if_pos rfl)))
  · have hdue : ((reservedDocument (0 + reservationTtl) exampleBuy).reservedUntil.any
        fun deadline => deadline ≤ node.now) = true := decide_eq_true hover
    refine run_revertIfExpired.trans ?_
    rw [if_pos hdue]
    rfl

end CkbDex.SettlementTracking
