import CkbDex.TradeInterference

/-!
# A settlement that is recorded for the first time

The mark is made by an event whose id is derived from the hash, or by the trade
itself when the event is refused.
-/
namespace CkbDex.SettlementTracking
open Bytes Documents BotEvents Collections Projection Programs Operations EventVerification
open IngestionSteps ProjectionSteps CkbDex.Bot Acceptance Observation Interleaving Interference
open TerminalStatuses (Performs unlimited)

section
variable {drivers : Drivers} {nodes : Node → Prop} {buyId sellId : String} {txHash : Hash} {db : Db}
  {order : OrderDocument}

def Unrecorded (txHash : Hash) (db : Db) : Prop := db.processed (submissionId txHash) = false

/-- Calls that may fail, and between them activity that spares the orders. -/
def sparing (drivers : Drivers) (nodes : Node → Prop) (buyId sellId : String) (txHash : Hash) :
    Setting Op (fun op => Answer (Res op)) Db where
  drifts := Spares buyId sellId txHash
  performs := Performs drivers nodes unlimited
  guarantee := fun _ _ => True
  refl := fun _ => trivial
  trans := fun _ _ => trivial

theorem Tracks.notLive (h : Tracks (hashText txHash) order) : order.status ≠ .live := by
  rcases h.status with hs | hs <;> rw [hs] <;> decide

theorem BothTrack.of_find? {s t : Db} (h : BothTrack s buyId sellId (hashText txHash))
    (hbuy : t.orders.find? buyId = s.orders.find? buyId)
    (hsell : t.orders.find? sellId = s.orders.find? sellId) :
    BothTrack t buyId sellId (hashText txHash) := by
  rw [BothTrack, hbuy, hsell]
  exact h

theorem BothTrack.spared {s t : Db} (h : BothTrack s buyId sellId (hashText txHash))
    (hspared : Spares buyId sellId txHash s t) : BothTrack t buyId sellId (hashText txHash) := by
  rcases hspared with ⟨hbuy, hsell, -⟩ | hclosed
  · exact h.of_find? hbuy hsell
  · exact hclosed

theorem spares_refl (db : Db) : Spares buyId sellId txHash db db := Or.inl ⟨rfl, rfl, id⟩

theorem spares_trans {s t u : Db} (h : Spares buyId sellId txHash s t)
    (h' : Spares buyId sellId txHash t u) : Spares buyId sellId txHash s u := by
  rcases h' with ⟨hbuy', hsell', hprocessed'⟩ | hclosed
  · rcases h with ⟨hbuy, hsell, hprocessed⟩ | hclosed
    · exact Or.inl ⟨hbuy'.trans hbuy, hsell'.trans hsell, fun hu => hprocessed (hprocessed' hu)⟩
    · exact Or.inr (hclosed.of_find? hbuy' hsell')
  · exact Or.inr hclosed

theorem sparing_supervised : Supervised (sparing drivers nodes buyId sellId txHash) drivers nodes buyId
    sellId (Unrecorded txHash) (fun db => BothTrack db buyId sellId (hashText txHash)) where
  free := fun _ _ => trivial
  performs := fun _ _ _ _ h => h
  drifts := by
    intro s t h
    refine h.imp_left fun ⟨hbuy, hsell, hprocessed⟩ => ⟨hbuy, hsell, fun hs => ?_⟩
    rw [Unrecorded, Bool.eq_false_iff] at hs ⊢
    exact fun ht => hs (hprocessed ht)
  stays := fun _ _ h hs => hs.spared h
  notLive := by
    rintro t order ⟨buy, sell, hbuy, hsell, htracks, htracks'⟩ (hfind | hfind)
    · obtain rfl := Option.some_inj.mp (hbuy.symm.trans hfind)
      exact htracks.notLive
    · obtain rfl := Option.some_inj.mp (hsell.symm.trans hfind)
      exact htracks'.notLive
  events := by
    intro s t hevents hs
    rw [Unrecorded, Db.processed, hevents]
    exact hs

/-- Both orders are marked when each is. -/
theorem bothTrack_saveOrders (ids : List String) (update : OrderDocument → OrderDocument)
    (hid : ∀ order, (update order).id = order.id) {buy sell : OrderDocument}
    (hbuy : db.orders.find? buyId = some buy) (hsell : db.orders.find? sellId = some sell)
    (hmarks : ∀ order, Tracks (hashText txHash) (update order))
    (hb : buyId ∈ ids ∨ Tracks (hashText txHash) buy) (hs : sellId ∈ ids ∨ Tracks (hashText txHash) sell) :
    BothTrack (db.saveOrders ids update hid) buyId sellId (hashText txHash) := by
  have hone : ∀ {id : String} {order : OrderDocument}, db.orders.find? id = some order →
      (id ∈ ids ∨ Tracks (hashText txHash) order) →
      ∃ next, (db.saveOrders ids update hid).orders.find? id = some next ∧
        Tracks (hashText txHash) next := by
    intro id order hfind hor
    rw [find?_saveOrders, hfind, Option.map_some]
    refine ⟨_, rfl, ?_⟩
    rw [Collection.key_of_find? hfind]
    split_ifs with hmem
    · exact hmarks order
    · exact hor.resolve_left hmem
  obtain ⟨buy', hbuy', htracks⟩ := hone hbuy hb
  obtain ⟨sell', hsell', htracks'⟩ := hone hsell hs
  exact ⟨buy', sell', hbuy', hsell', htracks, htracks'⟩

/-- The two reserved orders of a settlement. -/
structure Reserved (buyId sellId : String) (buy sell : OrderDocument) : Prop where
  buy_id : buy.id = buyId
  sell_id : sell.id = sellId
  distinct : buyId ≠ sellId
  buy_identified : buy.id = toOrderId buy.outPoint
  sell_identified : sell.id = toOrderId sell.outPoint
  buy_status : buy.status = .reserved
  sell_status : sell.status = .reserved

variable {buy sell : OrderDocument}

/-- The orders as they were reserved, with their settlement not recorded, or both
marked. -/
abbrev Awaiting (buyId sellId : String) (txHash : Hash) (buy sell : OrderDocument) : Db → Prop :=
  Held (Unrecorded txHash) (fun db => BothTrack db buyId sellId (hashText txHash)) buyId sellId
    (some buy) (some sell)

theorem Reserved.ids (h : Reserved buyId sellId buy sell) :
    (settlementSubmittedEvent buy sell txHash).orderOutPoints.map toOrderId = [buyId, sellId] := by
  rw [← h.buy_id, ← h.sell_id, h.buy_identified, h.sell_identified]
  rfl

theorem Reserved.ready (h : Reserved buyId sellId buy sell) (hbuy : db.orders.find? buyId = some buy)
    (hsell : db.orders.find? sellId = some sell) : Ready db [buyId, sellId] .pending where
  found := by
    have hdistinct : buy.id ≠ sell.id := by
      rw [h.buy_id, h.sell_id]
      exact h.distinct
    rw [← h.buy_id, ← h.sell_id]
    exact length_findOrders_pair (Collection.find?_eq_some.mp hbuy).1
      (Collection.find?_eq_some.mp hsell).1 hdistinct
  allowed := by
    intro order hmem hid
    have hfind := Collection.find?_of_mem hmem
    rcases List.mem_pair.mp hid with hid | hid
    · rw [hid, hbuy, Option.some_inj] at hfind
      rw [← hfind, h.buy_status]
      rfl
    · rw [hid, hsell, Option.some_inj] at hfind
      rw [← hfind, h.sell_status]
      rfl

/-- The event marks both orders, unless they are marked. -/
theorem bothTrack_transact (h : Reserved buyId sellId buy sell)
    (hdb : Awaiting buyId sellId txHash buy sell db) :
    BothTrack (transact drivers (.settlementSubmitted (settlementSubmittedEvent buy sell txHash)) db).2
      buyId sellId (hashText txHash) := by
  have hmarks : ∀ order, Tracks (hashText txHash)
      (pendingDocument (settlementSubmittedEvent buy sell txHash) order) :=
    fun order => ⟨Or.inl rfl, rfl, rfl⟩
  rcases hdb with ⟨hbuy, hsell, hnew⟩ | hclosed
  · have hready : Ready db ((settlementSubmittedEvent buy sell txHash).orderOutPoints.map toOrderId)
        .pending := h.ids ▸ h.ready hbuy hsell
    have happly : applyEvent drivers
        (.settlementSubmitted (settlementSubmittedEvent buy sell txHash)) db = _ :=
      applySettlementSubmitted_of_ready hready
    have hunprocessed : db.processed (BotEvent.settlementSubmitted
        (settlementSubmittedEvent buy sell txHash)).eventId = false := hnew
    rw [transact_eq hunprocessed happly]
    refine (bothTrack_saveOrders _ (pendingDocument _) (fun _ => rfl) hbuy hsell hmarks (Or.inl ?_)
      (Or.inl ?_)).of_find? rfl rfl
    · rw [h.ids]
      exact List.mem_cons_self
    · rw [h.ids]
      exact List.mem_cons_of_mem _ List.mem_cons_self
  · rcases transact_cases drivers
      (.settlementSubmitted (settlementSubmittedEvent buy sell txHash)) db with
      ⟨result, next, happly, -, hsame⟩ | ⟨hsame, -⟩
    · have hnext : BothTrack next buyId sellId (hashText txHash) := by
        rcases applySettlementSubmitted_eq_ok happly with ⟨-, rfl⟩ | ⟨-, -, rfl⟩
        · exact hclosed
        · obtain ⟨old, old', hold, hold', htracks, htracks'⟩ := hclosed
          exact bothTrack_saveOrders _ (pendingDocument _) (fun _ => rfl) hold hold' hmarks
            (Or.inr htracks) (Or.inr htracks')
      exact hnext.of_find? (by rw [hsame.orders]) (by rw [hsame.orders])
    · rw [hsame]
      exact hclosed

theorem Awaiting.recordFailed {eventId message : String}
    (h : Awaiting buyId sellId txHash buy sell db) :
    Awaiting buyId sellId txHash buy sell (recordFailed eventId message db) := by
  have hsame := sameProjection_recordFailed eventId message db
  rcases h with ⟨hbuy, hsell, hnew⟩ | hclosed
  · refine Or.inl ⟨by rw [hsame.orders, hbuy], by rw [hsame.orders, hsell], ?_⟩
    rw [Unrecorded, Bool.eq_false_iff] at hnew ⊢
    exact fun hprocessed => hnew (ScanCalls.processed_of_recordFailed hprocessed)
  · exact Or.inr (hclosed.of_find? (by rw [hsame.orders]) (by rw [hsame.orders]))

/-- Queries, and the audit of an event. -/
def Audits (eventId : String) (op : Op) : Prop :=
  isQuery op = true ∨ ∃ message, op = .recordFailed eventId message

theorem performs_audit {eventId : String} {op : Op} (hop : Audits eventId op) {t next : Db}
    {answer : Answer (Res op)} (hcall : Performs drivers nodes unlimited op t answer next) :
    next = t ∨ ∃ message, next = recordFailed eventId message t := by
  rcases hop with hquery | ⟨message, rfl⟩
  · exact Or.inl (performs_query hquery hcall)
  · obtain ⟨-, ⟨node, -, hhandle⟩ | ⟨rfl, -⟩⟩ := hcall
    · exact Or.inr ⟨message, (Prod.mk.inj hhandle).2.symm⟩
    · exact Or.inl rfl

theorem only_audits (event : BotEvent) (error : Failure) :
    Only (Audits event.eventId) (auditFailure event error) :=
  (only_auditFailure event error).mono fun _ h => Or.inr h

theorem only_verify_audits (v : ChainVerification) (event : BotEvent) :
    Only (Audits event.eventId) (verify v event) := by
  refine only_tryCatch ((only_verifyEvent event).mono fun _ h => Or.inl h) fun error => ?_
  cases error with
  | app statusCode message code =>
      rw [reportFailure]
      split_ifs
      · exact only_bind (only_audits event _) fun _ => only_throw _
      · exact only_throw _
  | other message => exact only_throw _

theorem only_reportOutcome_audits (event : BotEvent) (outcome : Outcome) :
    Only (Audits event.eventId) (reportOutcome event outcome) := by
  cases outcome with
  | committed result => exact only_pure _
  | duplicateKey => exact only_pure _
  | aborted error => exact only_bind (only_audits event error) fun _ => only_throw _

theorem safe_verify (v : ChainVerification) (event : BotEvent)
    (hdb : Awaiting buyId sellId txHash buy sell db) :
    Safe (sparing drivers nodes buyId sellId txHash) (verify v event)
      (fun _ u => Awaiting buyId sellId txHash buy sell u) db := by
  refine safe_invariant sparing_supervised.free (Held.drift sparing_supervised)
    (only_verify_audits v event) (fun op hop t answer u hcall ht => ?_) hdb
  rcases performs_audit hop hcall with rfl | ⟨message, rfl⟩
  · exact ht
  · exact Awaiting.recordFailed ht

theorem safe_reportOutcome (event : BotEvent) (outcome : Outcome)
    (hdb : BothTrack db buyId sellId (hashText txHash)) :
    Safe (sparing drivers nodes buyId sellId txHash) (reportOutcome event outcome)
      (fun _ u => BothTrack u buyId sellId (hashText txHash)) db := by
  refine safe_invariant sparing_supervised.free sparing_supervised.stays
    (only_reportOutcome_audits event outcome) (fun op hop t answer u hcall ht => ?_) hdb
  rcases performs_audit hop hcall with rfl | ⟨message, rfl⟩
  · exact ht
  · have hsame := sameProjection_recordFailed event.eventId message t
    exact ht.of_find? (by rw [hsame.orders]) (by rw [hsame.orders])

/-- Ingesting the event marks the orders, or fails and leaves them to wait. -/
theorem safe_ingest (h : Reserved buyId sellId buy sell) (v : ChainVerification)
    (hdb : Awaiting buyId sellId txHash buy sell db) :
    Safe (sparing drivers nodes buyId sellId txHash)
      (ingest v (.settlementSubmitted (settlementSubmittedEvent buy sell txHash))) (fun r u =>
        Awaiting buyId sellId txHash buy sell u ∧
          ∀ result, r = .ok result → BothTrack u buyId sellId (hashText txHash)) db := by
  have hS : Supervised (sparing drivers nodes buyId sellId txHash) drivers nodes buyId sellId
    (Unrecorded txHash) fun db => BothTrack db buyId sellId (hashText txHash) := sparing_supervised
  refine safe_bind.mpr (Safe.mono (safe_query hS (Held.drift hS) rfl hdb) ?_)
  rintro (error | existing) u - ⟨hu, hanswer⟩
  · exact ⟨hu, fun result h => by cases h⟩
  have hexisting : existing = u.processed (submissionId txHash) := by
    rcases hanswer with ⟨node, -, hnode⟩ | ⟨error, herror⟩
    · exact Except.ok.inj hnode
    · cases herror
  cases existing with
  | true =>
      refine ⟨hu, fun _ _ => ?_⟩
      rcases hu with ⟨-, -, hnew⟩ | hclosed
      · rw [Unrecorded, ← hexisting] at hnew
        cases hnew
      · exact hclosed
  | false =>
      refine safe_bind.mpr (Safe.mono (safe_verify v _ hu) ?_)
      rintro (error | verified) u - hu
      · exact ⟨hu, fun result h => by cases h⟩
      refine safe_bind.mpr (safe_perform.mpr fun t answer w hdrifted hcall => ⟨trivial, ?_⟩)
      have ht := Held.drift hS _ _ hdrifted hu
      obtain ⟨-, ⟨node, -, hhandle⟩ | ⟨rfl, error, rfl⟩⟩ := hcall
      · have hw : BothTrack w buyId sellId (hashText txHash) := by
          rw [← (Prod.mk.inj hhandle).2]
          exact bothTrack_transact h ht
        rw [← (Prod.mk.inj hhandle).1]
        exact Safe.mono (safe_reportOutcome _ _ hw) fun _ _ _ hx => ⟨Or.inr hx, fun _ _ => hx⟩
      · exact ⟨ht, fun result h => by cases h⟩

/-- When the event is not ingested, the orders are marked directly. -/
theorem safe_recordSettlement (h : Reserved buyId sellId buy sell) (v : ChainVerification)
    (hdb : Awaiting buyId sellId txHash buy sell db) :
    Safe (sparing drivers nodes buyId sellId txHash) (recordSettlement v buy sell txHash)
      (fun r u => r = .ok () → BothTrack u buyId sellId (hashText txHash)) db := by
  have hS : Supervised (sparing drivers nodes buyId sellId txHash) drivers nodes buyId sellId
    (Unrecorded txHash) fun db => BothTrack db buyId sellId (hashText txHash) := sparing_supervised
  refine safe_tryCatch.mpr (safe_bind.mpr (Safe.mono (safe_ingest h v hdb) ?_))
  rintro (error | result) u - ⟨hu, hmarked⟩
  · refine safe_perform.mpr fun t answer w hdrifted hcall => ⟨trivial, fun hok => ?_⟩
    have ht := Held.drift hS u t hdrifted hu
    subst hok
    obtain ⟨-, ⟨node, -, hhandle⟩ | ⟨-, error, herror⟩⟩ := hcall
    · rw [← (Prod.mk.inj hhandle).2]
      have hmarks : ∀ order, Tracks (hashText txHash) (trackedDocument (hashText txHash) order) :=
        fun order => ⟨Or.inl rfl, rfl, rfl⟩
      have hids : [buy.id, sell.id] = [buyId, sellId] := by rw [h.buy_id, h.sell_id]
      rw [hids]
      rcases ht with ⟨hbuy, hsell, -⟩ | ⟨old, old', hold, hold', -, -⟩
      · exact bothTrack_saveOrders _ (trackedDocument _) (fun _ => rfl) hbuy hsell hmarks
          (Or.inl List.mem_cons_self) (Or.inl (List.mem_cons_of_mem _ List.mem_cons_self))
      · exact bothTrack_saveOrders _ (trackedDocument _) (fun _ => rfl) hold hold' hmarks
          (Or.inl List.mem_cons_self) (Or.inl (List.mem_cons_of_mem _ List.mem_cons_self))
    · cases herror
  · exact fun _ => hmarked _ rfl

end

end CkbDex.SettlementTracking
