import CkbDex.OrderWrites
import CkbDex.TerminalStatuses

/-!
# Deadlines of in-flight orders

A reserved or pending order is released when its settlement is gone and its
deadline has passed. A reservation sets the deadline; the other ways into
PENDING keep the one they find, and a settlement that nobody reserved for finds
none.
-/
namespace CkbDex.InFlightDeadlines
open OrderLockRules hiding exampleBuy exampleSell
open Checked Bytes CellContext OrderLock Text Documents BotEvents ChainCells
open Collections Projection Programs Operations Chains EventVerification IngestionSteps
open ProjectionSteps CkbDex.Bot GroundedDocuments Acceptance OrderWrites
open Observation Interleaving TerminalStatuses

def InFlight (order : OrderDocument) : Prop := order.status = .reserved ∨ order.status = .pending

/-- Every in-flight order has a deadline. -/
def Deadlined (db : Db) : Prop :=
  ∀ order ∈ db.orders.docs, InFlight order → order.reservedUntil ≠ none

/-- A settlement event that is applied, or the bot's own mark of a submitted
settlement, finds a deadline on each order that it names. -/
def FindsDeadline (db : Db) : Op → Prop
  | .transact (.settlementSubmitted e) => db.processed e.eventId = false →
      Ready db (e.orderOutPoints.map toOrderId) .pending →
      ∀ order ∈ db.orders.docs, order.id ∈ e.orderOutPoints.map toOrderId →
        order.reservedUntil ≠ none
  | .trackPending ids _ => ∀ order ∈ db.orders.docs, order.id ∈ ids → order.reservedUntil ≠ none
  | _ => True

section
variable {drivers : Drivers} {node : Node} {db : Db} {order : OrderDocument}

/-- A rollback leaves an order alone, or takes it out of flight. -/
theorem rollBackOrder_inFlight {event : ChainReorgEvent}
    (h : InFlight (rollBackOrder drivers event order)) : rollBackOrder drivers event order = order := by
  unfold rollBackOrder at h ⊢
  split_ifs at h ⊢ with hcreated hspent
  · rcases h with h | h <;> cases h
  · rcases h with h | h <;> cases h
  · rfl

/-- A document that an operation stores has a deadline if it is in flight. -/
theorem Deadlined.written (h : Deadlined db) {op : Op} (hfinds : FindsDeadline db op)
    (hnew : ∀ event, op = .transact event → db.processed event.eventId = false)
    (hwritten : Written drivers db op order) (hflight : InFlight order) :
    order.reservedUntil ≠ none := by
  cases hwritten with
  | confirmed event isOpen => rcases hflight with hs | hs <;> cases hs
  | cancelled event old found allowed => rcases hflight with hs | hs <;> cases hs
  | submitted event old found named ready => exact hfinds (hnew _ rfl) ready old found named
  | filled event old found named ready => rcases hflight with hs | hs <;> cases hs
  | rolledBack event old found =>
      have hsame := rollBackOrder_inFlight hflight
      rw [hsame] at hflight ⊢
      exact h old found hflight
  | reserved id t old found live => exact Option.some_ne_none t
  | released id old found => rcases hflight with hs | hs <;> cases hs
  | extended id t old found => exact Option.some_ne_none t
  | tracked ids txHash old found named => exact hfinds old found named

theorem Deadlined.handle (h : Deadlined db) {op : Op} (hfinds : FindsDeadline db op) :
    Deadlined (handle drivers node op db).2 := by
  by_cases hsame : (Operations.handle drivers node op db).2 = db
  · rw [hsame]
    exact h
  · have hnew : ∀ event, op = .transact event → db.processed event.eventId = false := by
      rintro event rfl
      rw [← Bool.not_eq_true]
      exact fun hprocessed => hsame (transact_processed hprocessed)
    intro order hmem hflight
    rcases written_of_handle hmem with hold | hwritten
    · exact h order hold hflight
    · exact h.written hfinds hnew hwritten hflight

/-- A call against the condition is idle, or it leaves an in-flight order
without a deadline. -/
theorem handle_of_not_findsDeadline {op : Op} (h : ¬FindsDeadline db op) :
    ∃ order ∈ (Operations.handle drivers node op db).2.orders.docs, InFlight order ∧
      order.reservedUntil = none := by
  cases op with
  | transact event =>
      cases event with
      | settlementSubmitted e =>
          simp only [FindsDeadline, Classical.not_imp, not_forall, not_not] at h
          obtain ⟨hnew, hready, order, hmem, hnamed, hnone⟩ := h
          have happly : applyEvent drivers (.settlementSubmitted e) db = _ :=
            applySettlementSubmitted_of_ready hready
          have hstored : pendingDocument e order ∈
              (transact drivers (.settlementSubmitted e) db).2.orders.docs := by
            rw [transact_eq hnew happly]
            have hsaved : pendingDocument e order ∈ (db.saveOrders (e.orderOutPoints.map toOrderId)
                (pendingDocument e) fun _ => rfl).orders.docs :=
              mem_saveOrders.mpr ⟨order, hmem, (if_pos hnamed).symm⟩
            exact hsaved
          exact ⟨_, hstored, Or.inr rfl, hnone⟩
      | _ => exact (h trivial).elim
  | trackPending ids txHash =>
      simp only [FindsDeadline, not_forall, not_not] at h
      obtain ⟨order, hmem, hnamed, hnone⟩ := h
      have hstored : trackedDocument txHash order ∈ (db.saveOrders ids (trackedDocument txHash)
          fun _ => rfl).orders.docs := mem_saveOrders.mpr ⟨order, hmem, (if_pos hnamed).symm⟩
      exact ⟨_, hstored, Or.inr rfl, hnone⟩
  | _ => exact (h trivial).elim

/-- The node has lost the settlement of an order, and the cell is live. -/
structure Abandoned (node : Node) (order : OrderDocument) : Prop where
  lost : ∀ txHash, order.pendingTxHash = some txHash →
    ∃ key, hashFrom txHash = some key ∧ node.getTransaction key = .ok none
  live : ∃ ref, refFrom order.outPoint = some ref ∧ node.getCellLive ref = .ok true

theorem run_revertIfExpired :
    run drivers node (revertIfExpired order) db = (.ok (),
      if order.reservedUntil.any fun deadline => deadline ≤ node.now then Db.revertToLive db order.id
      else db) := by
  have hnow : eval (Operations.handle drivers node) (request .now) db = (.ok node.now, db) := rfl
  rw [run, revertIfExpired, expired]
  cases hdeadline : order.reservedUntil with
  | none => rfl
  | some deadline =>
      simp only [eval_bind, hnow, eval_pure, Option.any_some]
      by_cases hover : deadline ≤ node.now
      · simp only [hover, decide_true, if_true]
        rfl
      · simp only [hover, decide_false, Bool.false_eq_true, if_false, eval_pure]

/-- An abandoned order is released as soon as its deadline has passed, and
never without one. -/
theorem Abandoned.retried (h : Abandoned node order) (v : ChainVerification) :
    run drivers node (retryOrder v order) db = (.ok (),
      if order.reservedUntil.any fun deadline => deadline ≤ node.now then Db.revertToLive db order.id
      else db) := by
  rw [run, retryOrder]
  cases hpending : order.pendingTxHash with
  | none => exact run_revertIfExpired
  | some txHash =>
      obtain ⟨key, hkey, hlost⟩ := h.lost txHash hpending
      obtain ⟨ref, href, hlive⟩ := h.live
      have hget : eval (Operations.handle drivers node) (request (.getTransaction key)) db =
          (.ok none, db) := congrArg (·, db) hlost
      have hcell : eval (Operations.handle drivers node) (request (.getCellLive ref)) db =
          (.ok true, db) := congrArg (·, db) hlive
      have hchecked : eval (Operations.handle drivers node) (checkOrderLiveness v order) db =
          (.ok true, db) := by
        simp only [checkOrderLiveness, eval_bind, eval_require, href, okOr, hcell, if_true, eval_pure]
      simp only [eval_bind, eval_require, hkey, okOr, hget, Option.filter, Option.any_none, true_or,
        if_true, hchecked, Bool.true_eq_false, if_false, Bool.false_eq_true]
      exact run_revertIfExpired

/-- Once its deadline has passed, an abandoned order is put back to LIVE. -/
theorem Abandoned.released (h : Abandoned node order) (v : ChainVerification)
    (hmem : order ∈ db.orders.docs) {deadline : ℕ} (hdeadline : order.reservedUntil = some deadline)
    (hover : deadline ≤ node.now) :
    HasStatus (run drivers node (retryOrder v order) db).2 order.id .live := by
  rw [h.retried v, if_pos (by simp [hdeadline, hover]), Db.revertToLive, Db.updateOrder,
    Collection.find?_of_mem hmem]
  exact ⟨_, Collection.find?_put.trans (if_pos rfl), rfl⟩

end

/-- However ticks and deliveries interleave, every in-flight order has a
deadline after which it can be released, as long as settlements are recorded
for reserved orders only. Any other record leaves an in-flight order without a
deadline. -/
theorem in_flight_orders_time_out (drivers : Drivers) (config : Config) (nodes : Node → Prop) :
    (∀ before after : System, Runs drivers config nodes FindsDeadline before after →
      Deadlined before.state → Deadlined after.state ∧
        ∀ order ∈ after.state.orders.docs, InFlight order → ∃ deadline, ∀ node,
          deadline ≤ node.now → Abandoned node order →
          HasStatus (run drivers node (retryOrder config.verification order) after.state).2 order.id
            .live) ∧
    (∀ node db op, ¬FindsDeadline db op → ¬Deadlined (handle drivers node op db).2) := by
  constructor
  · intro before after hrun hbefore
    have hafter : Deadlined after.state := by
      refine run_keeps (P := Deadlined) ?_ hrun hbefore
      rintro op db answer next ⟨hfinds, ⟨node, -, hhandle⟩ | ⟨rfl, -⟩⟩ hs
      · have hnext : (handle drivers node op db).2 = next := congrArg Prod.snd hhandle
        rw [← hnext]
        exact hs.handle hfinds
      · exact hs
    refine ⟨hafter, fun order hmem hflight => ?_⟩
    obtain ⟨deadline, hdeadline⟩ := Option.ne_none_iff_exists'.mp (hafter order hmem hflight)
    exact ⟨deadline, fun node hover habandoned =>
      habandoned.released config.verification hmem hdeadline hover⟩
  · intro node db op hbad hdeadlined
    obtain ⟨order, hmem, hflight, hnone⟩ := handle_of_not_findsDeadline hbad
    exact hdeadlined order hmem hflight hnone

section
open SettlementBuilder

theorem exampleReserved_docs {order : OrderDocument} :
    order ∈ exampleReserved.orders.docs ↔ order = exampleReservedBuy ∨ order = exampleReservedSell := by
  have hsell : order ∈ exampleReserved.orders.docs ↔ order = exampleReservedSell ∨
      order ∈ (exampleOpen.putOrder exampleReservedBuy).orders.docs ∧
        order.id ≠ exampleReservedSell.id := Collection.mem_docs_put
  have hbuy : order ∈ (exampleOpen.putOrder exampleReservedBuy).orders.docs ↔
      order = exampleReservedBuy ∨ order ∈ exampleOpen.orders.docs ∧
        order.id ≠ exampleReservedBuy.id := Collection.mem_docs_put
  rw [hsell, hbuy, exampleOpen_docs]
  constructor
  · rintro (rfl | ⟨rfl | ⟨rfl | rfl, hbid⟩, hsid⟩)
    · exact Or.inr rfl
    · exact Or.inl rfl
    · exact (hbid rfl).elim
    · exact (hsid rfl).elim
  · rintro (rfl | rfl)
    · exact Or.inr ⟨Or.inl rfl, exampleBuy_id_ne⟩
    · exact Or.inl rfl

def exampleUnmined : TxResponse := ⟨"pending", none, none, none, exampleSettlement⟩

/-- The early chain with the settlement in the pool. -/
def examplePool : Node :=
  { exampleEarly.node exampleDex 0 with
    getTransactionNoCache := fun _ => .ok (some exampleUnmined) }

def examplePoolNodes (node : Node) : Prop :=
  node = exampleEarly.node exampleDex 0 ∨ node = examplePool

def exampleSubmitted : SettlementSubmittedEvent :=
  settlementSubmittedEvent exampleBuy exampleSell (exampleHash 11)

def examplePending : Db :=
  recorded (exampleOpen.saveOrders (exampleSubmitted.orderOutPoints.map toOrderId)
    (pendingDocument exampleSubmitted) fun _ => rfl) (applied exampleSubmitted.eventId)
    exampleSubmitted.eventId

theorem exampleSubmitted_ids : exampleSubmitted.orderOutPoints.map toOrderId =
    [exampleBuy.id, exampleSell.id] := rfl

theorem exampleSubmitted_ready : Ready exampleOpen (exampleSubmitted.orderOutPoints.map toOrderId)
    .pending where
  found := by
    rw [exampleSubmitted_ids]
    exact length_findOrders_pair (exampleOpen_docs.mpr (Or.inl rfl)) (exampleOpen_docs.mpr (Or.inr rfl))
      exampleBuy_id_ne
  allowed := by
    intro order horder _
    rw [exampleOpen_status horder]
    rfl

theorem exampleSubmitted_new : exampleOpen.processed exampleSubmitted.eventId = false := by
  rw [Bool.eq_false_iff, ne_eq, exampleOpen, processed_recorded, not_or]
  refine ⟨by decide +kernel, ?_⟩
  change exampleIndexed.processed exampleSubmitted.eventId ≠ true
  rw [exampleIndexed, ne_eq, processed_recorded, not_or]
  exact ⟨by decide +kernel, by decide⟩

theorem exampleSubmitted_verified (db : Db) :
    run exampleDrivers examplePool (verifyEvent exampleVerification
      (.settlementSubmitted exampleSubmitted)) db = (.ok (), db) := by
  have hcell : ∀ ref, examplePool.getCell ref = .ok (cellAt exampleWorld.content ref) := fun _ => rfl
  have hfound : examplePool.getTransactionNoCache (exampleHash 11) = .ok (some exampleUnmined) := rfl
  refine run_verifySettlementSubmitted_of hcell (hashFrom_hashText _) hfound (by decide) ?_
  intro outPoint hmem
  rcases List.mem_pair.mp hmem with rfl | rfl
  · exact spends_outPointText (by decide)
  · exact spends_outPointText (by decide)

theorem exampleSubmitted_ingested :
    run exampleDrivers examplePool (ingest exampleVerification (.settlementSubmitted exampleSubmitted))
      exampleOpen = (.ok (applied exampleSubmitted.eventId), examplePending) :=
  run_ingest_eq _ exampleSubmitted_new (exampleSubmitted_verified _)
    (applySettlementSubmitted_of_ready exampleSubmitted_ready)

theorem exampleSubmitted_valid : (BotEvent.settlementSubmitted exampleSubmitted).valid = true := by
  have hbuy : OutPoint.valid exampleBuy.outPoint = true := outPointText_valid ⟨exampleHash 5, 0⟩
  have hsell : OutPoint.valid exampleSell.outPoint = true := outPointText_valid ⟨exampleHash 5, 1⟩
  exact valid_settlementSubmittedEvent hbuy hsell

theorem exampleReserved_ready : Ready exampleReserved
    (exampleSubmitted.orderOutPoints.map toOrderId) .pending where
  found := by
    have hbuy : exampleReservedBuy ∈ exampleReserved.orders.docs :=
      exampleReserved_docs.mpr (Or.inl rfl)
    have hsell : exampleReservedSell ∈ exampleReserved.orders.docs :=
      exampleReserved_docs.mpr (Or.inr rfl)
    exact length_findOrders_pair hbuy hsell exampleBuy_id_ne
  allowed := by
    intro order horder _
    rcases exampleReserved_docs.mp horder with rfl | rfl <;> rfl

theorem exampleReserved_dated {order : OrderDocument} (h : order ∈ exampleReserved.orders.docs) :
    order.reservedUntil = some reservationTtl := by
  rcases exampleReserved_docs.mp h with rfl | rfl <;> rfl

def exampleReservedPending : Db :=
  recorded (exampleReserved.saveOrders (exampleSubmitted.orderOutPoints.map toOrderId)
    (pendingDocument exampleSubmitted) fun _ => rfl) (applied exampleSubmitted.eventId)
    exampleSubmitted.eventId

/-- The delivery of a settlement runs alone: it only reads before its transaction. -/
theorem exampleSubmitted_runs : ∃ p,
    Runs exampleDrivers exampleConfig examplePoolNodes FindsDeadline ⟨exampleReserved, []⟩
      ⟨exampleReservedPending, [p]⟩ := by
  have hpool : examplePoolNodes examplePool := Or.inr rfl
  have hhandle : ∀ op, isQuery op = true → ∀ s, Performs exampleDrivers examplePoolNodes
      FindsDeadline op s (handle exampleDrivers examplePool op s).1
        (handle exampleDrivers examplePool op s).2 := by
    intro op hquery s
    refine performs_handle hpool ?_
    cases op <;> trivial
  have happly : applyEvent exampleDrivers (.settlementSubmitted exampleSubmitted) exampleReserved = _ :=
    applySettlementSubmitted_of_ready exampleReserved_ready
  have hread : Calls (Performs exampleDrivers examplePoolNodes FindsDeadline)
      (exampleReserved, (verifyEvent exampleVerification (.settlementSubmitted exampleSubmitted)).run)
      (exampleReserved, (pure () : Proc Unit).run) :=
    calls_of_eval hhandle (only_verifyEvent _) (exampleSubmitted_verified _)
  have hverified : Calls (Performs exampleDrivers examplePoolNodes FindsDeadline)
      (exampleReserved, (verify exampleVerification (.settlementSubmitted exampleSubmitted)).run)
      (exampleReserved, (pure () : Proc Unit).run) :=
    calls_tryCatch hread _
  have hnew : exampleReserved.processed exampleSubmitted.eventId = false := exampleSubmitted_new
  have hlooked : Performs exampleDrivers examplePoolNodes FindsDeadline
      (.processed exampleSubmitted.eventId) exampleReserved (.ok false) exampleReserved := by
    rw [← hnew]
    exact performs_handle hpool trivial
  have hcommitted : Performs exampleDrivers examplePoolNodes FindsDeadline
      (.transact (.settlementSubmitted exampleSubmitted)) exampleReserved
      (.ok (.committed (applied exampleSubmitted.eventId))) exampleReservedPending := by
    have hdone : transact exampleDrivers (.settlementSubmitted exampleSubmitted) exampleReserved =
        (.committed (applied exampleSubmitted.eventId), exampleReservedPending) :=
      transact_eq hnew happly
    have hperformed : Performs exampleDrivers examplePoolNodes FindsDeadline
        (.transact (.settlementSubmitted exampleSubmitted)) exampleReserved
        (.ok (transact exampleDrivers (.settlementSubmitted exampleSubmitted) exampleReserved).1)
        (transact exampleDrivers (.settlementSubmitted exampleSubmitted) exampleReserved).2 := by
      refine performs_handle hpool fun _ _ order horder _ => ?_
      rw [exampleReserved_dated horder]
      exact Option.some_ne_none _
    rw [hdone] at hperformed
    exact hperformed
  have hingested : Calls (Performs exampleDrivers examplePoolNodes FindsDeadline)
      (exampleReserved, (ingest exampleVerification (.settlementSubmitted exampleSubmitted)).run)
      (exampleReservedPending, (pure (applied exampleSubmitted.eventId) : Proc _).run) := by
    have hlast : Call (Performs exampleDrivers examplePoolNodes FindsDeadline)
        (exampleReserved, (request (.transact (.settlementSubmitted exampleSubmitted)) >>=
          reportOutcome (.settlementSubmitted exampleSubmitted)).run)
        (exampleReservedPending, (reportOutcome (.settlementSubmitted exampleSubmitted)
          (.committed (applied exampleSubmitted.eventId))).run) :=
      call_ok hcommitted
    exact .head (call_ok hlooked) ((calls_seq hverified _).tail hlast)
  have hcalls : Calls (Performs exampleDrivers examplePoolNodes FindsDeadline)
      (exampleReserved, (do
        let _ ← ingest exampleVerification (.settlementSubmitted exampleSubmitted)
        return () : Proc Unit).run) (exampleReservedPending, (pure () : Proc Unit).run) :=
    calls_seq hingested _
  exact ⟨_, (run_calls hcalls [] []).head
    (.start _ _ _ ⟨_, .delivery _ exampleSubmitted_valid, rfl⟩)⟩

/-- A settlement of two reserved orders is submitted and lost: at the deadline of
the reservation the buy order is released. -/
theorem in_flight_orders_time_out_example : ∃ after : System,
    Runs exampleDrivers exampleConfig examplePoolNodes FindsDeadline ⟨exampleReserved, []⟩ after ∧
    pendingDocument exampleSubmitted exampleReservedBuy ∈ after.state.orders.docs ∧
    ∃ now, HasStatus (run exampleDrivers (exampleEarly.node exampleDex now)
      (retryOrder exampleVerification (pendingDocument exampleSubmitted exampleReservedBuy))
      after.state).2 exampleBuy.id .live := by
  obtain ⟨p, hrun⟩ := exampleSubmitted_runs
  have hdeadlined : Deadlined exampleReserved := by
    intro order horder _
    rw [exampleReserved_dated horder]
    exact Option.some_ne_none _
  have hmem : pendingDocument exampleSubmitted exampleReservedBuy ∈
      exampleReservedPending.orders.docs := by
    have hsaved : pendingDocument exampleSubmitted exampleReservedBuy ∈ (exampleReserved.saveOrders
        (exampleSubmitted.orderOutPoints.map toOrderId) (pendingDocument exampleSubmitted)
          fun _ => rfl).orders.docs :=
      mem_saveOrders.mpr ⟨exampleReservedBuy, exampleReserved_docs.mpr (Or.inl rfl),
        (if_pos List.mem_cons_self).symm⟩
    exact hsaved
  obtain ⟨-, htimes⟩ :=
    (in_flight_orders_time_out exampleDrivers exampleConfig examplePoolNodes).1 _ _ hrun hdeadlined
  obtain ⟨deadline, hreleased⟩ := htimes _ hmem (Or.inr rfl)
  have habandoned : Abandoned (exampleEarly.node exampleDex deadline)
      (pendingDocument exampleSubmitted exampleReservedBuy) := by
    constructor
    · rintro txHash ⟨⟩
      exact ⟨exampleHash 11, hashFrom_hashText _, by rfl⟩
    · exact ⟨⟨exampleHash 5, 0⟩, refFrom_outPointText _, by rfl⟩
  exact ⟨_, hrun, hmem, deadline, hreleased _ le_rfl habandoned⟩

theorem examplePending_buy :
    pendingDocument exampleSubmitted exampleBuy ∈ examplePending.orders.docs := by
  have hsaved : pendingDocument exampleSubmitted exampleBuy ∈ (exampleOpen.saveOrders
      (exampleSubmitted.orderOutPoints.map toOrderId) (pendingDocument exampleSubmitted)
        fun _ => rfl).orders.docs := by
    refine mem_saveOrders.mpr ⟨exampleBuy, exampleOpen_docs.mpr (Or.inl rfl), (if_pos ?_).symm⟩
    rw [exampleSubmitted_ids]
    exact List.mem_cons_self
  exact hsaved

theorem examplePending_undated :
    (pendingDocument exampleSubmitted exampleBuy).reservedUntil = none := rfl

/-- Another party's settlement turns two indexed orders to PENDING. They have no
deadline, so they stay as they are whenever they are retried, also when the
settlement is gone and their cells are live. -/
theorem submitted_order_never_released : ∃ (after : System) (order : OrderDocument),
    Runs exampleDrivers exampleConfig examplePoolNodes unlimited ⟨Db.empty, []⟩ after ∧
    order ∈ after.state.orders.docs ∧ InFlight order ∧ order.reservedUntil = none ∧
    ∀ node, Abandoned node order →
      run exampleDrivers node (retryOrder exampleVerification order) after.state =
        (.ok (), after.state) := by
  have hearly : examplePoolNodes (exampleEarly.node exampleDex 0) := Or.inl rfl
  have hpool : examplePoolNodes examplePool := Or.inr rfl
  obtain ⟨running, hopen⟩ := exampleOpen_indexed hearly
  obtain ⟨p, hsubmitted⟩ := run_delivered exampleConfig hpool exampleSubmitted_valid
    exampleSubmitted_ingested running
  refine ⟨⟨examplePending, p :: running⟩, pendingDocument exampleSubmitted exampleBuy,
    hopen.trans hsubmitted, examplePending_buy, Or.inr rfl, examplePending_undated,
    fun node habandoned => ?_⟩
  rw [habandoned.retried exampleVerification, examplePending_undated]
  rfl

end

end CkbDex.InFlightDeadlines
