import CkbDex.Interleaving
import CkbDex.Observation

/-!
# Terminal statuses

Ticks and deliveries interleave at every call. A filled or canceled order
leaves its status by a rollback or by its inclusion in another block; the
writes that the bot makes on the strength of an older read can take it away as
well, and only those.
-/
namespace CkbDex.TerminalStatuses
open OrderLockRules hiding exampleBuy exampleSell
open Checked Bytes CellContext OrderLock Text Documents BotEvents ChainCells
open Collections Projection Programs Operations Chains EventVerification IngestionSteps
open ProjectionSteps CkbDex.Bot GroundedDocuments Acceptance OrdersAndTrades SpendClassification
open Observation Interleaving

def Terminal (status : OrderStatus) : Prop := status = .filled ∨ status = .canceled

def HasStatus (db : Db) (id : String) (status : OrderStatus) : Prop :=
  ∃ order, db.orders.find? id = some order ∧ order.status = status

/-- The block that an event names is the one that created the order. -/
def SameBlock (order : OrderDocument) (event : OrderConfirmedEvent) : Prop :=
  order.createdBlockHash.map lower = event.blockHash.map lower

/-- A rollback, or the inclusion of an order in another block. -/
def Reorganizes (db : Db) (id : String) : Op → Prop
  | .transact (.chainReorg _) => True
  | .transact (.orderConfirmed e) => toOrderId e.outPoint = id ∧
      ∃ order, db.orders.find? id = some order ∧ ¬SameBlock order e
  | _ => False

/-- A release, or the bot's own mark of a submitted settlement, finds no
terminal order; a terminal order is confirmed for its block in the stored
spelling. -/
def Undisturbed (db : Db) : Op → Prop
  | .revertToLive id => ∀ order, db.orders.find? id = some order → ¬Terminal order.status
  | .trackPending ids _ => ∀ order ∈ db.orders.docs, order.id ∈ ids → ¬Terminal order.status
  | .transact (.orderConfirmed e) => ∀ order, db.orders.find? (toOrderId e.outPoint) = some order →
      Terminal order.status → SameBlock order e → order.createdBlockHash = e.blockHash
  | _ => True

section
variable {drivers : Drivers} {node : Node} {db next : Db} {id : String} {status : OrderStatus}
  {result : IngestionResult}

theorem HasStatus.of_same (h : HasStatus db id status) (hsame : next.orders = db.orders) :
    HasStatus next id status := by
  obtain ⟨order, horder, hstatus⟩ := h
  exact ⟨order, hsame ▸ horder, hstatus⟩

theorem HasStatus.putOrder (h : HasStatus db id status) {doc : OrderDocument}
    (hdoc : doc.id = id → doc.status = status) : HasStatus (db.putOrder doc) id status := by
  obtain ⟨order, horder, hstatus⟩ := h
  by_cases hid : doc.id = id
  · exact ⟨doc, Collection.find?_put.trans (if_pos hid), hdoc hid⟩
  · exact ⟨order, Collection.find?_put.trans ((if_neg hid).trans horder), hstatus⟩

theorem HasStatus.saveOrders (h : HasStatus db id status) (ids : List String)
    (update : OrderDocument → OrderDocument) (hid : ∀ order, (update order).id = order.id)
    (hupdate : ∀ order ∈ db.orders.docs, order.id = id → order.id ∈ ids →
      (update order).status = status) : HasStatus (db.saveOrders ids update hid) id status := by
  obtain ⟨order, horder, hstatus⟩ := h
  obtain ⟨hmem, horderId⟩ := Collection.find?_eq_some.mp horder
  refine ⟨_, (find?_saveOrders ids update hid).trans (congrArg _ horder), ?_⟩
  beta_reduce
  split_ifs with hin
  · exact hupdate order hmem horderId hin
  · exact hstatus

theorem HasStatus.unique (h : HasStatus db id status) {order : OrderDocument}
    (horder : db.orders.find? id = some order) : order.status = status := by
  obtain ⟨found, hfound, hstatus⟩ := h
  obtain rfl := Option.some_inj.mp (hfound.symm.trans horder)
  exact hstatus

theorem HasStatus.of_mem (h : HasStatus db id status) {order : OrderDocument}
    (hmem : order ∈ db.orders.docs) (hid : order.id = id) : order.status = status :=
  h.unique (Collection.find?_eq_some.mpr ⟨hmem, hid⟩)

/-- Events but for reorganizations respect the transition table. -/
theorem not_canTransition_of_terminal (h : Terminal status) {target : OrderStatus}
    (htarget : target ≠ .orphaned) : canTransition status target = false := by
  rcases h with rfl | rfl <;> revert htarget <;> cases target <;> decide

theorem HasStatus.applyEvent (h : HasStatus db id status) (ht : Terminal status) {event : BotEvent}
    (happly : applyEvent drivers event db = .ok (result, next))
    (hkeep : ¬Reorganizes db id (.transact event)) (hquiet : Undisturbed db (.transact event)) :
    HasStatus next id status := by
  cases event with
  | orderConfirmed e =>
      rcases applyOrderConfirmed_eq_ok.mp happly with ⟨-, -, rfl⟩ | ⟨hopen, -, -, -, -, rfl⟩
      · exact h
      · refine h.putOrder fun hid => ?_
        have hid : toOrderId e.outPoint = id := hid
        subst hid
        obtain ⟨order, horder, hstatus⟩ := h
        have hblock : SameBlock order e := by
          by_contra hother
          exact hkeep ⟨rfl, order, horder, hother⟩
        have hsame := hquiet order horder (hstatus ▸ ht) hblock
        -- A terminal order is not orphaned, so the redelivery would have been ignored.
        rw [horder, alreadyIndexed, Option.any_some, hsame] at hopen
        rcases ht with rfl | rfl <;> simp [hstatus] at hopen
  | orderCancelled e =>
      rcases applyOrderCancelled_eq_ok.mp happly with ⟨-, -, rfl⟩ | ⟨order, horder, hallowed, -, rfl⟩
      · exact h
      · refine h.putOrder fun hid => ?_
        have hid : order.id = id := hid
        have hstatus := h.of_mem (Collection.find?_eq_some.mp horder).1 hid
        rw [hstatus, not_canTransition_of_terminal ht (by decide)] at hallowed
        cases hallowed
  | settlementSubmitted e =>
      rcases applySettlementSubmitted_eq_ok happly with ⟨-, rfl⟩ | ⟨hready, -, rfl⟩
      · exact h
      · refine h.saveOrders _ (pendingDocument e) (fun _ => rfl) fun order hmem hid hin => ?_
        have hallowed := hready.allowed order hmem hin
        rw [h.of_mem hmem hid, not_canTransition_of_terminal ht (by decide)] at hallowed
        cases hallowed
  | tradeConfirmed e =>
      rcases applyTradeConfirmed_eq_ok happly with ⟨-, rfl⟩ | ⟨hready, -, rfl⟩
      · exact h
      · refine HasStatus.of_same (h.saveOrders (tradeIds e) (filledDocument e) (fun _ => rfl)
          fun order hmem hid hin => ?_) rfl
        have hallowed := hready.allowed order hmem hin
        rw [h.of_mem hmem hid, not_canTransition_of_terminal ht (by decide)] at hallowed
        cases hallowed
  | chainReorg e => exact (hkeep trivial).elim

theorem HasStatus.updateOrder (h : HasStatus db id status) (other : String)
    (update : OrderDocument → OrderDocument) (hid : ∀ order, (update order).id = order.id)
    (hupdate : ∀ order, db.orders.find? other = some order → order.id = id →
      (update order).status = status) : HasStatus (Db.updateOrder db other update) id status := by
  unfold Db.updateOrder
  cases horder : db.orders.find? other with
  | none => exact h
  | some order => exact h.putOrder fun hsame => hupdate order horder ((hid order).symm.trans hsame)

/-- A terminal status outlives every call but a reorganization. -/
theorem HasStatus.handle (h : HasStatus db id status) (ht : Terminal status) {op : Op}
    (hkeep : ¬Reorganizes db id op) (hquiet : Undisturbed db op) :
    HasStatus (handle drivers node op db).2 id status := by
  cases op with
  | transact event =>
      rcases transact_cases drivers event db with ⟨result, next, happly, -, hsame⟩ | ⟨hsame, -⟩
      · exact (h.applyEvent ht happly hkeep hquiet).of_same hsame.orders
      · exact h.of_same (congrArg Db.orders hsame)
  | recordFailed eventId message =>
      exact h.of_same (sameProjection_recordFailed eventId message db).orders
  | reserve other t =>
      simp only [Operations.handle, Db.reserve]
      cases horder : db.orders.find? other with
      | none => exact h
      | some order =>
          simp only
          split_ifs with hlive
          · refine h.putOrder fun hid => ?_
            have hid : order.id = id := hid
            have hstatus := h.of_mem (Collection.find?_eq_some.mp horder).1 hid
            rcases ht with rfl | rfl <;> simp [hlive] at hstatus
          · exact h
  | revertToLive other =>
      refine h.updateOrder other releasedDocument (fun _ => rfl) fun order horder hid => ?_
      have hid : order.id = id := hid
      have hstatus := h.of_mem (Collection.find?_eq_some.mp horder).1 hid
      exact (hquiet order horder (hstatus ▸ ht)).elim
  | extendReservation other t =>
      refine h.updateOrder other (extendedDocument t) (fun _ => rfl) fun order horder hid => ?_
      have hid : order.id = id := hid
      have hstatus := h.of_mem (Collection.find?_eq_some.mp horder).1 hid
      exact hstatus
  | trackPending ids txHash =>
      refine h.saveOrders ids (trackedDocument txHash) (fun _ => rfl) fun order hmem hid hin => ?_
      have hstatus := h.of_mem hmem hid
      exact (hquiet order hmem hin (hstatus ▸ ht)).elim
  | _ => exact h

theorem not_hasStatus (ht : Terminal status) (order : OrderDocument)
    (horder : next.orders.find? id = some order) (hstatus : ¬Terminal order.status) :
    ¬HasStatus next id status := fun h => hstatus (h.unique horder ▸ ht)

/-- A call that is disturbed changes nothing, or takes a terminal status away. -/
theorem handle_of_disturbed {op : Op} (h : ¬Undisturbed db op) :
    (handle drivers node op db).2 = db ∨ ∃ id status, Terminal status ∧ HasStatus db id status ∧
      ¬Reorganizes db id op ∧ ¬HasStatus (handle drivers node op db).2 id status := by
  have hlive : ¬Terminal .live := by simp [Terminal]
  have hpending : ¬Terminal .pending := by simp [Terminal]
  cases op with
  | revertToLive id =>
      simp only [Undisturbed, not_forall, not_not] at h
      obtain ⟨order, horder, ht⟩ := h
      refine Or.inr ⟨id, order.status, ht, ⟨order, horder, rfl⟩, fun hr => hr, ?_⟩
      have hid : order.id = id := Collection.key_of_find? horder
      refine not_hasStatus ht (releasedDocument order) ?_ hlive
      change (Db.updateOrder db id releasedDocument).orders.find? id = _
      rw [Db.updateOrder, horder]
      exact Collection.find?_put.trans (if_pos hid)
  | trackPending ids txHash =>
      simp only [Undisturbed, not_forall, not_not] at h
      obtain ⟨order, hmem, hin, ht⟩ := h
      have horder := Collection.find?_of_mem hmem
      refine Or.inr ⟨order.id, order.status, ht, ⟨order, horder, rfl⟩, fun hr => hr, ?_⟩
      refine not_hasStatus ht (trackedDocument txHash order) ?_ hpending
      refine (find?_saveOrders ids (trackedDocument txHash) fun _ => rfl).trans ?_
      rw [horder, Option.map_some, if_pos hin]
  | transact event =>
      cases event with
      | orderConfirmed e =>
          simp only [Undisturbed, not_forall] at h
          obtain ⟨order, horder, ht, hblock, hspelled⟩ := h
          rcases transact_cases drivers (.orderConfirmed e) db with
            ⟨result, next, happly, -, hsame⟩ | ⟨hsame, -⟩
          · refine Or.inr ⟨_, order.status, ht, ⟨order, horder, rfl⟩, ?_, ?_⟩
            · rintro ⟨-, found, hfound, hother⟩
              obtain rfl := Option.some_inj.mp (hfound.symm.trans horder)
              exact hother hblock
            · rcases applyOrderConfirmed_eq_ok.mp happly with ⟨hindexed, -⟩ | ⟨-, -, -, -, -, rfl⟩
              · simp [alreadyIndexed, horder, hspelled] at hindexed
              · have hfind : (transact drivers (.orderConfirmed e) db).2.orders.find?
                    (toOrderId e.outPoint) = some (confirmedDocument (some order) e) := by
                  rw [hsame.orders, ← horder]
                  exact Collection.find?_put.trans (if_pos rfl)
                exact not_hasStatus ht _ hfind hlive
          · exact Or.inl hsame
      | _ => exact (h trivial).elim
  | _ => exact (h trivial).elim

end

/-- What the bot and the ingestion service set going: a tick, a delivery, or
what is left of a `Promise.all` that one of its actions has ended. -/
inductive Activity (config : Config) : Proc Unit → Prop
  | tick (schedule : List Bool)
      (findMatches : List OrderDocument → List (OrderDocument × OrderDocument)) :
      Activity config (tick config schedule findMatches)
  | delivery (event : BotEvent) (valid : event.valid = true) :
      Activity config (do
        let _ ← ingest config.verification event
        return ())
  | observation (order : OrderDocument) :
      Activity config (do
        let _ ← checkOrderLiveness config.verification order
        return ())
  | release (id : String) : Activity config (revertToLive id)

/-- A call that is allowed is answered by one of the nodes and the database, or
fails. -/
def Performs (drivers : Drivers) (nodes : Node → Prop) (allowed : Db → Op → Prop) (op : Op) (db : Db)
    (answer : Answer (Res op)) (next : Db) : Prop :=
  allowed db op ∧ ((∃ node, nodes node ∧ handle drivers node op db = (answer, next)) ∨
    next = db ∧ ∃ error, answer = .error error)

/-- A database and what runs on it. -/
abbrev System := Pool Op (fun op => Answer (Res op)) Db (Answer Unit)

/-- Runs of interleaved activities whose calls are allowed. -/
abbrev Runs (drivers : Drivers) (config : Config) (nodes : Node → Prop) (allowed : Db → Op → Prop) :
    System → System → Prop :=
  Relation.ReflTransGen (Step (fun p => ∃ x, Activity config x ∧ p = x.run)
    (Performs drivers nodes allowed))

/-- However ticks, deliveries and blocks interleave, a terminal status stays
until a reorganization, as long as no release and no mark of a submitted
settlement is made on a terminal order and orders are confirmed for their block
in one spelling. A call against this condition is idle or takes a terminal
status away. -/
theorem terminal_statuses_absorbing (drivers : Drivers) (config : Config) (nodes : Node → Prop) :
    (∀ before after : System, ∀ id status, Terminal status →
      Runs drivers config nodes (fun db op => Undisturbed db op ∧ ¬Reorganizes db id op) before after →
      HasStatus before.state id status → HasStatus after.state id status) ∧
    (∀ node db op, ¬Undisturbed db op → (handle drivers node op db).2 = db ∨
      ∃ id status, Terminal status ∧ HasStatus db id status ∧ ¬Reorganizes db id op ∧
        ¬HasStatus (handle drivers node op db).2 id status) := by
  refine ⟨?_, fun node db op => handle_of_disturbed⟩
  intro before after id status ht hrun h
  refine run_keeps (P := fun db => HasStatus db id status) ?_ hrun h
  rintro op db answer next ⟨⟨hquiet, hkeep⟩, ⟨node, -, hhandle⟩ | ⟨rfl, -⟩⟩ hs
  · have hnext : (handle drivers node op db).2 = next := congrArg Prod.snd hhandle
    rw [← hnext]
    exact hs.handle ht hkeep hquiet
  · exact hs

section
open SettlementBuilder

def unlimited : Db → Op → Prop := fun _ _ => True

theorem performs_handle {drivers : Drivers} {nodes : Node → Prop} {allowed : Db → Op → Prop} {op : Op}
    {db : Db} {node : Node} (hnode : nodes node) (h : allowed db op) :
    Performs drivers nodes allowed op db (handle drivers node op db).1 (handle drivers node op db).2 :=
  ⟨h, Or.inl ⟨node, hnode, rfl⟩⟩

/-- The first part of a procedure runs undisturbed. -/
theorem calls_first {drivers : Drivers} {nodes : Node → Prop} {node : Node} {α β : Type} {x : Proc α}
    {a : α} {db next : Db} (hnode : nodes node) (h : run drivers node x db = (.ok a, next))
    (f : α → Proc β) :
    Calls (Performs drivers nodes unlimited) (db, (x >>= f).run) (next, (f a).run) := by
  have hhandle : ∀ op, True → ∀ s, Performs drivers nodes unlimited op s
      (handle drivers node op s).1 (handle drivers node op s).2 :=
    fun op _ s => performs_handle hnode trivial
  exact calls_bind_ok hhandle (Prog.only_true _) h f

/-- Calls that are no reorganization of any order. -/
theorem not_reorganizes {op : Op} (h : observes op ∨ ∃ id, op = .revertToLive id) (db : Db)
    (id : String) : ¬Reorganizes db id op := by
  rcases h with h | ⟨other, rfl⟩
  · cases op with
    | transact event => cases event <;> first | exact fun hr => hr | cases h
    | _ => exact fun hr => hr
  · exact fun hr => hr

theorem undisturbed_of_observes {op : Op} (h : observes op) (db : Db) : Undisturbed db op := by
  cases op with
  | transact event => cases event <;> trivial
  | _ => trivial

def exampleConfig : Config where
  verification := exampleVerification
  client := exampleClient
  address := fun _ => .ok "ckt1"
  settlementHash := fun _ => exampleHash 11

/-- The chain when both orders are on it. -/
def exampleEarly : Chain exampleWorld :=
  ⟨[exampleHash 20, exampleHash 21], by decide, by decide, by decide⟩

/-- The same chain, one block later: the buy order is cancelled. -/
def exampleLate : Chain exampleWorld :=
  ⟨[exampleHash 20, exampleHash 21, exampleHash 23], by decide, by decide, by decide⟩

/-- The answers before and after that block. -/
def exampleNodes (node : Node) : Prop :=
  node = exampleEarly.node exampleDex 0 ∨ node = exampleLate.node exampleDex 0

theorem exampleEarly_node : exampleNodes (exampleEarly.node exampleDex 0) := Or.inl rfl

theorem exampleLate_node : exampleNodes (exampleLate.node exampleDex 0) := Or.inr rfl

/-- The settlement is delivered again while nothing else runs. -/
theorem terminal_statuses_absorbing_example : ∃ after : System,
    Runs exampleDrivers exampleConfig exampleNodes
      (fun db op => Undisturbed db op ∧ ¬Reorganizes db exampleBuy.id op) ⟨exampleFilled, []⟩ after ∧
    HasStatus after.state exampleBuy.id .filled := by
  have hhandle : ∀ op, observes op → ∀ s, Performs exampleDrivers exampleNodes
      (fun db op => Undisturbed db op ∧ ¬Reorganizes db exampleBuy.id op) op s
      (handle exampleDrivers (exampleLate.node exampleDex 0) op s).1
      (handle exampleDrivers (exampleLate.node exampleDex 0) op s).2 := fun op h s =>
    performs_handle exampleLate_node
      ⟨undisturbed_of_observes h s, not_reorganizes (Or.inl h) s exampleBuy.id⟩
  have hkind : observes (.transact (.tradeConfirmed exampleSettled)) := trivial
  have hprocessed : exampleFilled.processed exampleSettled.eventId = true := by
    rw [exampleFilled, processed_recorded]
    exact Or.inl rfl
  have hdelivered : eval (handle exampleDrivers (exampleLate.node exampleDex 0))
      (ingest exampleVerification (.tradeConfirmed exampleSettled)) exampleFilled =
        (.ok (ignored exampleSettled.eventId "duplicate-event-id"), exampleFilled) :=
    run_ingest_processed (.tradeConfirmed exampleSettled) hprocessed
  have hrun : Runs exampleDrivers exampleConfig exampleNodes
      (fun db op => Undisturbed db op ∧ ¬Reorganizes db exampleBuy.id op) ⟨exampleFilled, []⟩
      ⟨exampleFilled, [(pure () : Proc Unit).run]⟩ :=
    (run_calls (calls_bind_ok hhandle (only_ingest_observes hkind) hdelivered fun _ => pure ())
      [] []).head (.start exampleFilled [] _ ⟨_, .delivery _ exampleSettled_valid, rfl⟩)
  exact ⟨_, hrun, (terminal_statuses_absorbing exampleDrivers exampleConfig exampleNodes).1 _ _
    exampleBuy.id .filled (Or.inl rfl) hrun ⟨_, exampleFilled_buy, rfl⟩⟩

theorem exampleBuy_early : Indexable exampleVerification exampleEarly exampleBuyIndexed
    (exampleOrder sideBuy (exampleHash 1)) (exampleOwner 1) ⟨1, exampleHash 21, 0, exampleHash 5⟩
    exampleCreation := by
  constructor <;> first | rfl | decide

theorem exampleSell_early : Indexable exampleVerification exampleEarly exampleSellIndexed
    (exampleOrder sideSell (exampleHash 2)) (exampleOwner 2) ⟨1, exampleHash 21, 0, exampleHash 5⟩
    exampleCreation := by
  constructor <;> first | rfl | decide

/-- An event is delivered while nothing else runs. -/
theorem run_delivered {drivers : Drivers} (config : Config) {nodes : Node → Prop} {node : Node}
    {event : BotEvent} {db next : Db} {result : IngestionResult} (hnode : nodes node)
    (hvalid : event.valid = true)
    (hrun : run drivers node (ingest config.verification event) db = (.ok result, next))
    (running : List (Prog Op (fun op => Answer (Res op)) (Answer Unit))) :
    ∃ p, Runs drivers config nodes unlimited ⟨db, running⟩ ⟨next, p :: running⟩ := by
  have hcalls : Calls (Performs drivers nodes unlimited)
      (db, (do
        let _ ← ingest config.verification event
        return () : Proc Unit).run) (next, (pure () : Proc Unit).run) :=
    calls_first hnode hrun _
  exact ⟨_, (run_calls hcalls [] running).head (.start db running _ ⟨_, .delivery event hvalid, rfl⟩)⟩

/-- Any node of the early chain may index both orders. -/
theorem exampleOpen_indexed {nodes : Node → Prop} (hnode : nodes (exampleEarly.node exampleDex 0)) :
    ∃ running, Runs exampleDrivers exampleConfig nodes unlimited ⟨Db.empty, []⟩
      ⟨exampleOpen, running⟩ := by
  have hnew : exampleIndexed.processed exampleSellConfirmed.eventId = false := by
    rw [Bool.eq_false_iff, ne_eq, exampleIndexed, processed_recorded, not_or]
    exact ⟨by decide +kernel, by decide⟩
  have hbuyRun : run exampleDrivers (exampleEarly.node exampleDex 0)
      (ingest exampleVerification (.orderConfirmed exampleConfirmed)) Db.empty =
        (.ok (applied exampleConfirmed.eventId), exampleIndexed) :=
    exampleBuy_early.ingested _ exampleDrivers_reads rfl rfl rfl
  have hsellRun : run exampleDrivers (exampleEarly.node exampleDex 0)
      (ingest exampleVerification (.orderConfirmed exampleSellConfirmed)) exampleIndexed =
        (.ok (applied exampleSellConfirmed.eventId), exampleOpen) :=
    exampleSell_early.ingested _ exampleDrivers_reads hnew exampleIndexed_find_sell rfl
  obtain ⟨p, hbuy⟩ := run_delivered exampleConfig hnode (valid_indexedEvent _) hbuyRun []
  obtain ⟨q, hsell⟩ := run_delivered exampleConfig hnode (valid_indexedEvent _) hsellRun [p]
  exact ⟨[q, p], hbuy.trans hsell⟩

theorem exampleOpen_latest : ∃ order, Db.latestOrder exampleOpen = some order ∧
    order.blockNumber = toString 1 := by
  have hmem : ∀ order, Db.latestOrder exampleOpen = some order → order.blockNumber = toString 1 := by
    intro order horder
    have hin := List.mem_of_mem_head? (Option.mem_def.mpr horder)
    rw [List.mem_insertionSort] at hin
    rcases exampleOpen_docs.mp hin with rfl | rfl <;> rfl
  cases horder : Db.latestOrder exampleOpen with
  | some order => exact ⟨order, rfl, hmem order horder⟩
  | none =>
      have hnil : exampleOpen.orders.docs.insertionSort
          (fun a b => b.blockNumber ≤ a.blockNumber) = [] := List.head?_eq_none_iff.mp horder
      have hbuy : exampleBuy ∈ exampleOpen.orders.docs := exampleOpen_docs.mpr (Or.inl rfl)
      rw [← List.mem_insertionSort fun a b : OrderDocument => b.blockNumber ≤ a.blockNumber, hnil]
        at hbuy
      cases hbuy

theorem exampleOpen_scanned : run exampleDrivers (exampleEarly.node exampleDex 0)
    (scanForPendingOrders exampleConfig) exampleOpen = (.ok (), exampleOpen) := by
  obtain ⟨order, horder, hblock⟩ := exampleOpen_latest
  have hlatest : eval (handle exampleDrivers (exampleEarly.node exampleDex 0)) (request .latestOrder)
      exampleOpen = (.ok (some order), exampleOpen) := by
    change (Except.ok (Db.latestOrder exampleOpen), exampleOpen) = _
    rw [horder]
  have hcheckpoints : eval (handle exampleDrivers (exampleEarly.node exampleDex 0))
      (request (.newestCheckpoints 1)) exampleOpen = (.ok [], exampleOpen) := rfl
  have htip : eval (handle exampleDrivers (exampleEarly.node exampleDex 0)) (request .getTip)
      exampleOpen = (.ok 1, exampleOpen) := rfl
  have hcursor : eval (handle exampleDrivers (exampleEarly.node exampleDex 0)) resolveScanCursor
      exampleOpen = (.ok 2, exampleOpen) := by
    have hnumber : toBigInt order.blockNumber = .ok 1 := by
      rw [hblock]
      exact toBigInt_eq_ok.mpr (bigInt_toString 1)
    simp only [resolveScanCursor, eval_bind, hcheckpoints, hlatest, eval_require, hnumber]
    rfl
  rw [run, scanForPendingOrders, eval_bind, htip]
  simp only [exampleConfig, exampleVerification, lt_irrefl, if_false, eval_bind, hcursor]
  rfl

theorem exampleOpen_swept {orders : List OrderDocument}
    (h : ∀ order ∈ orders, order = exampleBuy ∨ order = exampleSell) :
    run exampleDrivers (exampleEarly.node exampleDex 0) (forEach (fun order => do
      let _ ← checkOrderLiveness exampleVerification order
      return ()) orders) exampleOpen = (.ok (), exampleOpen) := by
  induction orders with
  | nil => rfl
  | cons order orders ih =>
      have hlive : eval (handle exampleDrivers (exampleEarly.node exampleDex 0))
          (checkOrderLiveness exampleVerification order) exampleOpen = (.ok true, exampleOpen) := by
        have hbuy : exampleEarly.isLive ⟨exampleHash 5, 0⟩ = true := by decide
        have hsell : exampleEarly.isLive ⟨exampleHash 5, 1⟩ = true := by decide
        rcases h order List.mem_cons_self with rfl | rfl
        · exact (run_checkOrderLiveness (rfl : _ = outPointText ⟨exampleHash 5, 0⟩)).trans
            (if_pos hbuy)
        · exact (run_checkOrderLiveness (rfl : _ = outPointText ⟨exampleHash 5, 1⟩)).trans
            (if_pos hsell)
      have hrest : eval (handle exampleDrivers (exampleEarly.node exampleDex 0)) (forEach (fun order => do
          let _ ← checkOrderLiveness exampleVerification order
          return ()) orders) exampleOpen = (.ok (), exampleOpen) :=
        ih fun o ho => h o (List.mem_cons_of_mem _ ho)
      simp only [run, forEach, eval_bind, hlive, hrest, eval_pure]

theorem exampleOpen_status {order : OrderDocument} (h : order ∈ exampleOpen.orders.docs) :
    order.status = .live := by
  rcases exampleOpen_docs.mp h with rfl | rfl <;> rfl

/-- The only match of the example. -/
def exampleMatches (_ : List OrderDocument) : List (OrderDocument × OrderDocument) :=
  [(exampleBuy, exampleSell)]

/-- A tick that finds nothing to do before it matches the two orders. -/
theorem exampleTick_matches : Calls (Performs exampleDrivers exampleNodes unlimited)
    (exampleOpen, (tick exampleConfig [] exampleMatches).run)
    (exampleOpen, (matchPendingOrders exampleConfig [] [(exampleBuy, exampleSell)]).run) := by
  have hreorg : run exampleDrivers (exampleEarly.node exampleDex 0) (detectReorg exampleVerification)
      exampleOpen = (.ok (), exampleOpen) := rfl
  have hsweep : run exampleDrivers (exampleEarly.node exampleDex 0)
      (sweepTrackedOrders exampleVerification) exampleOpen = (.ok (), exampleOpen) := by
    have hfind : eval (handle exampleDrivers (exampleEarly.node exampleDex 0))
        (request (.findOrdersByStatus [.live, .reserved])) exampleOpen =
          (.ok (exampleOpen.orders.filter fun order => order.status ∈ [.live, .reserved]),
            exampleOpen) := rfl
    rw [run, sweepTrackedOrders, eval_bind, hfind]
    exact exampleOpen_swept fun order horder => exampleOpen_docs.mp (Collection.mem_filter.mp horder).1
  have hretry : run exampleDrivers (exampleEarly.node exampleDex 0)
      (retryFailSwaps exampleVerification) exampleOpen = (.ok (), exampleOpen) := by
    have hnone : (exampleOpen.orders.filter fun order => order.status ∈ [.reserved, .pending]) = [] := by
      refine List.filter_eq_nil_iff.mpr fun order horder => ?_
      simp [exampleOpen_status horder]
    have hfind : eval (handle exampleDrivers (exampleEarly.node exampleDex 0))
        (request (.findOrdersByStatus [.reserved, .pending])) exampleOpen = (.ok [], exampleOpen) := by
      rw [← hnone]
      rfl
    rw [run, retryFailSwaps, eval_bind, hfind]
    rfl
  have hlive : run exampleDrivers (exampleEarly.node exampleDex 0)
      (request (.findOrdersByStatus [.live])) exampleOpen = (.ok _, exampleOpen) := rfl
  exact (calls_first exampleEarly_node hreorg _).trans
      ((calls_first exampleEarly_node exampleOpen_scanned _).trans
    ((calls_first exampleEarly_node hsweep _).trans
        ((calls_first exampleEarly_node hretry _).trans (calls_first exampleEarly_node hlive _))))

/-- The transaction that cancels the buy order. -/
def exampleCancellation : RawTx :=
  ⟨[⟨exampleHash 5, 0⟩, ⟨exampleHash 10, 2⟩], [⟨20000000000, exampleOwner 1, none, []⟩]⟩

def exampleReservedBuy : OrderDocument := reservedDocument reservationTtl exampleBuy
def exampleReservedSell : OrderDocument := reservedDocument reservationTtl exampleSell

def exampleReserved : Db := (exampleOpen.putOrder exampleReservedBuy).putOrder exampleReservedSell

theorem exampleReserved_buy : exampleReserved.orders.find? exampleBuy.id = some exampleReservedBuy :=
  Collection.find?_put.trans ((if_neg exampleBuy_id_ne.symm).trans
    (Collection.find?_put.trans (if_pos rfl)))

theorem exampleBuy_cancelled : CancelledBy exampleVerification exampleLate exampleReserved
    exampleReservedBuy exampleReservedBuy ⟨exampleHash 5, 0⟩ exampleBuyCell
    (exampleOrder sideBuy (exampleHash 1)) ⟨2, exampleHash 23, 0, exampleHash 12⟩
    exampleCancellation where
  mirrored := ⟨rfl, rfl, rfl, ⟨lower_toHex _, rfl, exampleBuy_indexable.parsed⟩, rfl, rfl, rfl, rfl,
    rfl⟩
  stored := exampleReserved_buy
  maker := rfl
  found := by decide
  content := by rfl
  spends := by decide
  cancels := by constructor <;> decide
  deep := by decide

/-- The second check, after the first has found its order spent. -/
def exampleChecks : Proc (Bool × Bool) :=
  promiseAll [] (require (.ok false)) (checkOrderLiveness exampleVerification exampleReservedSell)

/-- What is left of a trade when one of its orders has been found spent. -/
def exampleFailing (settlement : Settlement) : Proc Hash :=
  tryCatch
    (do
      let (buyLive, sellLive) ← exampleChecks
      require (throwIf (buyLive = false ∨ sellLive = false)
        (appError 409 "one of the matched orders was already settled on-chain"))
      let txHash ← submit exampleConfig settlement
      tryCatch
        (do
          let _ ← ingest exampleVerification (.settlementSubmitted
            (settlementSubmittedEvent exampleReservedBuy exampleReservedSell txHash))
          return ())
        fun _ => request (.trackPending [exampleReservedBuy.id, exampleReservedSell.id]
          (hashText txHash))
      return txHash)
    fun error => do
      revertBoth [] exampleReservedBuy.id exampleReservedSell.id
      throw error

def exampleCanceled : Db :=
  withCancelled exampleReserved
    (cancellationOf exampleReservedBuy ⟨2, exampleHash 23, 0, exampleHash 12⟩) exampleReservedBuy

theorem exampleCancellation_new : exampleReserved.processed
    (cancellationOf exampleReservedBuy ⟨2, exampleHash 23, 0, exampleHash 12⟩).eventId = false := by
  rw [Bool.eq_false_iff]
  change exampleOpen.processed _ ≠ true
  rw [exampleOpen, ne_eq, processed_recorded, not_or]
  refine ⟨by decide +kernel, ?_⟩
  change exampleIndexed.processed _ ≠ true
  rw [exampleIndexed, ne_eq, processed_recorded, not_or]
  exact ⟨by decide +kernel, by decide⟩

theorem exampleTrade_fails : ∃ settlement, Calls (Performs exampleDrivers exampleNodes unlimited)
    (exampleOpen, (executeTrade exampleConfig [] exampleBuy exampleSell).run)
    (exampleCanceled, (exampleFailing settlement).run) := by
  obtain ⟨settlement, hsettlement⟩ : ∃ settlement, buildSettlement exampleClient
      exampleVerification.supportedAssetHashes exampleBuy exampleSell = .ok settlement := ⟨_, rfl⟩
  refine ⟨settlement, ?_⟩
  have hbuild : run exampleDrivers (exampleEarly.node exampleDex 0) (require (buildSettlement
      exampleConfig.client exampleConfig.verification.supportedAssetHashes exampleBuy exampleSell))
      exampleOpen = (.ok settlement, exampleOpen) := by
    rw [run, eval_require]
    exact congrArg (·, exampleOpen) hsettlement
  have hbuy : run exampleDrivers (exampleEarly.node exampleDex 0) (Bot.reserve exampleBuy.id)
      exampleOpen = (.ok (some exampleReservedBuy), exampleOpen.putOrder exampleReservedBuy) := by
    have hop : Db.reserve exampleOpen exampleBuy.id (0 + reservationTtl) =
        (some exampleReservedBuy, exampleOpen.putOrder exampleReservedBuy) := by
      rw [Db.reserve, exampleOpen_buy]
      rfl
    change (Except.ok (Db.reserve exampleOpen exampleBuy.id (0 + reservationTtl)).1,
      (Db.reserve exampleOpen exampleBuy.id (0 + reservationTtl)).2) = _
    rw [hop]
  have hsell : run exampleDrivers (exampleEarly.node exampleDex 0) (Bot.reserve exampleSell.id)
      (exampleOpen.putOrder exampleReservedBuy) = (.ok (some exampleReservedSell), exampleReserved) := by
    have hfind : (exampleOpen.putOrder exampleReservedBuy).orders.find? exampleSell.id =
        some exampleSell :=
      Collection.find?_put.trans ((if_neg exampleBuy_id_ne).trans exampleOpen_sell)
    have hop : Db.reserve (exampleOpen.putOrder exampleReservedBuy) exampleSell.id
        (0 + reservationTtl) = (some exampleReservedSell, exampleReserved) := by
      rw [Db.reserve, hfind]
      rfl
    change (Except.ok (Db.reserve (exampleOpen.putOrder exampleReservedBuy) exampleSell.id
      (0 + reservationTtl)).1, (Db.reserve (exampleOpen.putOrder exampleReservedBuy) exampleSell.id
      (0 + reservationTtl)).2) = _
    rw [hop]
  -- The block with the cancellation arrives once both orders are reserved.
  have hobserved : run exampleDrivers (exampleLate.node exampleDex 0)
      (checkOrderLiveness exampleVerification exampleReservedBuy) exampleReserved =
        (.ok false, exampleCanceled) := by
    exact exampleBuy_cancelled.observed ⟨by decide, by decide⟩ rfl exampleCancellation_new
  have hhandle : ∀ op, True → ∀ s, Performs exampleDrivers exampleNodes unlimited op s
      (handle exampleDrivers (exampleLate.node exampleDex 0) op s).1
      (handle exampleDrivers (exampleLate.node exampleDex 0) op s).2 :=
    fun op _ s => performs_handle exampleLate_node trivial
  have hcall : ∃ op next, (checkOrderLiveness exampleVerification exampleReservedSell).run =
      .call op next := ⟨_, _, rfl⟩
  obtain ⟨op, next, hcall⟩ := hcall
  have hfirst := calls_of_eval hhandle (Prog.only_true _) hobserved
  have hboth : Calls (Performs exampleDrivers exampleNodes unlimited) _
      (exampleCanceled, exampleChecks.run) :=
    calls_promiseAll hfirst hcall
  exact (calls_first exampleEarly_node hbuild _).trans
      ((calls_first exampleEarly_node hbuy _).trans ((calls_first exampleEarly_node hsell _).trans
    (calls_tryCatch (calls_seq hboth _) _)))

theorem exampleFailing_releases (settlement : Settlement) : ∃ left : Proc Hash,
    Calls (Performs exampleDrivers exampleNodes fun db op => ¬Reorganizes db exampleBuy.id op)
      (exampleCanceled, (exampleFailing settlement).run)
      (Db.revertToLive exampleCanceled exampleReservedBuy.id, left.run) := by
  have hhandle : ∀ op, (observes op ∨ ∃ id, op = .revertToLive id) → ∀ s,
      Performs exampleDrivers exampleNodes (fun db op => ¬Reorganizes db exampleBuy.id op) op s
        (handle exampleDrivers (exampleLate.node exampleDex 0) op s).1
        (handle exampleDrivers (exampleLate.node exampleDex 0) op s).2 :=
    fun op h s => performs_handle exampleLate_node (not_reorganizes h s _)
  have hlive : eval (handle exampleDrivers (exampleLate.node exampleDex 0))
      (checkOrderLiveness exampleVerification exampleReservedSell) exampleCanceled =
        (.ok true, exampleCanceled) := by
    have hsell : exampleLate.isLive ⟨exampleHash 5, 1⟩ = true := by decide
    exact (run_checkOrderLiveness (rfl : _ = outPointText ⟨exampleHash 5, 1⟩)).trans (if_pos hsell)
  have hboth : eval (handle exampleDrivers (exampleLate.node exampleDex 0)) exampleChecks
      exampleCanceled = (.ok (false, true), exampleCanceled) := by
    rw [exampleChecks, eval_promiseAll_require, hlive]
  have hobserves : Only observes exampleChecks :=
    only_promiseAll [] (only_require _) (only_checkOrderLiveness _)
  have hfailed : Calls
      (Performs exampleDrivers exampleNodes fun db op => ¬Reorganizes db exampleBuy.id op)
      (exampleCanceled, (exampleFailing settlement).run)
      (exampleCanceled, (do
        revertBoth [] exampleReservedBuy.id exampleReservedSell.id
        throw (appError 409 "one of the matched orders was already settled on-chain") :
          Proc Hash).run) :=
    calls_tryCatch (calls_bind_ok hhandle (hobserves.mono fun _ => Or.inl) hboth _) _
  have hrelease : Call (Performs exampleDrivers exampleNodes fun db op => ¬Reorganizes db exampleBuy.id op)
      (exampleCanceled, (do
        revertBoth [] exampleReservedBuy.id exampleReservedSell.id
        throw (appError 409 "one of the matched orders was already settled on-chain") :
          Proc Hash).run)
      (Db.revertToLive exampleCanceled exampleReservedBuy.id, _) :=
    Call.perform (Op.revertToLive exampleReservedBuy.id) _ _ (.ok ()) _ (hhandle _ (Or.inr ⟨_, rfl⟩) _)
  exact ⟨ExceptT.mk _, hfailed.tail hrelease⟩

/-- The last stage of the tick, with a trade in progress. -/
def exampleMatching (trade : Proc Hash) : Proc Unit := do
  tryCatch
    (do
      let _ ← trade
      return ())
    (handleMatchFailure exampleConfig [] exampleBuy exampleSell)
  return ()

theorem exampleMatching_calls {allowed : Db → Op → Prop} {db next : Db} {x y : Proc Hash}
    (h : Calls (Performs exampleDrivers exampleNodes allowed) (db, x.run) (next, y.run)) :
    Calls (Performs exampleDrivers exampleNodes allowed) (db, (exampleMatching x).run)
      (next, (exampleMatching y).run) :=
  calls_seq (calls_tryCatch (calls_seq h _) _) _

/-- A trade finds its buy order spent, records the cancellation, and releases
the order it has just recorded as cancelled. -/
theorem release_reopens_cancelled_order : ∃ mid after : System,
    Runs exampleDrivers exampleConfig exampleNodes unlimited ⟨Db.empty, []⟩ mid ∧
    HasStatus mid.state exampleBuy.id .canceled ∧
    Runs exampleDrivers exampleConfig exampleNodes
      (fun db op => ¬Reorganizes db exampleBuy.id op) mid after ∧
    HasStatus after.state exampleBuy.id .live := by
  obtain ⟨running, hopen⟩ := exampleOpen_indexed exampleEarly_node
  obtain ⟨settlement, htrade⟩ := exampleTrade_fails
  obtain ⟨left, hrelease⟩ := exampleFailing_releases settlement
  have hcanceled : exampleCanceled.orders.find? exampleBuy.id = some (cancelledDocument
      (cancellationOf exampleReservedBuy ⟨2, exampleHash 23, 0, exampleHash 12⟩) exampleReservedBuy) :=
    Collection.find?_put.trans (if_pos rfl)
  have hlive : HasStatus (Db.revertToLive exampleCanceled exampleReservedBuy.id) exampleBuy.id .live := by
    change HasStatus (Db.updateOrder exampleCanceled exampleBuy.id releasedDocument) exampleBuy.id .live
    rw [Db.updateOrder, hcanceled]
    exact ⟨_, Collection.find?_put.trans (if_pos rfl), rfl⟩
  have hfirst : Runs exampleDrivers exampleConfig exampleNodes unlimited ⟨exampleOpen, running⟩
      ⟨exampleCanceled, (exampleMatching (exampleFailing settlement)).run :: running⟩ :=
    (run_calls (exampleTick_matches.trans (exampleMatching_calls htrade)) [] running).head
      (.start exampleOpen running _ ⟨_, .tick [] exampleMatches, rfl⟩)
  exact ⟨_, _, hopen.trans hfirst, ⟨_, hcanceled, rfl⟩,
    run_calls (exampleMatching_calls hrelease) [] running, hlive⟩

end

end CkbDex.TerminalStatuses
