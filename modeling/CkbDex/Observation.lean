import CkbDex.SpendClassification

/-!
# Observing an order

What `checkOrderLiveness` does on a node in step with the chain: it leaves a
live order alone, and it records the cancellation or the settlement that has
spent an order as soon as the event is new, deep enough and allowed.
-/
namespace CkbDex.Observation
open Checked Bytes CellContext OrderLock OrderLockRules Text Documents BotEvents ChainCells
open Collections Projection Programs Operations Chains EventVerification IngestionSteps
open ProjectionSteps CkbDex.Bot GroundedDocuments Acceptance OrdersAndTrades SpendClassification

/-- Queries, the two events about spent orders, and their audit. -/
def observes : Op → Prop
  | .transact (.orderCancelled _) => True
  | .transact (.tradeConfirmed _) => True
  | .recordFailed _ _ => True
  | op => isQuery op = true

/-- What observing an order calls: it submits nothing. -/
def watches : Op → Prop
  | .transact (.orderCancelled _) => True
  | .transact (.tradeConfirmed _) => True
  | .recordFailed _ _ => True
  | op => isRead op = true

theorem watches_of_read {op : Op} (h : isRead op = true) : watches op := by
  cases op <;> first | exact h | cases h

theorem observes_of_watches {op : Op} (h : watches op) : observes op := by
  cases op with
  | transact event => cases event <;> exact h
  | recordFailed eventId message => trivial
  | _ => exact isQuery_of_isRead h

section
variable {v : ChainVerification}

theorem only_auditFailure (event : BotEvent) (error : Failure) :
    Only (fun op => ∃ message, op = .recordFailed event.eventId message)
      (auditFailure event error) :=
  only_tryCatch (only_request.mpr ⟨_, rfl⟩) fun _ => only_pure _

/-- Ingestion writes its event or an audit record. -/
theorem reads_ingest (event : BotEvent) :
    Only (fun op => isRead op = true ∨ op = .transact event ∨
      ∃ message, op = .recordFailed event.eventId message) (ingest v event) := by
  have haudit : ∀ error, Only (fun op => isRead op = true ∨ op = .transact event ∨
      ∃ message, op = .recordFailed event.eventId message) (auditFailure event error) :=
    fun error => (only_auditFailure event error).mono fun _ h => Or.inr (Or.inr h)
  have hverify : Only (fun op => isRead op = true ∨ op = .transact event ∨
      ∃ message, op = .recordFailed event.eventId message) (verify v event) := by
    refine only_tryCatch ((reads_verifyEvent event).mono fun _ h => Or.inl h) fun error => ?_
    cases error with
    | app statusCode message code =>
        rw [reportFailure]
        split_ifs
        · exact only_bind (haudit _) fun _ => only_throw _
        · exact only_throw _
    | other message => exact only_throw _
  refine only_bind (only_request.mpr (Or.inl rfl)) fun existing => ?_
  split_ifs
  · exact only_pure _
  · refine only_bind hverify fun _ => only_bind (only_request.mpr (Or.inr (Or.inl rfl))) ?_
    intro outcome
    cases outcome with
    | committed result => exact only_pure _
    | duplicateKey => exact only_pure _
    | aborted error => exact only_bind (haudit _) fun _ => only_throw _

theorem only_ingest (event : BotEvent) :
    Only (fun op => isQuery op = true ∨ op = .transact event ∨
      ∃ message, op = .recordFailed event.eventId message) (ingest v event) :=
  (reads_ingest event).mono fun _ h => h.imp isQuery_of_isRead id

theorem only_emit {allowed : Op → Prop} {event : BotEvent} (h : Only allowed (ingest v event)) :
    Only allowed (emit v event) := by
  refine only_tryCatch (only_bind h fun _ => only_pure _) fun error => ?_
  cases error with
  | app statusCode message code =>
      split
      · exact only_pure _
      · exact only_throw _
  | other message => exact only_throw _

theorem watches_ingest {event : BotEvent} (h : watches (.transact event)) :
    Only watches (ingest v event) := by
  refine (reads_ingest event).mono ?_
  rintro op (hq | rfl | ⟨message, rfl⟩)
  · exact watches_of_read hq
  · exact h
  · trivial

theorem reads_findInputWithLockHash (hash : Script → Hash) (lockHash : Hex) (inputs : List CellRef) :
    Only (fun op => isRead op = true) (findInputWithLockHash hash lockHash inputs) := by
  induction inputs with
  | nil => exact only_pure _
  | cons input inputs ih =>
      refine only_bind (only_request.mpr rfl) fun prevCell => ?_
      split
      · exact only_pure _
      · exact ih

theorem only_findInputWithLockHash (hash : Script → Hash) (lockHash : Hex) (inputs : List CellRef) :
    Only (fun op => isQuery op = true) (findInputWithLockHash hash lockHash inputs) :=
  (reads_findInputWithLockHash hash lockHash inputs).mono fun _ => isQuery_of_isRead

theorem reads_findSpendingTx (outPoint : OutPoint) (records : List TxRecord) :
    Only (fun op => isRead op = true) (findSpendingTx outPoint records) := by
  induction records with
  | nil => exact only_pure _
  | cons record records ih =>
      rw [findSpendingTx]
      split_ifs
      · exact ih
      · refine only_bind (only_request.mpr rfl) fun candidate => ?_
        split
        · exact only_pure _
        · exact ih

theorem watches_confirmExternalSettlement (txHash : Hash) (spendingTx : TxResponse) :
    Only watches (confirmExternalSettlement v txHash spendingTx) := by
  unfold confirmExternalSettlement
  split
  · refine only_bind (only_request.mpr rfl) fun orders => ?_
    split
    · exact only_pure _
    · exact only_bind (only_emit (watches_ingest trivial)) fun _ => only_pure _
  · exact only_pure _

theorem watches_recordSpend (order : OrderDocument) (txHash : Hash) (spendingTx : TxResponse) :
    Only watches (recordSpend v order txHash spendingTx) := by
  have hfind := (reads_findInputWithLockHash v.hash order.ownerLockHash
    spendingTx.transaction.inputs).mono fun _ => watches_of_read
  refine only_bind hfind fun cancellationInput => ?_
  split
  · exact watches_confirmExternalSettlement _ _
  · split
    · exact only_bind (only_emit (watches_ingest trivial)) fun _ => only_pure _
    · exact only_pure _

theorem watches_reconcileSpentOrder (order : OrderDocument) :
    Only watches (reconcileSpentOrder v order) := by
  unfold reconcileSpentOrder
  split_ifs
  · exact only_pure _
  · refine only_bind (only_require _) fun lock => only_bind (only_request.mpr rfl) fun records => ?_
    have hfind := (reads_findSpendingTx order.outPoint records).mono fun _ => watches_of_read
    refine only_bind hfind fun spend => ?_
    split
    · exact only_pure _
    · exact watches_recordSpend _ _ _

theorem watches_checkOrderLiveness (order : OrderDocument) :
    Only watches (checkOrderLiveness v order) := by
  refine only_bind (only_require _) fun ref => only_bind (only_request.mpr rfl) fun live => ?_
  split_ifs
  · exact only_pure _
  · exact only_bind (watches_reconcileSpentOrder _) fun _ => only_pure _

theorem only_ingest_observes {event : BotEvent} (h : observes (.transact event)) :
    Only observes (ingest v event) := by
  apply (watches_ingest _).mono fun _ => observes_of_watches
  cases event <;> exact h

theorem only_checkOrderLiveness (order : OrderDocument) :
    Only observes (checkOrderLiveness v order) :=
  (watches_checkOrderLiveness order).mono fun _ => observes_of_watches

end

section
variable {w : World} {c : Chain w} {dex : Script} {now : ℕ} {drivers : Drivers}
  {v : ChainVerification} {db : Db} {p : Position} {tx : RawTx} {order tracked : OrderDocument}
  {ref : CellRef} {cell : CellOutput} {terms : OrderArgs}

theorem refFrom_outPointText (ref : CellRef) : refFrom (outPointText ref) = some ref := by
  have hindex : (0 : ℤ) ≤ (ref.index.toNat : ℤ) ∧ (ref.index.toNat : ℤ) < 2 ^ 32 := by
    have := ref.index.isLt
    omega
  have hback : BitVec.ofInt 32 (ref.index.toNat : ℤ) = ref.index := by simp
  simp only [refFrom, outPointText, hashFrom_hashText, bigInt_toString, bind, Option.bind, hindex,
    and_self, if_true, hback]

/-- A spent cell is not live. -/
theorem isLive_of_spent (hp : p ∈ positions w c.hashes) (hcontent : w.content p.txHash = some tx)
    (hmem : ref ∈ tx.inputs) : c.isLive ref = false := by
  have hspent : ref ∈ c.spent :=
    List.mem_flatMap.mpr ⟨p, hp, mem_inputsOf.mpr ⟨tx, hcontent, hmem⟩⟩
  simp [Chain.isLive, hspent]

theorem run_checkOrderLiveness (hout : order.outPoint = outPointText ref) :
    run drivers (c.node dex now) (checkOrderLiveness v order) db =
      if c.isLive ref then (.ok true, db)
      else run drivers (c.node dex now) (do
        reconcileSpentOrder v order
        return false) db := by
  have hlive : eval (handle drivers (c.node dex now)) (request (.getCellLive ref)) db =
      (.ok (c.isLive ref), db) := rfl
  have href : okOr (refFrom order.outPoint) (Failure.other "invalid out point") = .ok ref := by
    rw [hout, refFrom_outPointText]
    rfl
  rw [run, checkOrderLiveness, eval_bind, eval_require, href]
  simp only [eval_bind, hlive]
  cases c.isLive ref with
  | true => rfl
  | false => simp only [Bool.false_eq_true, if_false, eval_bind]

theorem run_emit {event : BotEvent} {result : IngestionResult} {next : Db} {node : Node}
    (h : run drivers node (ingest v event) db = (.ok result, next)) :
    run drivers node (emit v event) db = (.ok true, next) := by
  have hingest : eval (handle drivers node) (ingest v event) db = (.ok result, next) := h
  rw [run, emit, eval_tryCatch, eval_bind, hingest]
  rfl

/-- The event for a cancellation at a position. -/
def cancellationOf (order : OrderDocument) (p : Position) : OrderCancelledEvent :=
  orderCancelledEvent order p.txHash p.blockNumber p.blockHash

/-- The state after an order was recorded as cancelled. -/
def withCancelled (db : Db) (event : OrderCancelledEvent) (order : OrderDocument) : Db :=
  recorded (db.putOrder (cancelledDocument event order)) (applied event.eventId) event.eventId

/-- A transaction of the chain cancels an order that is tracked, perhaps in
another version than the one at hand. -/
structure CancelledBy (v : ChainVerification) (c : Chain w) (db : Db) (order tracked : OrderDocument)
    (ref : CellRef) (cell : CellOutput) (terms : OrderArgs) (p : Position) (tx : RawTx) : Prop where
  mirrored : Mirrored v w.content order ref cell terms
  stored : db.orders.find? order.id = some tracked
  maker : tracked.ownerLockHash = order.ownerLockHash
  found : p ∈ positions w c.hashes
  content : w.content p.txHash = some tx
  spends : ref ∈ tx.inputs
  cancels : Cancels (resolvedTx v.hash w.content tx) (cell.toCell v.hash) terms
  deep : v.confirmationDepth ≤ confirmationsOf c.tip p.blockNumber

theorem CancelledBy.found_order (h : CancelledBy v c db order tracked ref cell terms p tx) :
    db.orders.find? (toOrderId (cancellationOf order p).outPoint) = some tracked := by
  change db.orders.find? (toOrderId order.outPoint) = some tracked
  rw [← h.mirrored.id]
  exact h.stored

theorem CancelledBy.verified (h : CancelledBy v c db order tracked ref cell terms p tx) :
    run drivers (c.node dex now) (verifyEvent v (.orderCancelled (cancellationOf order p))) db =
      (.ok (), db) := by
  have hnames : Names c v.confirmationDepth (cancellationOf order p).cancelledByTxHash
      (cancellationOf order p).toEventBase p tx :=
    ⟨hashFrom_hashText _, h.found, h.content, ⟨_, rfl, lower_toHex _⟩,
      ⟨_, rfl, bigInt_toString _⟩, h.deep⟩
  have hspends : Spends tx.inputs (cancellationOf order p).outPoint := by
    change Spends tx.inputs order.outPoint
    rw [h.mirrored.outPoint]
    exact spends_outPointText_iff.mpr h.spends
  refine run_verifyOrderCancelled_chain hnames h.found_order hspends ?_
  obtain ⟨input, hinput, hlock⟩ := h.cancels.authorized
  obtain ⟨r, hr, funding, hcell, rfl⟩ := mem_resolvedInputs.mp hinput
  refine ⟨_, mem_lockHashesOf.mpr ⟨r, hr, funding, hcell, rfl⟩, ?_⟩
  rw [h.maker, h.mirrored.ownerLockHash, ← hlock]
  rfl

/-- A new cancellation of an open order is recorded. -/
theorem CancelledBy.observed (h : CancelledBy v c db order tracked ref cell terms p tx)
    (hopen : order.status ≠ .filled ∧ order.status ≠ .canceled)
    (hallowed : canTransition tracked.status .canceled = true)
    (hnew : db.processed (cancellationOf order p).eventId = false) :
    run drivers (c.node dex now) (checkOrderLiveness v order) db =
      (.ok false, withCancelled db (cancellationOf order p) tracked) := by
  have happly : applyEvent drivers (.orderCancelled (cancellationOf order p)) db =
      .ok (applied (cancellationOf order p).eventId,
        db.putOrder (cancelledDocument (cancellationOf order p) tracked)) :=
    applyOrderCancelled_eq_ok.mpr (Or.inr ⟨tracked, h.found_order, hallowed, rfl, rfl⟩)
  have hemit : eval (handle drivers (c.node dex now))
      (emit v (.orderCancelled (cancellationOf order p))) db =
        (.ok true, withCancelled db (cancellationOf order p) tracked) :=
    run_emit (run_ingest_eq _ hnew h.verified happly)
  have hrecord : eval (handle drivers (c.node dex now)) (reconcileSpentOrder v order) db =
      (.ok (), withCancelled db (cancellationOf order p) tracked) := by
    refine (run_reconcileSpentOrder h.mirrored h.found h.content h.spends hopen).trans ?_
    refine (run_recordSpend_of_cancels h.mirrored h.cancels).trans ?_
    change eval (handle drivers (c.node dex now)) (do
      let _ ← emit v (.orderCancelled (cancellationOf order p))
      return ()) db = _
    rw [eval_bind, hemit]
    rfl
  rw [run_checkOrderLiveness h.mirrored.outPoint, isLive_of_spent h.found h.content h.spends, run,
    eval_bind, hrecord]
  rfl

end

end CkbDex.Observation
