import CkbDex.SettlementTracking

/-!
# What a session has reserved

The notes that a session of the bot keeps of its calls, and what each further call
may do by them. Everything but a trade reserves nothing.
-/
namespace CkbDex.Reservations
open Bytes CkbDex.Bot BotEvents Documents EventVerification IngestionSteps Interleaving
open Observation Operations Programs Projection SettlementBuilder

/-- The documents that a session has read by status; the orders it has reserved,
by the ids it asked for and by those of the documents it got; those that it has
not given back; those whose settlement is in the pool; and whether a reservation
or a release has failed. -/
structure Note where
  read : List OrderDocument
  asked : List String
  got : List String
  held : List String
  sent : List String
  stuck : Bool

def idle : Note := ⟨[], [], [], [], [], false⟩

def Note.add (note : Note) (id : String) (order : OrderDocument) : Note :=
  { note with asked := id :: note.asked, got := order.id :: note.got, held := order.id :: note.held }

def Note.release (note : Note) (id : String) : Note := { note with held := note.held.erase id }

/-- A node that has the transaction already rejects it as a duplicate. -/
def pooled : Answer Hash → Bool
  | .ok _ => true
  | .error error => mentions "duplicat" (messageOf error)

def Note.submit (note : Note) (settlement : Settlement) (answer : Answer Hash) : Note :=
  if pooled answer then { note with sent := settlement.inputs.map toOrderId ++ note.sent } else note

def record (note : Note) : (op : Op) → Answer (Res op) → Note
  | .findOrdersByStatus _, .ok orders => { note with read := orders ++ note.read }
  | .reserve id _, .ok (some order) => note.add id order
  | .revertToLive id, .ok _ => note.release id
  | .sendTransaction settlement, answer => note.submit settlement answer
  | .now, .error _ | .reserve _ _, .error _ | .revertToLive _, .error _ => { note with stuck := true }
  | _, _ => note

/-- The document is stored under the id of its out point. -/
def Located (order : OrderDocument) : Prop := order.id = toOrderId order.outPoint

/-- The documents got are those asked for, and those read are located. -/
def Note.Sound (note : Note) : Prop := note.got = note.asked ∧ ∀ order ∈ note.read, Located order

/-- Only orders that are held are spent. Who holds any gives back only those. -/
def allowed (note : Note) : Op → Prop
  | .revertToLive id => note.Sound → note.held = [] ∨ id ∈ note.held
  | .sendTransaction settlement => note.Sound → ∀ outPoint ∈ settlement.inputs, toOrderId outPoint ∈ note.held
  | _ => True

/-- Everything held is in a settlement that is in the pool. -/
def Note.Settled (note : Note) : Prop := note.Sound → note.stuck = false → note.held ⊆ note.sent

/-- Ticks, trades of stored orders, deliveries, and what is left of a
`Promise.all` that has failed. The matches of a tick are pairs of the orders that
it read. -/
inductive Starts (config : Config) : Note → Prog Op (fun op => Answer (Res op)) (Answer Unit) → Prop
  | tick (schedule : List Bool) (findMatches : List OrderDocument → List (OrderDocument × OrderDocument))
      (drawn : ∀ orders, ∀ pair ∈ findMatches orders, pair.1 ∈ orders ∧ pair.2 ∈ orders) :
      Starts config idle (tick config schedule findMatches).run
  | trade (schedule : List Bool) (buy sell : OrderDocument) (buyLocated : Located buy)
      (sellLocated : Located sell) :
      Starts config idle (do
        let _ ← executeTrade config schedule buy sell
        return () : Proc Unit).run
  | delivery (event : BotEvent) :
      Starts config idle (do
        let _ ← ingest config.verification event
        return () : Proc Unit).run
  | observation (order : OrderDocument) :
      Starts config idle (do
        let _ ← checkOrderLiveness config.verification order
        return () : Proc Unit).run
  | release (id : String) : Starts config idle (revertToLive id).run

/-- A rollback, or the inclusion of a stored order in another block. -/
def Disrupts (db : Db) : Op → Prop
  | .transact (.chainReorg _) => True
  | .transact (.orderConfirmed e) => ∃ order, db.orders.find? (toOrderId e.outPoint) = some order ∧
      order.status ≠ .orphaned ∧ alreadyIndexed (some order) e = false
  | _ => False

/-- Calls are answered by a node and the database, or fail. -/
abbrev Performs (drivers : Drivers) (nodes : Node → Prop) (op : Op) (db : Db) (answer : Answer (Res op))
    (next : Db) : Prop :=
  TerminalStatuses.Performs drivers nodes (fun db op => ¬Disrupts db op) op db answer next

/-- A session without reservations gives back no order that another one holds. -/
def yields (note : Note) (others : List Note) (op : Op) : Prop :=
  ∀ id, op = .revertToLive id → note.held = [] → ∀ other ∈ others, id ∉ other.held

/-- Calls that reserve nothing, give nothing back and submit nothing. -/
def idles : Op → Prop
  | .reserve _ _ | .revertToLive _ | .sendTransaction _ => False
  | _ => True

/-- Calls that reserve nothing and submit nothing. -/
def spares : Op → Prop
  | .reserve _ _ | .sendTransaction _ => False
  | _ => True

theorem spares_of_idles {op : Op} (h : idles op) : spares op := by
  cases op <;> trivial

theorem idles_of_read {op : Op} (h : isRead op = true) : idles op := by
  cases op <;> trivial

theorem idles_of_watches {op : Op} (h : watches op) : idles op := by
  cases op <;> trivial

section
variable {v : ChainVerification}

theorem idles_ingest (event : BotEvent) : Only idles (ingest v event) := by
  apply (reads_ingest event).mono
  rintro op (hread | rfl | ⟨message, rfl⟩)
  · exact idles_of_read hread
  · trivial
  · trivial

theorem spares_emit (event : BotEvent) : Only spares (emit v event) :=
  only_emit ((idles_ingest event).mono fun _ => spares_of_idles)

theorem spares_checkOrderLiveness (order : OrderDocument) : Only spares (checkOrderLiveness v order) :=
  (watches_checkOrderLiveness order).mono fun _ h => spares_of_idles (idles_of_watches h)

theorem only_forEach {α : Type} {p : Op → Prop} {f : α → Proc Unit} (hf : ∀ a, Only p (f a)) (as : List α) :
    Only p (forEach f as) := by
  induction as with
  | nil => exact only_pure _
  | cons a as ih => exact only_bind (hf a) fun _ => ih

theorem spares_findFork (checkpoints : List Checkpoint) (evidence : Option Checkpoint) :
    Only spares (findFork checkpoints evidence) := by
  induction checkpoints generalizing evidence with
  | nil => exact only_pure _
  | cons checkpoint checkpoints ih =>
      apply only_bind (only_request.mpr trivial)
      intro canonical
      split_ifs
      · exact only_pure _
      · exact ih _

theorem spares_detectReorg : Only spares (detectReorg v) := by
  apply only_bind (only_request.mpr trivial)
  intro checkpoints
  apply only_bind (spares_findFork _ _)
  intro fork
  obtain ⟨ancestor, evidence⟩ := fork
  cases evidence with
  | none => exact only_pure _
  | some evidence =>
      apply only_bind ((idles_ingest _).mono fun _ => spares_of_idles)
      intro result
      exact only_bind (only_request.mpr trivial) fun _ => only_pure _

theorem spares_indexOrderCell {config : Config} (cell : IndexedCell) :
    Only spares (indexOrderCell config cell) := by
  apply only_bind
  · apply only_bind (only_request.mpr trivial)
    intro known
    split_ifs
    · exact only_pure _
    · split
      · exact only_pure _
      · apply only_bind (only_request.mpr trivial)
        intro response
        split
        · exact only_pure _
        · split
          · exact only_pure _
          · have hfind := (reads_findInputWithLockHash config.verification.hash
              ‹DecodedDexOrderArgs›.makerLockHash
              ‹TxResponse›.transaction.inputs).mono fun _ h => spares_of_idles (idles_of_read h)
            apply only_bind hfind
            intro ownerLock
            split
            · exact only_pure _
            · exact only_bind (only_require _) fun ownerAddress => only_pure _
  · intro event
    cases event with
    | none => exact only_pure _
    | some event => exact only_bind (spares_emit _) fun _ => only_pure _

theorem spares_scanForPendingOrders {config : Config} : Only spares (scanForPendingOrders config) := by
  have hcursor : Only spares resolveScanCursor := by
    apply only_bind (only_request.mpr trivial)
    intro checkpoints
    split
    · exact only_pure _
    · apply only_bind (only_request.mpr trivial)
      intro latest
      split
      · exact only_pure _
      · exact only_bind (only_require _) fun _ => only_pure _
  apply only_bind (only_request.mpr trivial)
  intro tip
  split_ifs
  · exact only_pure _
  · apply only_bind hcursor
    intro fromBlock
    split_ifs
    · exact only_pure _
    · apply only_bind (only_request.mpr trivial)
      intro endHash
      split
      · exact only_pure _
      · apply only_bind (only_request.mpr trivial)
        intro cells
        apply only_bind (only_forEach spares_indexOrderCell cells)
        intro done
        apply only_bind (only_request.mpr trivial)
        intro endHashAfter
        split_ifs
        · exact only_pure _
        · apply only_bind (only_request.mpr trivial)
          intro saved
          exact only_bind (only_request.mpr trivial) fun _ => only_pure _

theorem spares_sweepTrackedOrders : Only spares (sweepTrackedOrders v) := by
  apply only_bind (only_request.mpr trivial)
  intro tracked
  exact only_forEach (fun order => only_bind (spares_checkOrderLiveness order) fun _ => only_pure _) tracked

theorem spares_expired (order : OrderDocument) : Only spares (expired order) := by
  unfold expired
  split
  · exact only_pure _
  · exact only_bind (only_request.mpr trivial) fun _ => only_pure _

theorem spares_revertIfExpired (order : OrderDocument) : Only spares (revertIfExpired order) := by
  apply only_bind (spares_expired order)
  intro due
  split_ifs
  · exact only_request.mpr trivial
  · exact only_pure _

theorem spares_retryOrder (order : OrderDocument) : Only spares (retryOrder v order) := by
  unfold retryOrder
  split
  · exact spares_revertIfExpired order
  · apply only_bind (only_require _)
    intro key
    apply only_bind (only_request.mpr trivial)
    intro pendingTx
    split
    · apply only_bind
      · apply only_bind (only_request.mpr trivial)
        intro found
        split
        · exact only_bind (spares_emit _) fun _ => only_pure _
        · exact only_pure _
      · intro recorded
        split_ifs
        · exact only_pure _
        · exact spares_revertIfExpired order
    · dsimp only
      split
      · apply only_bind (spares_checkOrderLiveness order)
        intro live
        split_ifs
        · exact only_pure _
        · exact only_request.mpr trivial
        · exact spares_revertIfExpired order
      · apply only_bind (spares_expired order)
        intro due
        split_ifs
        · exact only_bind (only_request.mpr trivial) fun _ => only_request.mpr trivial
        · exact only_pure _

theorem spares_retryFailSwaps : Only spares (retryFailSwaps v) :=
  only_bind (only_request.mpr trivial) fun inFlight => only_forEach spares_retryOrder inFlight

end

end CkbDex.Reservations
