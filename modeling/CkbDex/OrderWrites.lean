import CkbDex.ProjectionSteps

/-!
# Writers of order documents

Every operation that writes an order, with what it finds and what it stores.
An order document after a call is one from before, or one that the call wrote.
-/
namespace CkbDex.OrderWrites
open Text Documents BotEvents Collections Projection Operations IngestionSteps ProjectionSteps

/-- A document that an operation stores. -/
inductive Written (drivers : Drivers) (db : Db) : Op → OrderDocument → Prop
  | confirmed (event : OrderConfirmedEvent)
      (isOpen : alreadyIndexed (db.orders.find? (toOrderId event.outPoint)) event = false) :
      Written drivers db (.transact (.orderConfirmed event))
        (confirmedDocument (db.orders.find? (toOrderId event.outPoint)) event)
  | cancelled (event : OrderCancelledEvent) (order : OrderDocument)
      (found : db.orders.find? (toOrderId event.outPoint) = some order)
      (allowed : canTransition order.status .canceled = true) :
      Written drivers db (.transact (.orderCancelled event)) (cancelledDocument event order)
  | submitted (event : SettlementSubmittedEvent) (order : OrderDocument)
      (found : order ∈ db.orders.docs) (named : order.id ∈ event.orderOutPoints.map toOrderId)
      (ready : Ready db (event.orderOutPoints.map toOrderId) .pending) :
      Written drivers db (.transact (.settlementSubmitted event)) (pendingDocument event order)
  | filled (event : TradeConfirmedEvent) (order : OrderDocument) (found : order ∈ db.orders.docs)
      (named : order.id ∈ tradeIds event) (ready : Ready db (tradeIds event) .filled) :
      Written drivers db (.transact (.tradeConfirmed event)) (filledDocument event order)
  | rolledBack (event : ChainReorgEvent) (order : OrderDocument) (found : order ∈ db.orders.docs) :
      Written drivers db (.transact (.chainReorg event)) (rollBackOrder drivers event order)
  | reserved (id : String) (reservedUntil : ℕ) (order : OrderDocument)
      (found : db.orders.find? id = some order) (live : order.status = .live) :
      Written drivers db (.reserve id reservedUntil) (reservedDocument reservedUntil order)
  | released (id : String) (order : OrderDocument) (found : db.orders.find? id = some order) :
      Written drivers db (.revertToLive id) (releasedDocument order)
  | extended (id : String) (reservedUntil : ℕ) (order : OrderDocument)
      (found : db.orders.find? id = some order) :
      Written drivers db (.extendReservation id reservedUntil) (extendedDocument reservedUntil order)
  | tracked (ids : List String) (txHash : Hex) (order : OrderDocument) (found : order ∈ db.orders.docs)
      (named : order.id ∈ ids) :
      Written drivers db (.trackPending ids txHash) (trackedDocument txHash order)

section
variable {drivers : Drivers} {node : Node} {db next : Db} {result : IngestionResult}
  {order : OrderDocument}

theorem written_of_applyEvent {event : BotEvent}
    (happly : applyEvent drivers event db = .ok (result, next)) (hmem : order ∈ next.orders.docs) :
    order ∈ db.orders.docs ∨ Written drivers db (.transact event) order := by
  cases event with
  | orderConfirmed e =>
      rcases applyOrderConfirmed_eq_ok.mp happly with ⟨-, -, rfl⟩ | ⟨hopen, -, -, -, -, rfl⟩
      · exact Or.inl hmem
      · rcases Collection.mem_docs_put.mp hmem with rfl | ⟨hold, -⟩
        · exact Or.inr (.confirmed e hopen)
        · exact Or.inl hold
  | orderCancelled e =>
      rcases applyOrderCancelled_eq_ok.mp happly with ⟨-, -, rfl⟩ | ⟨old, hfound, hallowed, -, rfl⟩
      · exact Or.inl hmem
      · rcases Collection.mem_docs_put.mp hmem with rfl | ⟨hold, -⟩
        · exact Or.inr (.cancelled e old hfound hallowed)
        · exact Or.inl hold
  | settlementSubmitted e =>
      rcases applySettlementSubmitted_eq_ok happly with ⟨-, rfl⟩ | ⟨hready, -, rfl⟩
      · exact Or.inl hmem
      · obtain ⟨old, hold, rfl⟩ := mem_saveOrders.mp hmem
        split_ifs with hnamed
        · exact Or.inr (.submitted e old hold hnamed hready)
        · exact Or.inl hold
  | tradeConfirmed e =>
      rcases applyTradeConfirmed_eq_ok happly with ⟨-, rfl⟩ | ⟨hready, -, rfl⟩
      · exact Or.inl hmem
      · have hmem : order ∈ (db.saveOrders (tradeIds e) (filledDocument e) fun _ => rfl).orders.docs :=
          hmem
        obtain ⟨old, hold, rfl⟩ := mem_saveOrders.mp hmem
        split_ifs with hnamed
        · exact Or.inr (.filled e old hold hnamed hready)
        · exact Or.inl hold
  | chainReorg e =>
      obtain ⟨-, rfl⟩ := applyChainReorg_eq_ok.mp happly
      simp only [rollBack, Collection.mem_docs_map] at hmem
      obtain ⟨old, hold, rfl⟩ := hmem
      exact Or.inr (.rolledBack e old hold)

theorem written_of_updateOrder {id : String} (update : OrderDocument → OrderDocument)
    (hmem : order ∈ (Db.updateOrder db id update).orders.docs) :
    order ∈ db.orders.docs ∨ ∃ old, db.orders.find? id = some old ∧ order = update old := by
  unfold Db.updateOrder at hmem
  cases hfound : db.orders.find? id with
  | none =>
      rw [hfound] at hmem
      exact Or.inl hmem
  | some old =>
      rw [hfound] at hmem
      rcases Collection.mem_docs_put.mp hmem with rfl | ⟨hold, -⟩
      · exact Or.inr ⟨old, rfl, rfl⟩
      · exact Or.inl hold

/-- An order document after a call was there before, or the call wrote it. -/
theorem written_of_handle {op : Op} (hmem : order ∈ (handle drivers node op db).2.orders.docs) :
    order ∈ db.orders.docs ∨ Written drivers db op order := by
  cases op with
  | transact event =>
      have hmem : order ∈ (transact drivers event db).2.orders.docs := hmem
      rcases transact_cases drivers event db with ⟨result, next, happly, -, hsame⟩ | ⟨hsame, -⟩
      · rw [hsame.orders] at hmem
        exact written_of_applyEvent happly hmem
      · rw [hsame] at hmem
        exact Or.inl hmem
  | recordFailed eventId message =>
      have hmem : order ∈ (recordFailed eventId message db).orders.docs := hmem
      rw [(sameProjection_recordFailed eventId message db).orders] at hmem
      exact Or.inl hmem
  | reserve id t =>
      simp only [handle, Db.reserve] at hmem
      cases hfound : db.orders.find? id with
      | none =>
          rw [hfound] at hmem
          exact Or.inl hmem
      | some old =>
          rw [hfound] at hmem
          simp only at hmem
          split_ifs at hmem with hlive
          · rcases Collection.mem_docs_put.mp hmem with rfl | ⟨hold, -⟩
            · exact Or.inr (.reserved id t old hfound hlive)
            · exact Or.inl hold
          · exact Or.inl hmem
  | revertToLive id =>
      rcases written_of_updateOrder releasedDocument hmem with hold | ⟨old, hfound, rfl⟩
      · exact Or.inl hold
      · exact Or.inr (.released id old hfound)
  | extendReservation id t =>
      rcases written_of_updateOrder (extendedDocument t) hmem with
        hold | ⟨old, hfound, rfl⟩
      · exact Or.inl hold
      · exact Or.inr (.extended id t old hfound)
  | trackPending ids txHash =>
      have hmem : order ∈ (db.saveOrders ids (trackedDocument txHash) fun _ => rfl).orders.docs := hmem
      obtain ⟨old, hold, rfl⟩ := mem_saveOrders.mp hmem
      split_ifs with hnamed
      · exact Or.inr (.tracked ids txHash old hold hnamed)
      · exact Or.inl hold
  | _ => exact Or.inl hmem

end

end CkbDex.OrderWrites
