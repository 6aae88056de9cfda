import CkbDex.Acceptance

/-!
# How an event is spelled

The verifier reads hashes in either letter case and numbers in any notation;
the projection knows an order by the raw text of its out point and its block by
the raw text of a hash. What a second spelling of one order does is decided by
these texts.
-/
namespace CkbDex.EventSpelling
open Checked Bytes CellContext Text Number Documents BotEvents ChainCells Collections Projection
open Programs Operations Chains EventVerification IngestionSteps ProjectionSteps GroundedDocuments
open Acceptance

def SameHex (a b : Hex) : Prop := lower a = lower b

/-- The same text, or two notations of one integer. -/
def SameInteger (a b : String) : Prop := a = b ∨ ∃ n, bigInt a = some n ∧ bigInt b = some n

structure SameScript (a b : ScriptDocument) : Prop where
  codeHash : SameHex a.codeHash b.codeHash
  hashType : a.hashType = b.hashType
  args : SameHex a.args b.args

structure SameOrder (a b : ConfirmedOrder) : Prop where
  lockScript : SameScript a.lockScript b.lockScript
  typeScript : Option.Rel SameScript a.typeScript b.typeScript
  cellData : SameHex a.cellData b.cellData
  capacity : SameInteger a.capacity b.capacity
  ownerLock : SameScript a.ownerLock b.ownerLock
  ownerLockHash : SameHex a.ownerLockHash b.ownerLockHash
  ownerAddress : a.ownerAddress = b.ownerAddress
  direction : a.direction = b.direction
  pricePerToken : SameInteger a.pricePerToken b.pricePerToken
  tokenAmount : SameInteger a.tokenAmount b.tokenAmount
  xudtTypeHash : SameHex a.xudtTypeHash b.xudtTypeHash
  blockNumber : SameInteger a.blockNumber b.blockNumber
  txIndex : SameInteger a.txIndex b.txIndex

/-- Two events that differ in letter case, in the notation of integers and in
their ids only. -/
structure Respelled (a b : OrderConfirmedEvent) : Prop where
  blockNumber : Option.Rel SameInteger a.blockNumber b.blockNumber
  blockHash : Option.Rel SameHex a.blockHash b.blockHash
  txHash : SameHex a.outPoint.txHash b.outPoint.txHash
  index : SameInteger a.outPoint.index b.outPoint.index
  order : SameOrder a.order b.order

/-- When the second of two events leaves the projection that the first has made
alone: its id is known, or it names order and block by the first one's texts,
or by those of another indexed order, or it cannot be stored. -/
def LeavesAlone (drivers : Drivers) (db : Db) (first second : OrderConfirmedEvent) : Prop :=
  second.eventId = first.eventId ∨ db.processed second.eventId = true ∨
    (toOrderId second.outPoint = toOrderId first.outPoint ∧ second.blockHash = first.blockHash) ∨
    (toOrderId second.outPoint ≠ toOrderId first.outPoint ∧
      alreadyIndexed (db.orders.find? (toOrderId second.outPoint)) second = true) ∨
    drivers.decimal128 second.order.pricePerToken = false ∨ number second.order.txIndex = .nan

section
variable {drivers : Drivers} {node : Node} {v : ChainVerification} {content : Content}
  {db next : Db} {result : IngestionResult}

/-- After an order-confirmed event was accepted, its order is indexed for its
block, and no other order has changed. -/
theorem indexed_of_accepted {event : OrderConfirmedEvent}
    (hblock : event.blockHash ≠ none)
    (h : applyEvent drivers (.orderConfirmed event) db = .ok (result, next)) :
    (∃ order, next.orders.find? (toOrderId event.outPoint) = some order ∧
      order.createdBlockHash = event.blockHash ∧ order.status ≠ .orphaned) ∧
    ∀ id, id ≠ toOrderId event.outPoint → next.orders.find? id = db.orders.find? id := by
  rcases applyOrderConfirmed_eq_ok.mp h with ⟨hindexed, -, rfl⟩ | ⟨-, -, -, -, -, rfl⟩
  · refine ⟨?_, fun _ _ => rfl⟩
    obtain ⟨order, horder, hold⟩ := (Option.any_eq_true _ _).mp hindexed
    simp only [ne_eq, Bool.and_eq_true, decide_eq_true_eq] at hold
    exact ⟨order, horder, hold⟩
  · refine ⟨⟨_, Collection.find?_put_self, ?_, by simp [confirmedDocument]⟩, ?_⟩
    · obtain ⟨hash, hhash⟩ := Option.ne_none_iff_exists'.mp hblock
      simp [confirmedDocument, hhash]
    · intro id hid
      exact Collection.find?_put.trans (if_neg fun h => hid h.symm)

theorem blockHash_of_verified {event : OrderConfirmedEvent} {db' : Db}
    (h : run drivers node (verifyEvent v (.orderConfirmed event)) db = (.ok (), db')) :
    event.blockHash ≠ none ∧ number event.order.blockNumber ≠ .nan := by
  obtain ⟨response, tx, cell, terms, hverified⟩ := run_verifyOrderConfirmed h
  obtain ⟨n, hash, -, -, ⟨claimed, hclaimed, -⟩, ⟨text, htext, hnumber⟩, -⟩ :=
    hverified.confirmed.block
  have hsame := hverified.checked.blockNumber
  rw [htext, Option.some_inj] at hsame
  subst hsame
  exact ⟨by simp [hclaimed], number_ne_nan_of_bigInt hnumber⟩

/-- A verified event leaves a state alone exactly when it was processed before,
its order is indexed, or a conversion refuses it. -/
theorem sameProjection_ingest_iff {event : OrderConfirmedEvent}
    (hverify : run drivers node (verifyEvent v (.orderConfirmed event)) db = (.ok (), db)) :
    SameProjection db (run drivers node (ingest v (.orderConfirmed event)) db).2 ↔
      db.processed event.eventId = true ∨
      alreadyIndexed (db.orders.find? (toOrderId event.outPoint)) event = true ∨
      drivers.decimal128 event.order.pricePerToken = false ∨ number event.order.txIndex = .nan := by
  obtain ⟨hblock, hnumber⟩ := blockHash_of_verified hverify
  cases hnew : db.processed event.eventId with
  | true =>
      rw [run_ingest_processed (.orderConfirmed event) hnew]
      simp [SameProjection.refl]
  | false =>
      cases happly : applyEvent drivers (.orderConfirmed event) db with
      | error error =>
          rw [run_ingest_error (.orderConfirmed event) hnew hverify happly]
          refine iff_of_true (sameProjection_recordFailed ..) ?_
          by_contra hcon
          simp only [not_or, Bool.not_eq_true, Bool.not_eq_false] at hcon
          obtain ⟨-, hopen, hprice, htx⟩ := hcon
          have hok := applyOrderConfirmed_eq_ok.mpr (Or.inr ⟨hopen, hprice, hnumber, htx, rfl, rfl⟩)
          rw [show applyOrderConfirmed drivers event db = _ from happly] at hok
          cases hok
      | ok applied =>
          obtain ⟨r, next⟩ := applied
          rw [run_ingest_eq (.orderConfirmed event) hnew hverify happly]
          rcases applyOrderConfirmed_eq_ok.mp happly with
            ⟨hindexed, -, rfl⟩ | ⟨hopen, hprice, -, htx, -, rfl⟩
          · exact iff_of_true (sameProjection_recorded ..) (Or.inr (Or.inl hindexed))
          · refine iff_of_false (fun hsame => ?_) ?_
            · -- The stored document would make the order indexed already.
              have hfind : db.orders.find? (toOrderId event.outPoint) =
                  some (confirmedDocument (db.orders.find? (toOrderId event.outPoint)) event) := by
                conv_lhs => rw [← hsame.orders]
                exact Collection.find?_put_self
              obtain ⟨hash, hhash⟩ := Option.ne_none_iff_exists'.mp hblock
              rw [hfind] at hopen
              simp [alreadyIndexed, confirmedDocument, hhash] at hopen
            · simp [hopen, hprice, htx]

/-- A second accepted event, whatever its spelling, after a first one. -/
theorem second_delivery_iff {first second : OrderConfirmedEvent} {node₁ node₂ : Node} {db₁ : Db}
    (hnew : db.processed first.eventId = false)
    (hfirst : run drivers node₁ (ingest v (.orderConfirmed first)) db = (.ok result, db₁))
    (hsecond : run drivers node₂ (verifyEvent v (.orderConfirmed second)) db₁ = (.ok (), db₁)) :
    SameProjection db₁ (run drivers node₂ (ingest v (.orderConfirmed second)) db₁).2 ↔
      LeavesAlone drivers db first second := by
  obtain ⟨next, hverified, happly, rfl⟩ := run_ingest_ok (.orderConfirmed first) hnew hfirst
  obtain ⟨⟨order, horder, hcreated, hstatus⟩, hothers⟩ :=
    indexed_of_accepted (blockHash_of_verified hverified).1 happly
  have hfirstId : (BotEvent.orderConfirmed first).eventId = first.eventId := rfl
  have horders : (recorded next result first.eventId).orders = next.orders := rfl
  have hevents : next.processed second.eventId = db.processed second.eventId := by
    rw [Db.processed, (events_of_applyEvent happly).1, Db.processed]
  have hindexed : alreadyIndexed (next.orders.find? (toOrderId second.outPoint)) second = true ↔
      (toOrderId second.outPoint = toOrderId first.outPoint ∧ second.blockHash = first.blockHash) ∨
      (toOrderId second.outPoint ≠ toOrderId first.outPoint ∧
        alreadyIndexed (db.orders.find? (toOrderId second.outPoint)) second = true) := by
    by_cases hid : toOrderId second.outPoint = toOrderId first.outPoint
    · simp only [hid, horder, alreadyIndexed, Option.any_some, hcreated, hstatus, ne_eq,
        not_false_eq_true, decide_true, Bool.and_true, decide_eq_true_eq, true_and,
        not_true_eq_false, false_and, or_false]
      exact eq_comm
    · simp only [hid, hothers _ hid, ne_eq, not_false_eq_true, true_and, false_and, false_or]
  rw [hfirstId] at hsecond ⊢
  have hprocessed : (recorded next result first.eventId).processed second.eventId = true ↔
      second.eventId = first.eventId ∨ db.processed second.eventId = true := by
    rw [processed_recorded, hevents]
  rw [sameProjection_ingest_iff hsecond, horders, hindexed, hprocessed, LeavesAlone, or_assoc,
    or_assoc]

/-- An order-confirmed event names an order that is stored by the texts that
are stored. -/
def spelledAlike (db : Db) : BotEvent → Prop
  | .orderConfirmed e => ∀ order ∈ db.orders.docs, SameCell order.outPoint e.outPoint →
      order.outPoint = e.outPoint ∧ ∀ stored claimed, order.createdBlockHash = some stored →
        e.blockHash = some claimed → SameHex stored claimed → stored = claimed
  | _ => True

/-- At most one order document for each cell. -/
def OnePerCell (db : Db) : Prop :=
  ∀ a ∈ db.orders.docs, ∀ b ∈ db.orders.docs, SameCell a.outPoint b.outPoint → a = b

/-- Documents that keep their facts stay one for each cell. -/
theorem OnePerCell.of_facts (hone : OnePerCell db)
    (h : ∀ order ∈ next.orders.docs, ∃ old ∈ db.orders.docs, factsOf order = factsOf old) :
    OnePerCell next := by
  intro a ha b hb hsame
  obtain ⟨olda, holda, hfa⟩ := h a ha
  obtain ⟨oldb, holdb, hfb⟩ := h b hb
  have houta : a.outPoint = olda.outPoint := congrArg OrderFacts.outPoint hfa
  have houtb : b.outPoint = oldb.outPoint := congrArg OrderFacts.outPoint hfb
  rw [houta, houtb] at hsame
  have hold := hone olda holda oldb holdb hsame
  have hid : a.id = b.id := by
    have h₁ : a.id = olda.id := congrArg OrderFacts.id hfa
    have h₂ : b.id = oldb.id := congrArg OrderFacts.id hfb
    rw [h₁, h₂, hold]
  exact List.inj_on_of_nodup_map next.orders.nodup ha hb hid

theorem OnePerCell.orderConfirmed {event : OrderConfirmedEvent} (hone : OnePerCell db)
    (hg : OrdersStand v content db) (halike : spelledAlike db (.orderConfirmed event)) :
    OnePerCell (db.putOrder (confirmedDocument (db.orders.find? (toOrderId event.outPoint)) event)) := by
  -- Another document of the same cell would be spelled alike, hence have the same id.
  have hother : ∀ order ∈ db.orders.docs, order.id ≠ toOrderId event.outPoint →
      ¬SameCell order.outPoint event.outPoint := by
    intro order horder hne hsame
    obtain ⟨cell, terms, hstands⟩ := hg order horder
    have hid : order.id = toOrderId order.outPoint := hstands.id
    exact hne (hid.trans (congrArg toOrderId (halike order horder hsame).1))
  intro a ha b hb hsame
  rcases Collection.mem_docs_put.mp ha with rfl | ⟨ha, hane⟩ <;>
    rcases Collection.mem_docs_put.mp hb with rfl | ⟨hb, hbne⟩
  · rfl
  · exact (hother b hb hbne ⟨hsame.txHash.symm, hsame.index.symm⟩).elim
  · exact (hother a ha hane hsame).elim
  · exact hone a ha b hb hsame

theorem OnePerCell.applyEvent {event : BotEvent} {result : IngestionResult} (hone : OnePerCell db)
    (hg : OrdersStand v content db) (happly : applyEvent drivers event db = .ok (result, next))
    (hkept : result.status = .applied → spelledAlike db event) : OnePerCell next := by
  cases event with
  | orderConfirmed e =>
      rcases applyOrderConfirmed_eq_ok.mp happly with ⟨-, -, rfl⟩ | ⟨-, -, -, -, rfl, rfl⟩
      · exact hone
      · exact hone.orderConfirmed hg (hkept rfl)
  | _ =>
      refine hone.of_facts fun order hmem => ?_
      rcases facts_of_applyEvent happly hmem with hold | ⟨e, he, -⟩
      · exact hold
      · cases he

section
variable {s t : Service}

theorem OnePerCell.advances (hone : OnePerCell s.db) (hg : Reliable v content s)
    (hstep : Advances drivers v content (onFound spelledAlike) s t) : OnePerCell t.db := by
  cases hstep with
  | verify node event honest valid passed => exact hone
  | commit checked mem kept =>
      rcases transact_cases drivers checked.event s.db with
        ⟨result, next, happly, hcommitted, hsame⟩ | ⟨hsame, -⟩
      · intro a ha b hb
        rw [hsame.orders] at ha hb
        exact hone.applyEvent hg.orders happly (kept result hcommitted) a ha b hb
      · rw [hsame]
        exact hone
  | write node op direct => exact hone.of_facts fun order hmem => facts_of_write direct node hmem

theorem onePerCell_of_leads
    (h : Leads drivers v content (onFound spelledAlike) Service.empty s) : OnePerCell s.db := by
  induction h with
  | refl => exact fun _ ha => nomatch ha
  | tail hrun hstep ih => exact ih.advances (reliable_empty.leads hrun) hstep

end

/-- A redelivery that is spelled alike finds its order indexed, whatever the
status the order has reached. -/
theorem redelivery_indexed {event : OrderConfirmedEvent} {order : OrderDocument} {stored claimed : Hex}
    (hg : OrdersStand v content db) (halike : spelledAlike db (.orderConfirmed event))
    (horder : order ∈ db.orders.docs) (hcell : SameCell order.outPoint event.outPoint)
    (hstored : order.createdBlockHash = some stored) (hclaimed : event.blockHash = some claimed)
    (hblock : SameHex stored claimed) (hstatus : order.status ≠ .orphaned) :
    alreadyIndexed (db.orders.find? (toOrderId event.outPoint)) event = true := by
  obtain ⟨hout, htext⟩ := halike order horder hcell
  obtain rfl := htext stored claimed hstored hclaimed hblock
  obtain ⟨cell, terms, hstands⟩ := hg order horder
  have hid : order.id = toOrderId order.outPoint := hstands.id
  have hfind : db.orders.find? (toOrderId event.outPoint) = some order := by
    rw [← hout, ← hid]
    exact Collection.find?_of_mem horder
  rw [hfind]
  simp [alreadyIndexed, hstored, hclaimed, hstatus]

theorem applyEvent_indexed {event : OrderConfirmedEvent} {result : IngestionResult}
    (hindexed : alreadyIndexed (db.orders.find? (toOrderId event.outPoint)) event = true)
    (happly : applyEvent drivers (.orderConfirmed event) db = .ok (result, next)) : next = db := by
  rcases applyOrderConfirmed_eq_ok.mp happly with ⟨-, -, rfl⟩ | ⟨hopen, -, -, -, -, -⟩
  · rfl
  · rw [hindexed] at hopen
    cases hopen

/-- An indexed order is left alone, by the transaction as by a whole delivery. -/
theorem redelivery_ignored {event : OrderConfirmedEvent}
    (hindexed : alreadyIndexed (db.orders.find? (toOrderId event.outPoint)) event = true) :
    SameProjection db (transact drivers (.orderConfirmed event) db).2 ∧
      SameProjection db (run drivers node (ingest v (.orderConfirmed event)) db).2 := by
  constructor
  · rcases transact_cases drivers (.orderConfirmed event) db with
      ⟨result, next, happly, -, hsame⟩ | ⟨hsame, -⟩
    · obtain rfl := applyEvent_indexed hindexed happly
      exact hsame
    · rw [hsame]
      exact .refl db
  · rcases run_ingest drivers node v (.orderConfirmed event) db with
      hsame | ⟨result, next, -, -, happly, hrun, hnext⟩
    · exact hsame
    · obtain rfl := applyEvent_indexed hindexed happly
      rw [hrun]
      exact hnext

end

/-- Whether a respelled event changes anything is decided by the texts of the
out point and of the block hash. Where they are spelled alike, there is one
document for each cell, and a redelivery never opens an order again. -/
theorem spelling_decides (drivers : Drivers) (v : ChainVerification) (content : Content) :
    (∀ s, Leads drivers v content (onFound unrestricted) Service.empty s →
      ∀ first second : OrderConfirmedEvent, Respelled first second →
      (BotEvent.orderConfirmed first).valid = true → (BotEvent.orderConfirmed second).valid = true →
      ∀ node₁ node₂, Truthful content node₁ → Truthful content node₂ → ∀ result db₁,
      s.db.processed first.eventId = false →
      run drivers node₁ (ingest v (.orderConfirmed first)) s.db = (.ok result, db₁) →
      run drivers node₂ (verifyEvent v (.orderConfirmed second)) db₁ = (.ok (), db₁) →
      (SameProjection db₁ (run drivers node₂ (ingest v (.orderConfirmed second)) db₁).2 ↔
        LeavesAlone drivers s.db first second)) ∧
    (∀ s, Leads drivers v content (onFound spelledAlike) Service.empty s →
      OnePerCell s.db ∧
      ∀ node (event : OrderConfirmedEvent), Truthful content node →
      spelledAlike s.db (.orderConfirmed event) →
      ∀ order ∈ s.db.orders.docs, SameCell order.outPoint event.outPoint →
      ∀ stored claimed, order.createdBlockHash = some stored → event.blockHash = some claimed →
      SameHex stored claimed → order.status ≠ .orphaned →
      SameProjection s.db (transact drivers (.orderConfirmed event) s.db).2 ∧
        SameProjection s.db (run drivers node (ingest v (.orderConfirmed event)) s.db).2) := by
  refine ⟨?_, ?_⟩
  · intro s _ first second _ _ _ node₁ node₂ _ _ result db₁ hnew hfirst hsecond
    exact second_delivery_iff hnew hfirst hsecond
  · intro s hrun
    refine ⟨onePerCell_of_leads hrun, ?_⟩
    intro node event _ halike order horder hcell stored claimed hstored hclaimed hblock hstatus
    have hg := (reliable_empty.leads hrun).orders
    exact redelivery_ignored
      (redelivery_indexed hg halike horder hcell hstored hclaimed hblock hstatus)

section
open OrderLock OrderLockRules SettlementBuilder

/-- The same event under another id, and with another notation of its index. -/
def redelivered (index : String) : OrderConfirmedEvent :=
  { exampleConfirmed with
    eventId := "redelivery"
    outPoint := { exampleConfirmed.outPoint with index } }

theorem respelled_redelivered {index : String} (h : bigInt index = some 0) :
    Respelled exampleConfirmed (redelivered index) := by
  have hex : ∀ s : Hex, SameHex s s := fun _ => rfl
  have int : ∀ s : String, SameInteger s s := fun _ => Or.inl rfl
  have script : ∀ s : ScriptDocument, SameScript s s := fun _ => ⟨rfl, rfl, rfl⟩
  refine ⟨Option.Rel.some (int _), Option.Rel.some (hex _), hex _, Or.inr ⟨0, ?_, h⟩, script _,
    Option.Rel.none, hex _, int _, script _, hex _, rfl, rfl, int _, int _, hex _, int _, int _⟩
  exact bigInt_toString 0

theorem redelivered_verified (index : String) (h : (number index).toIndex = some 0) (db : Db) :
    run exampleDrivers (exampleChain.node exampleDex 0)
      (verifyEvent exampleVerification (.orderConfirmed (redelivered index))) db = (.ok (), db) := by
  have hn := exampleBuy_indexable.names fun _ => "ckt1"
  have hc := exampleBuy_indexable.checked fun _ => "ckt1"
  exact run_verifyOrderConfirmed_chain
    ⟨hn.key, hn.found, hn.content, hn.blockHash, hn.blockNumber, hn.deep⟩
    ⟨hc.blockNumber, hc.txIndex, ⟨0, h, rfl⟩, hc.dexLock, hc.args, hc.data, hc.capacity, hc.decoded,
      hc.direction, hc.price, hc.amount, hc.token, hc.maker, hc.supported, hc.asset, hc.plain,
      hc.owner, hc.funded⟩

theorem redelivered_valid {index : String} (h : isNonempty index = true) :
    (BotEvent.orderConfirmed (redelivered index)).valid = true := by
  have hbase : EventBase.valid (redelivered index).toEventBase = true := by
    have hid : isNonempty (redelivered index).eventId = true := by simp [redelivered, isNonempty]
    have hnumber : (redelivered index).blockNumber.all isNonempty = true := isNonempty_toString 1
    have hhash : (redelivered index).blockHash.all isHash = true := isHash_hashText (exampleHash 21)
    rw [EventBase.valid, hid, hnumber, hhash]
    rfl
  have hout : OutPoint.valid (redelivered index).outPoint = true :=
    Bool.and_eq_true_iff.mpr ⟨isHash_hashText _, h⟩
  have horder : ConfirmedOrder.valid (redelivered index).order = true := valid_indexedOrder fun _ => "ckt1"
  simp only [BotEvent.valid, BotEvent.base, hbase, hout, horder, Bool.and_self]

/-- The second spelling of the index is accepted and makes a second document
for the cell. -/
theorem respelled_index_duplicates : ∃ db,
    Respelled exampleConfirmed (redelivered "0x0") ∧
    run exampleDrivers (exampleChain.node exampleDex 0)
      (ingest exampleVerification (.orderConfirmed exampleConfirmed)) Db.empty =
        (.ok (applied exampleConfirmed.eventId), exampleIndexed) ∧
    (BotEvent.orderConfirmed (redelivered "0x0")).valid = true ∧
    run exampleDrivers (exampleChain.node exampleDex 0)
      (verifyEvent exampleVerification (.orderConfirmed (redelivered "0x0"))) exampleIndexed =
        (.ok (), exampleIndexed) ∧
    run exampleDrivers (exampleChain.node exampleDex 0)
      (ingest exampleVerification (.orderConfirmed (redelivered "0x0"))) exampleIndexed =
        (.ok (applied "redelivery"), db) ∧
    ¬SameProjection exampleIndexed db ∧ ¬OnePerCell db := by
  have hindex : bigInt "0x0" = some 0 := by decide +kernel
  have hnumber : number "0x0" = .finite 0 := number_of_bigInt_exact (n := 0) hindex (by norm_num)
  have hverified := redelivered_verified "0x0" (by rw [hnumber]; rfl) exampleIndexed
  have hne : toOrderId (redelivered "0x0").outPoint ≠ toOrderId exampleConfirmed.outPoint := by
    decide +kernel
  have hnew : exampleIndexed.processed "redelivery" = false := by decide +kernel
  have hfirst : exampleIndexed.orders.find? (toOrderId exampleConfirmed.outPoint) =
      some (confirmedDocument none exampleConfirmed) := Collection.find?_put.trans (if_pos rfl)
  have hnone : exampleIndexed.orders.find? (toOrderId (redelivered "0x0").outPoint) = none :=
    Collection.find?_put.trans (if_neg hne.symm)
  have happly : applyOrderConfirmed exampleDrivers (redelivered "0x0") exampleIndexed =
      .ok (applied "redelivery",
        exampleIndexed.putOrder (confirmedDocument none (redelivered "0x0"))) := by
    refine applyOrderConfirmed_eq_ok.mpr (Or.inr ⟨?_, ?_, ?_, ?_, rfl, ?_⟩)
    · rw [hnone]
      rfl
    · exact exampleDrivers_reads.decimal128 5000 (by norm_num)
    · exact number_ne_nan_of_bigInt (bigInt_toString 1)
    · exact number_ne_nan_of_bigInt (bigInt_toString 0)
    · rw [hnone]
  have hrun := run_ingest_eq (.orderConfirmed (redelivered "0x0")) hnew hverified happly
  have hputSelf : (exampleIndexed.putOrder
      (confirmedDocument none (redelivered "0x0"))).orders.find?
        (toOrderId (redelivered "0x0").outPoint) =
        some (confirmedDocument none (redelivered "0x0")) := Collection.find?_put.trans (if_pos rfl)
  have hputFirst : (exampleIndexed.putOrder
      (confirmedDocument none (redelivered "0x0"))).orders.find?
        (toOrderId exampleConfirmed.outPoint) =
        some (confirmedDocument none exampleConfirmed) :=
    Collection.find?_put.trans ((if_neg hne).trans hfirst)
  refine ⟨_, respelled_redelivered hindex, exampleConfirmed_ingested,
      redelivered_valid (by simp [isNonempty]),
    hverified, hrun, ?_, ?_⟩
  · intro hsame
    have horders : exampleIndexed.orders.find? (toOrderId (redelivered "0x0").outPoint) =
        some (confirmedDocument none (redelivered "0x0")) := by
      rw [← hsame.orders]
      exact hputSelf
    rw [hnone] at horders
    cases horders
  · intro hone
    have hsame : confirmedDocument none exampleConfirmed = confirmedDocument none (redelivered "0x0") :=
      hone _ (Collection.find?_eq_some.mp hputFirst).1 _ (Collection.find?_eq_some.mp hputSelf).1
        ⟨rfl, by rw [show (confirmedDocument none (redelivered "0x0")).outPoint.index = "0x0" from rfl,
          hnumber]; exact (congrArg JsNumber.toIndex (number_toString (n := 0) (by norm_num)))⟩
    exact hne (congrArg OrderDocument.id hsame).symm

/-- A redelivery under another id, spelled alike, leaves the state alone. -/
theorem spelling_decides_example :
    SameProjection exampleIndexed (run exampleDrivers (exampleChain.node exampleDex 0)
        (ingest exampleVerification (.orderConfirmed (redelivered (toString 0)))) exampleIndexed).2 ↔
      LeavesAlone exampleDrivers Db.empty exampleConfirmed (redelivered (toString 0)) :=
  (spelling_decides exampleDrivers exampleVerification exampleWorld.content).1 Service.empty .refl
    exampleConfirmed (redelivered (toString 0)) (respelled_redelivered (bigInt_toString 0))
    (valid_indexedEvent _) (redelivered_valid (isNonempty_toString 0))
    (exampleChain.node exampleDex 0) (exampleChain.node exampleDex 0) (exampleChain.truthful_node _ _)
    (exampleChain.truthful_node _ _) _ exampleIndexed rfl exampleConfirmed_ingested
    (redelivered_verified _ (by rw [number_toString (by norm_num)]; rfl) exampleIndexed)

end

end CkbDex.EventSpelling
