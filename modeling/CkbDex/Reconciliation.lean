import CkbDex.OrderChecks

/-!
# Reconciliation catches up with the chain

On a chain that stands still, a sweep over the open orders and a pass over the
in-flight ones end, and leave no open order whose cell the chain has spent.
-/
namespace CkbDex.Reconciliation
open Checked CellContext OrderLock OrderLockRules Documents ChainCells Collections Projection
open Programs Operations Chains EventVerification IngestionSteps ProjectionSteps CkbDex.Bot
open GroundedDocuments Acceptance SpendClassification SpentOrders

section
variable {w : World} {c : Chain w} {dex : Script} {now : ℕ} {drivers : Drivers} {v : ChainVerification}
  {db next : Db} {order current other buy sell : OrderDocument} {ref buyRef sellRef : CellRef}
  {cell : CellOutput} {terms : OrderArgs} {p : Position} {tx : RawTx}

/-- What is known of an in-flight order before the pass over all of them: the
settlement it waits for is one of both its orders, if the chain has it, and
without one the order is unspent. -/
structure Waits (dex : Script) (c : Chain w) (db : Db) (order : OrderDocument) : Prop where
  noted : ∀ text, order.pendingTxHash = some text → ∃ hash, text = hashText hash ∧
    ∀ p ∈ positions w c.hashes, p.txHash = hash → ∀ tx, w.content p.txHash = some tx →
      Waiting dex w.content db p tx ∧ SpentBy dex w.content tx order
  free : order.pendingTxHash = none → ∀ ref p tx, ¬SpentAt c order ref p tx

theorem Waits.steps (h : Waits dex c db order) (hs : Steps dex c db next) : Waits dex c next order where
  noted := by
    intro text htext
    obtain ⟨hash, hsame, hchain⟩ := h.noted text htext
    refine ⟨hash, hsame, fun p hp hhash tx hcontent => ?_⟩
    obtain ⟨hw, hby⟩ := hchain p hp hhash tx hcontent
    exact ⟨hw.steps hp hcontent hs, hby⟩
  free := h.free

theorem waits_of_tracked (ht : Tracked v dex c db) (horder : order ∈ db.orders.docs) (hopen : Open order)
    (hreserved : order.status ≠ .pending → ∀ ref p tx, ¬SpentAt c order ref p tx) :
    Waits dex c db order where
  noted := by
    intro text htext
    obtain ⟨hash, hsame⟩ := ht.hashes order horder hopen text htext
    refine ⟨hash, hsame, fun p hp hhash tx hcontent => ?_⟩
    subst hhash hsame
    rcases ht.noted p hp tx hcontent with hnone | hw
    · exact (hnone order horder htext).elim
    · exact ⟨hw, (hw.noted order horder).mp htext⟩
  free := fun hnone => hreserved fun hpending => ht.pending order horder hpending hnone

/-- The other order of a settlement is stored under another id. -/
theorem exists_counterpart (ht : AllMirrored v w.content db) (hw : Waiting dex w.content db p tx)
    (hp : p ∈ positions w c.hashes) (hcontent : w.content p.txHash = some tx)
    (hm : Mirrored v w.content order ref cell terms) :
    ∃ other ∈ db.orders.docs, other.pendingTxHash = some (hashText p.txHash) ∧ other.id ≠ order.id := by
  obtain ⟨r₁, r₂, hrefs⟩ := List.length_eq_two.mp hw.two
  have hpair : (dexRefs dex w.content tx).Nodup := (nodup_inputs hp hcontent).filter _
  rw [hrefs, List.nodup_cons, List.mem_singleton] at hpair
  have hother : ∃ r ∈ dexRefs dex w.content tx, r ≠ ref := by
    by_cases hsame : r₁ = ref
    · exact ⟨r₂, by simp [hrefs], fun h => hpair.1 (hsame.trans h.symm)⟩
    · exact ⟨r₁, by simp [hrefs], hsame⟩
  obtain ⟨r, hr, hne⟩ := hother
  obtain ⟨other, hstored, hout⟩ := hw.stored r hr
  refine ⟨other, hstored, (hw.noted other hstored).mpr ⟨r, hr, hout⟩, fun hid => hne ?_⟩
  obtain ⟨r', cell', terms', hm'⟩ := ht other hstored
  rw [hm'.id, hm.id, hm.outPoint, hout] at hid
  exact outPointText_injective (toOrderId_injective (outPointText_valid _) (outPointText_valid _) hid)

/-- The event of `confirmTrade`, whichever order it was called for. -/
def legsOf (order counterpart : OrderDocument) : OrderDocument × OrderDocument :=
  (if order.direction = .bid then order else counterpart,
    if order.direction = .bid then counterpart else order)

theorem run_confirmTrade_found {hash : Hex} (hfound : (db.orders.filter fun doc =>
      doc.pendingTxHash = order.pendingTxHash && doc.id ≠ order.id).head? = some other)
    {answer : Bool} {next : Db}
    (hemit : run drivers (c.node dex now) (emit v (.tradeConfirmed (tradeConfirmedEvent
      (legsOf order other).1 (legsOf order other).2 hash p.blockNumber (some p.blockHash)))) db =
        (.ok answer, next)) :
    run drivers (c.node dex now) (confirmTrade v order hash (p.response tx)) db = (.ok true, next) := by
  have hread : eval (handle drivers (c.node dex now))
      (request (.findCounterpart order.pendingTxHash order.id)) db = (.ok (some other), db) :=
    congrArg (fun found => (Except.ok found, db)) hfound
  have hevent : eval (handle drivers (c.node dex now)) (emit v (.tradeConfirmed (tradeConfirmedEvent
      (legsOf order other).1 (legsOf order other).2 hash p.blockNumber (some p.blockHash)))) db =
        (.ok answer, next) := hemit
  rw [run, confirmTrade, eval_bind, hread]
  simp only [Position.response]
  change eval (handle drivers (c.node dex now)) (do
    let _ ← emit v (.tradeConfirmed (tradeConfirmedEvent (legsOf order other).1 (legsOf order other).2
      hash p.blockNumber (some p.blockHash)))
    return true) db = _
  rw [eval_bind, hevent]
  rfl

theorem Legs.legsOf (h : Legs v dex c db p tx buy sell buyRef sellRef)
    (hcurrent : current = buy ∨ current = sell) (hother : other = buy ∨ other = sell)
    (hne : other.id ≠ current.id) (hfacts : factsOf current = factsOf order) :
    tradeConfirmedEvent (legsOf order other).1 (legsOf order other).2 (hashText p.txHash) p.blockNumber
      (some p.blockHash) = settlementOf buy sell p := by
  have hdir : order.direction = current.direction := (congrArg OrderFacts.direction hfacts).symm
  unfold Reconciliation.legsOf
  rcases hcurrent with rfl | rfl <;> rcases hother with rfl | rfl
  · exact (hne rfl).elim
  · rw [if_pos (hdir.trans h.bid), if_pos (hdir.trans h.bid)]
    exact settlementOf_congr hfacts.symm rfl
  · rw [if_neg (by rw [hdir, h.ask]; decide), if_neg (by rw [hdir, h.ask]; decide)]
    exact settlementOf_congr rfl hfacts.symm
  · exact (hne rfl).elim

/-- A settlement that the chain has is confirmed for both its orders, or was. -/
theorem run_confirmTrade (ht : Tracked v dex c db) (hd : Deployed v dex) (he : ChainEnforced v dex c)
    (hf : Follows dex c db order) (hw : Waiting dex w.content db p tx)
    (hby : SpentBy dex w.content tx order) (hp : p ∈ positions w c.hashes)
    (hcontent : w.content p.txHash = some tx) (htext : order.pendingTxHash = some (hashText p.txHash)) :
    ∃ next, run drivers (c.node dex now) (confirmTrade v order (hashText p.txHash) (p.response tx)) db =
      (.ok true, next) ∧ Steps dex c db next ∧ Quiet c next order.id := by
  obtain ⟨current, hcurrent, hfate⟩ := hf
  have hfacts : factsOf current = factsOf order := by
    rcases hfate with ⟨hfacts, -⟩ | ⟨q, raw, htold⟩
    · exact hfacts
    · exact htold.facts
  obtain ⟨ref, cell, terms, hm⟩ := ht.mirrored current hcurrent
  obtain ⟨r, hspent⟩ := (hby.congr (outPoint_of_facts hfacts)).spentAt hp hcontent
  obtain rfl : ref = r := outPointText_injective (hm.outPoint.symm.trans hspent.outPoint)
  have hid := id_of_facts hfacts
  have hsame : ∀ {doc}, doc ∈ db.orders.docs → doc.id = order.id → doc = current := fun hdoc h =>
    List.inj_on_of_nodup_map db.orders.nodup hdoc hcurrent (h.trans hid.symm)
  obtain ⟨other, hother, hfound⟩ : ∃ other ∈ db.orders.filter (fun doc =>
      doc.pendingTxHash = order.pendingTxHash && doc.id ≠ order.id), (db.orders.filter fun doc =>
        doc.pendingTxHash = order.pendingTxHash && doc.id ≠ order.id).head? = some other := by
    obtain ⟨doc, hdoc, hpending, hne⟩ := exists_counterpart ht.mirrored hw hp hcontent hm
    have hmem : doc ∈ db.orders.filter (fun doc =>
        doc.pendingTxHash = order.pendingTxHash && doc.id ≠ order.id) := by
      refine Collection.mem_filter.mpr ⟨hdoc, ?_⟩
      simp only [hpending, htext, decide_true, Bool.true_and, decide_eq_true_eq]
      exact hid ▸ hne
    cases hlist : db.orders.filter (fun doc =>
        doc.pendingTxHash = order.pendingTxHash && doc.id ≠ order.id) with
    | nil =>
        rw [hlist] at hmem
        cases hmem
    | cons first rest => exact ⟨first, List.mem_cons_self, rfl⟩
  obtain ⟨hstored, hmatch⟩ := Collection.mem_filter.mp hother
  simp only [htext, Bool.and_eq_true, decide_eq_true_eq] at hmatch
  obtain ⟨hpending, hne⟩ := hmatch
  rcases hfate with ⟨-, hopen⟩ | ⟨q, raw, htold⟩
  · obtain ⟨buy, sell, buyRef, sellRef, hlegs, hmine⟩ := exists_legs ht hd he hcurrent hopen hspent hw.two
    have htheirs : other = buy ∨ other = sell := hlegs.eq_of_id hstored
      ((hlegs.spentBy_iff ht.mirrored hstored).mp ((hw.noted other hstored).mp hpending))
    have hevent := hlegs.legsOf hmine htheirs (hid ▸ hne) hfacts
    have hrecords := hlegs.records ht.mirrored
    have hemit : run drivers (c.node dex now) (emit v (.tradeConfirmed (tradeConfirmedEvent
        (Reconciliation.legsOf order other).1 (Reconciliation.legsOf order other).2 (hashText p.txHash)
        p.blockNumber (some p.blockHash)))) db = (.ok true, withSettled db (settlementOf buy sell p)) := by
      rw [hevent]
      exact hlegs.emitted
    refine ⟨_, run_confirmTrade_found hfound hemit, .single (.record p tx hrecords), ?_⟩
    intro doc hdoc hdocId hdocOpen
    obtain ⟨hbefore, hnot⟩ := hrecords.of_open hdoc hdocOpen
    obtain rfl := hsame hbefore hdocId
    exact (hnot (hspent.spentBy hd hm)).elim
  · obtain ⟨r, hr⟩ := htold.spent
    obtain ⟨rfl, rfl⟩ := hspent.unique (hr.congr (outPoint_of_facts hfacts))
    have hknown := htold.known
    rw [spendId, hw.two, if_neg (by decide)] at hknown
    refine ⟨db, run_confirmTrade_found hfound (run_emit_processed hknown _), .refl, ?_⟩
    intro doc hdoc hdocId hdocOpen
    obtain rfl := hsame hdoc hdocId
    exact (htold.closed hdocOpen).elim

/-- An order that the chain has not spent may be released. -/
theorem release_unspent (hf : Follows dex c db order) (hunspent : ∀ ref p tx, ¬SpentAt c order ref p tx) :
    Step dex c db (Db.revertToLive db order.id) ∧ Quiet c db order.id := by
  obtain ⟨current, hcurrent, ⟨hfacts, hopen⟩ | ⟨p, tx, htold⟩⟩ := hf
  · have hfree : ∀ ref p tx, ¬SpentAt c current ref p tx := fun ref p tx h =>
      hunspent ref p tx (h.congr (outPoint_of_facts hfacts).symm)
    refine ⟨.release current ⟨hcurrent, hopen, hfree, by rw [id_of_facts hfacts]⟩, ?_⟩
    intro doc hdoc hid _
    obtain rfl : doc = current := List.inj_on_of_nodup_map db.orders.nodup hdoc hcurrent
      (hid.trans (id_of_facts hfacts).symm)
    exact hfree
  · obtain ⟨ref, hspent⟩ := htold.spent
    exact (hunspent ref p tx hspent).elim

theorem run_revertIfExpired_unspent (hf : Follows dex c db order)
    (hunspent : ∀ ref p tx, ¬SpentAt c order ref p tx) :
    ∃ next, run drivers (c.node dex now) (revertIfExpired order) db = (.ok (), next) ∧
      Steps dex c db next ∧ Quiet c next order.id := by
  obtain ⟨hstep, hquiet⟩ := release_unspent hf hunspent
  refine ⟨_, InFlightDeadlines.run_revertIfExpired, ?_⟩
  split_ifs
  · exact ⟨.single hstep, hquiet.step hstep⟩
  · exact ⟨.refl, hquiet⟩

/-- The retry of an in-flight order ends: its settlement is recorded, another
spend is, or it is unspent. -/
theorem run_retryOrder (ht : Tracked v dex c db) (hd : Deployed v dex) (he : ChainEnforced v dex c)
    (hopen : Open order) (hf : Follows dex c db order) (hwaits : Waits dex c db order) :
    ∃ next, run drivers (c.node dex now) (retryOrder v order) db = (.ok (), next) ∧
      Steps dex c db next ∧ Quiet c next order.id := by
  cases hpending : order.pendingTxHash with
  | none =>
      obtain ⟨next, hrun, hafter⟩ := run_revertIfExpired_unspent hf (hwaits.free hpending)
      refine ⟨next, ?_, hafter⟩
      rw [run, retryOrder, hpending]
      exact hrun
  | some text =>
      obtain ⟨hash, rfl, hchain⟩ := hwaits.noted text hpending
      have hkey : okOr (hashFrom (hashText hash)) (Failure.other "invalid transaction hash") = .ok hash := by
        rw [hashFrom_hashText]
        rfl
      have hget : eval (handle drivers (c.node dex now)) (request (.getTransaction hash)) db =
          (.ok (c.response hash), db) := rfl
      cases hresponse : c.response hash with
      | some response =>
          obtain ⟨p, tx, hp, hcontent, rfl⟩ := Chain.response_eq_some.mp hresponse
          obtain ⟨hmem, rfl⟩ := Chain.positionOf_eq_some.mp hp
          obtain ⟨hw, hby⟩ := hchain p hmem rfl tx hcontent
          obtain ⟨next, hrun, hafter⟩ := run_confirmTrade ht hd he hf hw hby hmem hcontent hpending
          have hcommitted : (some (p.response tx)).filter (fun tx => tx.status = "committed") =
              some (p.response tx) := rfl
          have hconfirm : eval (handle drivers (c.node dex now))
              (confirmTrade v order (hashText p.txHash) (p.response tx)) db = (.ok true, next) := hrun
          refine ⟨next, ?_, hafter⟩
          rw [run, retryOrder, hpending]
          simp only [eval_bind, eval_require, hkey, hget, hresponse, hcommitted, hconfirm, if_true,
            eval_pure]
      | none =>
          obtain ⟨live, next, hrun, hsteps, hquiet, hsame⟩ := run_check ht hd he hopen hf
          have hcheck : eval (handle drivers (c.node dex now)) (checkOrderLiveness v order) db =
              (.ok live, next) := hrun
          have hretry : run drivers (c.node dex now) (retryOrder v order) db =
              eval (handle drivers (c.node dex now))
                (if live = false then return () else revertIfExpired order) next := by
            rw [run, retryOrder, hpending]
            simp only [eval_bind, eval_require, hkey, hget, hresponse, Option.filter, Option.any_none,
              true_or, if_true, hcheck, Bool.false_eq_true, if_false]
          cases live with
          | false => exact ⟨next, hretry, hsteps, hquiet⟩
          | true =>
              obtain ⟨rfl, hunspent⟩ := hsame rfl
              obtain ⟨after, hrevert, hafter⟩ := run_revertIfExpired_unspent hf hunspent
              exact ⟨after, hretry.trans hrevert, hafter⟩

/-- The pass over the in-flight orders ends, and no open order that it leaves is
spent, if none was that it does not look at. -/
theorem run_retryFailSwaps (ht : Tracked v dex c db) (hd : Deployed v dex) (he : ChainEnforced v dex c)
    (hswept : ∀ order ∈ db.orders.docs, order.status = .live ∨ order.status = .reserved →
      ∀ ref p tx, ¬SpentAt c order ref p tx) :
    ∃ next, run drivers (c.node dex now) (retryFailSwaps v) db = (.ok (), next) ∧ Steps dex c db next ∧
      ∀ order ∈ next.orders.docs, Open order → ∀ ref p tx, ¬SpentAt c order ref p tx := by
  have hread : eval (handle drivers (c.node dex now)) (request (.findOrdersByStatus [.reserved, .pending]))
      db = (.ok (db.orders.filter fun order => order.status ∈ [OrderStatus.reserved, .pending]), db) := rfl
  have hlisted : ∀ {doc}, doc ∈ db.orders.filter (fun order =>
      order.status ∈ [OrderStatus.reserved, .pending]) ↔
        doc ∈ db.orders.docs ∧ (doc.status = .reserved ∨ doc.status = .pending) := by
    intro doc
    simp [Collection.mem_filter]
  obtain ⟨next, hrun, hsteps, hquiet⟩ : ∃ next, run drivers (c.node dex now) (forEach (retryOrder v)
      (db.orders.filter fun order => order.status ∈ [OrderStatus.reserved, .pending])) db =
        (.ok (), next) ∧ Steps dex c db next ∧ ∀ order ∈ db.orders.filter
          (fun order => order.status ∈ [OrderStatus.reserved, .pending]), Quiet c next order.id := by
    refine run_forEach fun order horder s hs => ?_
    obtain ⟨hstored, hstatus⟩ := hlisted.mp horder
    have hopen : Open order := Or.inr hstatus
    have hwaits : Waits dex c db order := waits_of_tracked ht hstored hopen fun hne =>
      hswept order hstored (Or.inr (hstatus.resolve_right hne))
    exact run_retryOrder (ht.steps hd hs) hd he hopen ((follows_refl hstored hopen).steps hs)
      (hwaits.steps hs)
  refine ⟨next, ?_, hsteps, ?_⟩
  · rw [run, retryFailSwaps, eval_bind, hread]
    exact hrun
  · intro order horder hopen
    obtain ⟨old, hold, -, -, rfl | hunspent⟩ := open_of_steps hsteps horder hopen
    · rcases hopen with hlive | hflight
      · exact hswept order hold (Or.inl hlive)
      · exact hquiet order (hlisted.mpr ⟨hold, hflight⟩) order horder rfl (Or.inr hflight)
    · exact hunspent

/-- The spend of an order is recorded in the way that the contract allowed it. -/
structure Reconciled (v : ChainVerification) (c : Chain w) (db : Db) (order : OrderDocument)
    (p : Position) (tx : RawTx) (current : OrderDocument) : Prop where
  facts : factsOf current = factsOf order
  settlement : current.settlementTxHash = some (hashText p.txHash)
  branch : ∃ ref cell terms, Mirrored v w.content order ref cell terms ∧
    ((current.status = .canceled ∧ Cancels (resolvedTx v.hash w.content tx) (cell.toCell v.hash) terms) ∨
      (current.status = .filled ∧ Settles (resolvedTx v.hash w.content tx) (cell.toCell v.hash) terms ∧
        HasTrade db p))

theorem Told.reconciled (h : Told dex c db order current p tx) (hd : Deployed v dex)
    (he : ChainEnforced v dex c) (hm : Mirrored v w.content order ref cell terms) :
    Reconciled v c db order p tx current where
  facts := h.facts
  settlement := h.settlement
  branch := by
    refine ⟨ref, cell, terms, hm, ?_⟩
    obtain ⟨r, hspent⟩ := h.spent
    obtain rfl : ref = r := outPointText_injective (hm.outPoint.symm.trans hspent.outPoint)
    have hstatus := h.status
    rcases branch_of_count hm hd he hspent with ⟨hrefs, hc⟩ | ⟨htwo, hs⟩
    · rw [hrefs, List.length_singleton, if_pos rfl] at hstatus
      exact Or.inl ⟨hstatus, hc⟩
    · rw [htwo, if_neg (by decide)] at hstatus
      exact Or.inr ⟨hstatus, hs, h.trade (by rw [htwo]; decide)⟩

end

/-- On a chain that stands still, one sweep and one pass over the in-flight
orders bring the book up to date. They end without a failure. The orders left
open are those that the chain has not spent. Every other order that was open is
closed as the contract let it be spent, by the transaction that spent it, with a
confirmed trade for a settlement. The documents that were closed stay as they
are. -/
theorem book_catches_up {w : World} (c : Chain w) (dex : Script) (now : ℕ) (drivers : Drivers)
    (v : ChainVerification) (db : Db) (hd : Deployed v dex) (he : ChainEnforced v dex c)
    (ht : Tracked v dex c db) :
    ∃ next, run drivers (c.node dex now) (do sweepTrackedOrders v; retryFailSwaps v) db =
        (.ok (), next) ∧
      (∀ order ∈ next.orders.docs, Open order → ∀ ref p tx, ¬SpentAt c order ref p tx) ∧
      (∀ order ∈ db.orders.docs, Open order → ∃ current ∈ next.orders.docs,
        (factsOf current = factsOf order ∧ Open current) ∨
          ∃ p tx, (∃ ref, SpentAt c order ref p tx) ∧ Reconciled v c next order p tx current) ∧
      (∀ order ∈ db.orders.docs, ¬Open order → order ∈ next.orders.docs) ∧
      Tracked v dex c next := by
  obtain ⟨swept, hsweep, hsweepSteps, hunspent⟩ := @run_sweep _ _ _ now drivers _ _ ht hd he
  obtain ⟨next, hretry, hretrySteps, hquiet⟩ :=
    @run_retryFailSwaps _ _ _ now drivers _ _ (ht.steps hd hsweepSteps) hd he hunspent
  have hsteps : Steps dex c db next := hsweepSteps.trans hretrySteps
  have hfirst : eval (handle drivers (c.node dex now)) (sweepTrackedOrders v) db = (.ok (), swept) := hsweep
  refine ⟨next, ?_, hquiet, fun order horder hopen => ?_, fun order horder hclosed =>
    kept_of_steps hsteps horder hclosed, ht.steps hd hsteps⟩
  · rw [run, eval_bind, hfirst]
    exact hretry
  · obtain ⟨ref, cell, terms, hm⟩ := ht.mirrored order horder
    obtain ⟨current, hcurrent, hopen | ⟨p, tx, htold⟩⟩ := (follows_refl horder hopen).steps hsteps
    · exact ⟨current, hcurrent, Or.inl hopen⟩
    · exact ⟨current, hcurrent, Or.inr ⟨p, tx, htold.spent, Told.reconciled htold hd he hm⟩⟩

section
open SettlementBuilder

def exampleSpender : Position := ⟨2, exampleHash 22, 0, exampleHash 11⟩

theorem exampleBuy_spent : SpentAt exampleChain exampleBuy ⟨exampleHash 5, 0⟩ exampleSpender
    Acceptance.exampleSettlement :=
  ⟨rfl, by decide, rfl, by decide⟩

theorem exampleSell_spent : SpentAt exampleChain exampleSell ⟨exampleHash 5, 1⟩ exampleSpender
    Acceptance.exampleSettlement :=
  ⟨rfl, by decide, rfl, by decide⟩

theorem exampleSettlement_refs : dexRefs exampleDex exampleWorld.content Acceptance.exampleSettlement =
    [⟨exampleHash 5, 0⟩, ⟨exampleHash 5, 1⟩] := by decide

theorem exampleSpend_new (id : String) : exampleOpen.processed
    (spendId exampleDex exampleWorld.content Acceptance.exampleSettlement exampleSpender id) = false := by
  rw [spendId, exampleSettlement_refs, if_neg (by decide)]
  change exampleOpen.processed exampleSettled.eventId = false
  rw [Bool.eq_false_iff, exampleOpen, ne_eq, processed_recorded, not_or]
  refine ⟨by decide +kernel, ?_⟩
  change exampleIndexed.processed exampleSettled.eventId ≠ true
  rw [exampleIndexed, ne_eq, processed_recorded, not_or]
  exact ⟨by decide +kernel, by decide⟩

theorem exampleOpen_tracked : Tracked exampleVerification exampleDex exampleChain exampleOpen where
  mirrored := exampleOpen_mirrored
  awaits := by
    intro order horder _ ref p tx hspent
    have hsame : p = exampleSpender ∧ tx = Acceptance.exampleSettlement := by
      rcases exampleOpen_docs.mp horder with rfl | rfl
      · exact hspent.unique exampleBuy_spent
      · exact hspent.unique exampleSell_spent
    obtain ⟨rfl, rfl⟩ := hsame
    refine ⟨by decide, fun r hr => ?_, exampleSpend_new _⟩
    rw [exampleSettlement_refs, List.mem_cons, List.mem_singleton] at hr
    rcases hr with rfl | rfl
    · exact ⟨exampleBuy, exampleOpen_docs.mpr (Or.inl rfl), rfl, Or.inl rfl⟩
    · exact ⟨exampleSell, exampleOpen_docs.mpr (Or.inr rfl), rfl, Or.inl rfl⟩
  noted := by
    refine fun p hp tx hcontent => Or.inl fun order horder => ?_
    rcases exampleOpen_docs.mp horder with rfl | rfl <;> exact (Option.some_ne_none _).symm
  hashes := by
    intro order horder _ text htext
    rcases exampleOpen_docs.mp horder with rfl | rfl <;> cases htext
  pending := by
    intro order horder hpending
    rcases exampleOpen_docs.mp horder with rfl | rfl <;> cases hpending

/-- The two orders are found spent by the settlement, and filled. -/
theorem book_catches_up_example : ∃ next, run exampleDrivers (exampleChain.node exampleDex 0)
    (do sweepTrackedOrders exampleVerification; retryFailSwaps exampleVerification) exampleOpen =
      (.ok (), next) ∧ ∃ current ∈ next.orders.docs, factsOf current = factsOf exampleBuy ∧
        ¬Open current ∧ current.settlementTxHash = some (hashText (exampleHash 11)) := by
  obtain ⟨next, hrun, hquiet, hfates, -⟩ := book_catches_up exampleChain exampleDex 0 exampleDrivers
    exampleVerification exampleOpen exampleVerification_deployed exampleChain_enforced exampleOpen_tracked
  refine ⟨next, hrun, ?_⟩
  obtain ⟨current, hcurrent, hfate⟩ := hfates exampleBuy (exampleOpen_docs.mpr (Or.inl rfl)) (Or.inl rfl)
  have hopen : ∀ hfacts : factsOf current = factsOf exampleBuy, ¬Open current := fun hfacts h =>
    hquiet current hcurrent h _ _ _ (exampleBuy_spent.congr (outPoint_of_facts hfacts))
  rcases hfate with ⟨hfacts, h⟩ | ⟨p, tx, ⟨ref, hspent⟩, hrec⟩
  · exact (hopen hfacts h).elim
  · obtain ⟨rfl, -⟩ := hspent.unique exampleBuy_spent
    exact ⟨current, hcurrent, hrec.facts, hopen hrec.facts, hrec.settlement⟩

end

end CkbDex.Reconciliation
