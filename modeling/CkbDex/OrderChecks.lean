import CkbDex.RecordedSpends

/-!
# A look at each open order

A look at an order finds it unspent, or records what spent it. The sweep looks at
every open order in turn.
-/
namespace CkbDex.Reconciliation
open Checked CellContext OrderLock OrderLockRules Documents BotEvents ChainCells Collections
open Projection Programs Operations Chains EventVerification IngestionSteps ProjectionSteps
open CkbDex.Bot Acceptance SpendClassification PaidTrades Observation SpentOrders

section
variable {w : World} {c : Chain w} {dex : Script} {now : ℕ} {drivers : Drivers} {v : ChainVerification}
  {db next : Db} {order current other buy sell : OrderDocument} {ref buyRef sellRef : CellRef}
  {cell : CellOutput} {terms : OrderArgs} {p : Position} {tx : RawTx}

/-- The branch of the contract that a transaction took, by its DEX inputs. -/
theorem branch_of_count (hm : Mirrored v w.content order ref cell terms) (hd : Deployed v dex)
    (he : ChainEnforced v dex c) (hspent : SpentAt c order ref p tx) :
    (dexRefs dex w.content tx = [ref] ∧ Cancels (resolvedTx v.hash w.content tx) (cell.toCell v.hash) terms) ∨
      ((dexRefs dex w.content tx).length = 2 ∧
        Settles (resolvedTx v.hash w.content tx) (cell.toCell v.hash) terms) := by
  have henforced := he p hspent.found tx hspent.content
  rcases hm.branch hd henforced hspent.input with hc | hs
  · exact Or.inl ⟨hm.single_of_cancels hd henforced hspent.input hc, hc⟩
  · have hlock : sameIdentity dex (cell.toCell v.hash).lock = true := hm.identity hd
    exact Or.inr ⟨length_dexRefs hlock hs henforced, hs⟩

theorem run_check_spent (hm : Mirrored v w.content order ref cell terms) (hspent : SpentAt c order ref p tx)
    (hopen : Open order) {next : Db}
    (hrecord : run drivers (c.node dex now) (recordSpend v order p.txHash (p.response tx)) db =
      (.ok (), next)) :
    run drivers (c.node dex now) (checkOrderLiveness v order) db = (.ok false, next) := by
  have hreconcile : eval (handle drivers (c.node dex now)) (reconcileSpentOrder v order) db =
      (.ok (), next) :=
    (run_reconcileSpentOrder hm hspent.found hspent.content hspent.input hopen.ne_terminal).trans hrecord
  rw [run_checkOrderLiveness hm.outPoint, isLive_of_spent hspent.found hspent.content hspent.input, run,
    eval_bind, hreconcile]
  rfl

/-- The spend of an open order is recorded. -/
theorem run_check_open (ht : Tracked v dex c db) (hd : Deployed v dex) (he : ChainEnforced v dex c)
    (hm : Mirrored v w.content order ref cell terms) (hopen : Open order)
    (hcurrent : current ∈ db.orders.docs) (hfacts : factsOf current = factsOf order)
    (hcurrentOpen : Open current) (hspent : SpentAt c order ref p tx) :
    ∃ next, run drivers (c.node dex now) (checkOrderLiveness v order) db = (.ok false, next) ∧
      Records dex c p tx db next := by
  have hspent' : SpentAt c current ref p tx := hspent.congr (outPoint_of_facts hfacts)
  have hawaits := ht.awaits current hcurrent hcurrentOpen ref p tx hspent'
  rcases branch_of_count hm hd he hspent with ⟨hrefs, hc⟩ | ⟨htwo, hs⟩
  · have hby : CancelledBy v c db order current ref cell terms p tx := {
      mirrored := hm
      stored := by
        rw [← id_of_facts hfacts]
        exact Collection.find?_of_mem hcurrent
      maker := congrArg OrderFacts.ownerLockHash hfacts
      found := hspent.found
      content := hspent.content
      spends := hspent.input
      cancels := hc
      deep := hawaits.deep }
    have hnew : db.processed (cancellationOf order p).eventId = false := by
      have hnew := hawaits.new
      rw [spendId, hrefs, List.length_singleton, if_pos rfl, id_of_facts hfacts] at hnew
      exact hnew
    exact ⟨_, hby.observed hopen.ne_terminal hcurrentOpen.canTransition.2 hnew,
      records_cancelled ht.mirrored hby hfacts hcurrentOpen hrefs⟩
  · obtain ⟨buy, sell, buyRef, sellRef, hlegs, -⟩ :=
      exists_legs ht hd he hcurrent hcurrentOpen hspent' htwo
    refine ⟨_, run_check_spent hm hspent hopen ?_, hlegs.records ht.mirrored⟩
    refine (run_recordSpend_of_settles hm hs).trans ?_
    rw [run_confirmExternalSettlement, hlegs.settledPair hd ht.mirrored]
    have hemit : eval (handle drivers (c.node dex now))
        (emit v (.tradeConfirmed (settlementOf buy sell p))) db = _ := hlegs.emitted
    change eval (handle drivers (c.node dex now)) (do
      let _ ← emit v (.tradeConfirmed (settlementOf buy sell p))
      return ()) db = _
    rw [eval_bind, hemit]
    rfl

/-- A spend that is recorded is not recorded again. -/
theorem run_check_told (hd : Deployed v dex) (he : ChainEnforced v dex c)
    (hm : Mirrored v w.content order ref cell terms) (hopen : Open order)
    (hspent : SpentAt c order ref p tx)
    (hknown : db.processed (spendId dex w.content tx p order.id) = true) :
    run drivers (c.node dex now) (checkOrderLiveness v order) db = (.ok false, db) := by
  have hemit : ∀ event : BotEvent, event.eventId = spendId dex w.content tx p order.id →
      eval (handle drivers (c.node dex now)) (do
        let _ ← emit v event
        return ()) db = (.ok (), db) := by
    intro event hid
    have hrun : eval (handle drivers (c.node dex now)) (emit v event) db = (.ok true, db) :=
      run_emit_processed (hid ▸ hknown) _
    rw [eval_bind, hrun]
    rfl
  refine run_check_spent hm hspent hopen ?_
  rcases branch_of_count hm hd he hspent with ⟨hrefs, hc⟩ | ⟨htwo, hs⟩
  · refine (run_recordSpend_of_cancels hm hc).trans (hemit _ ?_)
    rw [spendId, hrefs, List.length_singleton, if_pos rfl]
    rfl
  · refine (run_recordSpend_of_settles hm hs).trans ?_
    rw [run_confirmExternalSettlement]
    cases Bot.settledPair (db.findOrders (tx.inputs.map fun input => toOrderId (outPointText input))) with
    | none => rfl
    | some pair =>
        refine hemit _ ?_
        rw [spendId, htwo, if_neg (by decide)]
        rfl

theorem run_findSpendingTx_none
    (hunspent : ∀ p ∈ positions w c.hashes, ∀ tx, w.content p.txHash = some tx → ref ∉ tx.inputs)
    (records : List TxRecord) :
    run drivers (c.node dex now) (findSpendingTx (outPointText ref) records) db = (.ok none, db) := by
  induction records with
  | nil => rfl
  | cons record records ih =>
      obtain ⟨txHash, isInput⟩ := record
      have hget : eval (handle drivers (c.node dex now)) (request (.getTransaction txHash)) db =
          (.ok (c.response txHash), db) := rfl
      have hnone : (c.response txHash).filter (fun tx =>
          tx.status = "committed" && spendsOutPoint tx.transaction (outPointText ref)) = none := by
        cases hresponse : c.response txHash with
        | none => rfl
        | some response =>
            obtain ⟨q, raw, hq, hraw, rfl⟩ := Chain.response_eq_some.mp hresponse
            obtain ⟨hmem, rfl⟩ := Chain.positionOf_eq_some.mp hq
            refine Option.filter_some_neg (Bool.eq_false_iff.mpr fun hspends => ?_)
            exact hunspent q hmem raw hraw (spendsOutPoint_iff.mp (Bool.and_eq_true_iff.mp hspends).2)
      rw [run, findSpendingTx]
      cases isInput with
      | false => exact ih
      | true =>
          simp only [Bool.true_eq_false, if_false, eval_bind, hget, hnone]
          exact ih

/-- A look at an unspent order changes nothing. -/
theorem run_check_unspent (hm : Mirrored v w.content order ref cell terms) (hopen : Open order)
    (hunspent : ∀ p tx, ¬SpentAt c order ref p tx) :
    run drivers (c.node dex now) (checkOrderLiveness v order) db = (.ok (c.isLive ref), db) := by
  rw [run_checkOrderLiveness hm.outPoint]
  cases hlive : c.isLive ref with
  | true => rfl
  | false =>
      have hfind : eval (handle drivers (c.node dex now))
          (findSpendingTx order.outPoint (c.records cell.lock)) db = (.ok none, db) := by
        rw [hm.outPoint]
        refine run_findSpendingTx_none (fun p hp tx hcontent hmem => ?_) _
        exact hunspent p tx ⟨hm.outPoint, hp, hcontent, hmem⟩
      have hreconcile : eval (handle drivers (c.node dex now)) (reconcileSpentOrder v order) db =
          (.ok (), db) :=
        eval_reconcileSpentOrder hm hopen.ne_terminal hfind
      simp only [Bool.false_eq_true, if_false, run, eval_bind, hreconcile, eval_pure]

/-- A look at an order that was open ends, and leaves it recorded or unspent. -/
theorem run_check (ht : Tracked v dex c db) (hd : Deployed v dex) (he : ChainEnforced v dex c)
    (hopen : Open order) (hf : Follows dex c db order) :
    ∃ live next, run drivers (c.node dex now) (checkOrderLiveness v order) db = (.ok live, next) ∧
      Steps dex c db next ∧ Quiet c next order.id ∧
      (live = true → next = db ∧ ∀ ref p tx, ¬SpentAt c order ref p tx) := by
  obtain ⟨current, hcurrent, hfate⟩ := hf
  have hfacts : factsOf current = factsOf order := by
    rcases hfate with ⟨hfacts, -⟩ | ⟨p, tx, htold⟩
    · exact hfacts
    · exact htold.facts
  obtain ⟨ref, cell, terms, hmc⟩ := ht.mirrored current hcurrent
  have hm : Mirrored v w.content order ref cell terms := Mirrored.congr hmc hfacts.symm
  have hsame : ∀ {doc}, doc ∈ db.orders.docs → doc.id = order.id → doc = current := fun hdoc hid =>
    List.inj_on_of_nodup_map db.orders.nodup hdoc hcurrent (hid.trans (id_of_facts hfacts).symm)
  by_cases hspent : ∃ p tx, SpentAt c order ref p tx
  · obtain ⟨p, tx, hspent⟩ := hspent
    rcases hfate with ⟨-, hcurrentOpen⟩ | ⟨q, raw, htold⟩
    · obtain ⟨next, hrun, hrecords⟩ :=
        run_check_open ht hd he hm hopen hcurrent hfacts hcurrentOpen hspent
      refine ⟨false, next, hrun, .single (.record p tx hrecords), ?_, fun h => by cases h⟩
      intro doc hdoc hid hdocOpen
      obtain ⟨hstored, hnot⟩ := hrecords.of_open hdoc hdocOpen
      obtain rfl := hsame hstored hid
      exact (hnot ((hspent.congr (outPoint_of_facts hfacts)).spentBy hd hmc)).elim
    · obtain ⟨r, hr⟩ := htold.spent
      obtain ⟨rfl, rfl⟩ := hspent.unique hr
      refine ⟨false, db, run_check_told hd he hm hopen hspent htold.known, .refl, ?_, fun h => by cases h⟩
      intro doc hdoc hid hdocOpen
      obtain rfl := hsame hdoc hid
      exact (htold.closed hdocOpen).elim
  · have hunspent : ∀ r p tx, ¬SpentAt c order r p tx := by
      intro r p tx h
      obtain rfl : r = ref := outPointText_injective (h.outPoint.symm.trans hm.outPoint)
      exact hspent ⟨p, tx, h⟩
    refine ⟨c.isLive ref, db, run_check_unspent hm hopen (hunspent ref), .refl, ?_,
      fun _ => ⟨rfl, hunspent⟩⟩
    intro doc hdoc hid _ r p tx h
    obtain rfl := hsame hdoc hid
    exact hunspent r p tx (h.congr (outPoint_of_facts hfacts).symm)

theorem run_forEach {f : OrderDocument → Proc Unit} {orders : List OrderDocument}
    (hstep : ∀ order ∈ orders, ∀ s, Steps dex c db s → ∃ t,
      run drivers (c.node dex now) (f order) s = (.ok (), t) ∧ Steps dex c s t ∧ Quiet c t order.id) :
    ∃ next, run drivers (c.node dex now) (forEach f orders) db = (.ok (), next) ∧ Steps dex c db next ∧
      ∀ order ∈ orders, Quiet c next order.id := by
  induction orders generalizing db with
  | nil => exact ⟨db, rfl, .refl, fun _ h => by cases h⟩
  | cons order orders ih =>
      obtain ⟨s, hrun, hsteps, hquiet⟩ := hstep order List.mem_cons_self db .refl
      obtain ⟨next, hrest, hrestSteps, hrestQuiet⟩ := @ih s fun o ho t ht =>
        hstep o (List.mem_cons_of_mem _ ho) t (hsteps.trans ht)
      have hfirst : eval (handle drivers (c.node dex now)) (f order) db = (.ok (), s) := hrun
      refine ⟨next, ?_, hsteps.trans hrestSteps, ?_⟩
      · rw [run, forEach, eval_bind, hfirst]
        exact hrest
      · intro o ho
        rcases List.mem_cons.mp ho with rfl | ho
        · exact hquiet.steps hrestSteps
        · exact hrestQuiet o ho

/-- The sweep ends, and no order that it leaves LIVE or RESERVED is spent. -/
theorem run_sweep (ht : Tracked v dex c db) (hd : Deployed v dex) (he : ChainEnforced v dex c) :
    ∃ next, run drivers (c.node dex now) (sweepTrackedOrders v) db = (.ok (), next) ∧
      Steps dex c db next ∧ ∀ order ∈ next.orders.docs, order.status = .live ∨ order.status = .reserved →
        ∀ ref p tx, ¬SpentAt c order ref p tx := by
  have hread : eval (handle drivers (c.node dex now)) (request (.findOrdersByStatus [.live, .reserved])) db =
      (.ok (db.orders.filter fun order => order.status ∈ [OrderStatus.live, .reserved]), db) := rfl
  have hlisted : ∀ {doc}, doc ∈ db.orders.filter (fun order =>
      order.status ∈ [OrderStatus.live, .reserved]) ↔
        doc ∈ db.orders.docs ∧ (doc.status = .live ∨ doc.status = .reserved) := by
    intro doc
    simp [Collection.mem_filter]
  obtain ⟨next, hrun, hsteps, hquiet⟩ : ∃ next, run drivers (c.node dex now)
      (forEach (fun order => do
        let _ ← checkOrderLiveness v order
        return ()) (db.orders.filter fun order => order.status ∈ [OrderStatus.live, .reserved])) db =
        (.ok (), next) ∧ Steps dex c db next ∧ ∀ order ∈ db.orders.filter
          (fun order => order.status ∈ [OrderStatus.live, .reserved]), Quiet c next order.id := by
    refine run_forEach fun order horder s hs => ?_
    obtain ⟨hstored, hstatus⟩ := hlisted.mp horder
    have hopen : Open order := hstatus.imp_right Or.inl
    obtain ⟨live, t, hcheck, hsteps, hquiet, -⟩ :=
      run_check (ht.steps hd hs) hd he hopen ((follows_refl hstored hopen).steps hs)
    have hlook : eval (handle drivers (c.node dex now)) (checkOrderLiveness v order) s =
        (.ok live, t) := hcheck
    refine ⟨t, ?_, hsteps, hquiet⟩
    rw [run, eval_bind, hlook]
    rfl
  refine ⟨next, ?_, hsteps, ?_⟩
  · rw [run, sweepTrackedOrders, eval_bind, hread]
    exact hrun
  · intro order horder hstatus
    have hopen : Open order := hstatus.imp_right Or.inl
    obtain ⟨old, hold, -, -, rfl | hunspent⟩ := open_of_steps hsteps horder hopen
    · exact hquiet order (hlisted.mpr ⟨hold, hstatus⟩) order horder rfl hopen
    · exact hunspent

end

end CkbDex.Reconciliation
