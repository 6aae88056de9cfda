import CkbDex.ScanIndexing

/-!
# The scan cursor

A scan indexes every order cell of its range or does not save its checkpoint,
as long as what the chain has is found and the cursor is a checkpoint. So every
live order cell below the cursor is indexed, whatever fails or is restarted in
between.
-/
namespace CkbDex.ScanCursor
open Interleaving hiding Step
open CellContext OrderLock Text Documents Projection Programs Operations Chains EventVerification
open IngestionSteps ProjectionSteps CkbDex.Bot GroundedDocuments Acceptance Observation
open ExactlyOnce Interference ScanCalls

/-- The cursor is one past a checkpoint, or zero. -/
theorem cursor_of_run {drivers : Drivers} {node : Node} {db : Db} {n : ℤ}
    (h : run drivers node resolveScanCursor db = (.ok n, db))
    (hbasis : db.checkpoints.docs = [] → db.orders.docs = []) :
    n = 0 ∨ ∃ checkpoint ∈ db.checkpoints.docs, n = checkpoint.blockNumber + 1 := by
  have hnewest : eval (handle drivers node) (request (.newestCheckpoints 1)) db =
      (.ok (Db.newestCheckpoints db 1), db) := rfl
  rw [run, resolveScanCursor, eval_bind, hnewest] at h
  cases hcheckpoints : Db.newestCheckpoints db 1 with
  | cons checkpoint rest =>
      rw [hcheckpoints] at h
      have hmem : checkpoint ∈ db.checkpoints.docs :=
        mem_newestCheckpoints (by rw [hcheckpoints]; exact List.mem_cons_self)
      exact Or.inr ⟨checkpoint, hmem, (Except.ok.inj (congrArg Prod.fst h)).symm⟩
  | nil =>
      have hnone : db.checkpoints.docs = [] := by
        have hlength := congrArg List.length hcheckpoints
        simpa [Db.newestCheckpoints] using hlength
      have hlatest : eval (handle drivers node) (request .latestOrder) db = (.ok none, db) := by
        change (Except.ok (Db.latestOrder db), db) = _
        rw [Db.latestOrder, hbasis hnone]
        rfl
      rw [hcheckpoints] at h
      simp only [eval_bind, hlatest] at h
      exact Or.inl (Except.ok.inj (congrArg Prod.fst h)).symm

/-- Through every run of scans in step, a live order cell below the cursor is
indexed, unless the cursor is the newest order's. -/
theorem cursor_passes_indexed_orders {w : World} {config : Config} {drivers : Drivers} {dex : Script}
    {node : Node} {c : Chain w} {initial : Db}
    {s : Moment w × Option (Prog Op (fun op => Answer (Res op)) (Except Failure Unit))}
    {cell : IndexedCell} {terms : OrderArgs} {p : Position} {tx : RawTx} {n : ℤ}
    (hconfigured : Configured config.verification dex) (hempty : initial.checkpoints.docs = [])
    (hrecorded : Recorded initial)
    (hrun : ScanRuns config drivers dex InStep (⟨c, initial, none⟩, none) s)
    (hcursor : run drivers node resolveScanCursor s.1.db = (.ok n, s.1.db))
    (hbasis : s.1.db.checkpoints.docs = [] → s.1.db.orders.docs = [])
    (horder : OrderCell config.verification dex s.1.chain cell terms p tx)
    (hlive : s.1.chain.isLive cell.outPoint = true) (hbelow : (p.blockNumber : ℤ) < n) :
    Indexed s.1.db cell := by
  have hinitial : Valid config.verification dex ⟨c, initial, none⟩ := by
    refine ⟨fun checkpoint hmem => ?_, hrecorded, nofun⟩
    rw [hempty] at hmem
    cases hmem
  have hvalid : Valid config.verification dex s.1 := by
    refine run_safe (S := scanning drivers dex config.verification) Grows.refl Grows.trans
      (fun _ _ hgrows => hgrows.later.valid) (fun _ _ hlater => hlater.valid) ?_ hrun hinitial rfl
    rintro s p t ⟨rfl, hchain, hdb, hsince⟩ hs
    have ht : Valid config.verification dex t := by
      obtain ⟨chain, db, since⟩ := t
      obtain rfl := hchain
      obtain rfl := hdb
      obtain rfl := hsince
      exact ⟨hs.covered, hs.recorded, nofun⟩
    exact ⟨ht, safe_scanForPendingOrders hconfigured ht hsince⟩
  rcases cursor_of_run hcursor hbasis with rfl | ⟨checkpoint, hmem, rfl⟩
  · omega
  exact (hvalid.covered checkpoint hmem).2 cell terms p tx horder hlive (by omega)

section
variable {w : World} {drivers : Drivers} {dex : Script} {permitted : Moment w → Op → Reply w → Prop}
  {s t : Moment w} {config : Config} {α : Type}

theorem performs_chain {d : Chain w} {op : Op} (hpast : d.hashes <+: s.chain.hashes)
    (hpermitted : permitted s op (.chain d)) :
    Performs drivers dex permitted op s (handle drivers (d.node dex 0) op s.db).1
      ⟨s.chain, (handle drivers (d.node dex 0) op s.db).2, sinceAfter s.since (.chain d)⟩ := by
  refine ⟨.chain d, fun e he => ?_, hpermitted, rfl, rfl, rfl⟩
  obtain rfl := Option.some_inj.mp he
  exact hpast

/-- Queries that the chain itself answers, before any order is stored. -/
theorem calls_queries {d : Chain w} {db : Db} {x : Proc α} {r : Except Failure α}
    (hpermitted : ∀ s op reply, InStep s op reply → permitted s op reply)
    (hnone : db.orders.docs = []) (hx : Only (fun op => isQuery op = true) x)
    (h : run drivers (d.node dex 0) x db = (r, db)) :
    Calls (Performs drivers dex permitted) (⟨d, db, some d⟩, x.run) (⟨d, db, some d⟩, .pure r) := by
  have general : ∀ p : Prog Op (fun op => Answer (Res op)) (Except Failure α),
      p.Only (fun op => isQuery op = true) →
      Calls (Performs drivers dex permitted) (⟨d, db, some d⟩, p)
        (⟨d, db, some d⟩, .pure (p.eval (handle drivers (d.node dex 0)) db).1) := by
    intro p
    induction p with
    | pure r => exact fun _ => .refl
    | call op next ih =>
        intro hp
        have hdb : (handle drivers (d.node dex 0) op db).2 = db := handle_query hp.1 db
        have hstep : InStep ⟨d, db, some d⟩ op (.chain d) := by
          cases op with
          | getTip => rintro base ⟨⟩; exact Nat.le_succ _
          | findCells first last => exact id
          | getTransaction txHash => exact id
          | latestOrder => exact hnone
          | _ => trivial
        have hperformed : Performs drivers dex permitted op ⟨d, db, some d⟩
            (handle drivers (d.node dex 0) op db).1
            ⟨d, (handle drivers (d.node dex 0) op db).2, some d⟩ :=
          performs_chain (List.prefix_refl _) (hpermitted _ _ _ hstep)
        rw [hdb] at hperformed
        have hrest := ih (handle drivers (d.node dex 0) op db).1 (hp.2 _)
        rw [Prog.eval, hdb]
        have hcall : Call (Performs drivers dex permitted) (⟨d, db, some d⟩, .call op next)
            (⟨d, db, some d⟩, next (handle drivers (d.node dex 0) op db).1) := by
          apply Call.perform
          exact hperformed
        exact hrest.head hcall
  have hcalls := general x.run hx
  rw [show x.run.eval (handle drivers (d.node dex 0)) db = (r, db) from h] at hcalls
  exact hcalls

theorem calls_queries_ok {d : Chain w} {db : Db} {β : Type} {x : Proc α} {a : α}
    (hpermitted : ∀ s op reply, InStep s op reply → permitted s op reply)
    (hnone : db.orders.docs = []) (hx : Only (fun op => isQuery op = true) x)
    (h : run drivers (d.node dex 0) x db = (.ok a, db)) (f : α → Proc β) :
    Calls (Performs drivers dex permitted) (⟨d, db, some d⟩, (x >>= f).run)
      (⟨d, db, some d⟩, (f a).run) :=
  calls_bind (calls_queries hpermitted hnone hx h) (ExceptT.bindCont f)

/-- A scan that is left to itself. -/
theorem scanRuns_of_calls {p : Prog Op (fun op => Answer (Res op)) (Except Failure Unit)} {c : Chain w}
    {db : Db} (h : Calls (Performs drivers dex permitted)
      (⟨c, db, none⟩, (scanForPendingOrders config).run) (t, p)) :
    ScanRuns config drivers dex permitted (⟨c, db, none⟩, none) (t, some p) := by
  have hstart : Interference.Step (Grows (w := w)) (Performs drivers dex permitted) (Starts config)
      (⟨c, db, none⟩, none) (⟨c, db, none⟩, some (scanForPendingOrders config).run) :=
    .start _ _ _ _ ⟨rfl, rfl, rfl, rfl⟩
  exact (run_of_calls h).head hstart

end

section
open OrderLock SettlementBuilder
open OrderLockRules hiding exampleBuy exampleSell
open TerminalStatuses (exampleConfig exampleLate)

theorem exampleSell_order : OrderCell exampleVerification exampleDex exampleLate exampleSellIndexed
    (exampleOrder sideSell (exampleHash 2)) ⟨1, exampleHash 21, 0, exampleHash 5⟩ exampleCreation := by
  constructor <;> first | rfl | decide

theorem exampleSell_late : Indexable exampleVerification exampleLate exampleSellIndexed
    (exampleOrder sideSell (exampleHash 2)) (exampleOwner 2) ⟨1, exampleHash 21, 0, exampleHash 5⟩
    exampleCreation := by
  constructor <;> first | rfl | decide

/-- The database when the scan has indexed the sell order. -/
def exampleSold : Db :=
  recorded (Db.empty.putOrder exampleSell) (applied exampleSellConfirmed.eventId)
    exampleSellConfirmed.eventId

theorem exampleSold_applied : applyEvent exampleDrivers (.orderConfirmed exampleSellConfirmed) Db.empty =
    .ok (applied exampleSellConfirmed.eventId, Db.empty.putOrder exampleSell) := by
  change applyOrderConfirmed exampleDrivers exampleSellConfirmed Db.empty = _
  refine applyOrderConfirmed_eq_ok.mpr (Or.inr ⟨rfl, ?_, ?_, ?_, rfl, rfl⟩)
  · exact exampleDrivers_reads.decimal128 _ (exampleOrder sideSell (exampleHash 2)).price.isLt
  · exact Number.number_ne_nan_of_bigInt (bigInt_toString 1)
  · exact Number.number_ne_nan_of_bigInt (bigInt_toString 0)

theorem exampleSell_ingested : Calls (Performs exampleDrivers exampleDex InStep)
    (⟨exampleLate, Db.empty, some exampleLate⟩,
      (ingest exampleVerification (.orderConfirmed exampleSellConfirmed)).run)
    (⟨exampleLate, exampleSold, some exampleLate⟩,
      (pure (applied exampleSellConfirmed.eventId) : Proc IngestionResult).run) := by
  have hin : ∀ (s : Moment exampleWorld) op reply, InStep s op reply → InStep s op reply := fun _ _ _ h => h
  have hnone : Db.empty.orders.docs = [] := rfl
  have hprocessed : run exampleDrivers (exampleLate.node exampleDex 0)
      (request (.processed exampleSellConfirmed.eventId)) Db.empty = (.ok false, Db.empty) := rfl
  have hverified : Calls (Performs exampleDrivers exampleDex InStep)
      (⟨exampleLate, Db.empty, some exampleLate⟩,
        (verify exampleVerification (.orderConfirmed exampleSellConfirmed)).run)
      (⟨exampleLate, Db.empty, some exampleLate⟩, (pure () : Proc Unit).run) :=
    calls_tryCatch (calls_queries hin hnone (only_verifyEvent _)
      (exampleSell_late.verified fun _ => "ckt1")) _
  have htransact : Performs exampleDrivers exampleDex InStep
      (.transact (.orderConfirmed exampleSellConfirmed))
      ⟨exampleLate, Db.empty, some exampleLate⟩ (.ok (.committed (applied exampleSellConfirmed.eventId)))
      ⟨exampleLate, exampleSold, some exampleLate⟩ := by
    have hcommitted := transact_eq rfl exampleSold_applied
    have hperformed : Performs exampleDrivers exampleDex InStep
        (.transact (.orderConfirmed exampleSellConfirmed)) ⟨exampleLate, Db.empty, some exampleLate⟩
        (.ok (transact exampleDrivers (.orderConfirmed exampleSellConfirmed) Db.empty).1)
        ⟨exampleLate, (transact exampleDrivers (.orderConfirmed exampleSellConfirmed) Db.empty).2,
          some exampleLate⟩ := performs_chain (List.prefix_refl _) trivial
    rw [hcommitted] at hperformed
    exact hperformed
  refine (calls_queries_ok hin hnone (only_request.mpr rfl) hprocessed _).trans ?_
  have hcommit : Call (Performs exampleDrivers exampleDex InStep)
      (⟨exampleLate, Db.empty, some exampleLate⟩,
          (request (.transact (.orderConfirmed exampleSellConfirmed)) >>=
        reportOutcome (.orderConfirmed exampleSellConfirmed)).run)
      (⟨exampleLate, exampleSold, some exampleLate⟩, (reportOutcome (.orderConfirmed exampleSellConfirmed)
        (.committed (applied exampleSellConfirmed.eventId))).run) := call_ok htransact
  exact (calls_seq hverified _).trans (.single hcommit)

theorem exampleConfigured : Configured exampleVerification exampleDex := ⟨rfl, rfl⟩

/-- The sell cell is not skipped. -/
theorem exampleSell_confirming {permitted : Moment exampleWorld → Op → Reply exampleWorld → Prop}
    (hpermitted : ∀ s op reply, InStep s op reply → permitted s op reply) :
    Calls (Performs exampleDrivers exampleDex permitted)
      (⟨exampleLate, Db.empty, some exampleLate⟩, (indexOrderCell exampleConfig exampleSellIndexed).run)
      (⟨exampleLate, Db.empty, some exampleLate⟩, (eventOfCell exampleConfig exampleSellIndexed
        (decodedOf (exampleOrder sideSell (exampleHash 2))) >>= emitOrder exampleConfig).run) := by
  have hunknown : run exampleDrivers (exampleLate.node exampleDex 0)
      (request (.findOrderById (toOrderId (outPointText exampleSellIndexed.outPoint)))) Db.empty =
        (.ok none, Db.empty) := rfl
  have hadmitted : admitted exampleConfig.verification exampleSellIndexed.cell =
      some (decodedOf (exampleOrder sideSell (exampleHash 2))) := exampleSell_order.admitted exampleConfigured
  rw [indexOrderCell_eq hadmitted]
  exact calls_queries_ok hpermitted rfl (only_request.mpr rfl) hunknown _

theorem exampleSell_indexed : Calls (Performs exampleDrivers exampleDex InStep)
    (⟨exampleLate, Db.empty, some exampleLate⟩, (indexOrderCell exampleConfig exampleSellIndexed).run)
    (⟨exampleLate, exampleSold, some exampleLate⟩, (pure () : Proc Unit).run) := by
  have hin : ∀ (s : Moment exampleWorld) op reply, InStep s op reply → InStep s op reply := fun _ _ _ h => h
  have hnone : Db.empty.orders.docs = [] := rfl
  have hcreated : run exampleDrivers (exampleLate.node exampleDex 0)
      (request (.getTransaction exampleSellIndexed.outPoint.txHash)) Db.empty =
        (.ok (some (Position.response ⟨1, exampleHash 21, 0, exampleHash 5⟩ exampleCreation)),
            Db.empty) := rfl
  have howner : run exampleDrivers (exampleLate.node exampleDex 0)
      (findInputWithLockHash exampleScriptHash (hashText (exampleHash 2)) exampleCreation.inputs) Db.empty =
        (.ok (some (exampleOwner 2)), Db.empty) := by
    have hfirst : SpendClassification.firstLock exampleScriptHash exampleWorld.content
        (hashText (exampleHash 2)) exampleCreation.inputs = some (exampleOwner 2) := by decide +kernel
    rw [SpendClassification.run_findInputWithLockHash, hfirst]
  refine (exampleSell_confirming hin).trans ?_
  rw [eventOfCell_bind]
  refine (calls_queries_ok hin hnone (only_request.mpr rfl) hcreated _).trans ?_
  refine (calls_queries_ok hin hnone (only_findInputWithLockHash _ _ _) howner _).trans ?_
  exact calls_seq (calls_tryCatch (calls_seq exampleSell_ingested _) _) _

/-- The database after a scan up to block 1. -/
def exampleScanned (db : Db) : Db :=
  { db with
    checkpoints := (db.checkpoints.put ⟨1, hashText (exampleHash 21)⟩).deleteWhere fun c =>
      (c.blockNumber : ℤ) < 1 - checkpointRetention }

variable {permitted : Moment exampleWorld → Op → Reply exampleWorld → Prop}

/-- Whatever becomes of its only cell, a scan of the late chain ends with a checkpoint. -/
theorem exampleLate_scanned {db : Db}
    (hpermitted : ∀ s op reply, InStep s op reply → permitted s op reply)
    (hindex : Calls (Performs exampleDrivers exampleDex permitted)
      (⟨exampleLate, Db.empty, some exampleLate⟩, (indexOrderCell exampleConfig exampleSellIndexed).run)
      (⟨exampleLate, db, some exampleLate⟩, (pure () : Proc Unit).run)) :
    ScanRuns exampleConfig exampleDrivers exampleDex permitted (⟨exampleLate, Db.empty, none⟩, none)
      (⟨exampleLate, exampleScanned db, some exampleLate⟩, some (pure () : Proc Unit).run) := by
  have htip : Performs exampleDrivers exampleDex permitted .getTip ⟨exampleLate, Db.empty, none⟩
      (.ok 2) ⟨exampleLate, Db.empty, some exampleLate⟩ := by
    have hstep : InStep ⟨exampleLate, Db.empty, none⟩ .getTip (.chain exampleLate) := fun base hbase => by
      cases hbase
    exact performs_chain (List.prefix_refl _) (hpermitted _ _ _ hstep)
  have hcursor : run exampleDrivers (exampleLate.node exampleDex 0) resolveScanCursor Db.empty =
      (.ok 0, Db.empty) := rfl
  have hheader : run exampleDrivers (exampleLate.node exampleDex 0) (request (.getHeaderHash 1)) Db.empty =
      (.ok (some (exampleHash 21)), Db.empty) := rfl
  have hcells : run exampleDrivers (exampleLate.node exampleDex 0) (request (.findCells 0 1)) Db.empty =
      (.ok [exampleSellIndexed], Db.empty) := by
    have hlive : exampleLate.liveCells exampleDex 0 1 = [exampleSellIndexed] := by decide
    change (Except.ok (exampleLate.liveCells exampleDex 0 1), Db.empty) = _
    rw [hlive]
  have hheaderAfter : Performs exampleDrivers exampleDex permitted (.getHeaderHash 1)
      ⟨exampleLate, db, some exampleLate⟩ (.ok (some (exampleHash 21)))
      ⟨exampleLate, db, some exampleLate⟩ :=
        performs_chain (List.prefix_refl _) (hpermitted ⟨_, _, _⟩ (.getHeaderHash 1) (.chain _) trivial)
  have hsaved : Performs exampleDrivers exampleDex permitted
      (.upsertCheckpoint ⟨1, hashText (exampleHash 21)⟩) ⟨exampleLate, db, some exampleLate⟩ (.ok ())
      ⟨exampleLate, { db with checkpoints := db.checkpoints.put ⟨1, hashText (exampleHash 21)⟩ },
        some exampleLate⟩ :=
    performs_chain (List.prefix_refl _) (hpermitted ⟨_, _, _⟩ (.upsertCheckpoint _) (.chain _) trivial)
  have htrimmed : Performs exampleDrivers exampleDex permitted (.trimCheckpoints (1 - checkpointRetention))
      ⟨exampleLate, { db with checkpoints := db.checkpoints.put ⟨1, hashText (exampleHash 21)⟩ },
        some exampleLate⟩ (.ok ()) ⟨exampleLate, exampleScanned db, some exampleLate⟩ :=
    performs_chain (List.prefix_refl _) (hpermitted ⟨_, _, _⟩ (.trimCheckpoints _) (.chain _) trivial)
  have hscan : Calls (Performs exampleDrivers exampleDex permitted)
      (⟨exampleLate, Db.empty, none⟩, (scanForPendingOrders exampleConfig).run)
      (⟨exampleLate, exampleScanned db, some exampleLate⟩, (pure () : Proc Unit).run) := by
    refine .head (call_ok htip) ?_
    refine (calls_queries_ok hpermitted rfl only_resolveScanCursor hcursor _).trans ?_
    refine (calls_queries_ok hpermitted rfl (only_request.mpr rfl) hheader _).trans ?_
    refine (calls_queries_ok hpermitted rfl (only_request.mpr rfl) hcells _).trans ?_
    refine (calls_seq (calls_seq hindex _) _).trans ?_
    refine .head (call_ok hheaderAfter) (.head (call_ok hsaved) (.head (call_ok htrimmed) ?_))
    exact .refl
  exact scanRuns_of_calls hscan

/-- A checkpoint of block 1 makes block 2 the next to scan. -/
theorem exampleScanned_cursor {db : Db} (h : db.checkpoints = Db.empty.checkpoints) :
    run exampleDrivers (exampleLate.node exampleDex 0) resolveScanCursor (exampleScanned db) =
      (.ok 2, exampleScanned db) := by
  have hnewest : Db.newestCheckpoints (exampleScanned db) 1 = [⟨1, hashText (exampleHash 21)⟩] := by
    unfold Db.newestCheckpoints exampleScanned
    rw [h]
    rfl
  have hread : eval (handle exampleDrivers (exampleLate.node exampleDex 0)) (request (.newestCheckpoints 1))
      (exampleScanned db) = (.ok [⟨1, hashText (exampleHash 21)⟩], exampleScanned db) :=
    congrArg (fun checkpoints => (Except.ok checkpoints, exampleScanned db)) hnewest
  rw [run, resolveScanCursor, eval_bind, hread]
  rfl

theorem cursor_passes_indexed_orders_example : ∃ s, ScanRuns exampleConfig exampleDrivers exampleDex InStep
      (⟨exampleLate, Db.empty, none⟩, none) s ∧
    run exampleDrivers (exampleLate.node exampleDex 0) resolveScanCursor s.1.db = (.ok 2, s.1.db) ∧
    Indexed s.1.db exampleSellIndexed := by
  have hrun := exampleLate_scanned (fun _ _ _ h => h) exampleSell_indexed
  have hcursor : run exampleDrivers (exampleLate.node exampleDex 0) resolveScanCursor
      (exampleScanned exampleSold) = (.ok 2, exampleScanned exampleSold) := exampleScanned_cursor rfl
  have hbasis : (exampleScanned exampleSold).checkpoints.docs = [] →
      (exampleScanned exampleSold).orders.docs = [] := fun hnone => by cases hnone
  exact ⟨_, hrun, hcursor, cursor_passes_indexed_orders exampleConfigured rfl
    (fun _ _ hprocessed => by cases hprocessed) hrun hcursor hbasis exampleSell_order (by decide) (by decide)⟩

/-- The creating transaction of the sell order is not found once: the scan drops
the order, and its checkpoint still moves the cursor past it. -/
theorem cursor_passes_unindexed_order : ∃ s, ScanRuns exampleConfig exampleDrivers exampleDex
      (fun _ _ _ => True) (⟨exampleLate, Db.empty, none⟩, none) s ∧
    run exampleDrivers (exampleLate.node exampleDex 0) resolveScanCursor s.1.db = (.ok 2, s.1.db) ∧
    OrderCell exampleVerification exampleDex s.1.chain exampleSellIndexed
      (exampleOrder sideSell (exampleHash 2)) ⟨1, exampleHash 21, 0, exampleHash 5⟩ exampleCreation ∧
    s.1.chain.isLive exampleSellIndexed.outPoint = true ∧ ¬Indexed s.1.db exampleSellIndexed := by
  have hmissing : Performs exampleDrivers exampleDex (fun (_ : Moment exampleWorld) _ _ => True)
      (.getTransaction exampleSellIndexed.outPoint.txHash) ⟨exampleLate, Db.empty, some exampleLate⟩
      (.ok none) ⟨exampleLate, Db.empty, some exampleLate⟩ := ⟨.missing, nofun, trivial, rfl, rfl, rfl⟩
  have hdropped : Calls (Performs exampleDrivers exampleDex (fun (_ : Moment exampleWorld) _ _ => True))
      (⟨exampleLate, Db.empty, some exampleLate⟩, (eventOfCell exampleConfig exampleSellIndexed
        (decodedOf (exampleOrder sideSell (exampleHash 2))) >>= emitOrder exampleConfig).run)
      (⟨exampleLate, Db.empty, some exampleLate⟩, (pure () : Proc Unit).run) := by
    rw [eventOfCell_bind]
    refine .head (call_ok hmissing) ?_
    exact .refl
  refine ⟨_, exampleLate_scanned (fun _ _ _ _ => trivial)
    ((exampleSell_confirming fun _ _ _ _ => trivial).trans hdropped), ?_⟩
  refine ⟨exampleScanned_cursor rfl, exampleSell_order, by decide, fun hindexed => by cases hindexed⟩

end

end CkbDex.ScanCursor
