import CkbDex.ScanParts

/-!
# The indexing of one cell

An order cell that the chain has is indexed, or the scan stops. So a range that a
scan has gone through leaves no order cell out.
-/
namespace CkbDex.ScanCursor
open Bytes CellContext OrderLock Documents Collections Projection Programs Operations Chains
open EventVerification IngestionSteps CkbDex.Bot Acceptance Observation Interference ScanCalls

section
variable {w : World} {v : ChainVerification} {dex : Script} {s : Moment w} {drivers : Drivers}
  {base : Chain w} {α β : Type}

/-- A search that finds nothing has looked at every input. -/
theorem safe_findInputWithLockHash (hash : Script → Hash) (lockHash : Hex) (inputs : List CellRef)
    (s : Moment w) : Safe (scanning drivers dex v) (findInputWithLockHash hash lockHash inputs)
      (fun r _ => r = .ok none → ∀ ref ∈ inputs, ∀ funding, cellAt w.content ref = some funding →
        hashText (hash funding.lock) ≠ lockHash) s := by
  induction inputs generalizing s with
  | nil => exact fun _ ref hmem => absurd hmem List.not_mem_nil
  | cons input inputs ih =>
      refine safe_bind.mpr (safe_request (harmless_of_query rfl) fun t answer u _ hperformed _ _ => ?_)
      rcases performs_ordinary rfl hperformed with ⟨message, rfl⟩ | ⟨d, -, rfl, -, -⟩
      · exact of_error_eq_ok
      · simp only [handle, Chain.node, proceeds]
        cases hcell : (cellAt w.content input).filter fun cell => hashText (hash cell.lock) = lockHash with
        | some cell => exact fun hnone => by cases hnone
        | none =>
            refine (ih u).mono fun r u' _ hr hnone ref hmem funding hfunding heq => ?_
            rcases List.mem_cons.mp hmem with rfl | hmem
            · rw [hfunding] at hcell
              simp [heq] at hcell
            · exact hr hnone ref hmem funding hfunding heq

theorem confirms_orderConfirmedEvent (ownerAddress : String) (cell : IndexedCell)
    (decoded : DecodedDexOrderArgs) (ownerLock : Script) (creatingTx : TxResponse) (blockNumber : ℕ) :
    Confirms (orderConfirmedEvent ownerAddress cell decoded ownerLock creatingTx blockNumber)
      cell.outPoint blockNumber :=
  ⟨rfl, ⟨creatingTx.blockHash, rfl⟩, rfl⟩

variable {config : Config}

/-- Indexing, with the emission where the event is known. -/
theorem eventOfCell_bind (config : Config) (cell : IndexedCell) (decoded : DecodedDexOrderArgs) :
    eventOfCell config cell decoded >>= emitOrder config =
      request (.getTransaction cell.outPoint.txHash) >>= fun response : Option TxResponse =>
        match response with
        | none => return ()
        | some creatingTx =>
            match (if creatingTx.status = "committed" then creatingTx.blockNumber else none) with
            | none => return ()
            | some blockNumber =>
                findInputWithLockHash config.verification.hash decoded.makerLockHash
                  creatingTx.transaction.inputs >>= fun ownerLock =>
                    match ownerLock with
                    | none => return ()
                    | some ownerLock => require (config.address ownerLock) >>= fun ownerAddress =>
                        emitOrder config (some (orderConfirmedEvent ownerAddress cell decoded ownerLock
                          creatingTx blockNumber)) := by
  rw [eventOfCell, bind_assoc]
  refine congrArg _ (funext fun response => ?_)
  cases response with
  | none => rfl
  | some creatingTx =>
      simp only
      cases if creatingTx.status = "committed" then creatingTx.blockNumber else none with
      | none => rfl
      | some blockNumber =>
          simp only
          rw [bind_assoc]
          refine congrArg _ (funext fun ownerLock => ?_)
          cases ownerLock with
          | none => rfl
          | some ownerLock =>
              simp only
              rw [bind_assoc]
              rfl

theorem only_eventOfCell (cell : IndexedCell) (decoded : DecodedDexOrderArgs) :
    Only Harmless (eventOfCell config cell decoded >>= emitOrder config) := by
  rw [eventOfCell_bind]
  refine only_bind (only_request.mpr (harmless_of_query rfl)) fun response => ?_
  split
  · exact only_pure _
  · split
    · exact only_pure _
    · have hfind := (only_findInputWithLockHash config.verification.hash decoded.makerLockHash
        ‹TxResponse›.transaction.inputs).mono
        fun _ => harmless_of_query
      refine only_bind hfind fun ownerLock => ?_
      split
      · exact only_pure _
      · exact only_bind (only_require _) fun ownerAddress =>
          only_bind (only_emit (confirms_orderConfirmedEvent _ _ _ _ _ _).harmless) fun _ => only_pure _

theorem only_indexOrderCell (cell : IndexedCell) : Only Harmless (indexOrderCell config cell) := by
  rw [indexOrderCell, orderEventOf, bind_assoc]
  refine only_bind (only_request.mpr (harmless_of_query rfl)) fun known => ?_
  split_ifs
  · exact only_pure _
  · split
    · exact only_pure _
    · exact only_eventOfCell _ _

variable {cell : IndexedCell} {terms : OrderArgs} {p : Position} {tx : RawTx}

/-- The creating transaction of a wanted cell is answered as it is on chain,
and its maker's input is found. -/
theorem safe_eventOfCell (horder : OrderCell config.verification dex base cell terms p tx)
    (hvalid : Valid config.verification dex s) (hsince : s.since = some base)
    (hdeep : p.blockNumber + config.verification.confirmationDepth ≤ base.tip) :
    Safe (scanning drivers dex config.verification)
      (eventOfCell config cell (decodedOf terms) >>= emitOrder config)
      (fun r u => r = .ok () → Indexed u.db cell) s := by
  rw [eventOfCell_bind]
  refine safe_bind.mpr (safe_request (harmless_of_query rfl) fun t answer u hgrows hperformed hsu _ => ?_)
  rcases performs_ordinary rfl hperformed with ⟨message, rfl⟩ | ⟨d, hpast, rfl, hlookup, -⟩
  · exact of_error_eq_ok
  · have hcontent : w.content cell.outPoint.txHash = some tx := by rw [← horder.txHash, horder.content]
    have hcreated : ∀ c : Chain w, base.hashes <+: c.hashes →
        c.response cell.outPoint.txHash = some (p.response tx) := fun c hc =>
      Chain.response_eq_some.mpr ⟨p, tx, Chain.positionOf_eq_some.mpr
        ⟨positions_mono hc horder.found, horder.txHash⟩, hcontent, rfl⟩
    have hbase := hvalid.since base hsince
    have hresponse := response_of_grown hpast (hcreated u.chain (hbase.trans hsu.grown))
      (hlookup (Option.isSome_iff_exists.mpr ⟨_, hcreated t.chain (hbase.trans hgrows.grown)⟩))
    simp only [handle, Chain.node, proceeds, hresponse, Position.response, if_true]
    refine safe_bind.mpr ((safe_findInputWithLockHash _ _ _ u).mono fun r u' huu' hr => ?_)
    cases r with
    | error error => exact of_error_eq_ok
    | ok ownerLock =>
        cases ownerLock with
        | none =>
            obtain ⟨ref, hmem, funding, hfunding, hmaker⟩ := horder.funded
            exact (hr rfl ref hmem funding hfunding (by rw [hmaker]; rfl)).elim
        | some ownerLock =>
            refine safe_bind.mpr (safe_require.mpr ?_)
            cases config.address ownerLock with
            | error error => exact of_error_eq_ok
            | ok ownerAddress =>
                have hlater := hsu.trans huu'
                refine safe_bind.mpr ((safe_emit (confirms_orderConfirmedEvent _ _ _ _ _ _)
                  (hlater.valid hvalid) (hlater.since base hsince) hdeep).mono fun r t' _ hstored => ?_)
                cases r with
                | error error => exact of_error_eq_ok
                | ok handled => exact fun _ => hstored handled rfl

theorem indexOrderCell_eq {decoded : DecodedDexOrderArgs}
    (h : admitted config.verification cell.cell = some decoded) : indexOrderCell config cell =
      request (.findOrderById (toOrderId (outPointText cell.outPoint))) >>=
        fun known : Option OrderDocument =>
        if known.any (fun order => order.status ≠ .orphaned) then return ()
        else eventOfCell config cell decoded >>= emitOrder config := by
  rw [indexOrderCell, orderEventOf, h, bind_assoc]
  refine congrArg _ (funext fun known => ?_)
  split_ifs
  · rfl
  · rfl

theorem safe_indexOrderCell (hconfigured : Configured config.verification dex)
    (horder : OrderCell config.verification dex base cell terms p tx)
    (hvalid : Valid config.verification dex s) (hsince : s.since = some base)
    (hdeep : p.blockNumber + config.verification.confirmationDepth ≤ base.tip) :
    Safe (scanning drivers dex config.verification) (indexOrderCell config cell)
      (fun r u => r = .ok () → Indexed u.db cell) s := by
  rw [indexOrderCell_eq (horder.admitted hconfigured)]
  refine safe_bind.mpr (safe_request (harmless_of_query rfl) fun t answer u hgrows hperformed hsu htu => ?_)
  rcases performs_same rfl (fun _ => rfl) hperformed with ⟨message, rfl⟩ | rfl
  · exact of_error_eq_ok
  · simp only [proceeds]
    split_ifs with hknown
    · refine fun _ => htu.stored _ ?_
      cases hfind : t.db.orders.find? (toOrderId (outPointText cell.outPoint)) with
      | none => simp [hfind] at hknown
      | some order => rfl
    · exact safe_eventOfCell horder (hsu.valid hvalid) (hsu.since base hsince) hdeep

/-- How far a scan of the blocks up to `safeTip` has come: what it has not
indexed is among the cells it still has to look at. -/
structure Scanned (v : ChainVerification) (dex : Script) (base : Chain w) (safeTip : ℕ)
    (cells : List IndexedCell) (s : Moment w) : Prop where
  valid : Valid v dex s
  since : s.since = some base
  indexed : ∀ cell terms p tx, OrderCell v dex s.chain cell terms p tx →
    s.chain.isLive cell.outPoint = true → p.blockNumber ≤ safeTip → Indexed s.db cell ∨ cell ∈ cells

theorem Scanned.below {safeTip : ℕ} {cells : List IndexedCell}
    (h : Scanned v dex base safeTip cells s) : base.hashes <+: s.chain.hashes :=
  h.valid.since base h.since

/-- Nothing that happens meanwhile undoes it. -/
theorem Scanned.mono {u : Moment w} {safeTip : ℕ} {cells : List IndexedCell}
    (h : Scanned v dex base safeTip cells s) (hsu : Later v dex s u)
    (htip : safeTip < base.hashes.length) : Scanned v dex base safeTip cells u := by
  refine ⟨hsu.valid h.valid, hsu.since base h.since, fun cell terms p tx horder hlive hle => ?_⟩
  have hlt := Nat.lt_of_lt_of_le (Nat.lt_of_le_of_lt hle htip) h.below.length_le
  have hbefore := horder.below hsu.grown hlt
  have hlive' := isLive_before hsu.grown hbefore.found hbefore.txHash hlive
  exact (h.indexed cell terms p tx hbefore hlive' hle).imp_left (hsu.stored _)

theorem scanned_indexOrderCell {safeTip : ℕ} {rest : List IndexedCell}
    (hconfigured : Configured config.verification dex) (htip : safeTip < base.hashes.length)
    (hdeep : safeTip + config.verification.confirmationDepth ≤ base.tip)
    (h : Scanned config.verification dex base safeTip (cell :: rest) s) :
    Safe (scanning drivers dex config.verification) (indexOrderCell config cell)
      (fun r u => r = .ok () → Scanned config.verification dex base safeTip rest u) s := by
  have hindexed : Safe (scanning drivers dex config.verification) (indexOrderCell config cell)
      (fun r u => r = .ok () → ∀ terms p tx, OrderCell config.verification dex base cell terms p tx →
        p.blockNumber ≤ safeTip → Indexed u.db cell) s := by
    by_cases hwanted : ∃ terms p tx, OrderCell config.verification dex base cell terms p tx ∧
        p.blockNumber ≤ safeTip
    · obtain ⟨terms, p, tx, horder, hle⟩ := hwanted
      refine (safe_indexOrderCell hconfigured horder h.valid h.since (by omega)).mono ?_
      exact fun r u _ hr hok _ _ _ _ _ => hr hok
    · refine (safe_harmless (only_indexOrderCell cell) s).mono ?_
      exact fun r u _ _ _ terms p tx horder hle => (hwanted ⟨terms, p, tx, horder, hle⟩).elim
  refine hindexed.mono fun r u hsu hr hok => ?_
  obtain ⟨hvalid, hsince, hrest⟩ := h.mono hsu htip
  refine ⟨hvalid, hsince, fun cell' terms p tx horder hlive hle => ?_⟩
  rcases hrest cell' terms p tx horder hlive hle with hdone | hmem
  · exact Or.inl hdone
  · rcases List.mem_cons.mp hmem with rfl | hmem
    · exact Or.inl (hr hok terms p tx (horder.below (hvalid.since base hsince)
        (Nat.lt_of_le_of_lt hle htip)) hle)
    · exact Or.inr hmem

theorem scanned_forEach {safeTip : ℕ} (hconfigured : Configured config.verification dex)
    (htip : safeTip < base.hashes.length)
    (hdeep : safeTip + config.verification.confirmationDepth ≤ base.tip) (cells : List IndexedCell)
    (h : Scanned config.verification dex base safeTip cells s) :
    Safe (scanning drivers dex config.verification) (forEach (indexOrderCell config) cells)
      (fun r u => r = .ok () → Scanned config.verification dex base safeTip [] u) s := by
  induction cells generalizing s with
  | nil => exact fun _ => h
  | cons cell rest ih =>
      refine safe_bind.mpr ((scanned_indexOrderCell hconfigured htip hdeep h).mono fun r t _ hr => ?_)
      cases r with
      | error error => exact of_error_eq_ok
      | ok u => exact ih (hr rfl)

variable {safeTip : ℕ}

theorem Scanned.covered (h : Scanned v dex base safeTip [] s) : Covered v dex s (safeTip + 1) := by
  intro cell terms p tx horder hlive hlt
  rcases h.indexed cell terms p tx horder hlive (Nat.le_of_lt_succ hlt) with hdone | hmem
  · exact hdone
  · cases hmem

/-- The checkpoint of a scan that has indexed its whole range. -/
theorem Scanned.later_upsertCheckpoint {t u : Moment w} {blockHash : Hex} {answer : Answer Unit}
    (h : Scanned v dex base safeTip [] s) (htip : safeTip < base.hashes.length) (hgrows : Grows s t)
    (hperformed : Performs drivers dex InStep (.upsertCheckpoint ⟨safeTip, blockHash⟩) t answer u) :
    Later v dex s u := by
  have hlater : Later v dex s t := hgrows.later
  have hchain : t.chain.hashes <+: u.chain.hashes := by rw [hperformed.chain]
  have horders : u.db.orders = t.db.orders ∧ u.db.events = t.db.events := by
    rcases hperformed.db with hsame | ⟨node, hhandled⟩
    · rw [hsame]
      exact ⟨rfl, rfl⟩
    · rw [hhandled]
      exact ⟨rfl, rfl⟩
  have hcheckpoints : ∀ checkpoint ∈ u.db.checkpoints.docs,
      checkpoint ∈ t.db.checkpoints.docs ∨ checkpoint.blockNumber = safeTip := by
    intro checkpoint hmem
    rcases hperformed.db with hsame | ⟨node, hhandled⟩
    · rw [hsame] at hmem
      exact Or.inl hmem
    · rw [hhandled] at hmem
      rcases Collection.mem_docs_put.mp hmem with rfl | ⟨hold, -⟩
      · exact Or.inr rfl
      · exact Or.inl hold
  have hstored : ∀ id, (s.db.orders.find? id).isSome = true → (u.db.orders.find? id).isSome = true := by
    intro id hid
    rw [horders.1]
    exact hlater.stored id hid
  have hgrown := hlater.grown.trans hchain
  have hvalid := hlater.valid h.valid
  refine ⟨hgrown, hstored, fun base hbase => hperformed.since (hlater.since base hbase), fun _ => ?_⟩
  refine ⟨fun checkpoint hmem => ?_, fun ref blockHash hprocessed => ?_,
    fun base => hperformed.past hvalid.since⟩
  · rcases hcheckpoints checkpoint hmem with hold | hnew
    · rw [hgrows.db] at hold
      obtain ⟨hlt, hcovered⟩ := h.valid.covered checkpoint hold
      exact ⟨Nat.lt_of_lt_of_le hlt hgrown.length_le, hcovered.later hlt hgrown hstored⟩
    · have hlt := Nat.lt_of_lt_of_le htip h.below.length_le
      rw [hnew]
      exact ⟨Nat.lt_of_lt_of_le hlt hgrown.length_le, h.covered.later hlt hgrown hstored⟩
  · rw [horders.1]
    refine hvalid.recorded ref blockHash ?_
    rw [Db.processed, ← horders.2]
    exact hprocessed

theorem safe_saveCheckpoint (h : Scanned v dex base safeTip [] s) (htip : safeTip < base.hashes.length)
    (blockHash : Hash) :
    Safe (scanning drivers dex v) (saveCheckpoint safeTip blockHash) (fun _ _ => True) s := by
  refine safe_bind.mpr (safe_perform.mpr fun t answer u hgrows hperformed =>
    ⟨h.later_upsertCheckpoint htip hgrows hperformed, ?_⟩)
  cases answer with
  | error error => trivial
  | ok _ =>
      refine safe_bind.mpr (safe_request (Or.inr (Or.inr (Or.inr ⟨_, rfl⟩))) fun _ answer _ _ _ _ _ => ?_)
      cases answer <;> trivial

theorem mem_newestCheckpoints {db : Db} {limit : ℕ} {checkpoint : Checkpoint}
    (h : checkpoint ∈ Db.newestCheckpoints db limit) : checkpoint ∈ db.checkpoints.docs :=
  (List.mem_insertionSort _).mp (List.mem_of_mem_take h)

theorem only_resolveScanCursor : Only (fun op => isQuery op = true) resolveScanCursor := by
  refine only_bind (only_request.mpr rfl) fun checkpoints => ?_
  cases checkpoints with
  | cons checkpoint rest => exact only_pure _
  | nil =>
      refine only_bind (only_request.mpr rfl) fun latest => ?_
      cases latest with
      | none => exact only_pure _
      | some order => exact only_bind (only_require _) fun _ => only_pure _

theorem performs_latestOrder {t : Moment w} {answer : Answer (Option OrderDocument)}
    (h : Performs drivers dex InStep .latestOrder s answer t) :
    (∃ message, answer = .error (.other message)) ∨ answer = .ok none := by
  rcases performs_ordinary rfl h with herror | ⟨d, -, hanswer, hempty, -⟩
  · exact Or.inl herror
  · have hempty : s.db.orders.docs = [] := hempty
    rw [handle, Db.latestOrder, hempty] at hanswer
    exact Or.inr hanswer

/-- Blocks below the cursor are covered: it is one past a checkpoint, or zero. -/
theorem safe_resolveScanCursor (hvalid : Valid v dex s) :
    Safe (scanning drivers dex v) resolveScanCursor (fun r u => ∀ n, r = .ok n →
      n.toNat ≤ u.chain.hashes.length ∧ Covered v dex u n.toNat) s := by
  refine safe_bind.mpr (safe_request (harmless_of_query rfl) fun t answer u hgrows hperformed hsu htu => ?_)
  rcases performs_same rfl (fun _ => rfl) hperformed with ⟨message, rfl⟩ | rfl
  · exact fun _ => of_error_eq_ok
  · simp only [proceeds]
    cases hnewest : Db.newestCheckpoints t.db 1 with
    | cons checkpoint rest =>
        have hmem : checkpoint ∈ t.db.checkpoints.docs :=
          mem_newestCheckpoints (by rw [hnewest]; exact List.mem_cons_self)
        have hcovered := (hgrows.later.valid hvalid).covered checkpoint hmem
        obtain ⟨hlt, hcovered⟩ := hcovered
        intro n hn
        obtain rfl : (checkpoint.blockNumber : ℤ) + 1 = n := Except.ok.inj hn
        exact ⟨Nat.lt_of_lt_of_le hlt htu.grown.length_le, hcovered.later hlt htu.grown htu.stored⟩
    | nil =>
        refine safe_bind.mpr (safe_request (harmless_of_query rfl) fun t' answer u' _ hperformed' _ _ => ?_)
        rcases performs_latestOrder hperformed' with ⟨message, rfl⟩ | rfl
        · exact fun _ => of_error_eq_ok
        · intro n hn
          obtain rfl : 0 = n := Except.ok.inj hn
          exact ⟨Nat.zero_le _, fun cell terms p tx _ _ hlt => absurd hlt (Nat.not_lt_zero _)⟩

theorem safe_scanRange (hconfigured : Configured config.verification dex) {fromBlock : ℤ}
    (hvalid : Valid config.verification dex s) (hsince : s.since = some base)
    (hfrom : fromBlock.toNat ≤ s.chain.hashes.length)
    (hcovered : Covered config.verification dex s fromBlock.toNat) (htip : safeTip < base.hashes.length)
    (hdeep : safeTip + config.verification.confirmationDepth ≤ base.tip) :
    Safe (scanning drivers dex config.verification) (scanRange config fromBlock safeTip)
      (fun _ _ => True) s := by
  refine safe_bind.mpr (safe_request (harmless_of_query rfl) fun _ answer u₀ _ _ hsu₀ _ => ?_)
  cases answer with
  | error error => trivial
  | ok endHash =>
      cases endHash with
      | none => trivial
      | some endHash =>
          refine safe_bind.mpr (safe_request (harmless_of_query rfl)
            fun t answer u hgrows hperformed hu₀u _ => ?_)
          rcases performs_ordinary rfl hperformed with ⟨message, rfl⟩ | ⟨d, hpast, rfl, hlast, -⟩
          · trivial
          · have hbelow : safeTip < t.chain.hashes.length := by
              have hbase := (hgrows.later.valid (hsu₀.valid hvalid)).since base
                (hgrows.since.trans (hsu₀.since base hsince))
              exact Nat.lt_of_lt_of_le htip hbase.length_le
            have hsu := hsu₀.trans hu₀u
            have hscanned : Scanned config.verification dex base safeTip
                (d.liveCells dex fromBlock.toNat safeTip) u := by
              refine ⟨hsu.valid hvalid, hsu.since base hsince, fun cell terms p tx horder hlive hle => ?_⟩
              rcases Nat.lt_or_ge p.blockNumber fromBlock.toNat with hlt | hge
              · exact Or.inl (hcovered.later hfrom hsu.grown hsu.stored cell terms p tx horder hlive hlt)
              · have hbefore := horder.below hpast (Nat.lt_of_le_of_lt hle (hlast hbelow))
                exact Or.inr (mem_liveCells hbefore.found hbefore.txHash hbefore.content hbefore.output
                  hbefore.identity hge hle (isLive_before hpast hbefore.found hbefore.txHash hlive))
            refine safe_bind.mpr ((scanned_forEach hconfigured htip hdeep _ hscanned).mono
              fun r u₁ _ hr => ?_)
            cases r with
            | error error => trivial
            | ok _ =>
                refine safe_bind.mpr (safe_request (harmless_of_query rfl)
                  fun _ answer u₂ _ _ hu₁u₂ _ => ?_)
                cases answer with
                | error error => trivial
                | ok endHashAfter =>
                    simp only [proceeds]
                    split_ifs
                    · trivial
                    · exact safe_saveCheckpoint ((hr rfl).mono hu₁u₂ htip) htip endHash

theorem safe_scanForPendingOrders (hconfigured : Configured config.verification dex)
    (hvalid : Valid config.verification dex s) (hsince : s.since = none) :
    Safe (scanning drivers dex config.verification) (scanForPendingOrders config)
      (fun _ _ => True) s := by
  refine safe_bind.mpr (safe_request (harmless_of_query rfl) fun t answer u hgrows hperformed hsu _ => ?_)
  rcases performs_ordinary rfl hperformed with ⟨message, rfl⟩ | ⟨d, -, hanswer, -, hnoted⟩
  · trivial
  · have hbase : u.since = some d := by rw [hnoted rfl, hgrows.since, hsince]; rfl
    simp only [handle, Chain.node] at hanswer
    split_ifs at hanswer with hnone
    · rw [hanswer]
      trivial
    · rw [hanswer]
      simp only [proceeds]
      split_ifs with hshallow
      · trivial
      · have htip : d.tip - config.verification.confirmationDepth < d.hashes.length := by
          have := List.length_pos_iff.mpr hnone
          unfold Chain.tip
          omega
        refine safe_bind.mpr ((safe_resolveScanCursor (hsu.valid hvalid)).mono fun r u' huu' hr => ?_)
        cases r with
        | error error => trivial
        | ok fromBlock =>
            obtain ⟨hfrom, hcovered⟩ := hr fromBlock rfl
            simp only [proceeds]
            split_ifs
            · trivial
            · have hlater := hsu.trans huu'
              exact safe_scanRange hconfigured (hlater.valid hvalid) (huu'.since d hbase) hfrom hcovered
                htip (by omega)

end

end CkbDex.ScanCursor
