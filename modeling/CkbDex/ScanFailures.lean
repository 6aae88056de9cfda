import CkbDex.Admission

/-!
# What can fail a scan

A scan against a node in step with a chain fails at the first order that is not
stored yet and whose maker's lock has no address, and at nothing else. The
cursor is saved after the last cell, so such an order fails every later scan.
-/
namespace CkbDex.ScanFailures
open OrderLockRules hiding exampleBuy exampleSell
open Checked Bytes CellContext OrderLock Text Documents BotEvents ChainCells
open Collections Projection Programs Operations Chains EventVerification IngestionSteps
open ProjectionSteps CkbDex.Bot GroundedDocuments Acceptance SpendClassification Admission

/-- If the scan finds an order in the cell, its maker's lock has an address. -/
def HasAddress (config : Config) (content : Content) (cell : IndexedCell) (tx : RawTx) : Prop :=
  ∀ decoded owner, orderOf config.verification content cell tx = some (decoded, owner) →
    ∃ address, config.address owner = .ok address

section
variable {w : World} {c : Chain w} {cell : IndexedCell} {p : Position} {tx : RawTx} {config : Config}
  {drivers : Drivers} {db : Db} {dex : Script} {now : ℕ}

theorem toOrderId_outPointText {a b : CellRef}
    (h : toOrderId (outPointText a) = toOrderId (outPointText b)) : a = b :=
  outPointText_injective (toOrderId_injective (outPointText_valid a) (outPointText_valid b) h)

/-- What is known of an order does not change with the others. -/
theorem isKnown_frame {next : Db} (h : ∀ id, id ≠ toOrderId (outPointText cell.outPoint) →
    next.orders.find? id = db.orders.find? id) (other : IndexedCell)
    (hne : other.outPoint ≠ cell.outPoint) : isKnown next other = isKnown db other := by
  rw [isKnown, isKnown, h _ fun hid => hne (toOrderId_outPointText hid)]

/-- An emitted event is ingested, and concerns its own order only. -/
theorem run_emitOrder {terms : OrderArgs} {owner : Script} {address : Script → String}
    (h : Indexable config.verification c cell terms owner p tx) (hreads : Reads drivers) :
    ∃ next, run drivers (c.node dex now)
        (emitOrder config (some (indexedEvent address cell terms owner p tx))) db = (.ok (), next) ∧
      ∀ id, id ≠ toOrderId (outPointText cell.outPoint) →
        next.orders.find? id = db.orders.find? id := by
  have hemit : ∀ {result : IngestionResult} {next : Db}, run drivers (c.node dex now)
      (ingest config.verification (.orderConfirmed (indexedEvent address cell terms owner p tx))) db =
        (.ok result, next) → run drivers (c.node dex now)
          (emitOrder config (some (indexedEvent address cell terms owner p tx))) db = (.ok (), next) := by
    intro result next hingest
    have hrun : eval (handle drivers (c.node dex now)) (emit config.verification
        (.orderConfirmed (indexedEvent address cell terms owner p tx))) db = (.ok true, next) :=
      Observation.run_emit hingest
    rw [run, emitOrder, eval_bind, hrun]
    rfl
  cases hprocessed : db.processed (indexedEvent address cell terms owner p tx).eventId with
  | true => exact ⟨db, hemit (run_ingest_processed _ hprocessed), fun _ _ => rfl⟩
  | false =>
      obtain ⟨result, next, happly, hnext⟩ := applied_or_ignored hreads address cell terms owner p tx db
      refine ⟨_, hemit (run_ingest_eq _ hprocessed (h.verified address) happly), fun id hid => ?_⟩
      rcases hnext with rfl | rfl
      · rfl
      · exact Collection.find?_put.trans (if_neg fun hsame => hid hsame.symm)

theorem indexOrderCell_error (h : Created c cell p tx) {decoded : DecodedDexOrderArgs} {owner : Script}
    {error : Failure} (hnew : isKnown db cell = false)
    (horder : orderOf config.verification w.content cell tx = some (decoded, owner))
    (haddress : config.address owner = .error error) :
    run drivers (c.node dex now) (indexOrderCell config cell) db = (.error error, db) := by
  have hevent : eval (handle drivers (c.node dex now)) (orderEventOf config cell) db = _ :=
    run_orderEventOf h
  rw [run, indexOrderCell, eval_bind, hevent, hnew, horder]
  simp only [Bool.false_eq_true, if_false, haddress, Except.map]

/-- Indexing a cell: nothing is done for an order that is known; a maker without
an address is an error that leaves the state as it was. -/
theorem run_indexOrderCell (h : Created c cell p tx)
    (hdeep : config.verification.confirmationDepth ≤ confirmationsOf c.tip p.blockNumber)
    (hreads : Reads drivers) (dex : Script) (now : ℕ) (db : Db) :
    (isKnown db cell = true ∧ run drivers (c.node dex now) (indexOrderCell config cell) db = (.ok (), db)) ∨
    (isKnown db cell = false ∧ HasAddress config w.content cell tx ∧ ∃ next,
      run drivers (c.node dex now) (indexOrderCell config cell) db = (.ok (), next) ∧
      ∀ id, id ≠ toOrderId (outPointText cell.outPoint) →
        next.orders.find? id = db.orders.find? id) ∨
    (isKnown db cell = false ∧ ¬HasAddress config w.content cell tx ∧ ∃ error,
      run drivers (c.node dex now) (indexOrderCell config cell) db = (.error error, db)) := by
  have hevent : eval (handle drivers (c.node dex now)) (orderEventOf config cell) db = _ :=
    run_orderEventOf h
  rw [run, indexOrderCell, eval_bind, hevent]
  cases hknown : isKnown db cell with
  | true => exact Or.inl ⟨rfl, rfl⟩
  | false =>
      simp only [Bool.false_eq_true, if_false]
      cases horder : orderOf config.verification w.content cell tx with
      | none =>
          refine Or.inr (Or.inl ⟨trivial, fun decoded owner hsome => ?_, db, rfl, fun _ _ => rfl⟩)
          rw [horder] at hsome
          cases hsome
      | some found =>
          obtain ⟨decoded, owner⟩ := found
          obtain ⟨terms, hadmits, rfl, howner⟩ := orderOf_eq_some.mp horder
          cases haddress : config.address owner with
          | error error =>
              simp only [haddress, Except.map]
              refine Or.inr (Or.inr ⟨trivial, fun hall => ?_, error, rfl⟩)
              obtain ⟨address, hok⟩ := hall _ _ horder
              rw [haddress] at hok
              cases hok
          | ok address =>
              simp only [haddress, Except.map]
              have hemitted : ∃ next, run drivers (c.node dex now) (emitOrder config
                  (some (indexedEvent (fun _ => address) cell terms owner p tx))) db = (.ok (), next) ∧ _ :=
                run_emitOrder (h.indexable hdeep hadmits howner) hreads
              refine Or.inr (Or.inl ⟨trivial, fun decoded owner hsome => ?_, hemitted⟩)
              rw [horder, Option.some_inj] at hsome
              obtain ⟨-, rfl⟩ := Prod.mk.inj hsome
              exact ⟨address, haddress⟩

theorem indexOrderCell_ok_iff (h : Created c cell p tx)
    (hdeep : config.verification.confirmationDepth ≤ confirmationsOf c.tip p.blockNumber)
    (hreads : Reads drivers) :
    (run drivers (c.node dex now) (indexOrderCell config cell) db).1 = .ok () ↔
      isKnown db cell = true ∨ HasAddress config w.content cell tx := by
  rcases run_indexOrderCell h hdeep hreads dex now db with
    ⟨hknown, hrun⟩ | ⟨-, haddress, next, hrun, -⟩ | ⟨hknown, haddress, error, hrun⟩
  · rw [hrun]
    exact iff_of_true rfl (Or.inl hknown)
  · rw [hrun]
    exact iff_of_true rfl (Or.inr haddress)
  · rw [hrun, hknown]
    exact iff_of_false nofun (not_or.mpr ⟨Bool.false_ne_true, haddress⟩)

/-- Cells that are indexed in turn: the first new one without an address ends it. -/
theorem forEach_ok_iff (hreads : Reads drivers) (dex : Script) (now : ℕ) {cells : List IndexedCell}
    (hcells : ∀ cell ∈ cells, ∃ p tx, Created c cell p tx ∧
      config.verification.confirmationDepth ≤ confirmationsOf c.tip p.blockNumber) :
    ∀ db : Db, (run drivers (c.node dex now) (forEach (indexOrderCell config) cells) db).1 = .ok () ↔
      ∀ cell ∈ cells, ∀ p tx, Created c cell p tx →
        isKnown db cell = true ∨ HasAddress config w.content cell tx := by
  induction cells with
  | nil => exact fun db => iff_of_true rfl fun _ h => (List.not_mem_nil h).elim
  | cons cell cells ih =>
      intro db
      obtain ⟨p, tx, hcreated, hdeep⟩ := hcells cell (List.mem_cons_self ..)
      have ih := ih fun other hother => hcells other (List.mem_cons_of_mem _ hother)
      rw [List.forall_mem_cons, run, forEach, eval_bind]
      have hlater : ∀ {next : Db}, run drivers (c.node dex now) (indexOrderCell config cell) db =
          (.ok (), next) → isKnown db cell = true ∨ HasAddress config w.content cell tx →
          (∀ other : IndexedCell, other.outPoint ≠ cell.outPoint → isKnown next other = isKnown db other) →
          (isKnown db cell = true → next = db) →
          ((eval (handle drivers (c.node dex now)) (forEach (indexOrderCell config) cells) next).1 = .ok () ↔
            (∀ p tx, Created c cell p tx → isKnown db cell = true ∨ HasAddress config w.content cell tx) ∧
            ∀ other ∈ cells, ∀ p tx, Created c other p tx →
              isKnown db other = true ∨ HasAddress config w.content other tx) := by
        intro next hrun hgood hframe hstored
        have hfirst : ∀ p tx, Created c cell p tx →
            isKnown db cell = true ∨ HasAddress config w.content cell tx := by
          intro p' tx' h'
          rw [hcreated.tx_unique h']
          exact hgood
        refine (ih next).trans ((and_iff_right hfirst).symm.trans (and_congr_right fun _ => ?_))
        refine forall_congr' fun other => forall_congr' fun hother => forall_congr' fun p' =>
          forall_congr' fun tx' => forall_congr' fun h' => ?_
        by_cases hsame : other.outPoint = cell.outPoint
        · obtain rfl := h'.unique hcreated hsame
          rw [hcreated.tx_unique h']
          rcases hgood with hknown | haddress
          · rw [hstored hknown]
          · exact iff_of_true (Or.inr haddress) (Or.inr haddress)
        · rw [hframe other hsame]
      rcases run_indexOrderCell hcreated hdeep hreads dex now db with
        ⟨hknown, hrun⟩ | ⟨hnew, haddress, next, hrun, hother⟩ | ⟨hnew, haddress, error, hrun⟩
      · have hstep : eval (handle drivers (c.node dex now)) (indexOrderCell config cell) db = _ := hrun
        rw [hstep]
        exact hlater hrun (Or.inl hknown) (fun _ _ => rfl) fun _ => rfl
      · have hstep : eval (handle drivers (c.node dex now)) (indexOrderCell config cell) db = _ := hrun
        rw [hstep]
        refine hlater hrun (Or.inr haddress) (isKnown_frame hother) fun hknown => ?_
        rw [hnew] at hknown
        cases hknown
      · have hstep : eval (handle drivers (c.node dex now)) (indexOrderCell config cell) db = _ := hrun
        rw [hstep]
        refine iff_of_false (fun h => by cases h) fun hall => ?_
        rcases hall.1 p tx hcreated with hknown | hfine
        · rw [hnew] at hknown
          cases hknown
        · exact haddress hfine

theorem created_of_liveCells {first last : ℕ} (h : cell ∈ c.liveCells dex first last) :
    ∃ p tx, Created c cell p tx ∧ p.blockNumber ≤ last := by
  obtain ⟨hlisted, -⟩ := List.mem_filter.mp h
  obtain ⟨ref, href, hcell⟩ := List.mem_filterMap.mp hlisted
  obtain ⟨output, hat, rfl⟩ := Option.map_eq_some_iff.mp hcell
  obtain ⟨p, hp, hmem⟩ := List.mem_flatMap.mp href
  obtain ⟨hfound, hrange⟩ := List.mem_filter.mp hp
  obtain ⟨i, -, rfl⟩ := List.mem_map.mp hmem
  obtain ⟨tx, hcontent, houtput⟩ := Option.bind_eq_some_iff.mp hat
  exact ⟨p, tx, ⟨hfound, rfl, hcontent, houtput⟩, of_decide_eq_true (Bool.and_eq_true_iff.mp hrange).2⟩

theorem eval_getHeaderHash (n : ℕ) : eval (handle drivers (c.node dex now))
    (request (.getHeaderHash n)) db = (.ok c.hashes[n]?, db) := by
  change ((c.node dex now).getHeaderHash (n : ℤ), db) = _
  rw [Chain.node]
  simp only [Int.natCast_nonneg, if_true, Int.toNat_natCast]

/-- The cells of a scan are buried deep enough. -/
theorem confirmations_of_le {depth tip blockNumber : ℕ} (hdepth : depth ≤ tip)
    (h : blockNumber ≤ tip - depth) : depth ≤ confirmationsOf tip blockNumber := by
  rw [confirmationsOf, if_pos (h.trans (Nat.sub_le ..))]
  omega

theorem scanRange_ok_iff (hreads : Reads drivers) (hne : c.hashes ≠ []) (fromBlock : ℤ)
    (hdepth : config.verification.confirmationDepth ≤ c.tip) :
    (run drivers (c.node dex now)
      (scanRange config fromBlock (c.tip - config.verification.confirmationDepth)) db).1 = .ok () ↔
      ∀ cell ∈ c.liveCells dex fromBlock.toNat (c.tip - config.verification.confirmationDepth),
        ∀ p tx, Created c cell p tx → isKnown db cell = true ∨ HasAddress config w.content cell tx := by
  have hlength : 0 < c.hashes.length := List.length_pos_iff.mpr hne
  have htip : c.tip < c.hashes.length := Nat.sub_lt hlength one_pos
  obtain ⟨hash, hhash⟩ : ∃ hash,
      c.hashes[c.tip - config.verification.confirmationDepth]? = some hash :=
    ⟨_, List.getElem?_eq_getElem (lt_of_le_of_lt (Nat.sub_le ..) htip)⟩
  have hheader : ∀ db : Db, eval (handle drivers (c.node dex now))
      (request (.getHeaderHash (c.tip - config.verification.confirmationDepth : ℕ))) db =
        (.ok (some hash), db) := by
    intro db
    rw [eval_getHeaderHash, hhash]
  have hcells : eval (handle drivers (c.node dex now)) (request (.findCells fromBlock.toNat
      (c.tip - config.verification.confirmationDepth))) db = (.ok (c.liveCells dex fromBlock.toNat
        (c.tip - config.verification.confirmationDepth)), db) := rfl
  have hdeep : ∀ cell ∈ c.liveCells dex fromBlock.toNat
      (c.tip - config.verification.confirmationDepth), ∃ p tx, Created c cell p tx ∧
        config.verification.confirmationDepth ≤ confirmationsOf c.tip p.blockNumber := by
    intro cell hcell
    obtain ⟨p, tx, hcreated, hlast⟩ := created_of_liveCells hcell
    exact ⟨p, tx, hcreated, confirmations_of_le hdepth hlast⟩
  refine Iff.trans ?_ (forEach_ok_iff hreads dex now hdeep db)
  simp only [run, scanRange, eval_bind, hheader, hcells]
  rcases eval (handle drivers (c.node dex now)) (forEach (indexOrderCell config)
    (c.liveCells dex fromBlock.toNat (c.tip - config.verification.confirmationDepth))) db with
    ⟨_ | _, t⟩
  · rfl
  · simp only [ne_eq, not_true_eq_false, if_false]
    exact iff_of_true rfl trivial

/-- A scan fails at a new order without an address and at nothing else. -/
theorem scan_ok_iff (hreads : Reads drivers) (hne : c.hashes ≠ []) {fromBlock : ℤ}
    (hcursor : run drivers (c.node dex now) resolveScanCursor db = (.ok fromBlock, db)) :
    (run drivers (c.node dex now) (scanForPendingOrders config) db).1 = .ok () ↔
      (config.verification.confirmationDepth ≤ c.tip →
        fromBlock ≤ (c.tip - config.verification.confirmationDepth : ℕ) →
        ∀ cell ∈ c.liveCells dex fromBlock.toNat (c.tip - config.verification.confirmationDepth),
          ∀ p tx, Created c cell p tx →
            isKnown db cell = true ∨ HasAddress config w.content cell tx) := by
  have htip : eval (handle drivers (c.node dex now)) (request .getTip) db = (.ok c.tip, db) := by
    change ((c.node dex now).getTip, db) = _
    simp only [Chain.node, if_neg hne]
  have hcursor : eval (handle drivers (c.node dex now)) resolveScanCursor db = (.ok fromBlock, db) :=
    hcursor
  rw [run, scanForPendingOrders, eval_bind, htip]
  by_cases hdepth : c.tip < config.verification.confirmationDepth
  · simp only [if_pos hdepth]
    exact iff_of_true rfl fun h => absurd h (not_le.mpr hdepth)
  · simp only [if_neg hdepth, eval_bind, hcursor]
    by_cases hrange : ((c.tip - config.verification.confirmationDepth : ℕ) : ℤ) < fromBlock
    · simp only [if_pos hrange]
      exact iff_of_true rfl fun _ h => absurd h (not_le.mpr hrange)
    · simp only [if_neg hrange]
      refine (scanRange_ok_iff hreads hne fromBlock (not_lt.mp hdepth)).trans ?_
      exact ⟨fun h _ _ => h, fun h => h (not_lt.mp hdepth) (not_lt.mp hrange)⟩

/-- A range fails with its first cell. -/
theorem scanRange_error {node : Node} {fromBlock : ℤ} {safeTip : ℕ} {hash : Hash} {error : Failure}
    {cells : List IndexedCell} {next : Db}
    (hheader : run drivers node (request (.getHeaderHash safeTip)) db = (.ok (some hash), db))
    (hcells : run drivers node (request (.findCells fromBlock.toNat safeTip)) db =
      (.ok (cell :: cells), db))
    (hindex : run drivers node (indexOrderCell config cell) db = (.error error, next)) :
    run drivers node (scanRange config fromBlock safeTip) db = (.error error, next) := by
  have hheader : eval (handle drivers node) (request (.getHeaderHash safeTip)) db = _ := hheader
  have hcells : eval (handle drivers node) (request (.findCells fromBlock.toNat safeTip)) db = _ := hcells
  have hindex : eval (handle drivers node) (indexOrderCell config cell) db = _ := hindex
  simp only [run, scanRange, eval_bind, hheader, hcells, forEach, hindex]

/-- A scan that starts fails with its range. -/
theorem scan_error {node : Node} {tip : ℕ} {fromBlock : ℤ} {error : Failure} {next : Db}
    (htip : run drivers node (request .getTip) db = (.ok tip, db))
    (hcursor : run drivers node resolveScanCursor db = (.ok fromBlock, db))
    (hdepth : config.verification.confirmationDepth ≤ tip)
    (hsafe : fromBlock ≤ (tip - config.verification.confirmationDepth : ℕ))
    (hrange : run drivers node (scanRange config fromBlock
      (tip - config.verification.confirmationDepth)) db = (.error error, next)) :
    run drivers node (scanForPendingOrders config) db = (.error error, next) := by
  have htip : eval (handle drivers node) (request .getTip) db = (.ok tip, db) := htip
  have hcursor : eval (handle drivers node) resolveScanCursor db = (.ok fromBlock, db) := hcursor
  rw [run, scanForPendingOrders, eval_bind, htip]
  simp only [if_neg (not_lt.mpr hdepth), eval_bind, hcursor, if_neg (not_lt.mpr hsafe)]
  exact hrange

theorem tick_error {node : Node} {error : Failure} {next : Db} (schedule : List Bool)
    (findMatches : List OrderDocument → List (OrderDocument × OrderDocument))
    (hreorg : run drivers node (detectReorg config.verification) db = (.ok (), db))
    (hscan : run drivers node (scanForPendingOrders config) db = (.error error, next)) :
    run drivers node (tick config schedule findMatches) db = (.error error, next) := by
  have hreorg : eval (handle drivers node) (detectReorg config.verification) db = (.ok (), db) := hreorg
  have hscan : eval (handle drivers node) (scanForPendingOrders config) db = (.error error, next) := hscan
  simp only [run, tick, eval_bind, hreorg, hscan]

end

/-- An event that indexing emits is always accepted and applied; a scan fails
exactly when it comes to an order that is not stored yet and whose maker's lock
has no address. -/
theorem only_addresses_fail_scans (drivers : Drivers) (config : Config) {w : World} (c : Chain w)
    (dex : Script) (now : ℕ) (hreads : Reads drivers) :
    (∀ cell p tx, Created c cell p tx →
      config.verification.confirmationDepth ≤ confirmationsOf c.tip p.blockNumber →
      (∀ db event next, run drivers (c.node dex now) (orderEventOf config cell) db =
          (.ok (some event), next) →
        ∀ db', run drivers (c.node dex now) (verifyEvent config.verification (.orderConfirmed event)) db' =
            (.ok (), db') ∧
          ∃ result next', applyEvent drivers (.orderConfirmed event) db' = .ok (result, next')) ∧
      ∀ db, (run drivers (c.node dex now) (indexOrderCell config cell) db).1 = .ok () ↔
        isKnown db cell = true ∨ HasAddress config w.content cell tx) ∧
    ∀ db fromBlock, c.hashes ≠ [] →
      run drivers (c.node dex now) resolveScanCursor db = (.ok fromBlock, db) →
      ((run drivers (c.node dex now) (scanForPendingOrders config) db).1 = .ok () ↔
        (config.verification.confirmationDepth ≤ c.tip →
          fromBlock ≤ (c.tip - config.verification.confirmationDepth : ℕ) →
          ∀ cell ∈ c.liveCells dex fromBlock.toNat (c.tip - config.verification.confirmationDepth),
            ∀ p tx, Created c cell p tx →
              isKnown db cell = true ∨ HasAddress config w.content cell tx)) := by
  refine ⟨fun cell p tx hcreated hdeep => ⟨fun db event next hrun db' => ?_, fun db => ?_⟩,
    fun db fromBlock hne hcursor => scan_ok_iff hreads hne hcursor⟩
  · obtain ⟨terms, owner, address, hadmits, howner, rfl⟩ := emitted_of_run hcreated hrun
    have hindexable := hcreated.indexable hdeep hadmits howner
    obtain ⟨result, next', happly, -⟩ :=
      applied_or_ignored hreads (fun _ => address) cell terms owner p tx db'
    exact ⟨hindexable.verified _, result, next', happly⟩
  · exact indexOrderCell_ok_iff hcreated hdeep hreads

section
open SettlementBuilder OrderLockRules
open TerminalStatuses (exampleConfig exampleLate)

theorem only_addresses_fail_scans_example : (run exampleDrivers (exampleLate.node exampleDex 0)
    (scanForPendingOrders exampleConfig) Db.empty).1 = .ok () :=
  ((only_addresses_fail_scans exampleDrivers exampleConfig exampleLate exampleDex 0
    exampleDrivers_reads).2 Db.empty 0 (by decide) rfl).mpr
    fun _ _ _ _ _ _ _ => Or.inr fun _ _ _ => ⟨"ckt1", rfl⟩

/-- Bech32m with the client library's limit of 1023 characters: the prefix, a
separator, the checksum, and the format, the code hash, the hash type and the
args in groups of five bits. -/
def exampleAddress (script : Script) : Except Failure String :=
  if 1023 < "ckt".length + 7 + (8 * (34 + script.args.length) + 4) / 5 then
    .error (.other "Exceeds length limit")
  else .ok "ckt1"

/-- A lock with 600 bytes of args. -/
def longOwner : Script := ⟨exampleHash 8, .type, List.replicate 600 0⟩

def longHash (script : Script) : Hash :=
  if script.args.length = 600 then exampleHash 2 else exampleScriptHash script

/-- The transaction that creates the sell order of the long lock. -/
def longCreation : RawTx := ⟨[⟨exampleHash 10, 0⟩], [exampleSellCell]⟩

def longTxs : List (Hash × RawTx) :=
  [(exampleHash 10, ⟨[], [⟨60000000000, longOwner, some exampleTokenType, exampleSellCell.data⟩]⟩),
    (exampleHash 5, longCreation)]

def longWorld : World where
  content hash := (longTxs.find? fun tx => tx.1 = hash).map Prod.snd
  block := exampleWorld.block

def longChain : Chain longWorld :=
  ⟨[exampleHash 20, exampleHash 21, exampleHash 22], by decide, by decide, by decide⟩

def longConfig : Config :=
  { exampleConfig with
    verification := { exampleVerification with hash := longHash }
    address := exampleAddress }

def longCell : IndexedCell := ⟨⟨exampleHash 5, 0⟩, exampleSellCell⟩

theorem longCell_created : Created longChain longCell ⟨1, exampleHash 21, 0, exampleHash 5⟩
    longCreation := by
  constructor <;> first | rfl | decide

theorem longCell_order : orderOf longConfig.verification longWorld.content longCell longCreation =
    some (decodedOf (exampleOrder sideSell (exampleHash 2)), longOwner) := by
  have hfunding : cellAt longWorld.content ⟨exampleHash 10, 0⟩ = some ⟨60000000000, longOwner,
      some exampleTokenType, exampleSellCell.data⟩ := rfl
  have hhash : longHash longOwner = exampleHash 2 := by
    simp only [longHash, longOwner, List.length_replicate, if_true]
  refine orderOf_eq_some.mpr ⟨exampleOrder sideSell (exampleHash 2), ?_, rfl, ?_⟩
  · constructor <;> first | rfl | decide
  · simp only [firstLock, longCreation, List.filterMap_cons, hfunding, List.filterMap_nil,
      List.find?_cons, longConfig, hhash, exampleOrder, decide_true, Option.map_some]

theorem longCell_fails (now : ℕ) : eval (handle exampleDrivers (longChain.node exampleDex now))
    (indexOrderCell longConfig longCell) Db.empty =
      (.error (.other "Exceeds length limit"), Db.empty) := by
  have haddress : longConfig.address longOwner = .error (.other "Exceeds length limit") := by
    decide +kernel
  exact indexOrderCell_error longCell_created rfl longCell_order haddress

theorem longChain_range_fails (now : ℕ) : run exampleDrivers (longChain.node exampleDex now)
    (scanRange longConfig 0 1) Db.empty = (.error (.other "Exceeds length limit"), Db.empty) := by
  have hcells : run exampleDrivers (longChain.node exampleDex now)
      (request (.findCells (0 : ℤ).toNat 1)) Db.empty = (.ok [longCell], Db.empty) := by
    have hlive : longChain.liveCells exampleDex 0 1 = [longCell] := by decide
    change (Except.ok (longChain.liveCells exampleDex 0 1), Db.empty) = _
    rw [hlive]
  exact scanRange_error rfl hcells (longCell_fails now)

/-- Every tick fails in its scan at a cell that is buried deep enough, and leaves
nothing that would let a later one succeed. -/
theorem every_tick_fails :
    Created longChain longCell ⟨1, exampleHash 21, 0, exampleHash 5⟩ longCreation ∧
    longConfig.verification.confirmationDepth ≤ confirmationsOf longChain.tip 1 ∧
    ∀ (schedule : List Bool) (findMatches : List OrderDocument → List (OrderDocument × OrderDocument))
      (now : ℕ), run exampleDrivers (longChain.node exampleDex now) (tick longConfig schedule findMatches)
        Db.empty = (.error (.other "Exceeds length limit"), Db.empty) := by
  refine ⟨longCell_created, by decide, fun schedule findMatches now => ?_⟩
  exact tick_error schedule findMatches rfl
    (scan_error rfl rfl (by decide) (by decide) (longChain_range_fails now))

end

end CkbDex.ScanFailures
