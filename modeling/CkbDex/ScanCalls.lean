import CkbDex.ExactlyOnce
import CkbDex.Interference
import CkbDex.TerminalStatuses

/-!
# The calls of a scan

Scans one after another over a chain that only grows. Between two calls the
chain grows or the bot is restarted; a call is answered by a node that may be
behind, with nothing, or not at all. Here is what each call keeps: the orders
that are stored, the checkpoints, and that every live order cell below a
checkpoint is indexed.
-/
namespace CkbDex.ScanCalls
open Checked Bytes CellContext OrderLock Text Documents BotEvents ChainCells
open Collections Projection Programs Operations Chains EventVerification IngestionSteps
open ProjectionSteps CkbDex.Bot GroundedDocuments Acceptance Observation ExactlyOnce Interference
open SettlementBuilder (toBigInt)

/-- The manifest spells the DEX lock as the client library does. -/
structure Configured (v : ChainVerification) (dex : Script) : Prop where
  codeHash : v.dexLock.codeHash = hashText dex.codeHash
  hashType : v.dexLock.hashType = hashTypeText dex.hashType

/-- An admissible order cell: its args are well formed, its asset is supported,
it holds what it declares, and its maker is among the inputs of the transaction
that created it. -/
structure OrderCell {w : World} (v : ChainVerification) (dex : Script) (c : Chain w)
    (cell : IndexedCell) (terms : OrderArgs) (p : Position) (tx : RawTx) : Prop where
  found : p ∈ positions w c.hashes
  txHash : p.txHash = cell.outPoint.txHash
  content : w.content p.txHash = some tx
  output : tx.outputs[cell.outPoint.index.toNat]? = some cell.cell
  identity : sameIdentity dex cell.cell.lock = true
  parsed : parseOrderArgs cell.cell.lock.args = .ok terms
  supported : hashText terms.xudtTypeHash ∈ v.supportedAssetHashes
  ask : directionOf terms.side = .ask → ∃ type, cell.cell.type = some type ∧
    v.hash type = terms.xudtTypeHash ∧ 16 ≤ cell.cell.data.length ∧
    ofLe (slice cell.cell.data 0 16) = terms.tokenAmount.toNat
  bid : directionOf terms.side ≠ .ask → cell.cell.type = none ∧
    terms.price.toNat < cell.cell.capacity
  funded : ∃ ref ∈ tx.inputs, ∃ funding, cellAt w.content ref = some funding ∧
    v.hash funding.lock = terms.makerLockHash

def Indexed (db : Db) (cell : IndexedCell) : Prop :=
  (db.orders.find? (toOrderId (outPointText cell.outPoint))).isSome = true

/-- A moment of a run, and the chain that answered the first call of the scan. -/
structure Moment (w : World) where
  chain : Chain w
  db : Db
  since : Option (Chain w)

/-- How a call is answered. -/
inductive Reply (w : World) where
  /-- By a node that follows the chain as it is or was. -/
  | chain (d : Chain w)
  /-- A transaction or a cell is not found. -/
  | missing
  | throws (message : String)
  /-- The call was made, but its answer is lost. -/
  | lost (d : Chain w) (message : String)
  /-- The transaction of the database fails. -/
  | aborts (message : String)

section
variable {w : World} (drivers : Drivers) (dex : Script)

def replied (db : Db) : (reply : Reply w) → (op : Op) → Answer (Res op) × Db
  | .chain d, op => handle drivers (d.node dex 0) op db
  | .missing, .getTransaction _ => (.ok none, db)
  | .missing, .getTransactionNoCache _ => (.ok none, db)
  | .missing, .getCell _ => (.ok none, db)
  | .missing, _ => (.error (.other "no answer"), db)
  | .throws message, _ => (.error (.other message), db)
  | .lost d message, op => (.error (.other message), (handle drivers (d.node dex 0) op db).2)
  | .aborts message, .transact _ => (.ok (.aborted (.other message)), db)
  | .aborts message, _ => (.error (.other message), db)

/-- The chain that a reply comes from. -/
def Reply.source : Reply w → Option (Chain w)
  | .chain d => some d
  | .lost d _ => some d
  | _ => none

def sinceAfter (since : Option (Chain w)) (reply : Reply w) : Option (Chain w) :=
  match since, reply with
  | none, .chain d => some d
  | _, _ => since

/-- A call of the scan, with an answer that is permitted there. -/
def Performs (permitted : Moment w → Op → Reply w → Prop) (op : Op) (s : Moment w)
    (answer : Answer (Res op)) (t : Moment w) : Prop :=
  ∃ reply : Reply w, (∀ d, reply.source = some d → d.hashes <+: s.chain.hashes) ∧
    permitted s op reply ∧ (answer, t.db) = replied drivers dex s.db reply op ∧
    t.chain = s.chain ∧ t.since = sinceAfter s.since reply

end

section
variable {w : World}

/-- The chain grows. -/
structure Grows (s t : Moment w) : Prop where
  grown : s.chain.hashes <+: t.chain.hashes
  db : t.db = s.db
  since : t.since = s.since

/-- A scan starts, the first one or, after a restart, one more. -/
structure Starts (config : Config) (s : Moment w)
    (p : Prog Op (fun op => Answer (Res op)) (Except Failure Unit)) (t : Moment w) : Prop where
  program : p = (scanForPendingOrders config).run
  chain : t.chain = s.chain
  db : t.db = s.db
  since : t.since = none

abbrev ScanRuns (config : Config) (drivers : Drivers) (dex : Script)
    (permitted : Moment w → Op → Reply w → Prop) :=
  Run (Grows (w := w)) (Performs drivers dex permitted) (Starts config)

/-- What the chain has is found, be it a transaction, a cell or the blocks whose
cells are listed; a tip is at most one block behind the first answer of the
scan; and the cursor is never the newest order's. -/
def InStep (s : Moment w) : Op → Reply w → Prop
  | .getTip, .chain d => ∀ base, s.since = some base → base.tip ≤ d.tip + 1
  | .findCells _ last, .chain d => last < s.chain.hashes.length → last < d.hashes.length
  | .getTransaction txHash, .chain d =>
      (s.chain.response txHash).isSome = true → (d.response txHash).isSome = true
  | .getTransaction txHash, .missing => s.chain.response txHash = none
  | .getCell ref, .missing => cellAt w.content ref = none
  | .latestOrder, .chain _ => s.db.orders.docs = []
  | _, _ => True

end

section
variable {w : World} {c d : Chain w} {p : Position} {ref : CellRef}

theorem getElem?_of_grown {hashes hashes' : List Hash} (h : hashes <+: hashes') {n : ℕ}
    (hlt : n < hashes.length) : hashes'[n]? = hashes[n]? := by
  obtain ⟨rest, rfl⟩ := h
  exact List.getElem?_append_left hlt

theorem positions_mono (h : c.hashes <+: d.hashes) (hp : p ∈ positions w c.hashes) :
    p ∈ positions w d.hashes := by
  obtain ⟨hhash, hblock⟩ := mem_positions.mp hp
  refine mem_positions.mpr ⟨?_, hblock⟩
  rw [getElem?_of_grown h (List.getElem?_eq_some_iff.mp hhash).1]
  exact hhash

theorem positions_below (h : c.hashes <+: d.hashes) (hp : p ∈ positions w d.hashes)
    (hlt : p.blockNumber < c.hashes.length) : p ∈ positions w c.hashes := by
  obtain ⟨hhash, hblock⟩ := mem_positions.mp hp
  exact mem_positions.mpr ⟨(getElem?_of_grown h hlt).symm.trans hhash, hblock⟩

theorem isLive_iff : c.isLive ref = true ↔
    (∃ p ∈ positions w c.hashes, p.txHash = ref.txHash) ∧ (cellAt w.content ref).isSome = true ∧
      ref ∉ c.spent := by
  have hposition : (c.positionOf ref.txHash).isSome = true ↔
      ∃ p ∈ positions w c.hashes, p.txHash = ref.txHash := by
    rw [Option.isSome_iff_exists]
    exact exists_congr fun p => Chain.positionOf_eq_some
  simp only [Chain.isLive, Bool.and_eq_true, decide_eq_true_eq, hposition, and_assoc]

/-- A live cell was live ever since its creation. -/
theorem isLive_before (h : c.hashes <+: d.hashes) (hp : p ∈ positions w c.hashes)
    (htx : p.txHash = ref.txHash) (hlive : d.isLive ref = true) : c.isLive ref = true := by
  obtain ⟨-, hcell, hunspent⟩ := isLive_iff.mp hlive
  refine isLive_iff.mpr ⟨⟨p, hp, htx⟩, hcell, fun hspent => hunspent ?_⟩
  obtain ⟨q, hq, hinput⟩ := List.mem_flatMap.mp hspent
  exact List.mem_flatMap.mpr ⟨q, positions_mono h hq, hinput⟩

theorem response_of_grown {txHash : Hash} {response : TxResponse} (h : c.hashes <+: d.hashes)
    (hd : d.response txHash = some response) (hc : (c.response txHash).isSome = true) :
    c.response txHash = some response := by
  obtain ⟨found, hfound⟩ := Option.isSome_iff_exists.mp hc
  obtain ⟨p, tx, hp, htx, rfl⟩ := Chain.response_eq_some.mp hfound
  obtain ⟨hmem, hhash⟩ := Chain.positionOf_eq_some.mp hp
  have hposition := Chain.positionOf_eq_some.mpr ⟨positions_mono h hmem, hhash⟩
  rw [hfound, ← hd, Chain.response_eq_some.mpr ⟨p, tx, hposition, htx, rfl⟩]

theorem mem_liveCells {dex : Script} {first last : ℕ} {cell : IndexedCell} {tx : RawTx}
    (hp : p ∈ positions w c.hashes) (htx : p.txHash = cell.outPoint.txHash)
    (hcontent : w.content p.txHash = some tx)
    (houtput : tx.outputs[cell.outPoint.index.toNat]? = some cell.cell)
    (hidentity : sameIdentity dex cell.cell.lock = true) (hfirst : first ≤ p.blockNumber)
    (hlast : p.blockNumber ≤ last) (hlive : c.isLive cell.outPoint = true) :
    cell ∈ c.liveCells dex first last := by
  have hlt := (List.getElem?_eq_some_iff.mp houtput).1
  have href : cell.outPoint ∈ Chain.outputRefs (w := w) p.txHash := by
    refine List.mem_map.mpr ⟨cell.outPoint.index.toNat, ?_, ?_⟩
    · simpa [hcontent] using hlt
    · rw [htx, BitVec.ofNat_toNat, BitVec.setWidth_eq]
  have hat : cellAt w.content cell.outPoint = some cell.cell := by
    rw [cellAt, ← htx, hcontent, Option.bind_some]
    exact houtput
  refine List.mem_filter.mpr ⟨List.mem_filterMap.mpr ⟨cell.outPoint, ?_, ?_⟩, ?_⟩
  · exact List.mem_flatMap.mpr ⟨p, List.mem_filter.mpr ⟨hp, by simp [hfirst, hlast]⟩, href⟩
  · rw [hat, Option.map_some]
  · rw [hlive, hidentity, Bool.and_self]

variable {v : ChainVerification} {dex : Script} {cell : IndexedCell} {terms : OrderArgs} {tx : RawTx}

theorem OrderCell.below (h : OrderCell v dex d cell terms p tx) (hgrown : c.hashes <+: d.hashes)
    (hlt : p.blockNumber < c.hashes.length) : OrderCell v dex c cell terms p tx :=
  ⟨positions_below hgrown h.found hlt, h.txHash, h.content, h.output, h.identity, h.parsed,
    h.supported, h.ask, h.bid, h.funded⟩

/-- The scan does not skip the cell of an admissible order. -/
theorem OrderCell.admitted (h : OrderCell v dex c cell terms p tx) (hconfigured : Configured v dex) :
    admitted v cell.cell = some (decodedOf terms) := by
  have hidentity := h.identity
  simp only [sameIdentity, Bool.and_eq_true, decide_eq_true_eq] at hidentity
  have hdecoded : deserializeLockScriptAndArgs v cell.cell.lock = .ok (decodedOf terms) := by
    simp only [deserializeLockScriptAndArgs, bind_eq_ok, throwIf_eq_ok]
    refine ⟨(), ?_, decodeDexOrderArgs_eq_ok.mpr ⟨_, _, hexBytes_toHex _, h.parsed, rfl⟩⟩
    simp [hconfigured.codeHash, hconfigured.hashType, hidentity.1, hidentity.2]
  have hholds : holdsDeclared v cell.cell (decodedOf terms) = true := by
    unfold holdsDeclared
    split_ifs with hask
    · obtain ⟨type, htype, hhash, hlength, hheld⟩ := h.ask hask
      simp [htype, hhash, decodedOf, decodeUdtAmount, not_lt.mpr hlength, hheld]
    · obtain ⟨htype, hprice⟩ := h.bid hask
      simp [htype, decodedOf, hprice]
  have hsupported : (decodedOf terms).udtTypeHash ∈ v.supportedAssetHashes := h.supported
  simp only [Bot.admitted, hdecoded, hsupported, hholds, and_self, if_true]

end

/-- The id of the event that confirms the order of a cell in a block. -/
def confirmId (ref : CellRef) (blockHash : Option Hash) : String :=
  "order-confirmed:" ++ toOrderId (outPointText ref) ++ ":" ++ blockHashText blockHash

/-- An order whose confirmation was processed is stored. -/
def Recorded (db : Db) : Prop :=
  ∀ ref blockHash, db.processed (confirmId ref blockHash) = true →
    (db.orders.find? (toOrderId (outPointText ref))).isSome = true

theorem confirmId_parts {hash hash' index index' block block' : String}
    (hlength : hash.toList.length = hash'.toList.length) (hindex : ∀ c ∈ index.toList, c ≠ ':')
    (hindex' : ∀ c ∈ index'.toList, c ≠ ':')
    (h : "order-confirmed:" ++ (hash ++ ":" ++ index) ++ ":" ++ block =
      "order-confirmed:" ++ (hash' ++ ":" ++ index') ++ ":" ++ block') :
    hash ++ ":" ++ index = hash' ++ ":" ++ index' := by
  have hlist := congrArg String.toList h
  simp only [String.toList_append, List.append_assoc, List.append_cancel_left_eq] at hlist
  obtain ⟨hhash, hrest⟩ := List.append_inj hlist hlength
  have hsame := append_colon_injective hindex hindex' (List.append_cancel_left hrest)
  rw [String.toList_inj.mp hhash, String.toList_inj.mp hsame]

theorem toOrderId_of_confirmId {a b : CellRef} {blockHash blockHash' : Option Hash}
    (h : confirmId a blockHash = confirmId b blockHash') :
    toOrderId (outPointText a) = toOrderId (outPointText b) := by
  have hlength : (hashText a.txHash).toList.length = (hashText b.txHash).toList.length :=
    (length_of_isHash (isHash_hashText _)).trans (length_of_isHash (isHash_hashText _)).symm
  exact confirmId_parts hlength ne_colon_of_mem ne_colon_of_mem h

section
variable {w : World}

/-- Every admissible order cell that is live and in a block below a number is
indexed. -/
def Covered (v : ChainVerification) (dex : Script) (s : Moment w) (n : ℕ) : Prop :=
  ∀ cell terms p tx, OrderCell v dex s.chain cell terms p tx → s.chain.isLive cell.outPoint = true →
    p.blockNumber < n → Indexed s.db cell

structure Valid (v : ChainVerification) (dex : Script) (s : Moment w) : Prop where
  covered : ∀ checkpoint ∈ s.db.checkpoints.docs, checkpoint.blockNumber < s.chain.hashes.length ∧
    Covered v dex s (checkpoint.blockNumber + 1)
  recorded : Recorded s.db
  since : ∀ base, s.since = some base → base.hashes <+: s.chain.hashes

/-- What every call of a scan guarantees. -/
structure Later (v : ChainVerification) (dex : Script) (s t : Moment w) : Prop where
  grown : s.chain.hashes <+: t.chain.hashes
  stored : ∀ id, (s.db.orders.find? id).isSome = true → (t.db.orders.find? id).isSome = true
  since : ∀ base, s.since = some base → t.since = some base
  valid : Valid v dex s → Valid v dex t

variable {v : ChainVerification} {dex : Script} {s t u : Moment w}

theorem Later.refl (s : Moment w) : Later v dex s s :=
  ⟨List.prefix_refl _, fun _ h => h, fun _ h => h, fun h => h⟩

theorem Later.trans (hst : Later v dex s t) (htu : Later v dex t u) : Later v dex s u :=
  ⟨hst.grown.trans htu.grown, fun id h => htu.stored id (hst.stored id h),
    fun base h => htu.since base (hst.since base h), fun h => htu.valid (hst.valid h)⟩

/-- Blocks that were there are still covered. -/
theorem Covered.later {n : ℕ} (h : Covered v dex s n) (hn : n ≤ s.chain.hashes.length)
    (hgrown : s.chain.hashes <+: t.chain.hashes)
    (hstored : ∀ id, (s.db.orders.find? id).isSome = true → (t.db.orders.find? id).isSome = true) :
    Covered v dex t n := by
  intro cell terms p tx horder hlive hlt
  have hbefore := horder.below hgrown (Nat.lt_of_lt_of_le hlt hn)
  exact hstored _ (h cell terms p tx hbefore
    (isLive_before hgrown hbefore.found hbefore.txHash hlive) hlt)

/-- A change that adds no checkpoint. -/
theorem Valid.later (h : Valid v dex s) (hgrown : s.chain.hashes <+: t.chain.hashes)
    (hstored : ∀ id, (s.db.orders.find? id).isSome = true → (t.db.orders.find? id).isSome = true)
    (hcheckpoints : ∀ checkpoint ∈ t.db.checkpoints.docs, checkpoint ∈ s.db.checkpoints.docs)
    (hrecorded : Recorded t.db) (hsince : ∀ base, t.since = some base → base.hashes <+: t.chain.hashes) :
    Valid v dex t := by
  refine ⟨fun checkpoint hmem => ?_, hrecorded, hsince⟩
  obtain ⟨hlt, hcovered⟩ := h.covered checkpoint (hcheckpoints checkpoint hmem)
  exact ⟨Nat.lt_of_lt_of_le hlt hgrown.length_le, hcovered.later hlt hgrown hstored⟩

theorem Grows.later (h : Grows s t) : Later v dex s t := by
  refine ⟨h.grown, fun id hid => ?_, fun base hbase => h.since.trans hbase, fun hvalid => ?_⟩
  · rw [h.db]
    exact hid
  · refine hvalid.later h.grown (fun id hid => ?_) (fun checkpoint hmem => ?_) ?_ fun base hbase => ?_
    · rw [h.db]
      exact hid
    · rw [← h.db]
      exact hmem
    · rw [h.db]
      exact hvalid.recorded
    · exact (hvalid.since base (h.since.symm.trans hbase)).trans h.grown

/-- The calls of a scan but the one that saves its checkpoint. -/
def Harmless (op : Op) : Prop :=
  isQuery op = true ∨ (∃ id message, op = .recordFailed id message) ∨
    (∃ event ref blockHash, op = .transact (.orderConfirmed event) ∧
      event.outPoint = outPointText ref ∧ event.eventId = confirmId ref blockHash) ∨
    ∃ n, op = .trimCheckpoints n

/-- What a harmless call leaves of the database. -/
structure KeepsOrders (db next : Db) : Prop where
  stored : ∀ id, (db.orders.find? id).isSome = true → (next.orders.find? id).isSome = true
  checkpoints : ∀ checkpoint ∈ next.checkpoints.docs, checkpoint ∈ db.checkpoints.docs
  recorded : Recorded db → Recorded next

theorem KeepsOrders.refl (db : Db) : KeepsOrders db db :=
  ⟨fun _ h => h, fun _ h => h, fun h => h⟩

variable {drivers : Drivers} {node : Node} {db next : Db} {result : IngestionResult}

theorem processed_of_recordFailed {id message other : String}
    (h : (recordFailed id message db).processed other = true) : db.processed other = true := by
  unfold recordFailed at h
  split_ifs at h with hprocessed
  · exact h
  · simp only [Db.processed, Collection.find?_put] at h
    split_ifs at h
    · simp [Db.isFailed] at h
    · exact h

theorem keepsOrders_recordFailed (id message : String) : KeepsOrders db (recordFailed id message db) := by
  have hsame := sameProjection_recordFailed id message db
  refine ⟨fun id hid => ?_, fun checkpoint hmem => ?_, fun hrecorded ref blockHash hprocessed => ?_⟩
  · rw [hsame.orders]
    exact hid
  · rw [← hsame.checkpoints]
    exact hmem
  · rw [hsame.orders]
    exact hrecorded ref blockHash (processed_of_recordFailed hprocessed)

/-- A committed confirmation leaves its order stored. -/
theorem stored_of_committed {event : OrderConfirmedEvent}
    (h : transact drivers (.orderConfirmed event) db = (.committed result, next)) :
    (next.orders.find? (toOrderId event.outPoint)).isSome = true ∧
      (∀ id, (db.orders.find? id).isSome = true → (next.orders.find? id).isSome = true) ∧
      next.checkpoints = db.checkpoints ∧
      ∀ other, next.processed other = true ↔ other = event.eventId ∨ db.processed other = true := by
  obtain ⟨-, projected, happly, rfl⟩ := transact_committed h
  obtain ⟨hevents, hcheckpoints⟩ := events_of_applyEvent happly
  refine ⟨?_, ?_, hcheckpoints, fun other => ?_⟩
  · change (projected.orders.find? _).isSome = true
    rcases applyOrderConfirmed_eq_ok.mp happly with ⟨hindexed, -, rfl⟩ | ⟨-, -, -, -, -, rfl⟩
    · cases hfind : projected.orders.find? (toOrderId event.outPoint) with
      | none => simp [alreadyIndexed, hfind] at hindexed
      | some order => rfl
    · rw [Db.putOrder, Collection.find?_put]
      simp [confirmedDocument]
  · intro id hid
    change (projected.orders.find? id).isSome = true
    rcases applyOrderConfirmed_eq_ok.mp happly with ⟨-, -, rfl⟩ | ⟨-, -, -, -, -, rfl⟩
    · exact hid
    · rw [Db.putOrder, Collection.find?_put]
      split_ifs
      · rfl
      · exact hid
  · rw [processed_recorded]
    refine or_congr Iff.rfl ?_
    rw [Db.processed, Db.processed, hevents]

theorem keepsOrders_transact {event : OrderConfirmedEvent} {ref : CellRef} {blockHash : Option Hash}
    (hout : event.outPoint = outPointText ref) (hid : event.eventId = confirmId ref blockHash) :
    KeepsOrders db (transact drivers (.orderConfirmed event) db).2 := by
  rcases transact_cases drivers (.orderConfirmed event) db with ⟨result, -, -, hcommitted, -⟩ | ⟨hsame, -⟩
  · obtain ⟨hstored, hkept, hcheckpoints, hprocessed⟩ :=
      stored_of_committed (Prod.ext hcommitted rfl : transact drivers (.orderConfirmed event) db =
          (.committed result, _))
    refine ⟨hkept, fun checkpoint hmem => hcheckpoints ▸ hmem, fun hrecorded ref' blockHash' hnew => ?_⟩
    rcases (hprocessed _).mp hnew with hsame | hold
    · rw [toOrderId_of_confirmId (hsame.trans hid), ← hout]
      exact hstored
    · exact hkept _ (hrecorded ref' blockHash' hold)
  · rw [hsame]
    exact .refl db

theorem keepsOrders_handle {op : Op} (h : Harmless op) : KeepsOrders db (handle drivers node op db).2 := by
  rcases h with hquery | ⟨id, message, rfl⟩ | ⟨event, ref, blockHash, rfl, hout, hid⟩ | ⟨n, rfl⟩
  · rw [handle_query hquery db]
    exact .refl db
  · exact keepsOrders_recordFailed id message
  · exact keepsOrders_transact hout hid
  · exact ⟨fun _ hid => hid, fun _ hmem => (Collection.mem_docs_deleteWhere.mp hmem).1, fun hr => hr⟩

end

/-- Calls that are answered by a node or throw, when they are in step. -/
def ordinary : Op → Bool
  | .transact _ | .getTransactionNoCache _ => false
  | _ => true

section
variable {w : World} {v : ChainVerification} {dex : Script} {s t u : Moment w} {drivers : Drivers}
  {permitted : Moment w → Op → Reply w → Prop} {op : Op} {answer : Answer (Res op)} {base : Chain w}

theorem replied_db (db : Db) (reply : Reply w) (op : Op) : (replied drivers dex db reply op).2 = db ∨
    ∃ node, (replied drivers dex db reply op).2 = (handle drivers node op db).2 := by
  cases reply with
  | chain d => exact Or.inr ⟨_, rfl⟩
  | lost d message => exact Or.inr ⟨_, rfl⟩
  | throws message => exact Or.inl rfl
  | missing => cases op <;> exact Or.inl rfl
  | aborts message => cases op <;> exact Or.inl rfl

/-- Nodes and the database throw plain errors. -/
theorem handle_error {d : Chain w} {db : Db} {error : Failure}
    (h : (handle drivers (d.node dex 0) op db).1 = .error error) : ∃ message, error = .other message := by
  cases op with
  | getTip =>
      simp only [handle, Chain.node] at h
      split_ifs at h
      exact ⟨_, (Except.error.inj h).symm⟩
  | getHeaderHash n =>
      simp only [handle, Chain.node] at h
      split_ifs at h
      exact ⟨_, (Except.error.inj h).symm⟩
  | sendTransaction settlement => exact ⟨_, (Except.error.inj h).symm⟩
  | _ => cases h

theorem performs_error {error : Failure} (h : Performs drivers dex permitted op s (.error error) t) :
    ∃ message, error = .other message := by
  obtain ⟨reply, -, -, hreplied, -⟩ := h
  have hanswer := (congrArg Prod.fst hreplied).symm
  cases reply with
  | chain d => exact handle_error hanswer
  | lost d message => exact ⟨message, (Except.error.inj hanswer).symm⟩
  | throws message => exact ⟨message, (Except.error.inj hanswer).symm⟩
  | missing => cases op <;> first | exact ⟨_, (Except.error.inj hanswer).symm⟩ | cases hanswer
  | aborts message => cases op <;> first | exact ⟨_, (Except.error.inj hanswer).symm⟩ | cases hanswer

theorem sinceAfter_some {reply : Reply w} : sinceAfter (some base) reply = some base := by
  cases reply <;> rfl

/-- A call in step is answered as by a node in step, or throws. -/
theorem performs_ordinary (hop : ordinary op = true) (h : Performs drivers dex InStep op s answer t) :
    (∃ message, answer = .error (.other message)) ∨ ∃ d : Chain w, d.hashes <+: t.chain.hashes ∧
      answer = (handle drivers (d.node dex 0) op s.db).1 ∧ InStep s op (.chain d) ∧
      (op = .getTip → t.since = sinceAfter s.since (.chain d)) := by
  obtain ⟨reply, hpast, hstep, hreplied, hchain, hsince⟩ := h
  have hanswer := congrArg Prod.fst hreplied
  rw [hchain]
  cases reply with
  | chain d => exact Or.inr ⟨d, hpast d rfl, hanswer, hstep, fun _ => hsince⟩
  | lost d message => exact Or.inl ⟨message, hanswer⟩
  | throws message => exact Or.inl ⟨message, hanswer⟩
  | aborts message => cases op <;> first | exact Or.inl ⟨_, hanswer⟩ | cases hop
  | missing =>
      cases op with
      | getTransaction txHash =>
          -- Nothing is found because the chain has nothing.
          have hnone : s.chain.response txHash = none := hstep
          exact Or.inr ⟨s.chain, List.prefix_refl _, hanswer.trans (congrArg Except.ok hnone.symm), id, nofun⟩
      | getCell ref =>
          have hnone : cellAt w.content ref = none := hstep
          exact Or.inr ⟨s.chain, List.prefix_refl _, hanswer.trans (congrArg Except.ok hnone.symm),
              trivial, nofun⟩
      | getTransactionNoCache txHash => cases hop
      | transact event => cases hop
      | _ => exact Or.inl ⟨_, hanswer⟩

/-- What every node answers alike. -/
theorem performs_same {value : Res op} (hop : ordinary op = true)
    (hvalue : ∀ node, (handle drivers node op s.db).1 = .ok value)
    (h : Performs drivers dex InStep op s answer t) :
    (∃ message, answer = .error (.other message)) ∨ answer = .ok value := by
  rcases performs_ordinary hop h with herror | ⟨d, -, hanswer, -⟩
  · exact Or.inl herror
  · exact Or.inr (hanswer.trans (hvalue _))

theorem performs_transact {event : BotEvent} {answer : Answer Outcome}
    (h : Performs drivers dex permitted (.transact event) s answer t) :
    (∃ message, answer = .error (.other message)) ∨ (∃ message, answer = .ok (.aborted (.other message))) ∨
      answer = .ok (transact drivers event s.db).1 ∧ t.db = (transact drivers event s.db).2 := by
  obtain ⟨reply, -, -, hreplied, -⟩ := h
  have hanswer := congrArg Prod.fst hreplied
  cases reply with
  | chain d => exact Or.inr (Or.inr ⟨hanswer, congrArg Prod.snd hreplied⟩)
  | aborts message => exact Or.inr (Or.inl ⟨message, hanswer⟩)
  | _ => exact Or.inl ⟨_, hanswer⟩

theorem Performs.chain (h : Performs drivers dex permitted op s answer t) : t.chain = s.chain := by
  obtain ⟨_, _, _, _, hchain, _⟩ := h
  exact hchain

theorem Performs.since (h : Performs drivers dex permitted op s answer t) (hbase : s.since = some base) :
    t.since = some base := by
  obtain ⟨_, _, _, _, _, hsince⟩ := h
  rw [hsince, hbase, sinceAfter_some]

/-- A scan notes a chain only from an answer, so that the chain is past that. -/
theorem Performs.past (h : Performs drivers dex permitted op s answer t)
    (hs : ∀ base, s.since = some base → base.hashes <+: s.chain.hashes) (ht : t.since = some base) :
    base.hashes <+: t.chain.hashes := by
  obtain ⟨reply, hpast, -, -, hchain, hsince⟩ := h
  rw [hchain]
  rw [hsince] at ht
  cases hold : s.since with
  | some first =>
      rw [hold, sinceAfter_some] at ht
      exact hs base (hold.trans ht)
  | none =>
      rw [hold] at ht
      cases reply with
      | chain d =>
          obtain rfl := Option.some_inj.mp ht
          exact hpast d rfl
      | _ => cases ht

theorem Performs.db (h : Performs drivers dex permitted op s answer t) : t.db = s.db ∨
    ∃ node, t.db = (handle drivers node op s.db).2 := by
  obtain ⟨reply, _, _, hreplied, _, _⟩ := h
  rw [show t.db = _ from congrArg Prod.snd hreplied]
  exact replied_db s.db reply op

theorem Performs.later (hgrows : Grows s t) (h : Performs drivers dex permitted op t answer u)
    (hharmless : Harmless op) : Later v dex s u := by
  have hkeeps : KeepsOrders t.db u.db := by
    rcases h.db with hsame | ⟨node, hhandled⟩
    · rw [hsame]
      exact .refl t.db
    · rw [hhandled]
      exact keepsOrders_handle hharmless
  have hchain : t.chain.hashes <+: u.chain.hashes := by rw [h.chain]
  exact hgrows.later.trans ⟨hchain, hkeeps.stored, fun base => h.since, fun hvalid =>
    hvalid.later hchain hkeeps.stored hkeeps.checkpoints (hkeeps.recorded hvalid.recorded)
      fun base => h.past hvalid.since⟩

end

end CkbDex.ScanCalls
