import CkbDex.EventVerification

/-!
# What ingesting an event can do

Inversion lemmas: what a successful verification established about the chain,
what each `apply` function did, and what one whole `ingest` can do to the
database. Later modules derive their invariants from these alone.
-/
namespace CkbDex.IngestionSteps
open Checked Bytes CellContext Text Number Documents BotEvents ChainCells Collections Projection
open Programs Operations EventVerification
open SettlementBuilder (toBigInt)

/-- Evaluation against one node. -/
abbrev run {α : Type} (drivers : Drivers) (node : Node) (x : Proc α) (db : Db) :
    Except Failure α × Db :=
  eval (handle drivers node) x db

def isQuery : Op → Bool
  | .transact _ => false
  | .recordFailed _ _ => false
  | .reserve _ _ => false
  | .revertToLive _ => false
  | .extendReservation _ _ => false
  | .trackPending _ _ => false
  | .upsertCheckpoint _ => false
  | .trimCheckpoints _ => false
  | .deleteCheckpointsAbove _ => false
  | _ => true

/-- Queries that ask and do not submit. -/
def isRead : Op → Bool
  | .sendTransaction _ => false
  | op => isQuery op

theorem isQuery_of_isRead {op : Op} (h : isRead op = true) : isQuery op = true := by
  cases op <;> first | exact h | cases h

theorem handle_query {drivers : Drivers} {node : Node} {op : Op} (h : isQuery op = true) (db : Db) :
    (handle drivers node op db).2 = db := by
  cases op <;> first | rfl | cases h

section
variable {v : ChainVerification}

@[simp] theorem only_request {allowed : Op → Prop} {op : Op} :
    Only allowed (request op) ↔ allowed op :=
  only_perform

theorem reads_readInputLockHashes (hash : Script → Hash) (inputs : List CellRef) :
    Only (fun op => isRead op = true) (readInputLockHashes hash inputs) := by
  induction inputs with
  | nil => exact only_pure _
  | cons input inputs ih =>
      exact only_bind (only_request.mpr rfl) fun _ => only_bind ih fun _ => only_pure _

theorem reads_readTransaction (hash : Script → Hash) (txHash : Hex) :
    Only (fun op => isRead op = true) (readTransaction hash txHash) := by
  refine only_bind (only_require _) fun key => only_bind (only_request.mpr rfl) fun response => ?_
  cases response with
  | none => exact only_pure _
  | some found => exact only_bind (reads_readInputLockHashes _ _) fun _ => only_pure _

theorem reads_requireConfirmed (txHash : Hex) (event : EventBase) :
    Only (fun op => isRead op = true) (requireConfirmed v txHash event) :=
  only_bind (reads_readTransaction _ _) fun _ => only_bind (only_require _) fun _ =>
    only_bind (only_request.mpr rfl) fun _ => only_bind (only_require _) fun _ => only_pure _

theorem reads_verifyEvent (event : BotEvent) :
    Only (fun op => isRead op = true) (verifyEvent v event) := by
  cases event with
  | orderConfirmed e => exact only_bind (reads_requireConfirmed _ _) fun _ => only_require _
  | orderCancelled e =>
      refine only_bind (only_request.mpr rfl) fun orders => ?_
      cases orders.head? with
      | none => exact only_pure _
      | some order => exact only_bind (reads_requireConfirmed _ _) fun _ => only_require _
  | settlementSubmitted e => exact only_bind (reads_readTransaction _ _) fun _ => only_require _
  | tradeConfirmed e =>
      refine only_bind (only_require _) fun _ => only_bind (only_request.mpr rfl) fun orders => ?_
      split_ifs
      · exact only_pure _
      · exact only_bind (only_require _) fun _ => only_bind (reads_requireConfirmed _ _) fun _ =>
          only_require _
  | chainReorg e =>
      exact only_bind (only_require _) fun _ => only_bind (only_require _) fun _ =>
        only_bind (only_request.mpr rfl) fun _ => only_require _

theorem only_verifyEvent (event : BotEvent) :
    Only (fun op => isQuery op = true) (verifyEvent v event) :=
  (reads_verifyEvent event).mono fun _ => isQuery_of_isRead

end

section
variable {drivers : Drivers} {node : Node} {v : ChainVerification}

theorem run_queries {α : Type} {x : Proc α} (h : Only (fun op => isQuery op = true) x)
    (drivers : Drivers) (node : Node) (db : Db) : (run drivers node x db).2 = db :=
  (eval_only (R := fun a b => b = a) (fun _ => rfl) (fun h₁ h₂ => h₂.trans h₁)
    (fun _ hop s => handle_query hop s) h db)

theorem run_readInputLockHashes {hash : Script → Hash} {inputs : List CellRef} {hashes : List Hex}
    {db db' : Db} (h : run drivers node (readInputLockHashes hash inputs) db = (.ok hashes, db')) :
    ∀ text, text ∈ hashes ↔ ∃ ref ∈ inputs, ∃ cell, node.getCell ref = .ok (some cell) ∧
      text = hashText (hash cell.lock) := by
  induction inputs generalizing hashes db db' with
  | nil =>
      simp only [readInputLockHashes, run, eval_pure, Prod.mk.injEq, Except.ok.injEq] at h
      obtain ⟨rfl, -⟩ := h
      simp
  | cons input inputs ih =>
      simp only [readInputLockHashes, run, eval_bind_eq_ok] at h
      obtain ⟨previous, u, hp, rest, w, hr, hlast⟩ := h
      simp only [eval_pure, Prod.mk.injEq, Except.ok.injEq] at hlast
      obtain ⟨rfl, -⟩ := hlast
      have hcell : node.getCell input = .ok previous := congrArg Prod.fst hp
      have hrest := ih hr
      intro text
      simp only [List.mem_append, Option.mem_toList, Option.map_eq_some_iff, hrest,
        List.mem_cons, exists_eq_or_imp, hcell, Except.ok.injEq]
      refine or_congr ?_ Iff.rfl
      exact exists_congr fun cell => and_congr_right fun _ => eq_comm

/-- What the reader found at a hash. -/
structure Found (hash : Script → Hash) (node : Node) (txHash : Hex) (response : TxResponse)
    (tx : ChainTransaction) : Prop where
  key : ∃ key, hashFrom txHash = some key ∧ node.getTransactionNoCache key = .ok (some response)
  text : ∃ hashes, tx = transactionText response hashes
  lockHashes : ∀ text, text ∈ tx.inputLockHashes ↔ ∃ ref ∈ response.transaction.inputs,
    ∃ cell, node.getCell ref = .ok (some cell) ∧ text = hashText (hash cell.lock)

theorem run_readTransaction {hash : Script → Hash} {txHash : Hex} {tx : ChainTransaction}
    {db db' : Db} (h : run drivers node (readTransaction hash txHash) db = (.ok (some tx), db')) :
    ∃ response, Found hash node txHash response tx := by
  simp only [readTransaction, run, eval_bind_eq_ok, eval_require, Prod.mk.injEq, okOr_eq_ok] at h
  obtain ⟨key, u, ⟨hkey, rfl⟩, response, w, hresponse, hlast⟩ := h
  have hget : node.getTransactionNoCache key = .ok response := congrArg Prod.fst hresponse
  cases response with
  | none =>
      simp only [eval_pure, Prod.mk.injEq, Except.ok.injEq] at hlast
      cases hlast.1
  | some found =>
      simp only [eval_bind_eq_ok, eval_pure, Prod.mk.injEq, Except.ok.injEq, Option.some_inj] at hlast
      obtain ⟨hashes, x, hhashes, rfl, -⟩ := hlast
      exact ⟨found, ⟨key, hkey, hget⟩, ⟨hashes, rfl⟩, run_readInputLockHashes hhashes⟩

/-- A committed transaction in the block that the event names, as deep as
required. -/
structure Confirmed (v : ChainVerification) (node : Node) (txHash : Hex) (event : EventBase)
    (response : TxResponse) (tx : ChainTransaction) : Prop extends
    Found v.hash node txHash response tx where
  committed : response.status = "committed"
  block : ∃ n hash, response.blockNumber = some n ∧ response.blockHash = some hash ∧
    (∃ claimed, event.blockHash = some claimed ∧ lower claimed = hashText hash) ∧
    (∃ claimed, event.blockNumber = some claimed ∧ bigInt claimed = some (n : ℤ)) ∧
    ∃ tip, node.getTip = .ok tip ∧ v.confirmationDepth ≤ confirmationsOf tip n

theorem rejectIf_eq_ok {c : Prop} [Decidable c] {reason : String} {u : Unit} :
    rejectIf c reason = .ok u ↔ ¬c :=
  throwIf_eq_ok

theorem toBigInt_eq_ok {s : String} {n : ℤ} : toBigInt s = .ok n ↔ bigInt s = some n :=
  okOr_eq_ok

theorem checkBlock_eq_ok {txHash : Hex} {event : EventBase} {tx : Option ChainTransaction}
    {found : ChainTransaction} {n : ℕ} (h : checkBlock txHash event tx = .ok (found, n)) :
    tx = some found ∧ found.status = "committed" ∧ found.blockNumber = some n ∧
      (∃ hash claimed, found.blockHash = some hash ∧ event.blockHash = some claimed ∧
        lower claimed = lower hash) ∧
      ∃ claimed, event.blockNumber = some claimed ∧ bigInt claimed = some (n : ℤ) := by
  simp only [checkBlock, bind_eq_ok, okOr_eq_ok, throwIf_eq_ok, rejectIf_eq_ok,
    toBigInt_eq_ok] at h
  simp only [exists_const, not_not] at h
  obtain ⟨found', htx, hstatus, number, hnumber, hash, hhash, hclaimed, claimed, hc, value, hv,
    heq, hret⟩ := h
  obtain ⟨rfl, rfl⟩ : found' = found ∧ number = n := by
    simpa [pure, Except.pure] using hret
  obtain ⟨claimedHash, hch, hsame⟩ := (Option.any_eq_true _ _).mp hclaimed
  refine ⟨htx, hstatus, hnumber, ⟨hash, claimedHash, hhash, hch, ?_⟩, claimed, hc, ?_⟩
  · simpa [sameHex] using hsame
  · rw [hv, heq]

theorem run_requireConfirmed {txHash : Hex} {event : EventBase} {tx : ChainTransaction}
    {db db' : Db} (h : run drivers node (requireConfirmed v txHash event) db = (.ok tx, db')) :
    ∃ response, Confirmed v node txHash event response tx := by
  simp only [requireConfirmed, run, eval_bind_eq_ok, eval_require, Prod.mk.injEq] at h
  obtain ⟨read, u, hread, ⟨found, n⟩, w, ⟨hcheck, rfl⟩, tip, x, htip, _, y,
    ⟨hdepth, rfl⟩, hlast⟩ := h
  obtain ⟨rfl, hstatus, hnumber, ⟨hash, claimed, hhash, hclaimed, hsame⟩, hblock⟩ :=
    checkBlock_eq_ok hcheck
  obtain ⟨response, hfound⟩ := run_readTransaction hread
  obtain ⟨hashes, htext⟩ := hfound.text
  simp only [eval_pure, Prod.mk.injEq, Except.ok.injEq] at hlast
  obtain ⟨rfl, -⟩ := hlast
  have htipNode : node.getTip = .ok tip := congrArg Prod.fst htip
  rw [throwIf_eq_ok, not_lt] at hdepth
  rw [htext] at hstatus hnumber hhash
  simp only [transactionText, Option.map_eq_some_iff] at hstatus hnumber hhash
  obtain ⟨rawHash, hraw, rfl⟩ := hhash
  rw [hashText, lower_toHex] at hsame
  exact ⟨response, hfound, hstatus, n, rawHash, hnumber, hraw, ⟨claimed, hclaimed, hsame⟩, hblock,
    tip, htipNode, hdepth⟩

theorem sameHex_toHex {bs : List Byte} {text : Hex} :
    sameHex (toHex bs) text = true ↔ lower text = toHex bs := by
  rw [sameHex, lower_toHex, decide_eq_true_eq, eq_comm]

theorem sameHex_hashText {h : Hash} {text : Hex} :
    sameHex (hashText h) text = true ↔ lower text = hashText h :=
  sameHex_toHex

theorem sameHex_hashText_hashText {a b : Hash} : sameHex (hashText a) (hashText b) = true ↔ a = b := by
  rw [sameHex_hashText, hashText, hashText, lower_toHex]
  exact ⟨fun h => (hashText_injective h).symm, fun h => h ▸ rfl⟩

theorem scriptHash_eq_ok {hash : Script → Hash} {script : ScriptDocument} {text : Hex} :
    scriptHash hash script = .ok text ↔ ∃ s, scriptFrom script = some s ∧ hashText (hash s) = text := by
  rw [scriptHash, okOr_eq_ok, Option.map_eq_some_iff]

theorem checkTxIndex_eq_ok {order : ConfirmedOrder} {txIndex : Option ℕ} {u : Unit} :
    checkTxIndex order txIndex = .ok u ↔
      ∀ i, txIndex = some i → bigInt order.txIndex = some (i : ℤ) := by
  cases txIndex with
  | none => simp [checkTxIndex, pure, Except.pure]
  | some i =>
      simp only [checkTxIndex, bind_eq_ok, toBigInt_eq_ok, rejectIf_eq_ok, ne_eq, not_not,
        Option.some_inj, forall_eq']
      exact ⟨fun ⟨claimed, h, he⟩ => he ▸ h, fun h => ⟨_, h, rfl⟩⟩

theorem checkOutput_eq_ok {order : ConfirmedOrder} {cell : CellOutput} {u : Unit} :
    checkOutput v order (outputText cell) = .ok u ↔
      (lower v.dexLock.codeHash = hashText cell.lock.codeHash ∧
        hashTypeText cell.lock.hashType = v.dexLock.hashType) ∧
      lower order.lockScript.args = toHex cell.lock.args ∧ lower order.cellData = toHex cell.data ∧
      bigInt order.capacity = some (cell.capacity : ℤ) := by
  simp only [checkOutput, bind_eq_ok, toBigInt_eq_ok, rejectIf_eq_ok]
  simp only [exists_const, not_or, not_not, outputText, scriptText, sameHex_hashText, sameHex_toHex]
  refine and_congr_right fun _ => and_congr_right fun _ => and_congr_right fun _ => ?_
  constructor
  · rintro ⟨_, h, rfl⟩
    exact h
  · intro h
    exact ⟨_, h, rfl⟩

theorem checkTerms_eq_ok {order : ConfirmedOrder} {terms : OrderLock.OrderArgs} {u : Unit} :
    checkTerms v order (decodedOf terms) = .ok u ↔
      order.direction = directionOf terms.side ∧
      bigInt order.pricePerToken = some (terms.price.toNat : ℤ) ∧
      bigInt order.tokenAmount = some (terms.tokenAmount.toNat : ℤ) ∧
      lower order.xudtTypeHash = hashText terms.xudtTypeHash ∧
      lower order.ownerLockHash = hashText terms.makerLockHash ∧
      hashText terms.xudtTypeHash ∈ v.supportedAssetHashes := by
  simp only [checkTerms, bind_eq_ok, toBigInt_eq_ok, rejectIf_eq_ok]
  simp only [exists_const, not_not, decodedOf, sameHex_hashText]
  constructor
  · rintro ⟨hd, _, hp, rfl, _, ha, rfl, hrest⟩
    exact ⟨hd.symm, hp, ha, hrest⟩
  · rintro ⟨hd, hp, ha, hrest⟩
    exact ⟨hd.symm, _, hp, rfl, _, ha, rfl, hrest⟩

/-- What is checked of the cell of a sell order. -/
structure HoldsToken (v : ChainVerification) (order : ConfirmedOrder) (cell : CellOutput)
    (terms : OrderLock.OrderArgs) : Prop where
  type : ∃ type, cell.type = some type ∧ v.hash type = terms.xudtTypeHash
  claimed : ∃ script type, order.typeScript = some script ∧ scriptFrom script = some type ∧
    v.hash type = terms.xudtTypeHash
  readable : 16 ≤ cell.data.length
  amount : ofLe (slice cell.data 0 16) = terms.tokenAmount.toNat

theorem checkHolding_eq_ok {order : ConfirmedOrder} {cell : CellOutput}
    {terms : OrderLock.OrderArgs} {u : Unit} :
    checkHolding v order (outputText cell) (decodedOf terms) = .ok u ↔
      (directionOf terms.side = .ask → HoldsToken v order cell terms) ∧
        (directionOf terms.side ≠ .ask → cell.type = none) := by
  by_cases hask : directionOf terms.side = .ask
  · have hdir : (decodedOf terms).direction = .ask := hask
    simp only [checkHolding, hdir, if_true, bind_eq_ok, okOr_eq_ok, rejectIf_eq_ok,
      scriptHash_eq_ok]
    simp only [exists_const, not_or, not_not, not_lt, outputText, Option.map_eq_some_iff,
      bytesFrom_toHex, Option.some_inj, exists_eq_left', hask, forall_true_left,
      not_true_eq_false, ne_eq, false_implies, and_true]
    constructor
    · rintro ⟨_, ⟨type, htype, rfl⟩, _, ⟨s, hs, rfl⟩, hsame, claimed, hclaimed, _,
        ⟨t, ht, rfl⟩, hsame', hlen, hamount⟩
      rw [scriptFrom_scriptText, Option.some_inj] at hs
      subst hs
      exact ⟨⟨type, htype, sameHex_hashText_hashText.mp hsame⟩,
        ⟨claimed, t, hclaimed, ht, sameHex_hashText_hashText.mp hsame'⟩, hlen, hamount⟩
    · rintro ⟨⟨type, htype, hth⟩, ⟨claimed, t, hclaimed, ht, htt⟩, hlen, hamount⟩
      exact ⟨_, ⟨type, htype, rfl⟩, _, ⟨type, scriptFrom_scriptText _, rfl⟩,
        sameHex_hashText_hashText.mpr hth, claimed, hclaimed, _, ⟨t, ht, rfl⟩,
        sameHex_hashText_hashText.mpr htt, hlen, hamount⟩
  · have hdir : ¬(decodedOf terms).direction = .ask := hask
    simp only [checkHolding, hdir, if_false, rejectIf_eq_ok]
    simp only [outputText, hask, false_implies, true_and, not_false_eq_true, forall_true_left, ne_eq,
      not_not, Option.map_eq_none_iff]

theorem checkOwner_eq_ok {order : ConfirmedOrder} {tx : ChainTransaction}
    {terms : OrderLock.OrderArgs} {u : Unit} :
    checkOwner v order tx (decodedOf terms) = .ok u ↔
      (∃ owner, scriptFrom order.ownerLock = some owner ∧ v.hash owner = terms.makerLockHash) ∧
        ∃ text ∈ tx.inputLockHashes, lower text = hashText terms.makerLockHash := by
  simp only [checkOwner, bind_eq_ok, scriptHash_eq_ok, rejectIf_eq_ok]
  simp only [exists_const, not_not, List.any_eq_true, decodedOf]
  constructor
  · rintro ⟨_, ⟨owner, ho, rfl⟩, hsame, text, htext, hmaker⟩
    refine ⟨⟨owner, ho, sameHex_hashText_hashText.mp hsame⟩, text, htext, ?_⟩
    rw [sameHex, decide_eq_true_eq, hashText, lower_toHex] at hmaker
    exact hmaker
  · rintro ⟨⟨owner, ho, hmaker⟩, text, htext, hsame⟩
    refine ⟨_, ⟨owner, ho, rfl⟩, sameHex_hashText_hashText.mpr hmaker, text, htext, ?_⟩
    rw [sameHex, decide_eq_true_eq, hashText, lower_toHex]
    exact hsame

/-- What verification of an order-confirmed event establishes about the
creating transaction and the cell. -/
structure OrderChecked (v : ChainVerification) (event : OrderConfirmedEvent) (response : TxResponse)
    (lockHashes : List Hex) (cell : CellOutput) (terms : OrderLock.OrderArgs) : Prop where
  blockNumber : event.blockNumber = some event.order.blockNumber
  txIndex : ∀ i, response.txIndex = some i → bigInt event.order.txIndex = some (i : ℤ)
  output : ∃ i, (number event.outPoint.index).toIndex = some i ∧
    response.transaction.outputs[i]? = some cell
  dexLock : lower v.dexLock.codeHash = hashText cell.lock.codeHash ∧
    hashTypeText cell.lock.hashType = v.dexLock.hashType
  args : lower event.order.lockScript.args = toHex cell.lock.args
  data : lower event.order.cellData = toHex cell.data
  capacity : bigInt event.order.capacity = some (cell.capacity : ℤ)
  decoded : OrderLock.parseOrderArgs cell.lock.args = .ok terms
  direction : event.order.direction = directionOf terms.side
  price : bigInt event.order.pricePerToken = some (terms.price.toNat : ℤ)
  amount : bigInt event.order.tokenAmount = some (terms.tokenAmount.toNat : ℤ)
  token : lower event.order.xudtTypeHash = hashText terms.xudtTypeHash
  maker : lower event.order.ownerLockHash = hashText terms.makerLockHash
  supported : hashText terms.xudtTypeHash ∈ v.supportedAssetHashes
  asset : directionOf terms.side = .ask → HoldsToken v event.order cell terms
  plain : directionOf terms.side ≠ .ask → cell.type = none
  owner : ∃ owner, scriptFrom event.order.ownerLock = some owner ∧
    v.hash owner = terms.makerLockHash
  funded : ∃ text ∈ lockHashes, lower text = hashText terms.makerLockHash

theorem checkOrderConfirmed_eq_ok {event : OrderConfirmedEvent} {response : TxResponse}
    {lockHashes : List Hex} :
    checkOrderConfirmed v event (transactionText response lockHashes) = .ok () ↔
      ∃ cell terms, OrderChecked v event response lockHashes cell terms := by
  simp only [checkOrderConfirmed, bind_eq_ok, rejectIf_eq_ok, okOr_eq_ok, checkTxIndex_eq_ok,
    mapError_eq_ok, decodeDexOrderArgs_eq_ok]
  simp only [exists_const, not_not, Option.bind_eq_some_iff, transactionText]
  constructor
  · rintro ⟨hblock, htx, output, ⟨i, hi, hout⟩, _, hcheck, decoded,
      ⟨bytes, terms, hbytes, hterms, rfl⟩, _, ht, _, hh, ho⟩
    rw [List.getElem?_map, Option.map_eq_some_iff] at hout
    obtain ⟨cell, hcell, rfl⟩ := hout
    obtain ⟨hdex, hargs, hdata, hcap⟩ := checkOutput_eq_ok.mp hcheck
    obtain ⟨hdir, hprice, hamount, htoken, hmaker, hsup⟩ := checkTerms_eq_ok.mp ht
    obtain ⟨hask, hbid⟩ := checkHolding_eq_ok.mp hh
    obtain ⟨howner, hfunded⟩ := checkOwner_eq_ok.mp ho
    have hb : bytes = cell.lock.args :=
      (Option.some_inj.mp ((hexBytes_toHex _).symm.trans hbytes)).symm
    subst hb
    exact ⟨cell, terms, hblock.symm, htx, ⟨i, hi, hcell⟩, hdex, hargs, hdata, hcap, hterms, hdir,
      hprice, hamount, htoken, hmaker, hsup, hask, hbid, howner, hfunded⟩
  · rintro ⟨cell, terms, h⟩
    obtain ⟨i, hi, hcell⟩ := h.output
    refine ⟨h.blockNumber.symm, h.txIndex, outputText cell, ⟨i, hi, ?_⟩, (), ?_, decodedOf terms,
      ⟨cell.lock.args, terms, hexBytes_toHex _, h.decoded, rfl⟩, (), ?_, (), ?_, ?_⟩
    · rw [List.getElem?_map, hcell, Option.map_some]
    · exact checkOutput_eq_ok.mpr ⟨h.dexLock, h.args, h.data, h.capacity⟩
    · exact checkTerms_eq_ok.mpr ⟨h.direction, h.price, h.amount, h.token, h.maker, h.supported⟩
    · exact checkHolding_eq_ok.mpr ⟨h.asset, h.plain⟩
    · exact checkOwner_eq_ok.mpr ⟨h.owner, h.funded⟩

/-- The creating transaction is confirmed and its output is the claimed order. -/
structure OrderVerified (v : ChainVerification) (node : Node) (event : OrderConfirmedEvent)
    (response : TxResponse) (tx : ChainTransaction) (cell : CellOutput)
    (terms : OrderLock.OrderArgs) : Prop where
  confirmed : Confirmed v node event.outPoint.txHash event.toEventBase response tx
  checked : OrderChecked v event response tx.inputLockHashes cell terms

theorem run_verifyOrderConfirmed {event : OrderConfirmedEvent} {db db' : Db}
    (h : run drivers node (verifyOrderConfirmed v event) db = (.ok (), db')) :
    ∃ response tx cell terms, OrderVerified v node event response tx cell terms := by
  simp only [verifyOrderConfirmed, run, eval_bind_eq_ok, eval_require, Prod.mk.injEq] at h
  obtain ⟨tx, u, htx, hcheck, -⟩ := h
  obtain ⟨response, hconf⟩ := run_requireConfirmed htx
  obtain ⟨hashes, htext⟩ := hconf.text
  rw [htext] at hcheck
  obtain ⟨cell, terms, hchecked⟩ := checkOrderConfirmed_eq_ok.mp hcheck
  have hsame : tx.inputLockHashes = hashes := by rw [htext]; rfl
  exact ⟨response, tx, cell, terms, hconf, hsame ▸ hchecked⟩

/-- Some input spends the cell that an out point denotes. -/
def Spends (inputs : List CellRef) (outPoint : OutPoint) : Prop :=
  ∃ ref ∈ inputs, lower outPoint.txHash = hashText ref.txHash ∧
    bigInt outPoint.index = some (ref.index.toNat : ℤ)

theorem spends_eq_ok {response : TxResponse} {lockHashes : List Hex} {outPoint : OutPoint} :
    spends (transactionText response lockHashes) outPoint = .ok true ↔
      Spends response.transaction.inputs outPoint := by
  have hmem : ∀ o, o ∈ (transactionText response lockHashes).inputs.filter
      (fun input => sameHex input.txHash outPoint.txHash) ↔
      ∃ ref ∈ response.transaction.inputs, o = outPointText ref ∧
        lower outPoint.txHash = hashText ref.txHash := by
    intro o
    simp only [transactionText, List.mem_filter, List.mem_map]
    constructor
    · rintro ⟨⟨ref, href, rfl⟩, hsame⟩
      exact ⟨ref, href, rfl, sameHex_hashText.mp hsame⟩
    · rintro ⟨ref, href, rfl, hsame⟩
      exact ⟨⟨ref, href, rfl⟩, sameHex_hashText.mpr hsame⟩
  unfold spends
  by_cases hnil : (transactionText response lockHashes).inputs.filter
      (fun input => sameHex input.txHash outPoint.txHash) = []
  · simp only [hnil, if_true]
    constructor
    · intro h
      cases h
    · rintro ⟨ref, href, hsame, -⟩
      have h := (hmem _).mpr ⟨ref, href, rfl, hsame⟩
      rw [hnil] at h
      cases h
  · simp only [hnil, if_false, bind_eq_ok, toBigInt_eq_ok, pure, Except.pure, Except.ok.injEq,
      List.any_eq_true, decide_eq_true_eq]
    constructor
    · rintro ⟨index, hindex, o, ho, heq⟩
      obtain ⟨ref, href, rfl, hsame⟩ := (hmem o).mp ho
      refine ⟨ref, href, hsame, ?_⟩
      rw [hindex, ← heq, outPointText, bigInt_toString]
    · rintro ⟨ref, href, hsame, hindex⟩
      exact ⟨_, hindex, _, (hmem _).mpr ⟨ref, href, rfl, hsame⟩, bigInt_toString _⟩

theorem rejectUnless_spends {response : TxResponse} {lockHashes : List Hex} {outPoint : OutPoint}
    {reason : String} {u : Unit} :
    (∃ spent, spends (transactionText response lockHashes) outPoint = .ok spent ∧
      rejectIf (¬spent = true) reason = .ok u) ↔ Spends response.transaction.inputs outPoint := by
  simp only [rejectIf_eq_ok]
  rw [← spends_eq_ok]
  constructor
  · rintro ⟨spent, h, hspent⟩
    rw [not_not] at hspent
    exact hspent ▸ h
  · intro h
    exact ⟨true, h, not_not.mpr rfl⟩

theorem head?_findOrders (db : Db) (id : String) : (db.findOrders [id]).head? = db.orders.find? id := by
  simp [Db.findOrders, Collection.filter, Collection.find?]

/-- The transaction spends the order cell and one of its inputs is the
maker's. -/
structure CancelVerified (v : ChainVerification) (node : Node) (event : OrderCancelledEvent)
    (order : OrderDocument) (response : TxResponse) (tx : ChainTransaction) : Prop where
  confirmed : Confirmed v node event.cancelledByTxHash event.toEventBase response tx
  spends : Spends response.transaction.inputs event.outPoint
  authorized : ∃ text ∈ tx.inputLockHashes, lower text = lower order.ownerLockHash

theorem run_verifyOrderCancelled {event : OrderCancelledEvent} {db db' : Db} {order : OrderDocument}
    (h : run drivers node (verifyOrderCancelled v event) db = (.ok (), db'))
    (horder : db.orders.find? (toOrderId event.outPoint) = some order) :
    ∃ response tx, CancelVerified v node event order response tx := by
  simp only [verifyOrderCancelled, run, eval_bind_eq_ok, load, request, eval_perform, handle,
    Prod.mk.injEq, Except.ok.injEq] at h
  obtain ⟨orders, u, ⟨rfl, rfl⟩, h⟩ := h
  rw [head?_findOrders, horder] at h
  simp only [eval_bind_eq_ok, eval_require, Prod.mk.injEq] at h
  obtain ⟨tx, u, htx, hcheck, -⟩ := h
  obtain ⟨response, hconf⟩ := run_requireConfirmed htx
  obtain ⟨hashes, htext⟩ := hconf.text
  simp only [checkCancellation, bind_eq_ok] at hcheck
  obtain ⟨spent, hspent, a, hreject, hauth⟩ := hcheck
  rw [rejectIf_eq_ok, not_not, List.any_eq_true] at hauth
  obtain ⟨text, hmem, hsame⟩ := hauth
  refine ⟨response, tx, hconf, ?_, text, hmem, ?_⟩
  · rw [htext] at hspent
    exact rejectUnless_spends.mp ⟨spent, hspent, hreject⟩
  · simpa [sameHex] using hsame

/-- The settlement spends both orders, and the trade repeats their terms. -/
structure TradeVerified (v : ChainVerification) (node : Node) (event : TradeConfirmedEvent)
    (buy sell : OrderDocument) (response : TxResponse) (tx : ChainTransaction) : Prop where
  confirmed : Confirmed v node event.trade.settlementTxHash event.toEventBase response tx
  buy_direction : buy.direction = .bid
  sell_direction : sell.direction = .ask
  spends_buy : Spends response.transaction.inputs event.buyOrderOutPoint
  spends_sell : Spends response.transaction.inputs event.sellOrderOutPoint
  buyer : lower event.trade.buyerLockHash = lower buy.ownerLockHash
  seller : lower event.trade.sellerLockHash = lower sell.ownerLockHash
  token : lower event.trade.xudtTypeHash = lower sell.xudtTypeHash
  amount : event.trade.tokenAmount = sell.remainingAmount
  price : event.trade.price = sell.pricePerToken

theorem checkPair_eq_ok {event : TradeConfirmedEvent} {orders : List OrderDocument}
    {buy sell : OrderDocument} (h : checkPair event orders = .ok (buy, sell)) :
    buy ∈ orders ∧ buy.id = toOrderId event.buyOrderOutPoint ∧ buy.direction = .bid ∧
      sell ∈ orders ∧ sell.id = toOrderId event.sellOrderOutPoint ∧ sell.direction = .ask := by
  simp only [checkPair, bind_eq_ok, okOr_eq_ok, throwIf_eq_ok] at h
  obtain ⟨b, hb, s, hs, -, hdir, hret⟩ := h
  obtain ⟨rfl, rfl⟩ : b = buy ∧ s = sell := by simpa [pure, Except.pure] using hret
  simp only [not_or, not_not] at hdir
  have hbid : b.id = toOrderId event.buyOrderOutPoint := by simpa using List.find?_some hb
  have hsid : s.id = toOrderId event.sellOrderOutPoint := by simpa using List.find?_some hs
  exact ⟨List.mem_of_find?_eq_some hb, hbid, hdir.1, List.mem_of_find?_eq_some hs, hsid, hdir.2⟩

theorem confirmedAtBlock_of_verified {event : TradeConfirmedEvent} {db db' : Db}
    (h : run drivers node (verifyTradeConfirmed v event) db = (.ok (), db')) :
    event.blockNumber = some event.trade.confirmedAtBlock := by
  simp only [verifyTradeConfirmed, run, eval_bind_eq_ok, eval_require, Prod.mk.injEq] at h
  obtain ⟨_, u, ⟨hblock, -⟩, -⟩ := h
  rw [rejectIf_eq_ok, not_not] at hblock
  exact hblock.symm

theorem run_verifyTradeConfirmed {event : TradeConfirmedEvent} {db db' : Db}
    (h : run drivers node (verifyTradeConfirmed v event) db = (.ok (), db'))
    (htwo : (db.findOrders [toOrderId event.buyOrderOutPoint,
      toOrderId event.sellOrderOutPoint]).length = 2) :
    event.blockNumber = some event.trade.confirmedAtBlock ∧ ∃ buy sell response tx,
      db.orders.find? (toOrderId event.buyOrderOutPoint) = some buy ∧
      db.orders.find? (toOrderId event.sellOrderOutPoint) = some sell ∧
      TradeVerified v node event buy sell response tx := by
  simp only [verifyTradeConfirmed, run, eval_bind_eq_ok, eval_require, load, request, eval_perform,
    handle, Prod.mk.injEq, Except.ok.injEq] at h
  obtain ⟨_, u, ⟨hblock, rfl⟩, orders, w, ⟨rfl, rfl⟩, h⟩ := h
  rw [rejectIf_eq_ok, not_not] at hblock
  simp only [htwo, not_true_eq_false, ne_eq, if_false, eval_bind_eq_ok, eval_require,
    Prod.mk.injEq] at h
  obtain ⟨⟨buy, sell⟩, x, ⟨hpair, rfl⟩, tx, y, htx, hcheck, -⟩ := h
  obtain ⟨hbm, hbid, hbd, hsm, hsid, hsd⟩ := checkPair_eq_ok hpair
  obtain ⟨response, hconf⟩ := run_requireConfirmed htx
  obtain ⟨hashes, htext⟩ := hconf.text
  rw [htext] at hcheck
  simp only [checkTrade, bind_eq_ok] at hcheck
  obtain ⟨sb, hsb, a, hrb, ss, hss, c, hrs, hfields⟩ := hcheck
  rw [rejectIf_eq_ok, not_not] at hfields
  obtain ⟨hbuyer, hseller, htoken, hamount, hprice⟩ := hfields
  refine ⟨hblock.symm, buy, sell, response, tx, ?_, ?_, hconf, hbd, hsd,
    rejectUnless_spends.mp ⟨sb, hsb, hrb⟩, rejectUnless_spends.mp ⟨ss, hss, hrs⟩, ?_, ?_, ?_,
    hamount, hprice⟩
  · exact Collection.find?_eq_some.mpr ⟨(Collection.mem_filter.mp hbm).1, hbid⟩
  · exact Collection.find?_eq_some.mpr ⟨(Collection.mem_filter.mp hsm).1, hsid⟩
  · simpa [sameHex] using hbuyer
  · simpa [sameHex] using hseller
  · simpa [sameHex] using htoken

/-- Without a stored order the verifier of a cancellation asks the node nothing. -/
theorem run_verifyOrderCancelled_unstored {event : OrderCancelledEvent} {db : Db}
    (h : db.orders.find? (toOrderId event.outPoint) = none) :
    run drivers node (verifyOrderCancelled v event) db = (.ok (), db) := by
  have hload : eval (handle drivers node) (load [toOrderId event.outPoint]) db =
      (.ok (db.findOrders [toOrderId event.outPoint]), db) := rfl
  rw [verifyOrderCancelled, run, eval_bind, hload]
  simp only [head?_findOrders, h, eval_pure]

theorem run_verifyTradeConfirmed_unstored {event : TradeConfirmedEvent} {db : Db}
    (hblock : event.blockNumber = some event.trade.confirmedAtBlock)
    (h : (db.findOrders [toOrderId event.buyOrderOutPoint,
      toOrderId event.sellOrderOutPoint]).length ≠ 2) :
    run drivers node (verifyTradeConfirmed v event) db = (.ok (), db) := by
  have hload : eval (handle drivers node)
      (load [toOrderId event.buyOrderOutPoint, toOrderId event.sellOrderOutPoint]) db =
      (.ok (db.findOrders [toOrderId event.buyOrderOutPoint, toOrderId event.sellOrderOutPoint]), db) :=
    rfl
  have hfirst : rejectIf (some event.trade.confirmedAtBlock ≠ event.blockNumber)
      "confirmed block disagrees with event block" = .ok () :=
    rejectIf_eq_ok.mpr (not_not.mpr hblock.symm)
  simp only [verifyTradeConfirmed, run, eval_bind, eval_require, hfirst, hload, if_pos h, eval_pure]

/-- The collections that an event describes, and the checkpoints. -/
structure SameProjection (a b : Db) : Prop where
  orders : b.orders = a.orders
  trades : b.trades = a.trades
  checkpoints : b.checkpoints = a.checkpoints

theorem SameProjection.refl (db : Db) : SameProjection db db := ⟨rfl, rfl, rfl⟩

theorem SameProjection.trans {a b c : Db} (h₁ : SameProjection a b) (h₂ : SameProjection b c) :
    SameProjection a c :=
  ⟨h₂.orders.trans h₁.orders, h₂.trades.trans h₁.trades, h₂.checkpoints.trans h₁.checkpoints⟩

theorem sameProjection_recordFailed (eventId message : String) (db : Db) :
    SameProjection db (recordFailed eventId message db) := by
  unfold recordFailed
  split_ifs
  · exact .refl db
  · exact ⟨rfl, rfl, rfl⟩

/-- At most the audit record of a failed event was written. -/
def Audited (event : BotEvent) (db next : Db) : Prop :=
  next = db ∨ ∃ message, next = recordFailed event.eventId message db

theorem Audited.sameProjection {event : BotEvent} {db next : Db} (h : Audited event db next) :
    SameProjection db next := by
  rcases h with rfl | ⟨message, rfl⟩
  · exact .refl next
  · exact sameProjection_recordFailed event.eventId message db

section
variable (drivers : Drivers) (node : Node) (v : ChainVerification) (event : BotEvent) (db : Db)

theorem eval_auditFailure (error : Failure) :
    eval (handle drivers node) (auditFailure event error) db =
      (.ok (), recordFailed event.eventId (messageOf error) db) := by
  rw [auditFailure, eval_tryCatch]
  rfl

theorem eval_reportFailure (error : Failure) : ∃ e db',
    eval (handle drivers node) (reportFailure event error) db = (.error e, db') ∧
      Audited event db db' := by
  cases error with
  | app statusCode message code =>
      by_cases hs : statusCode = 422
      · refine ⟨.app statusCode message code, recordFailed event.eventId message db, ?_,
          Or.inr ⟨message, rfl⟩⟩
        rw [reportFailure, if_pos hs, eval_bind, eval_auditFailure]
        rfl
      · refine ⟨.app statusCode message code, db, ?_, Or.inl rfl⟩
        rw [reportFailure, if_neg hs]
        rfl
  | other message => exact ⟨_, db, rfl, Or.inl rfl⟩

/-- Verification either succeeds without touching the database or fails, at
most with an audit record. -/
theorem eval_verify :
    (eval (handle drivers node) (verify v event) db = (.ok (), db) ∧
      run drivers node (verifyEvent v event) db = (.ok (), db)) ∨
    ∃ error db', eval (handle drivers node) (verify v event) db = (.error error, db') ∧
      Audited event db db' := by
  have hread := run_queries (only_verifyEvent (v := v) event) drivers node db
  have hcatch := eval_tryCatch (handle drivers node) (verifyEvent v event) (reportFailure event) db
  rcases hv : eval (handle drivers node) (verifyEvent v event) db with ⟨e | a, u⟩
  · obtain rfl : u = db := by rw [← hread, run, hv]
    rw [hv] at hcatch
    obtain ⟨error, db', hreport, hsame⟩ := eval_reportFailure drivers node event u e
    exact Or.inr ⟨error, db', hcatch.trans hreport, hsame⟩
  · obtain rfl : u = db := by rw [← hread, run, hv]
    rw [hv] at hcatch
    exact Or.inl ⟨hcatch, hv⟩

theorem transact_cases :
    (∃ result next, applyEvent drivers event db = .ok (result, next) ∧
      (transact drivers event db).1 = .committed result ∧
      SameProjection next (transact drivers event db).2) ∨
    (transact drivers event db).2 = db ∧ ∀ r, (transact drivers event db).1 ≠ .committed r := by
  unfold transact
  cases happly : applyEvent drivers event db with
  | error e => exact Or.inr ⟨rfl, fun r h => by cases h⟩
  | ok applied =>
      obtain ⟨result, next⟩ := applied
      simp only
      split_ifs
      · exact Or.inr ⟨rfl, fun r h => by cases h⟩
      · exact Or.inl ⟨result, next, rfl, rfl, rfl, rfl, rfl⟩

theorem eval_reportOutcome (outcome : Outcome) :
    Audited event db (eval (handle drivers node) (reportOutcome event outcome) db).2 := by
  cases outcome with
  | committed result => exact Or.inl rfl
  | duplicateKey => exact Or.inl rfl
  | aborted error =>
      rw [reportOutcome, eval_bind, eval_auditFailure]
      exact Or.inr ⟨_, rfl⟩

/-- An ingestion is at most audited, or its event is verified and its
transaction committed, on the same database. -/
theorem ingest_cases :
    Audited event db (run drivers node (ingest v event) db).2 ∨
      ∃ result next, db.processed event.eventId = false ∧
        run drivers node (verifyEvent v event) db = (.ok (), db) ∧
        applyEvent drivers event db = .ok (result, next) ∧
        (transact drivers event db).1 = .committed result ∧
        run drivers node (ingest v event) db = (.ok result, (transact drivers event db).2) ∧
        SameProjection next (transact drivers event db).2 := by
  have hfirst : eval (handle drivers node) (request (.processed event.eventId)) db =
      (.ok (db.processed event.eventId), db) := rfl
  rw [run, ingest, eval_bind, hfirst]
  simp only
  cases hp : db.processed event.eventId with
  | true => exact Or.inl (Or.inl rfl)
  | false =>
      simp only [Bool.false_eq_true, if_false, eval_bind]
      rcases eval_verify drivers node v event db with ⟨hv, hread⟩ | ⟨e, db', hv, haudited⟩
      · rw [hv]
        have htransact : eval (handle drivers node) (request (.transact event)) db =
            (.ok (transact drivers event db).1, (transact drivers event db).2) := rfl
        simp only [htransact]
        rcases transact_cases drivers event db with ⟨result, next, happly, hcommit, hnext⟩ | ⟨hdb, -⟩
        · refine Or.inr ⟨result, next, trivial, hread, happly, hcommit, ?_, hnext⟩
          rw [hcommit]
          rfl
        · rw [hdb]
          exact Or.inl (eval_reportOutcome drivers node event db _)
      · rw [hv]
        exact Or.inl haudited

/-- An ingestion applies its event, verified against the same database, or
leaves the projection as it was. -/
theorem run_ingest :
    SameProjection db (run drivers node (ingest v event) db).2 ∨
      ∃ result next, db.processed event.eventId = false ∧
        run drivers node (verifyEvent v event) db = (.ok (), db) ∧
        applyEvent drivers event db = .ok (result, next) ∧
        run drivers node (ingest v event) db = (.ok result, (transact drivers event db).2) ∧
        SameProjection next (transact drivers event db).2 := by
  rcases ingest_cases drivers node v event db with
    haudited | ⟨result, next, hnew, hverify, happly, -, hrun, hnext⟩
  · exact Or.inl haudited.sameProjection
  · exact Or.inr ⟨result, next, hnew, hverify, happly, hrun, hnext⟩

end

end

end CkbDex.IngestionSteps
