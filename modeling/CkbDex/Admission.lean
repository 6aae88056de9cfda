import CkbDex.ScanCalls

/-!
# Admission

The rules by which the scan admits a cell as an order, and what indexing makes
of a cell on chain: it is skipped, its maker's lock has no address, or an event
is emitted for it. That event passes verification and applies to any state.
-/
namespace CkbDex.Admission
open OrderLockRules hiding exampleBuy exampleSell
open Checked Bytes CellContext OrderLock Text Documents BotEvents ChainCells
open Collections Projection Programs Operations Chains EventVerification IngestionSteps
open ProjectionSteps CkbDex.Bot GroundedDocuments Acceptance SpendClassification

/-- What the scan asks of a cell. -/
structure Admits (v : ChainVerification) (cell : CellOutput) (terms : OrderArgs) : Prop where
  codeHash : hashText cell.lock.codeHash = v.dexLock.codeHash
  hashType : hashTypeText cell.lock.hashType = v.dexLock.hashType
  parsed : parseOrderArgs cell.lock.args = .ok terms
  supported : hashText terms.xudtTypeHash ∈ v.supportedAssetHashes
  ask : directionOf terms.side = .ask → ∃ type, cell.type = some type ∧
    v.hash type = terms.xudtTypeHash ∧ 16 ≤ cell.data.length ∧
    ofLe (slice cell.data 0 16) = terms.tokenAmount.toNat
  bid : directionOf terms.side ≠ .ask → cell.type = none ∧ terms.price.toNat < cell.capacity

section
variable {v : ChainVerification} {cell : CellOutput} {terms : OrderArgs} {lock : Script}
  {decoded : DecodedDexOrderArgs}

theorem deserialize_eq_ok : deserializeLockScriptAndArgs v lock = .ok decoded ↔
    hashText lock.codeHash = v.dexLock.codeHash ∧ hashTypeText lock.hashType = v.dexLock.hashType ∧
      ∃ terms, parseOrderArgs lock.args = .ok terms ∧ decoded = decodedOf terms := by
  simp only [deserializeLockScriptAndArgs, bind_eq_ok, throwIf_eq_ok, decodeDexOrderArgs_eq_ok,
    hexBytes_toHex, Option.some_inj, exists_const, not_or, not_not, and_assoc]
  refine and_congr_right fun _ => and_congr_right fun _ => ⟨?_, ?_⟩
  · rintro ⟨_, terms, rfl, hparsed, hdecoded⟩
    exact ⟨terms, hparsed, hdecoded⟩
  · rintro ⟨terms, hparsed, hdecoded⟩
    exact ⟨_, terms, rfl, hparsed, hdecoded⟩

theorem holdsDeclared_iff : holdsDeclared v cell (decodedOf terms) = true ↔
    (directionOf terms.side = .ask → ∃ type, cell.type = some type ∧
      v.hash type = terms.xudtTypeHash ∧ 16 ≤ cell.data.length ∧
      ofLe (slice cell.data 0 16) = terms.tokenAmount.toNat) ∧
    (directionOf terms.side ≠ .ask → cell.type = none ∧ terms.price.toNat < cell.capacity) := by
  unfold holdsDeclared
  by_cases hask : directionOf terms.side = .ask
  · have hdirection : (decodedOf terms).direction = .ask := hask
    have hhash : ∀ type, hashText (v.hash type) = (decodedOf terms).udtTypeHash ↔
        v.hash type = terms.xudtTypeHash := fun type => ⟨hashText_injective, congrArg hashText⟩
    have hheld : decodeUdtAmount cell.data = some (decodedOf terms).tokenAmount ↔
        16 ≤ cell.data.length ∧ ofLe (slice cell.data 0 16) = terms.tokenAmount.toNat := by
      unfold decodeUdtAmount
      split_ifs with hshort
      · exact iff_of_false nofun fun h => absurd h.1 (not_le.mpr hshort)
      · rw [Option.some_inj]
        exact ⟨fun h => ⟨not_lt.mp hshort, h⟩, And.right⟩
    simp only [hdirection, if_true, Bool.and_eq_true, Option.any_eq_true, decide_eq_true_eq, hhash,
      hheld, hask, forall_const, not_true_eq_false, ne_eq, IsEmpty.forall_iff, and_true]
    constructor
    · rintro ⟨⟨type, htype, hsame⟩, hlength, hamount⟩
      exact ⟨type, htype, hsame, hlength, hamount⟩
    · rintro ⟨type, htype, hsame, hlength, hamount⟩
      exact ⟨⟨type, htype, hsame⟩, hlength, hamount⟩
  · have hdirection : (decodedOf terms).direction ≠ .ask := hask
    simp only [if_neg hdirection, Bool.and_eq_true, decide_eq_true_eq, hask, IsEmpty.forall_iff,
      true_and, ne_eq, not_false_eq_true, forall_const]
    exact Iff.rfl

/-- The scan skips a cell unless its rules hold. -/
theorem admitted_eq_some : admitted v cell = some decoded ↔
    ∃ terms, Admits v cell terms ∧ decoded = decodedOf terms := by
  constructor
  · intro h
    unfold admitted at h
    cases hlock : deserializeLockScriptAndArgs v cell.lock with
    | error error => simp [hlock] at h
    | ok found =>
        obtain ⟨hcode, htype, terms, hparsed, rfl⟩ := deserialize_eq_ok.mp hlock
        simp only [hlock, Option.ite_none_right_eq_some, Option.some_inj] at h
        obtain ⟨⟨hsupported, hholds⟩, rfl⟩ := h
        obtain ⟨hask, hbid⟩ := holdsDeclared_iff.mp hholds
        exact ⟨terms, ⟨hcode, htype, hparsed, hsupported, hask, hbid⟩, rfl⟩
  · rintro ⟨terms, h, rfl⟩
    have hlock := deserialize_eq_ok.mpr ⟨h.codeHash, h.hashType, terms, h.parsed, rfl⟩
    have hholds := holdsDeclared_iff.mpr ⟨h.ask, h.bid⟩
    have hsupported : (decodedOf terms).udtTypeHash ∈ v.supportedAssetHashes := h.supported
    simp only [admitted, hlock, hsupported, hholds, and_self, if_true]

end

/-- A cell that a transaction of the chain creates. -/
structure Created {w : World} (c : Chain w) (cell : IndexedCell) (p : Position) (tx : RawTx) :
    Prop where
  found : p ∈ positions w c.hashes
  txHash : p.txHash = cell.outPoint.txHash
  content : w.content p.txHash = some tx
  output : tx.outputs[cell.outPoint.index.toNat]? = some cell.cell

/-- The order of the cell is stored, and not as orphaned. -/
def isKnown (db : Db) (cell : IndexedCell) : Bool :=
  (db.orders.find? (toOrderId (outPointText cell.outPoint))).any fun order =>
    order.status ≠ .orphaned

/-- The order that the scan finds in a cell, with the lock of its maker. -/
def orderOf (v : ChainVerification) (content : Content) (cell : IndexedCell) (tx : RawTx) :
    Option (DecodedDexOrderArgs × Script) := do
  let decoded ← admitted v cell.cell
  let owner ← firstLock v.hash content decoded.makerLockHash tx.inputs
  return (decoded, owner)

section
variable {w : World} {c : Chain w} {cell : IndexedCell} {p : Position} {tx : RawTx} {config : Config}
  {drivers : Drivers} {db next : Db} {dex : Script} {now : ℕ}

theorem Created.response_eq (h : Created c cell p tx) :
    c.response cell.outPoint.txHash = some (p.response tx) := by
  rw [← h.txHash]
  exact response_of_found h.found h.content

theorem Created.tx_unique {p' : Position} {tx' : RawTx} (h : Created c cell p tx)
    (h' : Created c cell p' tx') : tx' = tx := by
  have hresponse := h'.response_eq.symm.trans h.response_eq
  exact congrArg TxResponse.transaction (Option.some_inj.mp hresponse)

/-- A cell is created once. -/
theorem Created.unique {cell' : IndexedCell} {p' : Position} {tx' : RawTx} (h : Created c cell p tx)
    (h' : Created c cell' p' tx') (hout : cell.outPoint = cell'.outPoint) : cell = cell' := by
  have hresponse := h.response_eq
  rw [hout, h'.response_eq, Option.some_inj] at hresponse
  have htx : tx' = tx := congrArg TxResponse.transaction hresponse
  have houtput := h.output
  rw [hout, ← htx, h'.output, Option.some_inj] at houtput
  obtain ⟨outPoint, output⟩ := cell
  obtain ⟨outPoint', output'⟩ := cell'
  exact congrArg₂ _ hout houtput.symm

theorem run_eventOfCell (h : Created c cell p tx) (decoded : DecodedDexOrderArgs) :
    eval (handle drivers (c.node dex now)) (eventOfCell config cell decoded) db =
      match firstLock config.verification.hash w.content decoded.makerLockHash tx.inputs with
      | none => (.ok none, db)
      | some owner => ((config.address owner).map fun address => some
          (orderConfirmedEvent address cell decoded owner (p.response tx) p.blockNumber), db) := by
  have hcreating : eval (handle drivers (c.node dex now))
      (request (.getTransaction cell.outPoint.txHash)) db = (.ok (some (p.response tx)), db) := by
    change (Except.ok (c.response cell.outPoint.txHash), db) = _
    rw [h.response_eq]
  have howner : eval (handle drivers (c.node dex now))
      (findInputWithLockHash config.verification.hash decoded.makerLockHash tx.inputs) db =
        (.ok (firstLock config.verification.hash w.content decoded.makerLockHash tx.inputs), db) :=
    run_findInputWithLockHash _ _ _
  rw [eventOfCell, eval_bind, hcreating]
  simp only [Position.response, if_true, eval_bind, howner]
  cases firstLock config.verification.hash w.content decoded.makerLockHash tx.inputs with
  | none => rfl
  | some owner =>
      simp only [eval_bind, eval_require]
      cases config.address owner <;> rfl

/-- What indexing finds of a cell on chain. -/
theorem run_orderEventOf (h : Created c cell p tx) :
    run drivers (c.node dex now) (orderEventOf config cell) db =
      (if isKnown db cell then .ok none else
        match orderOf config.verification w.content cell tx with
        | none => .ok none
        | some (decoded, owner) => (config.address owner).map fun address => some
            (orderConfirmedEvent address cell decoded owner (p.response tx) p.blockNumber), db) := by
  have hknown : eval (handle drivers (c.node dex now))
      (request (.findOrderById (toOrderId (outPointText cell.outPoint)))) db =
        (.ok (db.orders.find? (toOrderId (outPointText cell.outPoint))), db) := rfl
  rw [run, orderEventOf, eval_bind, hknown]
  by_cases hstored : isKnown db cell = true
  · have hany := hstored
    rw [isKnown] at hany
    simp only [hany, hstored, if_true, eval_pure]
  · have hany := hstored
    rw [isKnown] at hany
    simp only [hany, hstored, if_false, Bool.false_eq_true, orderOf]
    cases admitted config.verification cell.cell with
    | none => rfl
    | some decoded =>
        simp only [run_eventOfCell h, bind, Option.bind_some]
        cases firstLock config.verification.hash w.content decoded.makerLockHash tx.inputs <;> rfl

theorem orderOf_eq_some {v : ChainVerification} {content : Content} {decoded : DecodedDexOrderArgs}
    {owner : Script} : orderOf v content cell tx = some (decoded, owner) ↔
      ∃ terms, Admits v cell.cell terms ∧ decoded = decodedOf terms ∧
        firstLock v.hash content (hashText terms.makerLockHash) tx.inputs = some owner := by
  simp only [orderOf, bind, Option.bind_eq_some_iff, admitted_eq_some, pure, Option.some_inj,
    Prod.mk.injEq]
  constructor
  · rintro ⟨_, ⟨terms, hadmits, rfl⟩, _, howner, rfl, rfl⟩
    exact ⟨terms, hadmits, rfl, howner⟩
  · rintro ⟨terms, hadmits, rfl, howner⟩
    exact ⟨_, ⟨terms, hadmits, rfl⟩, owner, howner, rfl, rfl⟩

theorem firstLock_eq_some {hash : Script → Hash} {content : Content} {lockHash : Hash}
    {inputs : List CellRef} {owner : Script}
    (h : firstLock hash content (hashText lockHash) inputs = some owner) :
    hash owner = lockHash ∧ ∃ ref ∈ inputs, ∃ funding, cellAt content ref = some funding ∧
      funding.lock = owner := by
  obtain ⟨funding, hfound, rfl⟩ := Option.map_eq_some_iff.mp h
  have hhash := List.find?_some hfound
  obtain ⟨ref, href, hcell⟩ := List.mem_filterMap.mp (List.mem_of_find?_eq_some hfound)
  exact ⟨hashText_injective (of_decide_eq_true hhash), ref, href, funding, hcell, rfl⟩

/-- The order of a cell whose block is buried deep enough is indexable. -/
theorem Created.indexable {v : ChainVerification} {terms : OrderArgs} {owner : Script}
    (h : Created c cell p tx) (hdeep : v.confirmationDepth ≤ confirmationsOf c.tip p.blockNumber)
    (hadmits : Admits v cell.cell terms)
    (howner : firstLock v.hash w.content (hashText terms.makerLockHash) tx.inputs = some owner) :
    Indexable v c cell terms owner p tx where
  found := h.found
  txHash := h.txHash
  content := h.content
  output := h.output
  codeHash := hadmits.codeHash
  hashType := hadmits.hashType
  parsed := hadmits.parsed
  supported := hadmits.supported
  asset := hadmits.ask
  plain := fun hbid => (hadmits.bid hbid).1
  maker := (firstLock_eq_some howner).1
  funded := (firstLock_eq_some howner).2
  deep := hdeep

/-- An event that indexing emits is that of an admitted cell. -/
theorem emitted_of_run {event : OrderConfirmedEvent} (h : Created c cell p tx)
    (hrun : run drivers (c.node dex now) (orderEventOf config cell) db = (.ok (some event), next)) :
    ∃ terms owner address, Admits config.verification cell.cell terms ∧
      firstLock config.verification.hash w.content (hashText terms.makerLockHash) tx.inputs =
        some owner ∧ event = indexedEvent (fun _ => address) cell terms owner p tx := by
  rw [run_orderEventOf h, Prod.mk.injEq] at hrun
  obtain ⟨hevent, -⟩ := hrun
  by_cases hstored : isKnown db cell = true
  · rw [if_pos hstored] at hevent
    cases hevent
  · rw [if_neg hstored] at hevent
    cases horder : orderOf config.verification w.content cell tx with
    | none => simp [horder] at hevent
    | some found =>
        obtain ⟨decoded, owner⟩ := found
        obtain ⟨terms, hadmits, rfl, howner⟩ := orderOf_eq_some.mp horder
        cases haddress : config.address owner with
        | error error => simp [horder, haddress, Except.map] at hevent
        | ok address =>
            simp only [horder, haddress, Except.map, Except.ok.injEq, Option.some_inj] at hevent
            exact ⟨terms, owner, address, hadmits, howner, hevent.symm⟩

/-- The event of a cell applies to every state, or is ignored there. -/
theorem applied_or_ignored (hreads : Reads drivers) (address : Script → String) (cell : IndexedCell)
    (terms : OrderArgs) (owner : Script) (p : Position) (tx : RawTx) (db : Db) : ∃ result next,
      applyEvent drivers (.orderConfirmed (indexedEvent address cell terms owner p tx)) db =
        .ok (result, next) ∧ (next = db ∨ next = db.putOrder (confirmedDocument
          (db.orders.find? (toOrderId (outPointText cell.outPoint)))
          (indexedEvent address cell terms owner p tx))) := by
  by_cases hindexed : alreadyIndexed (db.orders.find? (toOrderId (outPointText cell.outPoint)))
      (indexedEvent address cell terms owner p tx) = true
  · exact ⟨_, _, applyOrderConfirmed_eq_ok.mpr (Or.inl ⟨hindexed, rfl, rfl⟩), Or.inl rfl⟩
  · rw [Bool.not_eq_true] at hindexed
    refine ⟨_, _, applyOrderConfirmed_eq_ok.mpr (Or.inr ⟨hindexed, ?_, ?_, ?_, rfl, rfl⟩), Or.inr rfl⟩
    · exact hreads.decimal128 _ terms.price.isLt
    · exact Number.number_ne_nan_of_bigInt (bigInt_toString p.blockNumber)
    · exact Number.number_ne_nan_of_bigInt (bigInt_toString p.txIndex)

end

/-- A document that repeats an order cell and its owner. -/
structure Repeats (cell : CellOutput) (terms : OrderArgs) (owner : Script) (order : OrderDocument) :
    Prop where
  capacity : bigInt order.capacity = some (cell.capacity : ℤ)
  owner : scriptFrom order.ownerLock = some owner
  direction : order.direction = directionOf terms.side
  price : order.pricePerToken = toString terms.price.toNat
  amount : order.remainingAmount = toString terms.tokenAmount.toNat
  token : order.xudtTypeHash = hashText terms.xudtTypeHash
  data : bytesFrom order.cellData = some cell.data
  type : ∀ type, cell.type = some type → order.typeScript = some (scriptText type)

/-- Indexing stores such a document, whatever was stored before. -/
theorem repeats_confirmedDocument (existing : Option OrderDocument) (address : Script → String)
    (cell : IndexedCell) (terms : OrderArgs) (owner : Script) (p : Position) (tx : RawTx) :
    Repeats cell.cell terms owner
      (confirmedDocument existing (indexedEvent address cell terms owner p tx)) where
  capacity := bigInt_toString _
  owner := scriptFrom_scriptText _
  direction := rfl
  price := rfl
  amount := rfl
  token := rfl
  data := bytesFrom_toHex _
  type := by
    intro type htype
    change (cell.cell.type.map scriptText <|> _) = _
    rw [htype]
    rfl

section
open SettlementBuilder

/-- A buy and a sell order of one token, amount and price. -/
structure Pairs (buyTerms sellTerms : OrderArgs) : Prop where
  buy : buyTerms.side = sideBuy
  sell : sellTerms.side = sideSell
  token : buyTerms.xudtTypeHash = sellTerms.xudtTypeHash
  amount : buyTerms.tokenAmount = sellTerms.tokenAmount
  price : buyTerms.price = sellTerms.price

def sellerOutputOf (ccc : Client) (sellCell : CellOutput) (seller : Script) (price : ℕ) : CellOutput :=
  outputFrom ccc (sellCell.capacity + price) seller none []

/-- The buyer's token cell, with what it occupies. -/
def tokenOutputOf (ccc : Client) (sellCell : CellOutput) (buyer : Script) : CellOutput :=
  outputFrom ccc 0 buyer sellCell.type sellCell.data

def insufficientBuyCapacity (id : String) : Failure :=
  .app 409
    s!"buy order {id} does not carry enough capacity to cover price + its token cell + the network fee"
    (some "INSUFFICIENT_BUY_CAPACITY")

/-- Between admitted orders of one token, amount and price the allocation decides. -/
theorem buildSettlement_pair {ccc : Client} {supported : List Hex} {buyCell sellCell : CellOutput}
    {buyTerms sellTerms : OrderArgs} {buyer seller type : Script} {buyOrder sellOrder : OrderDocument}
    (hbuy : Repeats buyCell buyTerms buyer buyOrder) (hsell : Repeats sellCell sellTerms seller sellOrder)
    (hpair : Pairs buyTerms sellTerms) (htype : sellCell.type = some type)
    (hsupported : hashText buyTerms.xudtTypeHash ∈ supported) :
    buildSettlement ccc supported buyOrder sellOrder = (do
      let allocation ← allocateSettlementCapacity buyCell.capacity buyTerms.price.toNat
        (tokenOutputOf ccc sellCell buyer).capacity
        (ccc.estimateFee [buyOrder.outPoint, sellOrder.outPoint]
          [sellerOutputOf ccc sellCell seller buyTerms.price.toNat, tokenOutputOf ccc sellCell buyer])
      let allocated ← okOr allocation (insufficientBuyCapacity buyOrder.id)
      return {
        inputs := [buyOrder.outPoint, sellOrder.outPoint]
        outputs := [sellerOutputOf ccc sellCell seller buyTerms.price.toNat,
          { tokenOutputOf ccc sellCell buyer with capacity := allocated.tokenCapacity.toNat }]
        fee := allocated.fee }) := by
  have hdirections : ¬(buyOrder.direction ≠ .bid ∨ sellOrder.direction ≠ .ask) := by
    rw [hbuy.direction, hsell.direction, hpair.buy, hpair.sell]
    decide
  have hagree : ¬(buyOrder.xudtTypeHash ≠ sellOrder.xudtTypeHash ∨
      buyOrder.remainingAmount ≠ sellOrder.remainingAmount ∨
      buyOrder.pricePerToken ≠ sellOrder.pricePerToken) := by
    rw [hbuy.token, hsell.token, hbuy.amount, hsell.amount, hbuy.price, hsell.price, hpair.token,
      hpair.amount, hpair.price]
    simp
  have hprice : bigInt sellOrder.pricePerToken = some (buyTerms.price.toNat : ℤ) := by
    rw [hsell.price, hpair.price]
    exact bigInt_toString _
  have htypeScript : optionFrom scriptFrom sellOrder.typeScript = some sellCell.type := by
    rw [hsell.type type htype, optionFrom, scriptFrom_scriptText, Option.map_some, htype]
  have hlisted : ¬buyOrder.xudtTypeHash ∉ supported := not_not.mpr (hbuy.token ▸ hsupported)
  simp only [buildSettlement, throwIf, if_neg hlisted, if_neg hdirections, if_neg hagree, toBigInt,
    hsell.capacity, hprice, hsell.owner, hbuy.owner, htypeScript, hsell.data, hbuy.capacity, okOr, bind,
    Except.bind]
  rfl

end

end CkbDex.Admission
