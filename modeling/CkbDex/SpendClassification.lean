import CkbDex.OrdersAndTrades

/-!
# Fills and cancellations

The contract, the bot and the verifier each decide whether a spent order was
filled or cancelled: from lock hashes and counts, from resolved inputs and the
database, from spent out points and stored documents. On every transaction
that the contract accepts they decide alike.
-/
namespace CkbDex.SpendClassification
open Checked Bytes CellContext OrderLock OrderLockRules Text Documents BotEvents ChainCells
open Collections Projection Programs Operations Chains EventVerification IngestionSteps
open ProjectionSteps CkbDex.Bot GroundedDocuments Acceptance OrdersAndTrades

def resolvedInputs (hash : Script → Hash) (content : Content) (refs : List CellRef) : List Cell :=
  refs.filterMap fun ref => (cellAt content ref).map (CellOutput.toCell hash)

/-- A transaction with its inputs resolved. -/
def resolvedTx (hash : Script → Hash) (content : Content) (tx : RawTx) : Tx where
  inputs := resolvedInputs hash content tx.inputs
  outputs := tx.outputs.map (CellOutput.toCell hash)

def isDexRef (dex : Script) (content : Content) (ref : CellRef) : Bool :=
  (cellAt content ref).any fun cell => sameIdentity dex cell.lock

/-- The inputs that the contract counts as DEX orders. -/
def dexRefs (dex : Script) (content : Content) (tx : RawTx) : List CellRef :=
  tx.inputs.filter (isDexRef dex content)

/-- What the chain enforces of a committed transaction: its inputs resolve and
the contract has accepted it for each DEX group. -/
structure Enforced (hash : Script → Hash) (dex : Script) (content : Content) (tx : RawTx) : Prop where
  resolved : ∀ ref ∈ tx.inputs, ∃ cell, cellAt content ref = some cell
  accepted : ∀ own ∈ (resolvedTx hash content tx).inputs, sameIdentity dex own.lock = true →
    programEntry { tx := resolvedTx hash content tx, script := own.lock } = 0

section
variable {hash : Script → Hash} {dex : Script} {content : Content} {tx : RawTx}

theorem mem_resolvedInputs {refs : List CellRef} {c : Cell} :
    c ∈ resolvedInputs hash content refs ↔
      ∃ ref ∈ refs, ∃ cell, cellAt content ref = some cell ∧ cell.toCell hash = c := by
  simp only [resolvedInputs, List.mem_filterMap, Option.map_eq_some_iff]

/-- The contract's DEX inputs are the cells of the DEX references. -/
theorem dexInputs_resolvedTx : dexInputs (resolvedTx hash content tx) dex =
    resolvedInputs hash content (dexRefs dex content tx) := by
  unfold dexInputs resolvedTx dexRefs resolvedInputs
  induction tx.inputs with
  | nil => rfl
  | cons ref refs ih =>
      cases hcell : cellAt content ref with
      | none => simpa [isDexRef, hcell] using ih
      | some cell =>
          by_cases hdex : sameIdentity dex cell.lock = true
          · simpa [isDexRef, hcell, CellOutput.toCell, hdex] using ih
          · simpa [isDexRef, hcell, CellOutput.toCell, hdex] using ih

theorem length_resolvedInputs {refs : List CellRef}
    (h : ∀ ref ∈ refs, ∃ cell, cellAt content ref = some cell) :
    (resolvedInputs hash content refs).length = refs.length := by
  unfold resolvedInputs
  induction refs with
  | nil => rfl
  | cons ref refs ih =>
      obtain ⟨cell, hcell⟩ := h ref List.mem_cons_self
      have hrest := ih fun r hr => h r (List.mem_cons_of_mem _ hr)
      simp [hcell, hrest]

theorem length_dexInputs (h : Enforced hash dex content tx) :
    (dexInputs (resolvedTx hash content tx) dex).length = (dexRefs dex content tx).length := by
  rw [dexInputs_resolvedTx]
  exact length_resolvedInputs fun ref href => h.resolved ref (List.mem_filter.mp href).1

end

/-- An order document that repeats its cell, as indexing writes it. -/
structure Mirrored (v : ChainVerification) (content : Content) (order : OrderDocument) (ref : CellRef)
    (cell : CellOutput) (terms : OrderArgs) : Prop where
  id : order.id = toOrderId order.outPoint
  outPoint : order.outPoint = outPointText ref
  found : cellAt content ref = some cell
  isOrder : IsOrder v cell terms
  lockScript : order.lockScript = scriptText cell.lock
  ownerLockHash : order.ownerLockHash = hashText terms.makerLockHash
  direction : order.direction = directionOf terms.side
  price : order.pricePerToken = toString terms.price.toNat
  amount : order.remainingAmount = toString terms.tokenAmount.toNat

/-- Every tracked order mirrors its cell. -/
def AllMirrored (v : ChainVerification) (content : Content) (db : Db) : Prop :=
  ∀ order ∈ db.orders.docs, ∃ ref cell terms, Mirrored v content order ref cell terms

/-- The configured texts are those of the deployed contract. -/
structure Deployed (v : ChainVerification) (dex : Script) : Prop where
  codeHash : lower v.dexLock.codeHash = hashText dex.codeHash
  hashType : v.dexLock.hashType = hashTypeText dex.hashType

section
variable {v : ChainVerification} {dex : Script} {content : Content} {tx : RawTx}
  {order : OrderDocument} {ref : CellRef} {cell : CellOutput} {terms : OrderArgs} {db : Db}

theorem hashTypeText_injective {a b : HashType} (h : hashTypeText a = hashTypeText b) : a = b := by
  have ha := hashTypeFrom_hashTypeText a
  rw [h, hashTypeFrom_hashTypeText] at ha
  exact (Option.some_inj.mp ha).symm

theorem identity_of_isOrder (h : IsOrder v cell terms) (hd : Deployed v dex) :
    sameIdentity dex cell.lock = true := by
  have hcode : dex.codeHash = cell.lock.codeHash :=
    hashText_injective (hd.codeHash.symm.trans h.codeHash)
  have htype : dex.hashType = cell.lock.hashType :=
    hashTypeText_injective (hd.hashType.symm.trans h.hashType.symm)
  simp [sameIdentity, hcode, htype]

theorem Mirrored.identity (h : Mirrored v content order ref cell terms) (hd : Deployed v dex) :
    sameIdentity dex cell.lock = true :=
  identity_of_isOrder h.isOrder hd

theorem Mirrored.terms_declared (h : Mirrored v content order ref cell terms) :
    WellFormed cell.lock.args ∧ Declares cell.lock.args terms :=
  parseOrderArgs_eq_ok.mp h.isOrder.terms

theorem Mirrored.mem_dexRefs (h : Mirrored v content order ref cell terms) (hd : Deployed v dex)
    (hmem : ref ∈ tx.inputs) : ref ∈ dexRefs dex content tx := by
  refine List.mem_filter.mpr ⟨hmem, ?_⟩
  rw [isDexRef, h.found, Option.any_some, h.identity hd]

/-- The contract has taken its cancellation or its settlement branch for a
spent order. -/
theorem Mirrored.branch (h : Mirrored v content order ref cell terms) (hd : Deployed v dex)
    (he : Enforced v.hash dex content tx) (hmem : ref ∈ tx.inputs) :
    Cancels (resolvedTx v.hash content tx) (cell.toCell v.hash) terms ∨
      Settles (resolvedTx v.hash content tx) (cell.toCell v.hash) terms := by
  have hown : cell.toCell v.hash ∈ (resolvedTx v.hash content tx).inputs :=
    mem_resolvedInputs.mpr ⟨ref, hmem, cell, h.found, rfl⟩
  have haccept := he.accepted _ hown (h.identity hd)
  exact (accepted_iff hown h.terms_declared.1 h.terms_declared.2).mp haccept

/-- The out point of an event that finds a tracked order. -/
theorem Mirrored.locates (h : Mirrored v content order ref cell terms) {outPoint : OutPoint}
    (hv : OutPoint.valid outPoint = true) (hid : order.id = toOrderId outPoint) :
    outPoint = outPointText ref := by
  refine toOrderId_injective hv (outPointText_valid ref) ?_
  rw [← hid, h.id, h.outPoint]

theorem locates_outPointText (ref : CellRef) : Locates (outPointText ref) ref :=
  ⟨lower_toHex _, bigInt_toString _⟩

theorem spends_outPointText_iff {inputs : List CellRef} :
    Spends inputs (outPointText ref) ↔ ref ∈ inputs := by
  rw [spends_iff]
  constructor
  · rintro ⟨r, hr, hl⟩
    obtain rfl := hl.unique (locates_outPointText ref)
    exact hr
  · intro hr
    exact ⟨ref, hr, locates_outPointText ref⟩

theorem Mirrored.side_of_bid (h : Mirrored v content order ref cell terms)
    (hd : order.direction = .bid) : terms.side = sideBuy := by
  rcases side_of_wellFormed h.terms_declared.1 h.terms_declared.2 with hs | hs
  · exact hs
  · have hdir := h.direction
    rw [hd, directionOf, if_pos hs] at hdir
    cases hdir

theorem Mirrored.side_of_ask (h : Mirrored v content order ref cell terms)
    (hd : order.direction = .ask) : terms.side = sideSell := by
  rcases side_of_wellFormed h.terms_declared.1 h.terms_declared.2 with hs | hs
  · have hdir := h.direction
    rw [hd, directionOf, hs, if_neg (by decide)] at hdir
    cases hdir
  · exact hs

/-- A cancelled order is the only DEX input. -/
theorem Mirrored.single_of_cancels (h : Mirrored v content order ref cell terms) (hd : Deployed v dex)
    (he : Enforced v.hash dex content tx) (hmem : ref ∈ tx.inputs)
    (hc : Cancels (resolvedTx v.hash content tx) (cell.toCell v.hash) terms) :
    dexRefs dex content tx = [ref] := by
  have hlock : sameIdentity dex (cell.toCell v.hash).lock = true := h.identity hd
  have hone := hc.single
  rw [dexInputs_congr hlock, length_dexInputs he, List.length_eq_one_iff] at hone
  obtain ⟨r, hr⟩ := hone
  have href := h.mem_dexRefs hd hmem
  rw [hr, List.mem_singleton] at href
  rw [hr, href]

/-- What holds of a transaction that settles a buy and a sell order. -/
structure SettlesPair (hash : Script → Hash) (dex : Script) (content : Content) (tx : RawTx)
    (buyRef sellRef : CellRef) (buy sell : OrderArgs) : Prop where
  refs : dexRefs dex content tx = [buyRef, sellRef] ∨ dexRefs dex content tx = [sellRef, buyRef]
  token : buy.xudtTypeHash = sell.xudtTypeHash
  amount : buy.tokenAmount = sell.tokenAmount
  price : buy.price = sell.price
  no_maker : ∀ c ∈ (resolvedTx hash content tx).inputs,
    c.lockHash ≠ buy.makerLockHash ∧ c.lockHash ≠ sell.makerLockHash

section
variable {buy sell : OrderDocument} {buyRef sellRef : CellRef} {buyCell sellCell : CellOutput}
  {b s : OrderArgs}

theorem refs_ne (hb : Mirrored v content buy buyRef buyCell b)
    (hs : Mirrored v content sell sellRef sellCell s) (hbid : buy.direction = .bid)
    (hask : sell.direction = .ask) : buyRef ≠ sellRef := by
  rintro rfl
  obtain rfl := Option.some_inj.mp (hb.found.symm.trans hs.found)
  obtain rfl := Except.ok.inj (hb.isOrder.terms.symm.trans hs.isOrder.terms)
  rw [hb.direction, ← hs.direction, hask] at hbid
  cases hbid

theorem two_dexRefs (hne : buyRef ≠ sellRef) (hbm : buyRef ∈ dexRefs dex content tx)
    (hsm : sellRef ∈ dexRefs dex content tx) : 2 ≤ (dexRefs dex content tx).length := by
  by_contra hlt
  rcases hrefs : dexRefs dex content tx with _ | ⟨r, _ | ⟨r', rest⟩⟩
  · rw [hrefs] at hbm
    cases hbm
  · rw [hrefs, List.mem_singleton] at hbm hsm
    exact hne (hbm.trans hsm.symm)
  · rw [hrefs] at hlt
    simp only [List.length_cons] at hlt
    omega

/-- Two tracked orders that are spent together are settled with each other. -/
theorem settlesPair_of_spent (hb : Mirrored v content buy buyRef buyCell b)
    (hs : Mirrored v content sell sellRef sellCell s) (hbid : buy.direction = .bid)
    (hask : sell.direction = .ask) (hd : Deployed v dex) (he : Enforced v.hash dex content tx)
    (hbm : buyRef ∈ tx.inputs) (hsm : sellRef ∈ tx.inputs) :
    SettlesPair v.hash dex content tx buyRef sellRef b s := by
  have hne := refs_ne hb hs hbid hask
  have hbr := hb.mem_dexRefs hd hbm
  have hsr := hs.mem_dexRefs hd hsm
  have htwo := two_dexRefs hne hbr hsr
  -- Neither order can have been cancelled: there is a second DEX input.
  have hsettle : ∀ {order ref cell terms}, Mirrored v content order ref cell terms →
      ref ∈ tx.inputs → Settles (resolvedTx v.hash content tx) (cell.toCell v.hash) terms := by
    intro order ref cell terms hm hmem
    rcases hm.branch hd he hmem with hc | hset
    · rw [hm.single_of_cancels hd he hmem hc] at htwo
      simp at htwo
    · exact hset
  have hbuy := hsettle hb hbm
  have hsell := hsettle hs hsm
  obtain ⟨bc, sc, bt, st, hpair⟩ := hbuy.pair
  have hblock : sameIdentity dex (buyCell.toCell v.hash).lock = true := hb.identity hd
  have hslock : sameIdentity dex (sellCell.toCell v.hash).lock = true := hs.identity hd
  have hpair' : Pair (resolvedTx v.hash content tx) (sellCell.toCell v.hash).lock bc sc bt st := by
    refine { hpair with inputs := ?_ }
    rw [dexInputs_congr hslock, ← dexInputs_congr hblock]
    exact hpair.inputs
  have hbown : buyCell.toCell v.hash ∈ (resolvedTx v.hash content tx).inputs :=
    mem_resolvedInputs.mpr ⟨buyRef, hbm, buyCell, hb.found, rfl⟩
  have hsown : sellCell.toCell v.hash ∈ (resolvedTx v.hash content tx).inputs :=
    mem_resolvedInputs.mpr ⟨sellRef, hsm, sellCell, hs.found, rfl⟩
  obtain ⟨-, rfl⟩ := (own_of_pair hbown hb.terms_declared.1 hb.terms_declared.2 hpair).1
    (hb.side_of_bid hbid)
  obtain ⟨-, rfl⟩ := (own_of_pair hsown hs.terms_declared.1 hs.terms_declared.2 hpair').2
    (hs.side_of_ask hask)
  have hlen : (dexRefs dex content tx).length = 2 := by
    rw [← length_dexInputs he, ← dexInputs_congr hblock]
    rcases hpair.inputs with hin | hin <;> rw [hin] <;> rfl
  refine ⟨?_, hpair.token, hpair.amount, hpair.price,
    fun c hc => ⟨hbuy.unauthorized c hc, hsell.unauthorized c hc⟩⟩
  obtain ⟨r₁, r₂, hrefs⟩ := List.length_eq_two.mp hlen
  simp only [hrefs, List.mem_cons, List.not_mem_nil, or_false] at hbr hsr ⊢
  rcases hbr with rfl | rfl <;> rcases hsr with rfl | rfl
  · exact (hne rfl).elim
  · exact Or.inl rfl
  · exact Or.inr rfl
  · exact (hne rfl).elim

end

end

section
variable {w : World} {c : Chain w} {dex : Script} {now : ℕ} {drivers : Drivers}
  {v : ChainVerification} {db : Db} {p : Position} {tx : RawTx}

/-- The contract has accepted every transaction of a chain. -/
def ChainEnforced (v : ChainVerification) (dex : Script) (c : Chain w) : Prop :=
  ∀ p ∈ positions w c.hashes, ∀ tx, w.content p.txHash = some tx → Enforced v.hash dex w.content tx

/-- A verified cancellation of a tracked order is one for the contract. -/
theorem cancels_of_verified {event : OrderCancelledEvent} {order : OrderDocument} {ref : CellRef}
    {cell : CellOutput} {terms : OrderArgs} {response : TxResponse} {read : ChainTransaction}
    (hd : Deployed v dex) (he : ChainEnforced v dex c)
    (hm : Mirrored v w.content order ref cell terms)
    (hv : (BotEvent.orderCancelled event).valid = true)
    (horder : db.orders.find? (toOrderId event.outPoint) = some order)
    (h : CancelVerified v (c.node dex now) event order response read) :
    ∃ p ∈ positions w c.hashes, hashFrom event.cancelledByTxHash = some p.txHash ∧
      ∃ tx, w.content p.txHash = some tx ∧ dexRefs dex w.content tx = [ref] ∧
        Cancels (resolvedTx v.hash w.content tx) (cell.toCell v.hash) terms := by
  obtain ⟨p, hp, hkey, hcontent, -, -, -⟩ := position_of_confirmed h.confirmed
  simp only [BotEvent.valid, Bool.and_eq_true] at hv
  have hout := hm.locates hv.2.1 (Collection.key_of_find? horder)
  have hmem : ref ∈ response.transaction.inputs := spends_outPointText_iff.mp (hout ▸ h.spends)
  have henforced := he p hp _ hcontent
  refine ⟨p, hp, hkey, response.transaction, hcontent, ?_⟩
  obtain ⟨text, htext, hsame⟩ := h.authorized
  obtain ⟨input, hinput, funding, hcell, rfl⟩ := (h.confirmed.lockHashes text).mp htext
  have hmaker : v.hash funding.lock = terms.makerLockHash := by
    rw [hm.ownerLockHash] at hsame
    exact hashText_injective ((lower_toHex _).symm.trans (hsame.trans (lower_toHex _)))
  rcases hm.branch hd henforced hmem with hc | hs
  · exact ⟨hm.single_of_cancels hd henforced hmem hc, hc⟩
  · have hown : funding.toCell v.hash ∈
        (resolvedTx v.hash w.content response.transaction).inputs :=
      mem_resolvedInputs.mpr ⟨input, hinput, funding, Except.ok.inj hcell, rfl⟩
    exact (hs.unauthorized _ hown hmaker).elim

/-- A verified trade of two tracked orders settles them with each other. -/
theorem settlesPair_of_verified {event : TradeConfirmedEvent} {buy sell : OrderDocument}
    {buyRef sellRef : CellRef} {buyCell sellCell : CellOutput} {b s : OrderArgs}
    {response : TxResponse} {read : ChainTransaction} (hd : Deployed v dex)
    (he : ChainEnforced v dex c) (hb : Mirrored v w.content buy buyRef buyCell b)
    (hs : Mirrored v w.content sell sellRef sellCell s)
    (hv : (BotEvent.tradeConfirmed event).valid = true)
    (hbuy : db.orders.find? (toOrderId event.buyOrderOutPoint) = some buy)
    (hsell : db.orders.find? (toOrderId event.sellOrderOutPoint) = some sell)
    (h : TradeVerified v (c.node dex now) event buy sell response read) :
    ∃ p ∈ positions w c.hashes, hashFrom event.trade.settlementTxHash = some p.txHash ∧
      ∃ tx, w.content p.txHash = some tx ∧
        SettlesPair v.hash dex w.content tx buyRef sellRef b s ∧
        event.buyOrderOutPoint = outPointText buyRef ∧ event.sellOrderOutPoint = outPointText sellRef ∧
        bigInt event.trade.price = some (b.price.toNat : ℤ) ∧
        bigInt event.trade.price = some (s.price.toNat : ℤ) ∧
        bigInt event.trade.tokenAmount = some (b.tokenAmount.toNat : ℤ) ∧
        bigInt event.trade.tokenAmount = some (s.tokenAmount.toNat : ℤ) := by
  obtain ⟨p, hp, hkey, hcontent, -, -, -⟩ := position_of_confirmed h.confirmed
  simp only [BotEvent.valid, Bool.and_eq_true] at hv
  have hbout := hb.locates hv.2.1.1 (Collection.key_of_find? hbuy)
  have hsout := hs.locates hv.2.1.2 (Collection.key_of_find? hsell)
  have hbm : buyRef ∈ response.transaction.inputs := spends_outPointText_iff.mp (hbout ▸ h.spends_buy)
  have hsm : sellRef ∈ response.transaction.inputs :=
    spends_outPointText_iff.mp (hsout ▸ h.spends_sell)
  have hpair := settlesPair_of_spent hb hs h.buy_direction h.sell_direction hd (he p hp _ hcontent)
    hbm hsm
  have hprice : bigInt event.trade.price = some (s.price.toNat : ℤ) := by
    rw [h.price, hs.price, bigInt_toString]
  have hamount : bigInt event.trade.tokenAmount = some (s.tokenAmount.toNat : ℤ) := by
    rw [h.amount, hs.amount, bigInt_toString]
  refine ⟨p, hp, hkey, response.transaction, hcontent, hpair, hbout, hsout, ?_, hprice, ?_, hamount⟩
  · rw [hpair.price]
    exact hprice
  · rw [hpair.amount]
    exact hamount

/-- The first lock with a hash among the cells of a list of inputs. -/
def firstLock (hash : Script → Hash) (content : Content) (lockHash : Hex) (inputs : List CellRef) :
    Option Script :=
  ((inputs.filterMap (cellAt content)).find? fun cell => hashText (hash cell.lock) = lockHash).map
    CellOutput.lock

theorem run_findInputWithLockHash (hash : Script → Hash) (lockHash : Hex) (inputs : List CellRef) :
    run drivers (c.node dex now) (findInputWithLockHash hash lockHash inputs) db =
      (.ok (firstLock hash w.content lockHash inputs), db) := by
  induction inputs with
  | nil => rfl
  | cons input inputs ih =>
      have hcell : eval (handle drivers (c.node dex now)) (request (.getCell input)) db =
          (.ok (cellAt w.content input), db) := rfl
      have ih' : eval (handle drivers (c.node dex now)) (findInputWithLockHash hash lockHash inputs) db =
          (.ok (firstLock hash w.content lockHash inputs), db) := ih
      rw [run, findInputWithLockHash, eval_bind, hcell]
      cases h : cellAt w.content input with
      | none =>
          simp only [Option.filter_none, ih', firstLock, h, List.filterMap_cons]
      | some cell =>
          by_cases hlock : hashText (hash cell.lock) = lockHash
          · simp [Option.filter, hlock, firstLock, h]
          · simp [Option.filter, hlock, firstLock, h, ih']

theorem firstLock_isSome {hash : Script → Hash} {content : Content} {lockHash : Hex}
    {inputs : List CellRef} : (firstLock hash content lockHash inputs).isSome = true ↔
      ∃ ref ∈ inputs, ∃ cell, cellAt content ref = some cell ∧ hashText (hash cell.lock) = lockHash := by
  simp only [firstLock, Option.isSome_map, List.find?_isSome, List.mem_filterMap, decide_eq_true_eq]
  constructor
  · rintro ⟨cell, ⟨ref, href, hcell⟩, hlock⟩
    exact ⟨ref, href, cell, hcell, hlock⟩
  · rintro ⟨ref, href, cell, hcell, hlock⟩
    exact ⟨cell, ⟨ref, href, hcell⟩, hlock⟩

section
variable {order : OrderDocument} {ref : CellRef} {cell : CellOutput} {terms : OrderArgs}

/-- The bot's evidence for a cancellation is the contract's condition. -/
theorem Mirrored.firstLock_isSome (hm : Mirrored v w.content order ref cell terms) (tx : RawTx) :
    (firstLock v.hash w.content order.ownerLockHash tx.inputs).isSome = true ↔
      ∃ c ∈ (resolvedTx v.hash w.content tx).inputs, c.lockHash = terms.makerLockHash := by
  rw [SpendClassification.firstLock_isSome, hm.ownerLockHash]
  constructor
  · rintro ⟨r, hr, funding, hcell, hlock⟩
    exact ⟨_, mem_resolvedInputs.mpr ⟨r, hr, funding, hcell, rfl⟩, hashText_injective hlock⟩
  · rintro ⟨_, hc, hmaker⟩
    obtain ⟨r, hr, funding, hcell, rfl⟩ := mem_resolvedInputs.mp hc
    exact ⟨r, hr, funding, hcell, congrArg hashText hmaker⟩

theorem run_recordSpend_of_cancels (hm : Mirrored v w.content order ref cell terms)
    (hc : Cancels (resolvedTx v.hash w.content tx) (cell.toCell v.hash) terms) :
    run drivers (c.node dex now) (recordSpend v order p.txHash (p.response tx)) db =
      run drivers (c.node dex now) (do
        let _ ← emit v (.orderCancelled (orderCancelledEvent order p.txHash p.blockNumber p.blockHash))
        return ()) db := by
  have hfind : eval (handle drivers (c.node dex now))
      (findInputWithLockHash v.hash order.ownerLockHash tx.inputs) db =
        (.ok (firstLock v.hash w.content order.ownerLockHash tx.inputs), db) :=
    run_findInputWithLockHash ..
  obtain ⟨lock, hlock⟩ := Option.isSome_iff_exists.mp ((hm.firstLock_isSome tx).mpr hc.authorized)
  rw [hlock] at hfind
  rw [run, recordSpend, eval_bind]
  simp only [Position.response, hfind]

theorem run_recordSpend_of_settles (hm : Mirrored v w.content order ref cell terms)
    (hs : Settles (resolvedTx v.hash w.content tx) (cell.toCell v.hash) terms) :
    run drivers (c.node dex now) (recordSpend v order p.txHash (p.response tx)) db =
      run drivers (c.node dex now) (confirmExternalSettlement v p.txHash (p.response tx)) db := by
  have hfind : eval (handle drivers (c.node dex now))
      (findInputWithLockHash v.hash order.ownerLockHash tx.inputs) db =
        (.ok (firstLock v.hash w.content order.ownerLockHash tx.inputs), db) :=
    run_findInputWithLockHash ..
  have hnone : firstLock v.hash w.content order.ownerLockHash tx.inputs = none := by
    rw [← Option.not_isSome_iff_eq_none, hm.firstLock_isSome]
    rintro ⟨c, hc, hmaker⟩
    exact hs.unauthorized c hc hmaker
  rw [hnone] at hfind
  rw [run, recordSpend, eval_bind]
  simp only [Position.response, hfind]

theorem outPointText_injective {a b : CellRef} (h : outPointText a = outPointText b) : a = b :=
  (locates_outPointText a).unique (h ▸ locates_outPointText b)

theorem spendsOutPoint_iff {raw : RawTx} :
    spendsOutPoint raw (outPointText ref) = true ↔ ref ∈ raw.inputs := by
  simp only [spendsOutPoint, List.any_eq_true, decide_eq_true_eq]
  constructor
  · rintro ⟨input, hinput, hsame⟩
    exact outPointText_injective hsame ▸ hinput
  · intro hmem
    exact ⟨ref, hmem, rfl⟩

/-- The search ends at the only transaction of the chain that spends the cell. -/
theorem run_findSpendingTx (hp : p ∈ positions w c.hashes) (hcontent : w.content p.txHash = some tx)
    (hmem : ref ∈ tx.inputs) {records : List TxRecord} (hrecord : ⟨p.txHash, true⟩ ∈ records) :
    run drivers (c.node dex now) (findSpendingTx (outPointText ref) records) db =
      (.ok (some (p.txHash, p.response tx)), db) := by
  induction records with
  | nil => cases hrecord
  | cons record records ih =>
      have htail : record ≠ ⟨p.txHash, true⟩ →
          eval (handle drivers (c.node dex now)) (findSpendingTx (outPointText ref) records) db =
            (.ok (some (p.txHash, p.response tx)), db) := by
        intro hne
        exact ih ((List.mem_cons.mp hrecord).resolve_left fun h => hne h.symm)
      have hget : eval (handle drivers (c.node dex now)) (request (.getTransaction record.txHash)) db =
          (.ok (c.response record.txHash), db) := rfl
      obtain ⟨txHash, isInput⟩ := record
      rw [run, findSpendingTx]
      cases isInput with
      | false => exact htail (by simp)
      | true =>
          simp only [Bool.true_eq_false, if_false, eval_bind, hget]
          by_cases hsame : txHash = p.txHash
          · subst hsame
            have hspends : spendsOutPoint (p.response tx).transaction (outPointText ref) = true :=
              spendsOutPoint_iff.mpr hmem
            have hfound : (c.response p.txHash).filter (fun tx =>
                tx.status = "committed" && spendsOutPoint tx.transaction (outPointText ref)) =
                  some (p.response tx) := by
              rw [response_of_found hp hcontent]
              refine Option.filter_some_pos ?_
              rw [hspends]
              rfl
            rw [hfound]
            rfl
          · have hnone : (c.response txHash).filter (fun tx =>
                tx.status = "committed" && spendsOutPoint tx.transaction (outPointText ref)) = none := by
              cases hr : c.response txHash with
              | none => rfl
              | some r =>
                  obtain ⟨q, raw, hq, hraw, rfl⟩ := Chain.response_eq_some.mp hr
                  obtain ⟨hqmem, rfl⟩ := Chain.positionOf_eq_some.mp hq
                  refine Option.filter_some_neg (Bool.eq_false_iff.mpr fun hspends => hsame ?_)
                  have hqref : ref ∈ raw.inputs :=
                    spendsOutPoint_iff.mp (Bool.and_eq_true_iff.mp hspends).2
                  rw [c.spender_unique hqmem hp (mem_inputsOf.mpr ⟨raw, hraw, hqref⟩)
                    (mem_inputsOf.mpr ⟨tx, hcontent, hmem⟩)]
            rw [hnone]
            exact htail (by simp [hsame])

theorem mem_records (hp : p ∈ positions w c.hashes) (hcontent : w.content p.txHash = some tx)
    (hmem : ref ∈ tx.inputs) (hcell : cellAt w.content ref = some cell) :
    ⟨p.txHash, true⟩ ∈ c.records cell.lock := by
  refine List.mem_flatMap.mpr ⟨p, hp, List.mem_append.mpr (Or.inl (List.mem_map.mpr ?_))⟩
  refine ⟨⟨ref, cell⟩, List.mem_filter.mpr ⟨List.mem_filterMap.mpr ⟨ref, ?_, ?_⟩, by simp⟩, rfl⟩
  · exact mem_inputsOf.mpr ⟨tx, hcontent, hmem⟩
  · rw [hcell, Option.map_some]

/-- Reconciliation of an open order records the spend that the search finds. -/
theorem eval_reconcileSpentOrder (hm : Mirrored v w.content order ref cell terms)
    (hopen : order.status ≠ .filled ∧ order.status ≠ .canceled) {found : Option (Hash × TxResponse)}
    (hfind : eval (handle drivers (c.node dex now))
      (findSpendingTx order.outPoint (c.records cell.lock)) db = (.ok found, db)) :
    eval (handle drivers (c.node dex now)) (reconcileSpentOrder v order) db =
      eval (handle drivers (c.node dex now))
        (found.elim (pure ()) fun spend => recordSpend v order spend.1 spend.2) db := by
  have hlock : okOr (scriptFrom order.lockScript) (Failure.other "invalid lock script") =
      .ok cell.lock := by
    rw [hm.lockScript, scriptFrom_scriptText]
    rfl
  have hrecords : eval (handle drivers (c.node dex now)) (request (.findTransactionsByLock cell.lock))
      db = (.ok (c.records cell.lock), db) := rfl
  rw [reconcileSpentOrder, if_neg (not_or.mpr hopen)]
  simp only [eval_bind, eval_require, hlock, hrecords, hfind]
  cases found <;> rfl

theorem run_reconcileSpentOrder (hm : Mirrored v w.content order ref cell terms)
    (hp : p ∈ positions w c.hashes) (hcontent : w.content p.txHash = some tx) (hmem : ref ∈ tx.inputs)
    (hopen : order.status ≠ .filled ∧ order.status ≠ .canceled) :
    run drivers (c.node dex now) (reconcileSpentOrder v order) db =
      run drivers (c.node dex now) (recordSpend v order p.txHash (p.response tx)) db := by
  have hfind : eval (handle drivers (c.node dex now))
      (findSpendingTx order.outPoint (c.records cell.lock)) db =
        (.ok (some (p.txHash, p.response tx)), db) := by
    rw [hm.outPoint]
    exact run_findSpendingTx hp hcontent hmem (mem_records hp hcontent hmem hm.found)
  exact eval_reconcileSpentOrder hm hopen hfind

end

/-- The pair that the bot finds among the spent orders is the settled pair. -/
theorem settlesPair_of_settledPair {buy sell : OrderDocument} (hd : Deployed v dex)
    (he : Enforced v.hash dex w.content tx) (hall : AllMirrored v w.content db)
    (h : settledPair (db.findOrders (tx.inputs.map fun input => toOrderId (outPointText input))) =
      some (buy, sell)) : ∃ buyRef sellRef buyCell sellCell b s,
        Mirrored v w.content buy buyRef buyCell b ∧ Mirrored v w.content sell sellRef sellCell s ∧
        buy.direction = .bid ∧ sell.direction = .ask ∧
        SettlesPair v.hash dex w.content tx buyRef sellRef b s := by
  simp only [settledPair, bind, Option.bind_eq_some_iff, pure, Option.some_inj, Prod.mk.injEq] at h
  obtain ⟨_, hbuy, _, hsell, rfl, rfl⟩ := h
  have hspent : ∀ order ∈ db.findOrders (tx.inputs.map fun input => toOrderId (outPointText input)),
      ∃ ref cell terms, Mirrored v w.content order ref cell terms ∧ ref ∈ tx.inputs := by
    intro order horder
    obtain ⟨hmem, hid⟩ := Collection.mem_filter.mp horder
    obtain ⟨ref, cell, terms, hm⟩ := hall order hmem
    rw [decide_eq_true_eq, List.mem_map] at hid
    obtain ⟨input, hinput, hsame⟩ := hid
    have hout := hm.locates (outPointText_valid input) hsame.symm
    exact ⟨ref, cell, terms, hm, outPointText_injective hout ▸ hinput⟩
  obtain ⟨buyRef, buyCell, b, hb, hbm⟩ := hspent _ (List.mem_of_find?_eq_some hbuy)
  obtain ⟨sellRef, sellCell, s, hs, hsm⟩ := hspent _ (List.mem_of_find?_eq_some hsell)
  have hbid := List.find?_some hbuy
  have hask := List.find?_some hsell
  rw [decide_eq_true_eq] at hbid hask
  exact ⟨buyRef, sellRef, buyCell, sellCell, b, s, hb, hs, hbid, hask,
    settlesPair_of_spent hb hs hbid hask hd he hbm hsm⟩

theorem run_confirmExternalSettlement (txHash : Hash) :
    run drivers (c.node dex now) (confirmExternalSettlement v txHash (p.response tx)) db =
      match settledPair (db.findOrders (tx.inputs.map fun input => toOrderId (outPointText input))) with
      | none => (.ok (), db)
      | some (buy, sell) => run drivers (c.node dex now) (do
          let _ ← emit v (.tradeConfirmed
            (tradeConfirmedEvent buy sell (hashText txHash) p.blockNumber (some p.blockHash)))
          return ()) db := by
  have hfind : eval (handle drivers (c.node dex now)) (request (.findOrders
      (tx.inputs.map fun input => toOrderId (outPointText input)))) db =
      (.ok (db.findOrders (tx.inputs.map fun input => toOrderId (outPointText input))), db) := rfl
  simp only [run, confirmExternalSettlement, Position.response, eval_bind, hfind]
  rcases settledPair (db.findOrders (tx.inputs.map fun input => toOrderId (outPointText input))) with
    _ | ⟨buy, sell⟩
  · rfl
  · simp only [eval_bind]

end

section
variable {w : World} {c : Chain w} {dex : Script} {now : ℕ} {drivers : Drivers}
  {v : ChainVerification} {db : Db} {p : Position} {tx : RawTx}

theorem Mirrored.orderAt {order : OrderDocument} {ref : CellRef} {cell : CellOutput}
    {terms : OrderArgs} {side : Direction} (h : Mirrored v w.content order ref cell terms)
    (hside : order.direction = side) : OrderAt v w.content ref side terms :=
  ⟨cell, h.found, h.isOrder, h.direction.symm.trans hside⟩

theorem reconcile_agrees {order : OrderDocument} {ref : CellRef} {cell : CellOutput}
    {terms : OrderArgs} (hd : Deployed v dex) (he : Enforced v.hash dex w.content tx)
    (hm : Mirrored v w.content order ref cell terms) (hp : p ∈ positions w c.hashes)
    (hcontent : w.content p.txHash = some tx) (hmem : ref ∈ tx.inputs)
    (hopen : order.status ≠ .filled ∧ order.status ≠ .canceled) :
    ∃ found, run drivers (c.node dex now)
        (findInputWithLockHash v.hash order.ownerLockHash tx.inputs) db = (.ok found, db) ∧
      (found.isSome = true ↔ Cancels (resolvedTx v.hash w.content tx) (cell.toCell v.hash) terms) ∧
      (found = none ↔ Settles (resolvedTx v.hash w.content tx) (cell.toCell v.hash) terms) ∧
      run drivers (c.node dex now) (reconcileSpentOrder v order) db =
        run drivers (c.node dex now) (match found with
          | some _ => do
              let _ ← emit v (.orderCancelled
                (orderCancelledEvent order p.txHash p.blockNumber p.blockHash))
              return ()
          | none => confirmExternalSettlement v p.txHash (p.response tx)) db := by
  refine ⟨firstLock v.hash w.content order.ownerLockHash tx.inputs, run_findInputWithLockHash .., ?_⟩
  have hmaker := hm.firstLock_isSome tx
  rw [run_reconcileSpentOrder hm hp hcontent hmem hopen]
  rcases hm.branch hd he hmem with hc | hs
  · have hnot : ¬Settles (resolvedTx v.hash w.content tx) (cell.toCell v.hash) terms := by
      intro hs
      obtain ⟨input, hinput, hlock⟩ := hc.authorized
      exact hs.unauthorized input hinput hlock
    obtain ⟨lock, hlock⟩ := Option.isSome_iff_exists.mp (hmaker.mpr hc.authorized)
    rw [run_recordSpend_of_cancels hm hc, hlock]
    exact ⟨iff_of_true rfl hc, iff_of_false (by simp) hnot, rfl⟩
  · have hno : ¬∃ input ∈ (resolvedTx v.hash w.content tx).inputs,
        input.lockHash = terms.makerLockHash := by
      rintro ⟨input, hinput, hlock⟩
      exact hs.unauthorized input hinput hlock
    have hnone : firstLock v.hash w.content order.ownerLockHash tx.inputs = none := by
      rw [← Option.not_isSome_iff_eq_none, hmaker]
      exact hno
    rw [run_recordSpend_of_settles hm hs, hnone]
    exact ⟨iff_of_false (by simp) fun hc => hno hc.authorized, iff_of_true rfl hs, rfl⟩

theorem cancelled_agrees {event : OrderCancelledEvent} {order : OrderDocument} {ref : CellRef}
    {cell : CellOutput} {terms : OrderArgs} (hd : Deployed v dex) (he : ChainEnforced v dex c)
    (hm : Mirrored v w.content order ref cell terms)
    (hv : (BotEvent.orderCancelled event).valid = true)
    (horder : db.orders.find? (toOrderId event.outPoint) = some order)
    (hverify : run drivers (c.node dex now) (verifyEvent v (.orderCancelled event)) db = (.ok (), db)) :
    ∃ p ∈ positions w c.hashes, hashFrom event.cancelledByTxHash = some p.txHash ∧
      ∃ tx, w.content p.txHash = some tx ∧ dexRefs dex w.content tx = [ref] ∧
        Cancels (resolvedTx v.hash w.content tx) (cell.toCell v.hash) terms := by
  obtain ⟨response, read, hverified⟩ := run_verifyOrderCancelled hverify horder
  exact cancels_of_verified hd he hm hv horder hverified

theorem trade_agrees {event : TradeConfirmedEvent} (hd : Deployed v dex) (he : ChainEnforced v dex c)
    (hall : AllMirrored v w.content db) (hv : (BotEvent.tradeConfirmed event).valid = true)
    (htwo : (db.findOrders (tradeIds event)).length = 2)
    (hverify : run drivers (c.node dex now) (verifyEvent v (.tradeConfirmed event)) db = (.ok (), db)) :
    ∃ p ∈ positions w c.hashes, hashFrom event.trade.settlementTxHash = some p.txHash ∧
      ∃ tx buyRef sellRef b s, w.content p.txHash = some tx ∧
        SettlesPair v.hash dex w.content tx buyRef sellRef b s ∧
        event.buyOrderOutPoint = outPointText buyRef ∧
        event.sellOrderOutPoint = outPointText sellRef ∧
        OrderAt v w.content buyRef .bid b ∧ OrderAt v w.content sellRef .ask s ∧
        bigInt event.trade.price = some (b.price.toNat : ℤ) ∧
        bigInt event.trade.price = some (s.price.toNat : ℤ) ∧
        bigInt event.trade.tokenAmount = some (b.tokenAmount.toNat : ℤ) ∧
        bigInt event.trade.tokenAmount = some (s.tokenAmount.toNat : ℤ) := by
  obtain ⟨-, buy, sell, response, read, hbuy, hsell, hverified⟩ :=
    run_verifyTradeConfirmed hverify htwo
  obtain ⟨buyRef, buyCell, b, hb⟩ := hall buy (Collection.find?_eq_some.mp hbuy).1
  obtain ⟨sellRef, sellCell, s, hs⟩ := hall sell (Collection.find?_eq_some.mp hsell).1
  obtain ⟨p, hp, hkey, tx, hcontent, hpair, hbout, hsout, hprices⟩ :=
    settlesPair_of_verified hd he hb hs hv hbuy hsell hverified
  exact ⟨p, hp, hkey, tx, buyRef, sellRef, b, s, hcontent, hpair, hbout, hsout,
    hb.orderAt hverified.buy_direction, hs.orderAt hverified.sell_direction, hprices⟩

end

/-- On a chain that the contract has accepted, with order documents that mirror
their cells: the bot looks for a cancellation exactly where the contract took
its cancellation branch, verified cancellations and trades are the contract's
cancellations and settlements, the bot names the settled pair by its sides, and
no transaction passes as both. -/
theorem classification_agrees (drivers : Drivers) (v : ChainVerification) {w : World} (c : Chain w)
    (dex : Script) (now : ℕ) (db : Db) (hd : Deployed v dex) (he : ChainEnforced v dex c)
    (hall : AllMirrored v w.content db) :
    (∀ p ∈ positions w c.hashes, ∀ tx, w.content p.txHash = some tx →
      ∀ order ∈ db.orders.docs, ∀ ref cell terms, Mirrored v w.content order ref cell terms →
      ref ∈ tx.inputs → order.status ≠ .filled → order.status ≠ .canceled →
      ∃ found, run drivers (c.node dex now)
          (findInputWithLockHash v.hash order.ownerLockHash tx.inputs) db = (.ok found, db) ∧
        (found.isSome = true ↔ Cancels (resolvedTx v.hash w.content tx) (cell.toCell v.hash) terms) ∧
        (found = none ↔ Settles (resolvedTx v.hash w.content tx) (cell.toCell v.hash) terms) ∧
        run drivers (c.node dex now) (reconcileSpentOrder v order) db =
          run drivers (c.node dex now) (match found with
            | some _ => do
                let _ ← emit v (.orderCancelled
                  (orderCancelledEvent order p.txHash p.blockNumber p.blockHash))
                return ()
            | none => confirmExternalSettlement v p.txHash (p.response tx)) db) ∧
    (∀ event : OrderCancelledEvent, (BotEvent.orderCancelled event).valid = true →
      ∀ order, db.orders.find? (toOrderId event.outPoint) = some order →
      run drivers (c.node dex now) (verifyEvent v (.orderCancelled event)) db = (.ok (), db) →
      ∃ p ∈ positions w c.hashes, hashFrom event.cancelledByTxHash = some p.txHash ∧
        ∃ tx ref cell terms, w.content p.txHash = some tx ∧
          Mirrored v w.content order ref cell terms ∧ dexRefs dex w.content tx = [ref] ∧
          Cancels (resolvedTx v.hash w.content tx) (cell.toCell v.hash) terms) ∧
    (∀ event : TradeConfirmedEvent, (BotEvent.tradeConfirmed event).valid = true →
      (db.findOrders (tradeIds event)).length = 2 →
      run drivers (c.node dex now) (verifyEvent v (.tradeConfirmed event)) db = (.ok (), db) →
      ∃ p ∈ positions w c.hashes, hashFrom event.trade.settlementTxHash = some p.txHash ∧
        ∃ tx buyRef sellRef b s, w.content p.txHash = some tx ∧
          SettlesPair v.hash dex w.content tx buyRef sellRef b s ∧
          event.buyOrderOutPoint = outPointText buyRef ∧
          event.sellOrderOutPoint = outPointText sellRef ∧
          OrderAt v w.content buyRef .bid b ∧ OrderAt v w.content sellRef .ask s ∧
          bigInt event.trade.price = some (b.price.toNat : ℤ) ∧
          bigInt event.trade.price = some (s.price.toNat : ℤ) ∧
          bigInt event.trade.tokenAmount = some (b.tokenAmount.toNat : ℤ) ∧
          bigInt event.trade.tokenAmount = some (s.tokenAmount.toNat : ℤ)) ∧
    (∀ p ∈ positions w c.hashes, ∀ tx, w.content p.txHash = some tx →
      run drivers (c.node dex now) (confirmExternalSettlement v p.txHash (p.response tx)) db =
          (.ok (), db) ∨
        ∃ buy sell buyRef sellRef b s,
          run drivers (c.node dex now) (confirmExternalSettlement v p.txHash (p.response tx)) db =
            run drivers (c.node dex now) (do
              let _ ← emit v (.tradeConfirmed
                (tradeConfirmedEvent buy sell (hashText p.txHash) p.blockNumber (some p.blockHash)))
              return ()) db ∧
          buy.outPoint = outPointText buyRef ∧ sell.outPoint = outPointText sellRef ∧
          OrderAt v w.content buyRef .bid b ∧ OrderAt v w.content sellRef .ask s ∧
          SettlesPair v.hash dex w.content tx buyRef sellRef b s) ∧
    (∀ cancelled : OrderCancelledEvent, ∀ trade : TradeConfirmedEvent,
      (BotEvent.orderCancelled cancelled).valid = true → (BotEvent.tradeConfirmed trade).valid = true →
      (∃ order, db.orders.find? (toOrderId cancelled.outPoint) = some order) →
      (db.findOrders (tradeIds trade)).length = 2 →
      hashFrom cancelled.cancelledByTxHash = hashFrom trade.trade.settlementTxHash →
      run drivers (c.node dex now) (verifyEvent v (.orderCancelled cancelled)) db = (.ok (), db) →
      ¬run drivers (c.node dex now) (verifyEvent v (.tradeConfirmed trade)) db = (.ok (), db)) := by
  refine ⟨?_, ?_, ?_, ?_, ?_⟩
  · intro p hp tx hcontent order _ ref cell terms hm hmem hfilled hcanceled
    exact reconcile_agrees hd (he p hp tx hcontent) hm hp hcontent hmem ⟨hfilled, hcanceled⟩
  · intro event hv order horder hverify
    obtain ⟨ref, cell, terms, hm⟩ := hall order (Collection.find?_eq_some.mp horder).1
    obtain ⟨p, hp, hkey, tx, hcontent, hrefs, hc⟩ := cancelled_agrees hd he hm hv horder hverify
    exact ⟨p, hp, hkey, tx, ref, cell, terms, hcontent, hm, hrefs, hc⟩
  · intro event hv htwo hverify
    exact trade_agrees hd he hall hv htwo hverify
  · intro p hp tx hcontent
    rw [run_confirmExternalSettlement]
    cases hpair : settledPair
        (db.findOrders (tx.inputs.map fun input => toOrderId (outPointText input))) with
    | none => exact Or.inl rfl
    | some pair =>
        obtain ⟨buy, sell⟩ := pair
        obtain ⟨buyRef, sellRef, buyCell, sellCell, b, s, hb, hs, hbid, hask, hsettles⟩ :=
          settlesPair_of_settledPair hd (he p hp tx hcontent) hall hpair
        exact Or.inr ⟨buy, sell, buyRef, sellRef, b, s, rfl, hb.outPoint, hs.outPoint,
          hb.orderAt hbid, hs.orderAt hask, hsettles⟩
  · rintro cancelled trade hvc hvt ⟨order, horder⟩ htwo hsame hcancelled htrade
    obtain ⟨ref, cell, terms, hm⟩ := hall order (Collection.find?_eq_some.mp horder).1
    obtain ⟨p, -, hkey, tx, hcontent, hrefs, -⟩ := cancelled_agrees hd he hm hvc horder hcancelled
    obtain ⟨q, -, hkey', tx', buyRef, sellRef, b, s, hcontent', hsettles, -⟩ :=
      trade_agrees hd he hall hvt htwo htrade
    -- The same transaction cannot have one DEX input and two.
    have hhash : p.txHash = q.txHash := by
      rw [hsame, hkey'] at hkey
      exact (Option.some_inj.mp hkey).symm
    rw [hhash, hcontent', Option.some_inj] at hcontent
    subst hcontent
    rcases hsettles.refs with h | h <;> rw [hrefs] at h <;> simp at h

section
open SettlementBuilder

theorem exampleVerification_deployed : Deployed exampleVerification exampleDex := ⟨lower_toHex _, rfl⟩

theorem exampleWorld_enforced {hash : Hash} {tx : RawTx} (h : exampleWorld.content hash = some tx) :
    Enforced exampleVerification.hash exampleDex exampleWorld.content tx := by
  have hall : ∀ entry ∈ exampleTxs,
      (∀ ref ∈ entry.2.inputs, (cellAt exampleWorld.content ref).isSome = true) ∧
      ∀ own ∈ (resolvedTx exampleScriptHash exampleWorld.content entry.2).inputs,
        sameIdentity exampleDex own.lock = true → programEntry
          { tx := resolvedTx exampleScriptHash exampleWorld.content entry.2, script := own.lock } = 0 := by
    decide
  obtain ⟨hresolved, haccepted⟩ := hall _ (mem_exampleTxs h)
  exact ⟨fun ref href => Option.isSome_iff_exists.mp (hresolved ref href), haccepted⟩

theorem exampleChain_enforced : ChainEnforced exampleVerification exampleDex exampleChain :=
  fun _ _ _ hcontent => exampleWorld_enforced hcontent

theorem exampleOpen_mirrored : AllMirrored exampleVerification exampleWorld.content exampleOpen := by
  intro order horder
  rcases exampleOpen_docs.mp horder with rfl | rfl
  · exact ⟨⟨exampleHash 5, 0⟩, exampleBuyCell, _, rfl, rfl, rfl,
      ⟨lower_toHex _, rfl, exampleBuy_indexable.parsed⟩, rfl, rfl, rfl, rfl, rfl⟩
  · exact ⟨⟨exampleHash 5, 1⟩, exampleSellCell, _, rfl, rfl, rfl,
      ⟨lower_toHex _, rfl, exampleSell_indexable.parsed⟩, rfl, rfl, rfl, rfl, rfl⟩

theorem classification_agrees_example : ∃ tx buyRef sellRef b s,
    SettlesPair exampleScriptHash exampleDex exampleWorld.content tx buyRef sellRef b s ∧
      exampleSettled.buyOrderOutPoint = outPointText buyRef ∧
      exampleSettled.sellOrderOutPoint = outPointText sellRef := by
  obtain ⟨p, -, -, tx, buyRef, sellRef, b, s, -, hsettles, hbuy, hsell, -⟩ :=
    (classification_agrees exampleDrivers exampleVerification exampleChain exampleDex 0 exampleOpen
      exampleVerification_deployed exampleChain_enforced exampleOpen_mirrored).2.2.1 exampleSettled
      exampleSettled_valid exampleSettled_matches.length_eq exampleSettled_verified
  exact ⟨tx, buyRef, sellRef, b, s, hsettles, hbuy, hsell⟩

end

end CkbDex.SpendClassification
