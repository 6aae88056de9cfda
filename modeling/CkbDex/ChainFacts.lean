import CkbDex.OrdersAndTrades

/-!
# The facts that an event writes

The verifier compares most of what an event claims with the chain; the
transaction, which reads the orders again, copies what the event claims. The
facts in the documents denote what the chain has exactly when the claims that
nothing compared are right.
-/
namespace CkbDex.ChainFacts
open Bytes CellContext OrderLock Text Number Documents BotEvents ChainCells Collections Projection
open Programs Operations Chains EventVerification IngestionSteps ProjectionSteps GroundedDocuments
open Acceptance OrdersAndTrades

/-- An order as a chain has it. -/
structure ChainOrder where
  cell : CellOutput
  terms : OrderArgs
  owner : Script
  position : Position

section
variable {w : World}

/-- The order cell found under an out point, its creating transaction, and the
maker's lock among the locks that this transaction spends. -/
structure IsAt (v : ChainVerification) (c : Chain w) (outPoint : OutPoint) (x : ChainOrder) : Prop where
  position : x.position ∈ positions w c.hashes
  txHash : hashFrom outPoint.txHash = some x.position.txHash
  cell : cellOf w.content outPoint = some x.cell
  isOrder : IsOrder v x.cell x.terms
  funded : ∃ tx ref funding, w.content x.position.txHash = some tx ∧ ref ∈ tx.inputs ∧
    cellAt w.content ref = some funding ∧ funding.lock = x.owner
  owner : v.hash x.owner = x.terms.makerLockHash

/-- A transaction of the chain that spends the cell of an out point. -/
def SpentBy (c : Chain w) (outPoint : OutPoint) (p : Position) : Prop :=
  p ∈ positions w c.hashes ∧ ∃ tx, w.content p.txHash = some tx ∧ Spends tx.inputs outPoint

/-- A settlement of the chain and the terms of the two orders it spends. -/
structure SettledBy (v : ChainVerification) (c : Chain w) (event : TradeConfirmedEvent) (p : Position)
    (buy sell : OrderArgs) : Prop where
  position : p ∈ positions w c.hashes
  txHash : hashFrom event.trade.settlementTxHash = some p.txHash
  spends : ∃ tx buyRef sellRef, w.content p.txHash = some tx ∧ buyRef ∈ tx.inputs ∧
    sellRef ∈ tx.inputs ∧ Locates event.buyOrderOutPoint buyRef ∧
    Locates event.sellOrderOutPoint sellRef ∧ OrderAt v w.content buyRef .bid buy ∧
    OrderAt v w.content sellRef .ask sell

end

/-- The facts of an order document denote those of an order on chain. -/
structure Denotes (order : OrderDocument) (x : ChainOrder) : Prop where
  lockScript : scriptFrom order.lockScript = some x.cell.lock
  typeScript : order.typeScript.map scriptFrom = x.cell.type.map some
  cellData : bytesFrom order.cellData = some x.cell.data
  capacity : bigInt order.capacity = some (x.cell.capacity : ℤ)
  direction : order.direction = directionOf x.terms.side
  price : bigInt order.pricePerToken = some (x.terms.price.toNat : ℤ)
  amount : bigInt order.remainingAmount = some (x.terms.tokenAmount.toNat : ℤ)
  token : DenotesHash order.xudtTypeHash x.terms.xudtTypeHash
  ownerLock : scriptFrom order.ownerLock = some x.owner
  maker : DenotesHash order.ownerLockHash x.terms.makerLockHash
  blockNumber : bigInt order.blockNumber = some (x.position.blockNumber : ℤ)
  blockHash : ∃ text, order.createdBlockHash = some text ∧ DenotesHash text x.position.blockHash
  txIndex : bigInt order.txIndex = some (x.position.txIndex : ℤ)

/-- The facts of a spent order denote the spending transaction. -/
structure DenotesSpend (order : OrderDocument) (p : Position) : Prop where
  txHash : ∃ text, order.settlementTxHash = some text ∧ DenotesHash text p.txHash
  blockNumber : ∃ text, order.spentAtBlock = some text ∧ bigInt text = some (p.blockNumber : ℤ)
  blockHash : ∃ text, order.spentBlockHash = some text ∧ DenotesHash text p.blockHash

structure DenotesSettlement (trade : TradeDocument) (p : Position) : Prop where
  txHash : DenotesHash trade.settlementTxHash p.txHash
  blockNumber : bigInt trade.blockNumber = some (p.blockNumber : ℤ)
  blockHash : DenotesHash trade.blockHash p.blockHash

/-- The facts of a trade denote the terms that the settlement carries out; the
paid capacity is the agreed price. -/
structure DenotesTerms (trade : TradeDocument) (buy sell : OrderArgs) : Prop where
  buyer : DenotesHash trade.buyerLockHash buy.makerLockHash
  seller : DenotesHash trade.sellerLockHash sell.makerLockHash
  token : DenotesHash trade.xudtTypeHash sell.xudtTypeHash
  amount : bigInt trade.tokenAmount = some (sell.tokenAmount.toNat : ℤ)
  price : bigInt trade.price = some (sell.price.toNat : ℤ)
  paid : bigInt trade.paidCapacity = some (sell.price.toNat : ℤ)

/-- What an applied event wrote denotes what the chain has. The terms of a
trade are written on its insertion only. -/
def FactsAgree {w : World} (v : ChainVerification) (c : Chain w) (db : Db) (event : BotEvent)
    (next : Db) : Prop :=
  match event with
  | .orderConfirmed e => ∃ order x, next.orders.find? (toOrderId e.outPoint) = some order ∧
      IsAt v c e.outPoint x ∧ Denotes order x
  | .orderCancelled e => ∃ order p, next.orders.find? (toOrderId e.outPoint) = some order ∧
      SpentBy c e.outPoint p ∧ DenotesSpend order p
  | .tradeConfirmed e => ∃ trade p buy sell, next.trades.find? e.trade.settlementTxHash = some trade ∧
      SettledBy v c e p buy sell ∧ DenotesSettlement trade p ∧
      (∀ id ∈ tradeIds e, ∃ order, next.orders.find? id = some order ∧ DenotesSpend order p) ∧
      (db.trades.find? e.trade.settlementTxHash = none → DenotesTerms trade buy sell)
  | _ => True

/-- An event claims the transaction and the block of a position. -/
structure ClaimsPosition (event : EventBase) (txHash : Hex) (p : Position) : Prop where
  txHash : DenotesHash txHash p.txHash
  blockNumber : ∃ text, event.blockNumber = some text ∧ bigInt text = some (p.blockNumber : ℤ)
  blockHash : ∃ text, event.blockHash = some text ∧ DenotesHash text p.blockHash

/-- An event claims the terms of two orders, and the price as what was paid. -/
structure ClaimsTerms (trade : ConfirmedTrade) (buy sell : OrderArgs) : Prop where
  buyer : DenotesHash trade.buyerLockHash buy.makerLockHash
  seller : DenotesHash trade.sellerLockHash sell.makerLockHash
  token : DenotesHash trade.xudtTypeHash sell.xudtTypeHash
  amount : bigInt trade.tokenAmount = some (sell.tokenAmount.toNat : ℤ)
  price : bigInt trade.price = some (sell.price.toNat : ℤ)
  paid : bigInt trade.paidCapacity = some (sell.price.toNat : ℤ)

/-- The claims that nothing compared. No check looks at the code hash and hash
type of the lock script, the type script of a buy order, and the paid capacity.
Where the verifier finds no order it looks at nothing of a cancellation or a
trade, although the order may be stored when the transaction runs. -/
def Unforged {w : World} (v : ChainVerification) (c : Chain w) (seen db : Db) : BotEvent → Prop
  | .orderConfirmed e =>
      lower e.order.lockScript.codeHash = lower v.dexLock.codeHash ∧
      e.order.lockScript.hashType = v.dexLock.hashType ∧
      (e.order.direction = .bid → e.order.typeScript = none ∧
        ∀ order, db.orders.find? (toOrderId e.outPoint) = some order → order.typeScript = none)
  | .orderCancelled e => seen.orders.find? (toOrderId e.outPoint) = none →
      ∃ p, SpentBy c e.outPoint p ∧ ClaimsPosition e.toEventBase e.cancelledByTxHash p
  | .tradeConfirmed e =>
      (tradeOrdersStored seen (.tradeConfirmed e) →
        db.trades.find? e.trade.settlementTxHash = none →
        bigInt e.trade.paidCapacity = bigInt e.trade.price) ∧
      (¬tradeOrdersStored seen (.tradeConfirmed e) →
        ∃ p buy sell, SettledBy v c e p buy sell ∧
          ClaimsPosition e.toEventBase e.trade.settlementTxHash p ∧
          (db.trades.find? e.trade.settlementTxHash = none → ClaimsTerms e.trade buy sell))
  | _ => True

/-- The scripts of a chain's cells, and those that an event claims. -/
def ScriptAtHand (content : Content) (event : BotEvent) (s : Script) : Prop :=
  (∃ hash tx, content hash = some tx ∧ ∃ cell ∈ tx.outputs, cell.lock = s ∨ cell.type = some s) ∨
    ∃ e, event = .orderConfirmed e ∧ (scriptFrom e.order.ownerLock = some s ∨
      ∃ doc, e.order.typeScript = some doc ∧ scriptFrom doc = some s)

/-- No two scripts at hand have the same hash. -/
def CollisionFree (hash : Script → Hash) (content : Content) (event : BotEvent) : Prop :=
  Set.InjOn hash {s | ScriptAtHand content event s}

theorem hashTypeFrom_eq_some {s : String} {t : HashType} :
    hashTypeFrom s = some t ↔ s = hashTypeText t := by
  constructor
  · intro h
    unfold hashTypeFrom at h
    split_ifs at h with h₁ h₂ h₃ h₄ <;> cases h <;> assumption
  · rintro rfl
    exact hashTypeFrom_hashTypeText t

theorem scriptFrom_eq_some {doc : ScriptDocument} {s : Script} :
    scriptFrom doc = some s ↔ hashFrom doc.codeHash = some s.codeHash ∧
      hashTypeFrom doc.hashType = some s.hashType ∧ bytesFrom doc.args = some s.args := by
  simp only [scriptFrom, bind, Option.bind_eq_some_iff, pure, Option.some_inj]
  constructor
  · rintro ⟨codeHash, hc, hashType, ht, args, ha, rfl⟩
    exact ⟨hc, ht, ha⟩
  · rintro ⟨hc, ht, ha⟩
    exact ⟨s.codeHash, hc, s.hashType, ht, s.args, ha, rfl⟩

section
variable {w : World} {c : Chain w} {dex : Script} {now : ℕ} {drivers : Drivers}
  {v : ChainVerification} {seen db next : Db} {result : IngestionResult}

theorem denotesHash_of_event {event : EventBase} {text : Hex} {hash : Hash}
    (hv : EventBase.valid event = true) (htext : event.blockHash = some text)
    (h : lower text = hashText hash) : DenotesHash text hash := by
  simp only [EventBase.valid, htext, Bool.and_eq_true, Option.all_some] at hv
  exact ⟨hv.2, h⟩

/-- The maker's lock is found among the inputs. -/
theorem funding_of_checked {event : OrderConfirmedEvent} {response : TxResponse}
    {tx : ChainTransaction} {cell : CellOutput} {terms : OrderArgs}
    (h : OrderVerified v (c.node dex now) event response tx cell terms) :
    ∃ ref ∈ response.transaction.inputs, ∃ funding, cellAt w.content ref = some funding ∧
      v.hash funding.lock = terms.makerLockHash := by
  obtain ⟨text, htext, hsame⟩ := h.checked.funded
  obtain ⟨ref, href, funding, hcell, rfl⟩ := (h.confirmed.lockHashes text).mp htext
  refine ⟨ref, href, funding, Except.ok.inj hcell, hashText_injective ?_⟩
  rw [← hsame]
  exact (lower_toHex _).symm

theorem ScriptAtHand.lock {content : Content} {event : BotEvent} {ref : CellRef} {cell : CellOutput}
    (h : cellAt content ref = some cell) : ScriptAtHand content event cell.lock := by
  obtain ⟨tx, htx, hout⟩ := Option.bind_eq_some_iff.mp h
  exact Or.inl ⟨_, tx, htx, cell, List.mem_of_getElem? hout, Or.inl rfl⟩

theorem ScriptAtHand.type {content : Content} {event : BotEvent} {outPoint : OutPoint}
    {cell : CellOutput} {type : Script} (h : cellOf content outPoint = some cell)
    (htype : cell.type = some type) : ScriptAtHand content event type := by
  simp only [cellOf, bind, Option.bind_eq_some_iff] at h
  obtain ⟨hash, -, i, -, tx, htx, hout⟩ := h
  exact Or.inl ⟨hash, tx, htx, cell, List.mem_of_getElem? hout, Or.inr htype⟩

/-- What acceptance of an order-confirmed event says of the order on chain. -/
structure Accepted (v : ChainVerification) (c : Chain w) (event : OrderConfirmedEvent)
    (x : ChainOrder) : Prop extends IsAt v c event.outPoint x where
  blockHash : ∃ text, event.blockHash = some text ∧ lower text = hashText x.position.blockHash
  blockNumber : bigInt event.order.blockNumber = some (x.position.blockNumber : ℤ)
  txIndex : bigInt event.order.txIndex = some (x.position.txIndex : ℤ)
  checked : ∃ response hashes, OrderChecked v event response hashes x.cell x.terms

theorem accepted_of_verified {event : OrderConfirmedEvent} {response : TxResponse}
    {tx : ChainTransaction} {cell : CellOutput} {terms : OrderArgs}
    (h : OrderVerified v (c.node dex now) event response tx cell terms) :
    ∃ x, Accepted v c event x := by
  obtain ⟨p, hmem, hkey, hcontent, hresponse, hhash, number, hnumber, hblock⟩ :=
    position_of_confirmed h.confirmed
  obtain ⟨ref, href, funding, hcell, howner⟩ := funding_of_checked h
  obtain ⟨i, hi, hout⟩ := h.checked.output
  have hindex : response.txIndex = some p.txIndex := by rw [hresponse]; rfl
  have hsame := h.checked.blockNumber
  rw [hnumber, Option.some_inj] at hsame
  refine ⟨⟨cell, terms, funding.lock, p⟩, ⟨hmem, hkey, ?_, ?_, ?_, howner⟩, hhash, hsame ▸ hblock,
    h.checked.txIndex _ hindex, ⟨response, _, h.checked⟩⟩
  · simp only [cellOf, hkey, hi, hcontent, bind, Option.bind_some, hout]
  · exact ⟨h.checked.dexLock.1, h.checked.dexLock.2, h.checked.decoded⟩
  · exact ⟨response.transaction, ref, funding, hcontent, href, hcell, rfl⟩

/-- The stored lock script is that of the cell exactly when the claimed one is
the configured DEX lock. -/
theorem Accepted.lockScript_iff {event : OrderConfirmedEvent} {x : ChainOrder}
    (h : Accepted v c event x) (hv : ConfirmedOrder.valid event.order = true) :
    scriptFrom event.order.lockScript = some x.cell.lock ↔
      lower event.order.lockScript.codeHash = lower v.dexLock.codeHash ∧
        event.order.lockScript.hashType = v.dexLock.hashType := by
  simp only [ConfirmedOrder.valid, ScriptDocument.valid, Bool.and_eq_true] at hv
  obtain ⟨⟨⟨⟨⟨⟨⟨⟨⟨⟨⟨⟨hcode, -⟩, hargs⟩, -⟩, -⟩, -⟩, -⟩, -⟩, -⟩, -⟩, -⟩, -⟩, -⟩ := hv
  obtain ⟨response, hashes, hchecked⟩ := h.checked
  rw [scriptFrom_eq_some, h.isOrder.codeHash, ← h.isOrder.hashType, hashTypeFrom_eq_some]
  constructor
  · rintro ⟨hc, ht, -⟩
    exact ⟨(denotesHash_of_hashFrom hcode hc).2, ht⟩
  · rintro ⟨hc, ht⟩
    exact ⟨hashFrom_of_lower hcode hc, ht, bytesFrom_of_lower hargs hchecked.args⟩

/-- The stored type script is that of the cell, unless a buy order has one. -/
theorem Accepted.typeScript_iff {event : OrderConfirmedEvent} {x : ChainOrder}
    (h : Accepted v c event x) (hfree : CollisionFree v.hash w.content (.orderConfirmed event))
    (existing : Option OrderDocument) :
    (confirmedDocument existing event).typeScript.map scriptFrom = x.cell.type.map some ↔
      (event.order.direction = .bid → event.order.typeScript = none ∧
        ∀ order, existing = some order → order.typeScript = none) := by
  obtain ⟨response, hashes, hchecked⟩ := h.checked
  have hstored : (confirmedDocument existing event).typeScript =
      (event.order.typeScript <|> existing.bind OrderDocument.typeScript) := rfl
  rw [hstored]
  cases hdir : directionOf x.terms.side with
  | ask =>
      obtain ⟨⟨type, htype, hhash⟩, ⟨script, claimed, hscript, hclaimed, hsame⟩, -, -⟩ :=
        hchecked.asset hdir
      have hclaimedType : claimed = type :=
        hfree (Or.inr ⟨event, rfl, Or.inr ⟨script, hscript, hclaimed⟩⟩)
          (.type h.cell htype) (hsame.trans hhash.symm)
      refine iff_of_true ?_ fun hbid => ?_
      · rw [hscript, htype]
        change some (scriptFrom script) = some (some type)
        rw [hclaimed, hclaimedType]
      · rw [hchecked.direction, hdir] at hbid
        cases hbid
  | bid =>
      have hplain : x.cell.type = none := hchecked.plain (by rw [hdir]; decide)
      rw [hplain, hchecked.direction, hdir, Option.map_none, Option.map_eq_none_iff]
      simp only [forall_true_left]
      cases event.order.typeScript with
      | none => cases existing <;> simp
      | some script => simp

theorem Accepted.denotes_iff {event : OrderConfirmedEvent} {x : ChainOrder}
    (h : Accepted v c event x) (hv : (BotEvent.orderConfirmed event).valid = true)
    (hfree : CollisionFree v.hash w.content (.orderConfirmed event)) :
    Denotes (confirmedDocument (db.orders.find? (toOrderId event.outPoint)) event) x ↔
      Unforged v c seen db (.orderConfirmed event) := by
  simp only [BotEvent.valid, Bool.and_eq_true] at hv
  obtain ⟨hbase, -, hord⟩ := hv
  have hlock := h.lockScript_iff hord
  have htype := h.typeScript_iff hfree (db.orders.find? (toOrderId event.outPoint))
  constructor
  · intro hd
    obtain ⟨hcode, hhashType⟩ := hlock.mp hd.lockScript
    exact ⟨hcode, hhashType, htype.mp hd.typeScript⟩
  · rintro ⟨hcode, hhashType, hbuy⟩
    obtain ⟨response, hashes, hchecked⟩ := h.checked
    obtain ⟨text, htext, hsame⟩ := h.blockHash
    obtain ⟨tx, ref, funding, -, -, hcell, hlockOwner⟩ := h.funded
    obtain ⟨owner, howner, hmaker⟩ := hchecked.owner
    have hownerSame : owner = x.owner :=
      hfree (Or.inr ⟨event, rfl, Or.inl howner⟩) (hlockOwner ▸ .lock hcell)
        (hmaker.trans h.owner.symm)
    simp only [ConfirmedOrder.valid, Bool.and_eq_true] at hord
    obtain ⟨⟨⟨⟨⟨⟨⟨⟨⟨⟨-, -⟩, hdata⟩, -⟩, -⟩, hownerHash⟩, -⟩, -⟩, htoken⟩, -⟩, -⟩ := hord
    refine ⟨hlock.mpr ⟨hcode, hhashType⟩, htype.mpr hbuy, bytesFrom_of_lower hdata hchecked.data,
      hchecked.capacity, hchecked.direction, hchecked.price, hchecked.amount,
      ⟨htoken, hchecked.token⟩, hownerSame ▸ howner, ⟨hownerHash, hchecked.maker⟩, h.blockNumber,
      ⟨text, ?_, denotesHash_of_event hbase htext hsame⟩, h.txIndex⟩
    simp [confirmedDocument, htext]

/-- A chain has at most one order under an out point. -/
theorem IsAt.unique {event : BotEvent} {a b : OutPoint} {x y : ChainOrder}
    (hfree : CollisionFree v.hash w.content event) (hx : IsAt v c a x) (hy : IsAt v c b y)
    (hsame : SameCell a b) : x = y := by
  obtain ⟨cell, terms, owner, p⟩ := x
  obtain ⟨cell', terms', owner', q⟩ := y
  have hhash : p.txHash = q.txHash := by
    have h := hx.txHash
    rw [hsame.txHash, hy.txHash] at h
    exact (Option.some_inj.mp h).symm
  obtain rfl : p = q := List.inj_on_of_nodup_map c.once hx.position hy.position hhash
  obtain rfl : cell = cell' := by
    have h := hx.cell
    rw [cellOf, hsame.txHash, hsame.index] at h
    exact Option.some_inj.mp (h.symm.trans hy.cell)
  obtain rfl : terms = terms' := Except.ok.inj (hx.isOrder.terms.symm.trans hy.isOrder.terms)
  obtain ⟨-, ref, funding, -, -, hcell, rfl⟩ := hx.funded
  obtain ⟨-, ref', funding', -, -, hcell', rfl⟩ := hy.funded
  have howner : funding.lock = funding'.lock :=
    hfree (.lock hcell) (.lock hcell') (hx.owner.trans hy.owner.symm)
  simp only [howner]

/-- A chain spends a cell in one transaction only. -/
theorem SpentBy.unique {a b : OutPoint} {p q : Position} (hp : SpentBy c a p) (hq : SpentBy c b q)
    (ha : OutPoint.valid a = true) (hb : OutPoint.valid b = true) (hsame : SameCell a b) : p = q := by
  obtain ⟨hpmem, tx, htx, hspends⟩ := hp
  obtain ⟨hqmem, tx', htx', hspends'⟩ := hq
  obtain ⟨ref, href, hlocates⟩ := spends_iff.mp hspends
  obtain ⟨ref', href', hlocates'⟩ := spends_iff.mp hspends'
  obtain rfl := (hlocates.sameCell_iff hlocates' ha hb).mp hsame
  exact c.spender_unique hpmem hqmem (mem_inputsOf.mpr ⟨tx, htx, href⟩)
    (mem_inputsOf.mpr ⟨tx', htx', href'⟩)

/-- A settlement carries out one buy and one sell order. -/
theorem SettledBy.unique {a b : TradeConfirmedEvent} {p q : Position}
    {buy sell buy' sell' : OrderArgs} (hone : OneOrderPerSide v w.content)
    (ha : SettledBy v c a p buy sell) (hb : SettledBy v c b q buy' sell')
    (hsame : hashFrom a.trade.settlementTxHash = hashFrom b.trade.settlementTxHash) :
    p = q ∧ buy = buy' ∧ sell = sell' := by
  have hhash : p.txHash = q.txHash := by
    rw [ha.txHash, hb.txHash] at hsame
    exact Option.some_inj.mp hsame
  obtain rfl := List.inj_on_of_nodup_map c.once ha.position hb.position hhash
  obtain ⟨tx, r, s, htx, hr, hs, -, -, hbuy, hsell⟩ := ha.spends
  obtain ⟨tx', r', s', htx', hr', hs', -, -, hbuy', hsell'⟩ := hb.spends
  rw [htx, Option.some_inj] at htx'
  subst htx'
  obtain rfl := hone _ _ htx r hr r' hr' .bid _ _ hbuy hbuy'
  obtain rfl := hone _ _ htx s hs s' hs' .ask _ _ hsell hsell'
  exact ⟨rfl, hbuy.terms_unique hbuy', hsell.terms_unique hsell'⟩

theorem claimsPosition_of_confirmed {event : EventBase} {txHash : Hex} {p : Position}
    (hv : EventBase.valid event = true) (htx : isHash txHash = true)
    (hkey : hashFrom txHash = some p.txHash)
    (hclaimed : ∃ text, event.blockHash = some text ∧ lower text = hashText p.blockHash)
    (hnumber : ∃ text, event.blockNumber = some text ∧ bigInt text = some (p.blockNumber : ℤ)) :
    ClaimsPosition event txHash p where
  txHash := denotesHash_of_hashFrom htx hkey
  blockNumber := hnumber
  blockHash := by
    obtain ⟨text, htext, hsame⟩ := hclaimed
    exact ⟨text, htext, denotesHash_of_event hv htext hsame⟩

/-- A spent order records what the event claims. -/
theorem denotesSpend_iff {event : EventBase} {txHash : Hex} {order : OrderDocument} {p : Position}
    (hsettled : order.settlementTxHash = some txHash) (hblock : order.spentAtBlock = event.blockNumber)
    (hhash : order.spentBlockHash = event.blockHash) :
    DenotesSpend order p ↔ ClaimsPosition event txHash p := by
  constructor
  · intro h
    obtain ⟨text, htext, hdenotes⟩ := h.txHash
    obtain rfl := Option.some_inj.mp (hsettled.symm.trans htext)
    exact ⟨hdenotes, hblock ▸ h.blockNumber, hhash ▸ h.blockHash⟩
  · intro h
    exact ⟨⟨txHash, hsettled, h.txHash⟩, hblock ▸ h.blockNumber, hhash ▸ h.blockHash⟩

theorem cancelled_claims {event : OrderCancelledEvent} {order : OrderDocument}
    {response : TxResponse} {tx : ChainTransaction}
    (hv : (BotEvent.orderCancelled event).valid = true)
    (h : CancelVerified v (c.node dex now) event order response tx) :
    ∃ p, SpentBy c event.outPoint p ∧
      ClaimsPosition event.toEventBase event.cancelledByTxHash p := by
  obtain ⟨p, hmem, hkey, hcontent, -, hhash, hnumber⟩ := position_of_confirmed h.confirmed
  simp only [BotEvent.valid, Bool.and_eq_true] at hv
  exact ⟨p, ⟨hmem, _, hcontent, h.spends⟩,
    claimsPosition_of_confirmed hv.1 hv.2.2 hkey hhash hnumber⟩

/-- What acceptance of a trade-confirmed event says of the settlement on chain. -/
theorem settledBy_of_verified {event : TradeConfirmedEvent} {buy sell : OrderDocument}
    {response : TxResponse} {tx : ChainTransaction} (hg : OrdersStand v w.content db)
    (hv : (BotEvent.tradeConfirmed event).valid = true)
    (hbuy : db.orders.find? (toOrderId event.buyOrderOutPoint) = some buy)
    (hsell : db.orders.find? (toOrderId event.sellOrderOutPoint) = some sell)
    (h : TradeVerified v (c.node dex now) event buy sell response tx) :
    ∃ p b s, SettledBy v c event p b s ∧
      ClaimsPosition event.toEventBase event.trade.settlementTxHash p ∧
      ∃ tx buyRef sellRef, TradeStands v w.content (claimedFacts event) tx buyRef sellRef b s := by
  obtain ⟨p, hmem, hkey, hcontent, -, hhash, hnumber⟩ := position_of_confirmed h.confirmed
  obtain ⟨buyRef, sellRef, b, s, hstands⟩ :=
    tradeStands_claimedFacts hg (c.truthful_node dex now) hv hbuy hsell h
  simp only [BotEvent.valid, ConfirmedTrade.valid, Bool.and_eq_true] at hv
  obtain ⟨hbase, -, ⟨⟨⟨⟨⟨⟨⟨htx, -⟩, -⟩, -⟩, -⟩, -⟩, -⟩, -⟩⟩ := hv
  refine ⟨p, b, s, ⟨hmem, hkey, response.transaction, buyRef, sellRef, hcontent, hstands.buy_mem,
    hstands.sell_mem, hstands.buy_locates, hstands.sell_locates, hstands.buy_order,
    hstands.sell_order⟩, claimsPosition_of_confirmed hbase htx hkey hhash hnumber,
    response.transaction, buyRef, sellRef, hstands⟩

/-- The claimed terms are those of the settlement exactly when the claimed paid
capacity is the price. -/
theorem claimsTerms_iff {event : TradeConfirmedEvent} {tx : RawTx} {buyRef sellRef : CellRef}
    {b s : OrderArgs} (h : TradeStands v w.content (claimedFacts event) tx buyRef sellRef b s) :
    ClaimsTerms event.trade b s ↔ bigInt event.trade.paidCapacity = bigInt event.trade.price := by
  have hprice : bigInt event.trade.price = some (s.price.toNat : ℤ) := h.price
  rw [hprice]
  constructor
  · intro hd
    exact hd.paid
  · intro hpaid
    exact ⟨h.buyer, h.seller, h.token, h.amount, hprice, hpaid⟩

/-- The stored trade names the settlement and the block that the event claims. -/
theorem denotesSettlement_settledTrade {event : TradeConfirmedEvent} {p : Position}
    (hid : ∀ trade ∈ db.trades.docs, trade.id = trade.settlementTxHash)
    (h : ClaimsPosition event.toEventBase event.trade.settlementTxHash p) :
    DenotesSettlement (settledTrade db event) p := by
  have hsame : (settledTrade db event).settlementTxHash = event.trade.settlementTxHash := by
    unfold settledTrade
    cases hold : db.trades.find? event.trade.settlementTxHash with
    | none => rfl
    | some trade =>
        obtain ⟨hmem, hkey⟩ := Collection.find?_eq_some.mp hold
        exact (hid trade hmem).symm.trans hkey
  obtain ⟨number, hnumber, hblock⟩ := h.blockNumber
  obtain ⟨hash, hhash, hdenotes⟩ := h.blockHash
  refine ⟨?_, ?_, ?_⟩
  · rw [hsame]
    exact h.txHash
  · simpa [settledTrade, confirmedTrade, hnumber] using hblock
  · simpa [settledTrade, confirmedTrade, hhash] using hdenotes

theorem denotesTerms_settledTrade {event : TradeConfirmedEvent} {b s : OrderArgs}
    (hnone : db.trades.find? event.trade.settlementTxHash = none) :
    DenotesTerms (settledTrade db event) b s ↔ ClaimsTerms event.trade b s := by
  rw [settledTrade, hnone]
  exact ⟨fun h => ⟨h.buyer, h.seller, h.token, h.amount, h.price, h.paid⟩,
    fun h => ⟨h.buyer, h.seller, h.token, h.amount, h.price, h.paid⟩⟩

theorem factsAgree_orderConfirmed {event : OrderConfirmedEvent}
    (hv : (BotEvent.orderConfirmed event).valid = true)
    (hfree : CollisionFree v.hash w.content (.orderConfirmed event))
    (hverify : run drivers (c.node dex now) (verifyEvent v (.orderConfirmed event)) seen = (.ok (), seen))
    (hnext : next.orders.find? (toOrderId event.outPoint) =
      some (confirmedDocument (db.orders.find? (toOrderId event.outPoint)) event)) :
    FactsAgree v c db (.orderConfirmed event) next ↔
      Unforged v c seen db (.orderConfirmed event) := by
  obtain ⟨response, tx, cell, terms, hverified⟩ := run_verifyOrderConfirmed hverify
  obtain ⟨x, hx⟩ := accepted_of_verified hverified
  rw [← hx.denotes_iff hv hfree]
  constructor
  · rintro ⟨order, y, horder, hy, hd⟩
    rw [hnext, Option.some_inj] at horder
    obtain rfl := hy.unique hfree hx.toIsAt ⟨rfl, rfl⟩
    exact horder ▸ hd
  · intro hd
    exact ⟨_, x, hnext, hx.toIsAt, hd⟩

theorem factsAgree_orderCancelled {event : OrderCancelledEvent} {order : OrderDocument}
    (hv : (BotEvent.orderCancelled event).valid = true)
    (hverify : run drivers (c.node dex now) (verifyEvent v (.orderCancelled event)) seen = (.ok (), seen))
    (hnext : next.orders.find? (toOrderId event.outPoint) = some (cancelledDocument event order)) :
    FactsAgree v c db (.orderCancelled event) next ↔
      Unforged v c seen db (.orderCancelled event) := by
  have hclaims : FactsAgree v c db (.orderCancelled event) next ↔ ∃ p, SpentBy c event.outPoint p ∧
      ClaimsPosition event.toEventBase event.cancelledByTxHash p := by
    constructor
    · rintro ⟨stored, p, hstored, hspent, hd⟩
      obtain rfl := Option.some_inj.mp (hnext.symm.trans hstored)
      exact ⟨p, hspent, (denotesSpend_iff rfl rfl rfl).mp hd⟩
    · rintro ⟨p, hspent, hclaims⟩
      exact ⟨_, p, hnext, hspent, (denotesSpend_iff rfl rfl rfl).mpr hclaims⟩
  rw [hclaims, Unforged]
  cases hseen : seen.orders.find? (toOrderId event.outPoint) with
  | none => exact ⟨fun h _ => h, fun h => h rfl⟩
  | some known =>
      obtain ⟨response, tx, hverified⟩ := run_verifyOrderCancelled hverify hseen
      exact iff_of_true (cancelled_claims hv hverified) nofun

/-- A trade that was applied agrees with the chain exactly when the event claims
the position and, for a new trade, the terms of the settlement. -/
theorem factsAgree_applied_iff {event : TradeConfirmedEvent}
    (hid : ∀ trade ∈ db.trades.docs, trade.id = trade.settlementTxHash)
    (hblock : event.blockNumber = some event.trade.confirmedAtBlock)
    (hready : Ready db (tradeIds event) .filled)
    (horders : next.orders =
      (db.saveOrders (tradeIds event) (filledDocument event) fun _ => rfl).orders)
    (htrades : next.trades = db.trades.put (settledTrade db event)) :
    FactsAgree v c db (.tradeConfirmed event) next ↔ ∃ p buy sell, SettledBy v c event p buy sell ∧
      ClaimsPosition event.toEventBase event.trade.settlementTxHash p ∧
      (db.trades.find? event.trade.settlementTxHash = none → ClaimsTerms event.trade buy sell) := by
  have htrade : next.trades.find? event.trade.settlementTxHash = some (settledTrade db event) := by
    rw [htrades, Collection.find?_put, if_pos id_settledTrade]
  have hfilled : ∀ id ∈ tradeIds event, ∃ order,
      next.orders.find? id = some (filledDocument event order) := by
    intro id hmem
    obtain ⟨order, horder⟩ := find?_of_length_findOrders hready.found id hmem
    refine ⟨order, ?_⟩
    rw [horders]
    refine (find?_saveOrders (tradeIds event) (filledDocument event) fun _ => rfl).trans ?_
    rw [horder, Option.map_some, if_pos (Collection.key_of_find? horder ▸ hmem)]
  constructor
  · rintro ⟨trade, p, b, s, hfound, hsettled, -, hspends, hterms⟩
    obtain rfl := Option.some_inj.mp (htrade.symm.trans hfound)
    obtain ⟨order, horder⟩ := hfilled _ (mem_tradeIds.mpr (Or.inl rfl))
    obtain ⟨stored, hstored, hd⟩ := hspends _ (mem_tradeIds.mpr (Or.inl rfl))
    obtain rfl := Option.some_inj.mp (horder.symm.trans hstored)
    exact ⟨p, b, s, hsettled, (denotesSpend_iff rfl hblock.symm rfl).mp hd,
      fun hnone => (denotesTerms_settledTrade hnone).mp (hterms hnone)⟩
  · rintro ⟨p, b, s, hsettled, hclaims, hterms⟩
    refine ⟨_, p, b, s, htrade, hsettled, denotesSettlement_settledTrade hid hclaims,
      fun id hmem => ?_, fun hnone => (denotesTerms_settledTrade hnone).mpr (hterms hnone)⟩
    obtain ⟨order, horder⟩ := hfilled id hmem
    exact ⟨_, horder, (denotesSpend_iff rfl hblock.symm rfl).mpr hclaims⟩

theorem factsAgree_tradeConfirmed {event : TradeConfirmedEvent} (hg : OrdersStand v w.content seen)
    (hid : ∀ trade ∈ db.trades.docs, trade.id = trade.settlementTxHash)
    (hv : (BotEvent.tradeConfirmed event).valid = true)
    (hverify : run drivers (c.node dex now) (verifyEvent v (.tradeConfirmed event)) seen = (.ok (), seen))
    (hready : Ready db (tradeIds event) .filled)
    (horders : next.orders =
      (db.saveOrders (tradeIds event) (filledDocument event) fun _ => rfl).orders)
    (htrades : next.trades = db.trades.put (settledTrade db event)) :
    FactsAgree v c db (.tradeConfirmed event) next ↔
      Unforged v c seen db (.tradeConfirmed event) := by
  rw [factsAgree_applied_iff hid (confirmedAtBlock_of_verified hverify) hready horders htrades,
    Unforged]
  by_cases hstored : tradeOrdersStored seen (.tradeConfirmed event)
  · obtain ⟨-, buy, sell, response, tx, hbuy, hsell, hverified⟩ :=
      run_verifyTradeConfirmed hverify hstored
    obtain ⟨p, b, s, hsettled, hclaims, raw, buyRef, sellRef, hstands⟩ :=
      settledBy_of_verified hg hv hbuy hsell hverified
    constructor
    · rintro ⟨q, b', s', -, -, hterms⟩
      refine ⟨fun _ hnone => ?_, fun h => absurd hstored h⟩
      rw [(hterms hnone).paid, (hterms hnone).price]
    · rintro ⟨hpaid, -⟩
      exact ⟨p, b, s, hsettled, hclaims, fun hnone => (claimsTerms_iff hstands).mpr (hpaid hstored hnone)⟩
  · exact ⟨fun h => ⟨fun h' => absurd h' hstored, fun _ => h⟩, fun h => h.2 hstored⟩

end

section
variable {w : World} {c : Chain w} {dex : Script} {now : ℕ} {drivers : Drivers}
  {v : ChainVerification} {seen db made next : Db} {result : IngestionResult}

theorem factsAgree_applyEvent {event : BotEvent} (hg : OrdersStand v w.content seen)
    (hid : ∀ trade ∈ db.trades.docs, trade.id = trade.settlementTxHash)
    (hv : event.valid = true) (hfree : CollisionFree v.hash w.content event)
    (hverify : run drivers (c.node dex now) (verifyEvent v event) seen = (.ok (), seen))
    (happly : applyEvent drivers event db = .ok (result, made)) (happlied : result.status = .applied)
    (hsame : SameProjection made next) :
    FactsAgree v c db event next ↔ Unforged v c seen db event := by
  cases event with
  | orderConfirmed e =>
      rcases applyOrderConfirmed_eq_ok.mp happly with ⟨-, rfl, -⟩ | ⟨-, -, -, -, -, rfl⟩
      · cases happlied
      · exact factsAgree_orderConfirmed hv hfree hverify (hsame.orders ▸ Collection.find?_put_self)
  | orderCancelled e =>
      rcases applyOrderCancelled_eq_ok.mp happly with ⟨-, rfl, -⟩ | ⟨order, horder, -, -, rfl⟩
      · cases happlied
      · have hstored : next.orders.find? (toOrderId e.outPoint) = some (cancelledDocument e order) := by
          rw [hsame.orders]
          exact Collection.find?_put.trans (if_pos (Collection.key_of_find? horder))
        exact factsAgree_orderCancelled hv hverify hstored
  | settlementSubmitted e => exact iff_of_true trivial trivial
  | tradeConfirmed e =>
      rcases applyTradeConfirmed_eq_ok happly with ⟨hignored, -⟩ | ⟨hready, -, rfl⟩
      · rw [happlied] at hignored
        cases hignored
      · exact factsAgree_tradeConfirmed hg hid hv hverify hready hsame.orders hsame.trades
  | chainReorg e => exact iff_of_true trivial trivial

end

section
variable {w : World} {c : Chain w} {v : ChainVerification} {db₁ db₂ next₁ next₂ : Db}

theorem same_order {a b : OrderConfirmedEvent} (hsame : SameCell a.outPoint b.outPoint)
    (hfree : CollisionFree v.hash w.content (.orderConfirmed a))
    (ha : FactsAgree v c db₁ (.orderConfirmed a) next₁)
    (hb : FactsAgree v c db₂ (.orderConfirmed b) next₂) :
    ∃ o₁ o₂ x, next₁.orders.find? (toOrderId a.outPoint) = some o₁ ∧
      next₂.orders.find? (toOrderId b.outPoint) = some o₂ ∧ Denotes o₁ x ∧ Denotes o₂ x := by
  obtain ⟨o₁, x, hfind₁, hx, hd₁⟩ := ha
  obtain ⟨o₂, y, hfind₂, hy, hd₂⟩ := hb
  obtain rfl := hx.unique hfree hy hsame
  exact ⟨o₁, o₂, x, hfind₁, hfind₂, hd₁, hd₂⟩

theorem same_spend {a b : OrderCancelledEvent} (hva : (BotEvent.orderCancelled a).valid = true)
    (hvb : (BotEvent.orderCancelled b).valid = true) (hsame : SameCell a.outPoint b.outPoint)
    (ha : FactsAgree v c db₁ (.orderCancelled a) next₁)
    (hb : FactsAgree v c db₂ (.orderCancelled b) next₂) :
    ∃ o₁ o₂ p, next₁.orders.find? (toOrderId a.outPoint) = some o₁ ∧
      next₂.orders.find? (toOrderId b.outPoint) = some o₂ ∧ DenotesSpend o₁ p ∧ DenotesSpend o₂ p := by
  obtain ⟨o₁, p, hfind₁, hp, hd₁⟩ := ha
  obtain ⟨o₂, q, hfind₂, hq, hd₂⟩ := hb
  simp only [BotEvent.valid, Bool.and_eq_true] at hva hvb
  obtain rfl := hp.unique hq hva.2.1 hvb.2.1 hsame
  exact ⟨o₁, o₂, p, hfind₁, hfind₂, hd₁, hd₂⟩

theorem same_trade {a b : TradeConfirmedEvent} (hone : OneOrderPerSide v w.content)
    (hsame : hashFrom a.trade.settlementTxHash = hashFrom b.trade.settlementTxHash)
    (hnew₁ : db₁.trades.find? a.trade.settlementTxHash = none)
    (hnew₂ : db₂.trades.find? b.trade.settlementTxHash = none)
    (ha : FactsAgree v c db₁ (.tradeConfirmed a) next₁)
    (hb : FactsAgree v c db₂ (.tradeConfirmed b) next₂) :
    ∃ t₁ t₂ p buy sell, next₁.trades.find? a.trade.settlementTxHash = some t₁ ∧
      next₂.trades.find? b.trade.settlementTxHash = some t₂ ∧ DenotesSettlement t₁ p ∧
      DenotesSettlement t₂ p ∧ DenotesTerms t₁ buy sell ∧ DenotesTerms t₂ buy sell := by
  obtain ⟨t₁, p, buy, sell, hfind₁, hp, hd₁, -, hterms₁⟩ := ha
  obtain ⟨t₂, q, buy', sell', hfind₂, hq, hd₂, -, hterms₂⟩ := hb
  obtain ⟨rfl, rfl, rfl⟩ := hp.unique hone hq hsame
  exact ⟨t₁, t₂, p, buy, sell, hfind₁, hfind₂, hd₁, hd₂, hterms₁ hnew₁, hterms₂ hnew₂⟩

end

/-- An event that is verified on a reachable state, and applied by its
transaction on a later one, writes facts that denote what the chain has, if and
only if the claims that nothing compared are right. Two such events about one
cell or settlement write facts that denote the same. -/
theorem applied_facts_agree_iff (drivers : Drivers) (v : ChainVerification) {w : World}
    (c : Chain w) (dex : Script) (now : ℕ) :
    (∀ s, Leads drivers v w.content (onFound unrestricted) Service.empty s →
      ∀ event : BotEvent, event.valid = true → CollisionFree v.hash w.content event →
      run drivers (c.node dex now) (verifyEvent v event) s.db = (.ok (), s.db) →
      ∀ t, Leads drivers v w.content (onFound unrestricted) ⟨s.db, ⟨s.db, event⟩ :: s.verified⟩ t →
      ∀ result next, transact drivers event t.db = (.committed result, next) →
      result.status = .applied → (FactsAgree v c t.db event next ↔ Unforged v c s.db t.db event)) ∧
    (∀ a b : OrderConfirmedEvent, SameCell a.outPoint b.outPoint →
      CollisionFree v.hash w.content (.orderConfirmed a) → ∀ db₁ db₂ next₁ next₂,
      FactsAgree v c db₁ (.orderConfirmed a) next₁ → FactsAgree v c db₂ (.orderConfirmed b) next₂ →
      ∃ o₁ o₂ x, next₁.orders.find? (toOrderId a.outPoint) = some o₁ ∧
        next₂.orders.find? (toOrderId b.outPoint) = some o₂ ∧ Denotes o₁ x ∧ Denotes o₂ x) ∧
    (∀ a b : OrderCancelledEvent, (BotEvent.orderCancelled a).valid = true →
      (BotEvent.orderCancelled b).valid = true → SameCell a.outPoint b.outPoint →
      ∀ db₁ db₂ next₁ next₂, FactsAgree v c db₁ (.orderCancelled a) next₁ →
      FactsAgree v c db₂ (.orderCancelled b) next₂ →
      ∃ o₁ o₂ p, next₁.orders.find? (toOrderId a.outPoint) = some o₁ ∧
        next₂.orders.find? (toOrderId b.outPoint) = some o₂ ∧ DenotesSpend o₁ p ∧
        DenotesSpend o₂ p) ∧
    (OneOrderPerSide v w.content → ∀ a b : TradeConfirmedEvent,
      hashFrom a.trade.settlementTxHash = hashFrom b.trade.settlementTxHash →
      ∀ db₁ db₂ next₁ next₂, db₁.trades.find? a.trade.settlementTxHash = none →
      db₂.trades.find? b.trade.settlementTxHash = none →
      FactsAgree v c db₁ (.tradeConfirmed a) next₁ → FactsAgree v c db₂ (.tradeConfirmed b) next₂ →
      ∃ t₁ t₂ p buy sell, next₁.trades.find? a.trade.settlementTxHash = some t₁ ∧
        next₂.trades.find? b.trade.settlementTxHash = some t₂ ∧ DenotesSettlement t₁ p ∧
        DenotesSettlement t₂ p ∧ DenotesTerms t₁ buy sell ∧ DenotesTerms t₂ buy sell) := by
  refine ⟨?_, ?_, ?_, ?_⟩
  · intro s hs event hv hfree hverify t ht result next hcommit happlied
    have hreliable := reliable_empty.leads hs
    have hverified := hs.tail (.verify _ event (c.truthful_node dex now) hv hverify)
    have hlater := reliable_empty.leads (hverified.trans ht)
    rcases transact_cases drivers event t.db with ⟨found, made, happly, hfound, hsame⟩ | ⟨-, hnot⟩
    · rw [hcommit] at hfound hsame
      obtain rfl := Outcome.committed.inj hfound
      exact factsAgree_applyEvent hreliable.orders hlater.trades hv hfree hverify happly happlied hsame
    · exact (hnot result (congrArg Prod.fst hcommit)).elim
  · intro a b hsame hfree db₁ db₂ next₁ next₂ ha hb
    exact same_order hsame hfree ha hb
  · intro a b hva hvb hsame db₁ db₂ next₁ next₂ ha hb
    exact same_spend hva hvb hsame ha hb
  · intro hone a b hsame db₁ db₂ next₁ next₂ hnew₁ hnew₂ ha hb
    exact same_trade hone hsame hnew₁ hnew₂ ha hb

section
open OrderLockRules SettlementBuilder

/-- The event of the example buy order, but claiming another code hash. -/
def exampleForged : OrderConfirmedEvent :=
  { exampleConfirmed with
    order := { exampleConfirmed.order with
      lockScript := { exampleConfirmed.order.lockScript with codeHash := hashText (exampleHash 6) } } }

theorem exampleForged_valid : (BotEvent.orderConfirmed exampleForged).valid = true := by
  have hv : (BotEvent.orderConfirmed exampleConfirmed).valid = true := valid_indexedEvent _
  simp only [BotEvent.valid, ConfirmedOrder.valid, Bool.and_eq_true] at hv ⊢
  obtain ⟨hbase, hout, ⟨⟨⟨⟨⟨⟨⟨⟨⟨⟨-, htype⟩, hdata⟩, hcapacity⟩, howner⟩, hmaker⟩, hprice⟩, hamount⟩,
    htoken⟩, hblock⟩, hindex⟩⟩ := hv
  have hlock : ScriptDocument.valid exampleForged.order.lockScript = true :=
    valid_scriptText { exampleBuyCell.lock with codeHash := exampleHash 6 }
  exact ⟨hbase, hout, ⟨⟨⟨⟨⟨⟨⟨⟨⟨⟨hlock, htype⟩, hdata⟩, hcapacity⟩, howner⟩, hmaker⟩, hprice⟩,
    hamount⟩, htoken⟩, hblock⟩, hindex⟩⟩

/-- The forged event is applied, and what it stores is not what the chain has. -/
theorem forged_code_hash_stored : ∃ next,
    (BotEvent.orderConfirmed exampleForged).valid = true ∧
    run exampleDrivers (exampleChain.node exampleDex 0)
      (ingest exampleVerification (.orderConfirmed exampleForged)) Db.empty =
        (.ok (applied exampleForged.eventId), next) ∧
    ¬FactsAgree exampleVerification exampleChain Db.empty (.orderConfirmed exampleForged) next := by
  have hn := exampleBuy_indexable.names fun _ => "ckt1"
  have hc := exampleBuy_indexable.checked fun _ => "ckt1"
  have hverified : run exampleDrivers (exampleChain.node exampleDex 0)
      (verifyEvent exampleVerification (.orderConfirmed exampleForged)) Db.empty = (.ok (), Db.empty) :=
    run_verifyOrderConfirmed_chain
      ⟨hn.key, hn.found, hn.content, hn.blockHash, hn.blockNumber, hn.deep⟩
      ⟨hc.blockNumber, hc.txIndex, hc.output, hc.dexLock, hc.args, hc.data, hc.capacity, hc.decoded,
        hc.direction, hc.price, hc.amount, hc.token, hc.maker, hc.supported,
        fun hask => absurd hask (by decide), hc.plain, hc.owner, hc.funded⟩
  have happly : applyOrderConfirmed exampleDrivers exampleForged Db.empty =
      .ok (applied exampleForged.eventId, Db.empty.putOrder (confirmedDocument none exampleForged)) := by
    refine applyOrderConfirmed_eq_ok.mpr (Or.inr ⟨rfl, ?_, ?_, ?_, rfl, rfl⟩)
    · exact exampleDrivers_reads.decimal128 5000 (by norm_num)
    · exact number_ne_nan_of_bigInt (bigInt_toString 1)
    · exact number_ne_nan_of_bigInt (bigInt_toString 0)
  refine ⟨_, exampleForged_valid, run_ingest_eq (.orderConfirmed exampleForged) rfl hverified happly,
    ?_⟩
  · rintro ⟨order, x, horder, hx, hd⟩
    have hstored : some (confirmedDocument none exampleForged) = some order :=
      (Collection.find?_put.trans (if_pos rfl)).symm.trans horder
    obtain rfl := Option.some_inj.mp hstored
    obtain ⟨hcode, -, -⟩ := scriptFrom_eq_some.mp hd.lockScript
    have hforged : x.cell.lock.codeHash = exampleHash 6 :=
      (Option.some_inj.mp ((hashFrom_hashText _).symm.trans hcode)).symm
    have hdex : exampleDex.codeHash = x.cell.lock.codeHash := by
      refine hashText_injective (Eq.trans ?_ hx.isOrder.codeHash)
      exact (lower_toHex _).symm
    rw [hforged] at hdex
    revert hdex
    decide

def exampleScripts : List Script :=
  exampleTxs.flatMap fun entry => entry.2.outputs.flatMap fun cell => cell.lock :: cell.type.toList

theorem exampleWorld_collisionFree {event : BotEvent}
    (h : ∀ s, ScriptAtHand exampleWorld.content event s → s ∈ exampleScripts) :
    CollisionFree exampleScriptHash exampleWorld.content event := by
  have hinj : ∀ a ∈ exampleScripts, ∀ b ∈ exampleScripts,
      exampleScriptHash a = exampleScriptHash b → a = b := by
    decide
  intro a ha b hb hab
  exact hinj a (h a ha) b (h b hb) hab

theorem mem_exampleScripts {hash : Hash} {tx : RawTx} {cell : CellOutput} {s : Script}
    (htx : exampleWorld.content hash = some tx) (hcell : cell ∈ tx.outputs)
    (h : cell.lock = s ∨ cell.type = some s) : s ∈ exampleScripts := by
  refine List.mem_flatMap.mpr ⟨_, mem_exampleTxs htx, List.mem_flatMap.mpr ⟨cell, hcell, ?_⟩⟩
  rcases h with rfl | htype
  · exact List.mem_cons_self
  · exact List.mem_cons_of_mem _ (Option.mem_toList.mpr htype)

theorem exampleConfirmed_collisionFree :
    CollisionFree exampleScriptHash exampleWorld.content (.orderConfirmed exampleConfirmed) := by
  refine exampleWorld_collisionFree fun s hs => ?_
  rcases hs with ⟨hash, tx, htx, cell, hcell, hs⟩ | ⟨e, he, howner | ⟨doc, htype, -⟩⟩
  · exact mem_exampleScripts htx hcell hs
  · obtain rfl := BotEvent.orderConfirmed.inj he
    obtain rfl := Option.some_inj.mp ((scriptFrom_scriptText (exampleOwner 1)).symm.trans howner)
    decide
  · obtain rfl := BotEvent.orderConfirmed.inj he
    cases htype

theorem exampleSettled_collisionFree :
    CollisionFree exampleScriptHash exampleWorld.content (.tradeConfirmed exampleSettled) := by
  refine exampleWorld_collisionFree fun s hs => ?_
  rcases hs with ⟨hash, tx, htx, cell, hcell, hs⟩ | ⟨e, he, -⟩
  · exact mem_exampleScripts htx hcell hs
  · cases he

/-- The trade claims what the settlement on chain has. -/
theorem exampleSettled_unforged :
    Unforged exampleVerification exampleChain Db.empty exampleOpen (.tradeConfirmed exampleSettled) := by
  obtain ⟨-, buy, sell, response, tx, hbuy, hsell, hverified⟩ :=
    run_verifyTradeConfirmed exampleSettled_verified exampleSettled_ready.found
  obtain ⟨p, b, s, hsettled, hclaims, raw, buyRef, sellRef, hstands⟩ := settledBy_of_verified
    (grounded_of_delivers exampleOpen_delivers).orders exampleSettled_valid hbuy hsell hverified
  exact ⟨fun _ _ => rfl, fun _ => ⟨p, b, s, hsettled, hclaims, fun _ => (claimsTerms_iff hstands).mpr rfl⟩⟩

/-- A buy order is verified and applied. A trade is verified before its orders
are stored, which compares nothing, and applied when they are. -/
theorem applied_facts_agree_iff_example :
    FactsAgree exampleVerification exampleChain Db.empty (.orderConfirmed exampleConfirmed)
      exampleIndexed ∧
    FactsAgree exampleVerification exampleChain exampleOpen (.tradeConfirmed exampleSettled)
      exampleFilled := by
  have hagree := (applied_facts_agree_iff exampleDrivers exampleVerification exampleChain exampleDex 0).1
    Service.empty .refl
  constructor
  · exact (hagree (.orderConfirmed exampleConfirmed) (valid_indexedEvent _)
      exampleConfirmed_collisionFree (exampleBuy_indexable.verified _) _ .refl _ _
      exampleConfirmed_committed rfl).mpr ⟨rfl, rfl, fun _ => ⟨rfl, fun _ h => nomatch h⟩⟩
  · have hverify : run exampleDrivers (exampleChain.node exampleDex 0)
        (verifyEvent exampleVerification (.tradeConfirmed exampleSettled)) Db.empty = (.ok (), Db.empty) :=
      run_verifyTradeConfirmed_unstored rfl (by decide)
    have hfree := Relation.ReflTransGen.mono (fun _ _ hd => Delivers.free hd) _ _ exampleOpen_delivers
    obtain ⟨more, hlead⟩ := leads_of_deliveries hfree
      [⟨Db.empty, .tradeConfirmed exampleSettled⟩]
    exact (hagree (.tradeConfirmed exampleSettled) exampleSettled_valid exampleSettled_collisionFree
      hverify ⟨exampleOpen, more⟩ hlead _ _ exampleSettled_committed rfl).mpr exampleSettled_unforged

end

end CkbDex.ChainFacts
