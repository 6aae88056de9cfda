import CkbDex.OrderWrites
import CkbDex.SettlementSafety
import CkbDex.SpendClassification

/-!
# Trades that were paid

The verifier lets a trade into the database after it has seen the transaction
spend a buy and a sell order. The contract lets such a transaction into a block
only when it pays both makers. So each stored trade stands for a payment, and
each filled order for the payment that its own terms ask for.
-/
namespace CkbDex.PaidTrades
open Bytes CellContext OrderLock OrderLockRules Text Documents BotEvents ChainCells Collections
open Projection Operations Chains EventVerification ProjectionSteps GroundedDocuments OrdersAndTrades
open SettlementSafety SpendClassification Acceptance OrderWrites IngestionSteps

/-- What the chain enforces: a cell's capacity is a 64-bit number, and the
contract has accepted each transaction that spends a DEX order. -/
structure Guarded (v : ChainVerification) (dex : Script) (content : Content) : Prop where
  capacity : ∀ ref cell, cellAt content ref = some cell → cell.capacity < 2 ^ 64
  enforced : ∀ hash tx, content hash = some tx → dexRefs dex content tx ≠ [] →
    Enforced v.hash dex content tx

/-- An order cell among the inputs of a transaction. -/
structure OrderInput (v : ChainVerification) (content : Content) (tx : RawTx) (ref : CellRef)
    (cell : CellOutput) (terms : OrderArgs) : Prop where
  input : ref ∈ tx.inputs
  found : cellAt content ref = some cell
  isOrder : IsOrder v cell terms

section
variable {v : ChainVerification} {dex : Script} {content : Content} {tx : RawTx}
  {ref other buyRef sellRef : CellRef} {cell otherCell buy sell : CellOutput}
  {terms otherTerms b s : OrderArgs}

theorem OrderInput.identity (h : OrderInput v content tx ref cell terms) (hd : Deployed v dex) :
    sameIdentity dex cell.lock = true :=
  identity_of_isOrder h.isOrder hd

theorem OrderInput.declared (h : OrderInput v content tx ref cell terms) :
    WellFormed cell.lock.args ∧ Declares cell.lock.args terms :=
  parseOrderArgs_eq_ok.mp h.isOrder.terms

theorem OrderInput.mem_inputs (h : OrderInput v content tx ref cell terms) :
    cell.toCell v.hash ∈ (resolvedTx v.hash content tx).inputs :=
  mem_resolvedInputs.mpr ⟨ref, h.input, cell, h.found, rfl⟩

theorem OrderInput.mem_dexRefs (h : OrderInput v content tx ref cell terms) (hd : Deployed v dex) :
    ref ∈ dexRefs dex content tx := by
  refine List.mem_filter.mpr ⟨h.input, ?_⟩
  rw [isDexRef, h.found, Option.any_some, h.identity hd]

theorem OrderInput.enforced (h : OrderInput v content tx ref cell terms) (hd : Deployed v dex)
    (hg : Guarded v dex content) {hash : Hash} (htx : content hash = some tx) :
    Enforced v.hash dex content tx :=
  hg.enforced hash tx htx (List.ne_nil_of_mem (h.mem_dexRefs hd))

theorem OrderInput.side_eq (h : OrderInput v content tx ref cell terms) :
    terms.side = match directionOf terms.side with
      | .bid => sideBuy
      | .ask => sideSell := by
  rcases side_of_wellFormed h.declared.1 h.declared.2 with hs | hs <;> rw [hs] <;> rfl

/-- An order that is spent next to another one has been settled: a cancellation
is the only DEX input of its transaction. -/
theorem OrderInput.settles (h : OrderInput v content tx ref cell terms)
    (ho : OrderInput v content tx other otherCell otherTerms) (hne : ref ≠ other)
    (hd : Deployed v dex) (he : Enforced v.hash dex content tx) :
    Settles (resolvedTx v.hash content tx) (cell.toCell v.hash) terms := by
  have hlock : sameIdentity dex (cell.toCell v.hash).lock = true := h.identity hd
  have haccept := he.accepted _ h.mem_inputs hlock
  rcases (accepted_iff h.mem_inputs h.declared.1 h.declared.2).mp haccept with hc | hs
  · have htwo := two_dexRefs hne (h.mem_dexRefs hd) (ho.mem_dexRefs hd)
    have hone := hc.single
    rw [dexInputs_congr hlock, length_dexInputs he] at hone
    omega
  · exact hs

theorem length_dexRefs {own : Cell} (hlock : sameIdentity dex own.lock = true)
    (hs : Settles (resolvedTx v.hash content tx) own terms) (he : Enforced v.hash dex content tx) :
    (dexRefs dex content tx).length = 2 := by
  obtain ⟨buy, sell, b, s, hpair⟩ := hs.pair
  rw [← length_dexInputs he, ← dexInputs_congr hlock]
  rcases hpair.inputs with hin | hin <;> rw [hin] <;> rfl

theorem eq_pair_of_length {α : Type*} {xs : List α} {a b : α} (hlen : xs.length = 2) (hne : a ≠ b)
    (ha : a ∈ xs) (hb : b ∈ xs) : xs = [a, b] ∨ xs = [b, a] := by
  obtain ⟨x, y, rfl⟩ := List.length_eq_two.mp hlen
  simp only [List.mem_cons, List.not_mem_nil, or_false] at ha hb
  rcases ha with rfl | rfl <;> rcases hb with rfl | rfl
  · exact (hne rfl).elim
  · exact Or.inl rfl
  · exact Or.inr rfl
  · exact (hne rfl).elim

/-- The two orders are the only DEX inputs. -/
theorem OrderInput.refs (h : OrderInput v content tx ref cell terms)
    (ho : OrderInput v content tx other otherCell otherTerms) (hne : ref ≠ other)
    (hd : Deployed v dex) (he : Enforced v.hash dex content tx) :
    dexRefs dex content tx = [ref, other] ∨ dexRefs dex content tx = [other, ref] := by
  have hlock : sameIdentity dex (cell.toCell v.hash).lock = true := h.identity hd
  exact eq_pair_of_length (length_dexRefs hlock (h.settles ho hne hd he) he) hne
    (h.mem_dexRefs hd) (ho.mem_dexRefs hd)

theorem OrderInput.ne (hb : OrderInput v content tx buyRef buy b)
    (hs : OrderInput v content tx sellRef sell s)
    (hbid : directionOf b.side = .bid) (hask : directionOf s.side = .ask) : buyRef ≠ sellRef := by
  rintro rfl
  obtain rfl := Option.some_inj.mp (hb.found.symm.trans hs.found)
  obtain rfl := Except.ok.inj (hb.isOrder.terms.symm.trans hs.isOrder.terms)
  rw [hbid] at hask
  cases hask

/-- Two orders of opposite sides that are spent together are settled with each
other, and safely. -/
theorem safeSettlement_of_inputs (hb : OrderInput v content tx buyRef buy b)
    (hs : OrderInput v content tx sellRef sell s) (hbid : directionOf b.side = .bid)
    (hask : directionOf s.side = .ask) (hd : Deployed v dex) (he : Enforced v.hash dex content tx) :
    SafeSettlement (resolvedTx v.hash content tx) dex (buy.toCell v.hash) (sell.toCell v.hash) b s := by
  have hne := hb.ne hs hbid hask
  have hbuy := hb.settles hs hne hd he
  have hsell := hs.settles hb hne.symm hd he
  have hblock : sameIdentity dex (buy.toCell v.hash).lock = true := hb.identity hd
  have hslock : sameIdentity dex (sell.toCell v.hash).lock = true := hs.identity hd
  have hbside := hb.side_eq
  rw [hbid] at hbside
  have hsside := hs.side_eq
  rw [hask] at hsside
  obtain ⟨bc, sc, bt, st, hpair⟩ := hbuy.pair
  have hpair' : Pair (resolvedTx v.hash content tx) dex bc sc bt st := by
    refine { hpair with inputs := ?_ }
    rw [← dexInputs_congr hblock]
    exact hpair.inputs
  have hpair'' : Pair (resolvedTx v.hash content tx) (sell.toCell v.hash).lock bc sc bt st := by
    refine { hpair with inputs := ?_ }
    rw [dexInputs_congr hslock]
    exact hpair'.inputs
  obtain ⟨rfl, rfl⟩ := (own_of_pair hb.mem_inputs hb.declared.1 hb.declared.2 hpair).1 hbside
  obtain ⟨rfl, rfl⟩ := (own_of_pair hs.mem_inputs hs.declared.1 hs.declared.2 hpair'').2 hsside
  exact safeSettlement_of_settles hpair' hbuy hsell

/-- Two orders that are spent together have opposite sides. -/
theorem OrderInput.side_ne (h : OrderInput v content tx ref cell terms)
    (ho : OrderInput v content tx other otherCell otherTerms) (hne : ref ≠ other)
    (hd : Deployed v dex) (he : Enforced v.hash dex content tx) : terms.side ≠ otherTerms.side := by
  have hlock : sameIdentity dex (cell.toCell v.hash).lock = true := h.identity hd
  obtain ⟨buy, sell, b, s, hpair⟩ := (h.settles ho hne hd he).pair
  have hin := hpair.inputs
  rw [dexInputs_congr hlock, dexInputs_resolvedTx] at hin
  have hcells : resolvedInputs v.hash content [ref, other] = [cell.toCell v.hash, otherCell.toCell v.hash] ∧
      resolvedInputs v.hash content [other, ref] = [otherCell.toCell v.hash, cell.toCell v.hash] := by
    simp [resolvedInputs, h.found, ho.found]
  have hsides : sideBuy ≠ sideSell := by decide
  have hbuy : ∀ {c : CellOutput} {t : OrderArgs}, WellFormed c.lock.args ∧ Declares c.lock.args t →
      c.toCell v.hash = buy → t.side = sideBuy := by
    rintro c t ⟨hw, hdc⟩ rfl
    rw [declares_unique hw hdc hpair.buy_terms, hpair.buy_side]
  have hsell : ∀ {c : CellOutput} {t : OrderArgs}, WellFormed c.lock.args ∧ Declares c.lock.args t →
      c.toCell v.hash = sell → t.side = sideSell := by
    rintro c t ⟨hw, hdc⟩ rfl
    rw [declares_unique hw hdc hpair.sell_terms, hpair.sell_side]
  have hpairs : (cell.toCell v.hash = buy ∧ otherCell.toCell v.hash = sell) ∨
      (cell.toCell v.hash = sell ∧ otherCell.toCell v.hash = buy) := by
    rcases h.refs ho hne hd he with hrefs | hrefs
    · rw [hrefs, hcells.1] at hin
      simpa using hin
    · rw [hrefs, hcells.2] at hin
      rcases hin with hin | hin
      · simp only [List.cons.injEq, and_true] at hin
        exact Or.inr ⟨hin.2, hin.1⟩
      · simp only [List.cons.injEq, and_true] at hin
        exact Or.inl ⟨hin.2, hin.1⟩
  rcases hpairs with ⟨hc, hoc⟩ | ⟨hc, hoc⟩
  · rw [hbuy h.declared hc, hsell ho.declared hoc]
    exact hsides
  · rw [hsell h.declared hc, hbuy ho.declared hoc]
    exact hsides.symm

/-- What the contract enforces keeps every transaction to one order of a side. -/
theorem Guarded.oneOrderPerSide (hg : Guarded v dex content) (hd : Deployed v dex) :
    OneOrderPerSide v content := by
  intro hash tx htx r₁ h₁ r₂ h₂ side t₁ t₂ ho₁ ho₂
  obtain ⟨c₁, hc₁, horder₁, hside₁⟩ := ho₁
  obtain ⟨c₂, hc₂, horder₂, hside₂⟩ := ho₂
  have hx₁ : OrderInput v content tx r₁ c₁ t₁ := ⟨h₁, hc₁, horder₁⟩
  have hx₂ : OrderInput v content tx r₂ c₂ t₂ := ⟨h₂, hc₂, horder₂⟩
  by_contra hne
  refine hx₁.side_ne hx₂ hne hd (hx₁.enforced hd hg htx) ?_
  rw [hx₁.side_eq, hx₂.side_eq, hside₁, hside₂]

end

/-- In a transaction two orders are exchanged, and nothing else under the DEX
lock: the buyer receives tokens, and the seller the price with the capacity of
the sell order. Neither has signed. -/
structure Pays (hash : Script → Hash) (dex : Script) (content : Content) (tx : RawTx)
    (buyRef sellRef : CellRef) (buyer seller token : Hash) (amount price : ℕ) : Prop where
  refs : dexRefs dex content tx = [buyRef, sellRef] ∨ dexRefs dex content tx = [sellRef, buyRef]
  unsigned : ∀ c ∈ (resolvedTx hash content tx).inputs, c.lockHash ≠ buyer ∧ c.lockHash ≠ seller
  received : totalAmount (tokenOutputs (resolvedTx hash content tx) buyer token) = amount
  returned : ∃ cell, cellAt content buyRef = some cell ∧ cell.capacity ≤
    price + totalCapacity (tokenOutputs (resolvedTx hash content tx) buyer token) + 10000
  paid : ∃ cell, cellAt content sellRef = some cell ∧ cell.capacity + price ≤
    totalCapacity (plainOutputs (resolvedTx hash content tx) seller)

section
variable {v : ChainVerification} {dex : Script} {content : Content} {tx : RawTx}
  {buyRef sellRef : CellRef} {b s : OrderArgs} {drivers : Drivers} {db : Db}

theorem Guarded.toNat_capacity (hg : Guarded v dex content) {ref : CellRef} {cell : CellOutput}
    (hcell : cellAt content ref = some cell) :
    (cell.toCell v.hash).capacity.toNat = cell.capacity := by
  rw [CellOutput.toCell, BitVec.toNat_ofNat, Nat.mod_eq_of_lt (hg.capacity ref cell hcell)]

/-- The terms on which two orders are exchanged. -/
structure Agree (b s : OrderArgs) : Prop where
  token : s.xudtTypeHash = b.xudtTypeHash
  amount : s.tokenAmount.toNat = b.tokenAmount.toNat
  price : s.price.toNat = b.price.toNat

theorem pays_of_orders (hb : OrderAt v content buyRef .bid b) (hs : OrderAt v content sellRef .ask s)
    (hbm : buyRef ∈ tx.inputs) (hsm : sellRef ∈ tx.inputs) (hd : Deployed v dex)
    (hg : Guarded v dex content) {hash : Hash} (htx : content hash = some tx) :
    Agree b s ∧ Pays v.hash dex content tx buyRef sellRef b.makerLockHash s.makerLockHash
      s.xudtTypeHash s.tokenAmount.toNat s.price.toNat := by
  obtain ⟨buy, hbc, hbo, hbid⟩ := hb
  obtain ⟨sell, hsc, hso, hask⟩ := hs
  have hbi : OrderInput v content tx buyRef buy b := ⟨hbm, hbc, hbo⟩
  have hsi : OrderInput v content tx sellRef sell s := ⟨hsm, hsc, hso⟩
  have he := hbi.enforced hd hg htx
  have hsafe := safeSettlement_of_inputs hbi hsi hbid hask hd he
  have hagree : Agree b s := ⟨hsafe.pair.token.symm, by rw [hsafe.pair.amount], by rw [hsafe.pair.price]⟩
  have hreceived := hsafe.received
  have hreturned := hsafe.returned
  have hpaid := hsafe.paid
  rw [hg.toNat_capacity hbc] at hreturned
  rw [hg.toNat_capacity hsc] at hpaid
  rw [← hagree.token, ← hagree.amount] at hreceived
  rw [← hagree.token, ← hagree.price] at hreturned
  rw [← hagree.price] at hpaid
  exact ⟨hagree, hbi.refs hsi (hbi.ne hsi hbid hask) hd he, hsafe.no_maker, hreceived,
    ⟨buy, hbc, hreturned⟩, ⟨sell, hsc, hpaid⟩⟩

theorem pays_of_stands {trade : TradeFacts} (h : TradeStands v content trade tx buyRef sellRef b s)
    (hd : Deployed v dex) (hg : Guarded v dex content) :
    Agree b s ∧ Pays v.hash dex content tx buyRef sellRef b.makerLockHash s.makerLockHash
      s.xudtTypeHash s.tokenAmount.toNat s.price.toNat := by
  obtain ⟨hash, -, htx⟩ := h.settlement
  exact pays_of_orders h.buy_order h.sell_order h.buy_mem h.sell_mem hd hg htx

end

/-- However verifications, transactions and the bot's writes interleave, every
trade in the database repeats a payment that the contract enforced, as long as
the orders of a trade are stored when it is verified. -/
theorem trades_paid (drivers : Drivers) (v : ChainVerification) (dex : Script) (content : Content)
    (hd : Deployed v dex) (hg : Guarded v dex content) (service : Service)
    (h : Leads drivers v content (onSeen tradeOrdersStored) Service.empty service) :
    ∀ trade ∈ service.db.trades.docs, ∃ hash tx buyRef sellRef buyer seller token, ∃ amount price : ℕ,
      DenotesHash trade.settlementTxHash hash ∧ content hash = some tx ∧
      Locates trade.buyOrderOutPoint buyRef ∧ Locates trade.sellOrderOutPoint sellRef ∧
      DenotesHash trade.buyerLockHash buyer ∧ DenotesHash trade.sellerLockHash seller ∧
      DenotesHash trade.xudtTypeHash token ∧ bigInt trade.tokenAmount = some (amount : ℤ) ∧
      bigInt trade.price = some (price : ℤ) ∧
      Pays v.hash dex content tx buyRef sellRef buyer seller token amount price := by
  intro trade htrade
  have hground := grounded_of_leads (fun _ _ _ hstored => hstored) h
  obtain ⟨tx, buyRef, sellRef, b, s, hstands⟩ := hground.trades trade htrade
  obtain ⟨hash, hdenotes, htx⟩ := hstands.settlement
  exact ⟨hash, tx, buyRef, sellRef, _, _, _, _, _, hdenotes, htx, hstands.buy_locates,
    hstands.sell_locates, hstands.buyer, hstands.seller, hstands.token, hstands.amount,
    hstands.price, (pays_of_stands hstands hd hg).2⟩

section
open SettlementBuilder

theorem exampleWorld_guarded : Guarded exampleVerification exampleDex exampleWorld.content where
  capacity := by
    have hall : ∀ entry ∈ exampleTxs, ∀ cell ∈ entry.2.outputs, cell.capacity < 2 ^ 64 := by decide
    intro ref cell hcell
    obtain ⟨tx, htx, hout⟩ := Option.bind_eq_some_iff.mp hcell
    exact hall _ (mem_exampleTxs htx) cell (List.mem_of_getElem? hout)
  enforced := fun _ _ htx _ => exampleWorld_enforced htx

/-- Both orders are verified before either is stored; the trade is verified when
they are. -/
theorem exampleFilled_leads {keeps : Db → Db → BotEvent → Prop}
    (hbuy : keeps Db.empty Db.empty (.orderConfirmed exampleConfirmed))
    (hsell : keeps Db.empty exampleIndexed (.orderConfirmed exampleSellConfirmed))
    (htrade : keeps exampleOpen exampleOpen (.tradeConfirmed exampleSettled)) :
    ∃ verified, Leads exampleDrivers exampleVerification exampleWorld.content keeps Service.empty
      ⟨exampleFilled, verified⟩ := by
  have hnode := exampleChain.truthful_node exampleDex 0
  have hboth : Leads exampleDrivers exampleVerification exampleWorld.content keeps Service.empty
      ⟨Db.empty, [⟨Db.empty, .orderConfirmed exampleSellConfirmed⟩,
        ⟨Db.empty, .orderConfirmed exampleConfirmed⟩]⟩ :=
    (Relation.ReflTransGen.single (.verify _ _ hnode (valid_indexedEvent _)
      (exampleBuy_indexable.verified fun _ => "ckt1"))).tail
        (.verify _ _ hnode (valid_indexedEvent _) (exampleSell_indexable.verified fun _ => "ckt1"))
  have hstored := (hboth.tail (advances_of_committed (List.mem_cons_of_mem _ List.mem_cons_self)
    exampleConfirmed_committed hbuy)).tail
      (advances_of_committed List.mem_cons_self exampleSellConfirmed_committed hsell)
  have hverified := hstored.tail (.verify _ _ hnode exampleSettled_valid exampleSettled_verified)
  exact ⟨_, hverified.tail (advances_of_committed List.mem_cons_self exampleSettled_committed htrade)⟩

theorem trades_paid_example : ∃ trade ∈ exampleFilled.trades.docs,
    ∃ hash tx buyRef sellRef buyer seller token, ∃ amount price : ℕ,
      DenotesHash trade.settlementTxHash hash ∧ exampleWorld.content hash = some tx ∧
      Locates trade.buyOrderOutPoint buyRef ∧ Locates trade.sellOrderOutPoint sellRef ∧
      DenotesHash trade.buyerLockHash buyer ∧ DenotesHash trade.sellerLockHash seller ∧
      DenotesHash trade.xudtTypeHash token ∧ bigInt trade.tokenAmount = some (amount : ℤ) ∧
      bigInt trade.price = some (price : ℤ) ∧
      Pays exampleScriptHash exampleDex exampleWorld.content tx buyRef sellRef buyer seller token
        amount price := by
  have hmem : confirmedTrade none exampleSettled ∈ exampleFilled.trades.docs :=
    Collection.mem_docs_put.mpr (Or.inl rfl)
  obtain ⟨verified, hlead⟩ := @exampleFilled_leads (onSeen tradeOrdersStored) trivial trivial
    exampleSettled_ready.found
  exact ⟨_, hmem, trades_paid exampleDrivers exampleVerification exampleDex exampleWorld.content
    exampleVerification_deployed exampleWorld_guarded ⟨exampleFilled, verified⟩ hlead _ hmem⟩

end

/-- In a transaction, which it has not signed, the maker of an order receives
what the order's document asks for: the tokens and the rest of the capacity of
a buy order, the price and the whole capacity of a sell order. -/
def PaysMaker (hash : Script → Hash) (content : Content) (tx : RawTx) (order : OrderDocument) :
    Prop :=
  ∃ maker token, ∃ capacity price amount : ℕ,
    DenotesHash order.ownerLockHash maker ∧ DenotesHash order.xudtTypeHash token ∧
    bigInt order.capacity = some (capacity : ℤ) ∧ bigInt order.pricePerToken = some (price : ℤ) ∧
    bigInt order.remainingAmount = some (amount : ℤ) ∧
    (∀ c ∈ (resolvedTx hash content tx).inputs, c.lockHash ≠ maker) ∧
    match order.direction with
    | .bid => totalAmount (tokenOutputs (resolvedTx hash content tx) maker token) = amount ∧
        capacity ≤ price + totalCapacity (tokenOutputs (resolvedTx hash content tx) maker token) + 10000
    | .ask => capacity + price ≤ totalCapacity (plainOutputs (resolvedTx hash content tx) maker)

section
variable {v : ChainVerification} {dex : Script} {content : Content} {tx : RawTx}
  {buyRef sellRef ref : CellRef} {cell : CellOutput} {terms b s : OrderArgs} {order : OrderDocument}
  {drivers : Drivers} {db : Db}

theorem cellAt_of_stands (h : Stands v content (factsOf order) cell terms)
    (hl : Locates order.outPoint ref) : cellAt content ref = some cell := by
  rw [← hl.cellOf h.valid]
  exact h.found

theorem Pays.paysMaker_bid
    (h : Pays v.hash dex content tx ref sellRef terms.makerLockHash s.makerLockHash s.xudtTypeHash
      s.tokenAmount.toNat s.price.toNat)
    (ho : Stands v content (factsOf order) cell terms) (hdir : order.direction = .bid)
    (hl : Locates order.outPoint ref) (hagree : Agree terms s) :
    PaysMaker v.hash content tx order := by
  rw [hagree.token, hagree.amount, hagree.price] at h
  obtain ⟨found, hfound, hreturned⟩ := h.returned
  obtain rfl := Option.some_inj.mp (hfound.symm.trans (cellAt_of_stands ho hl))
  refine ⟨_, _, _, _, _, ho.maker, ho.token, ho.capacity, ho.price, ho.amount,
    fun c hc => (h.unsigned c hc).1, ?_⟩
  rw [hdir]
  exact ⟨h.received, hreturned⟩

theorem Pays.paysMaker_ask {token : Hash} {amount : ℕ}
    (h : Pays v.hash dex content tx buyRef ref b.makerLockHash terms.makerLockHash token amount
      terms.price.toNat)
    (ho : Stands v content (factsOf order) cell terms) (hdir : order.direction = .ask)
    (hl : Locates order.outPoint ref) : PaysMaker v.hash content tx order := by
  obtain ⟨found, hfound, hpaid⟩ := h.paid
  obtain rfl := Option.some_inj.mp (hfound.symm.trans (cellAt_of_stands ho hl))
  refine ⟨_, _, _, _, _, ho.maker, ho.token, ho.capacity, ho.price, ho.amount,
    fun c hc => (h.unsigned c hc).2, ?_⟩
  rw [hdir]
  exact hpaid

/-- The transaction that a filled order names, and what it does for it. -/
structure SettledIn (v : ChainVerification) (content : Content) (order : OrderDocument) (hash : Hash)
    (tx : RawTx) (ref : CellRef) (terms : OrderArgs) : Prop where
  settlement : ∃ text, order.settlementTxHash = some text ∧ DenotesHash text hash
  found : content hash = some tx
  valid : OutPoint.valid order.outPoint = true
  located : Locates order.outPoint ref
  input : ref ∈ tx.inputs
  orderAt : OrderAt v content ref order.direction terms
  paid : PaysMaker v.hash content tx order

theorem settledIn_of_filled (hstep : FilledHaveTrades db) (hground : Grounded v content db)
    (hd : Deployed v dex) (hg : Guarded v dex content) (horder : order ∈ db.orders.docs)
    (hfilled : order.status = .filled) :
    ∃ hash tx ref terms, SettledIn v content order hash tx ref terms := by
  obtain ⟨trade, htrade, -, hby⟩ := hstep order horder hfilled
  obtain ⟨cell, terms, ho⟩ := hground.orders order horder
  obtain ⟨tx, buyRef, sellRef, b, s, ht⟩ := hground.trades trade htrade
  obtain ⟨hash, hdenotes, htx⟩ := ht.settlement
  obtain ⟨hagree, hpays⟩ := pays_of_stands ht hd hg
  have hsettlement : ∃ text, order.settlementTxHash = some text ∧ DenotesHash text hash := by
    have hid : trade.id = trade.settlementTxHash := ht.id
    refine ⟨trade.id, hby.settlement, ?_⟩
    rw [hid]
    exact hdenotes
  have hnamed := hby.named
  cases hdir : order.direction with
  | bid =>
      rw [hdir] at hnamed
      have hl : Locates order.outPoint buyRef := by
        have hout : order.outPoint = trade.buyOrderOutPoint :=
          toOrderId_injective ho.valid ht.buyValid (ho.id.symm.trans hnamed)
        rw [hout]
        exact ht.buy_locates
      have hat := ho.orderAt ho.valid ho.id hl
      obtain rfl := hat.terms_unique ht.buy_order
      exact ⟨hash, tx, buyRef, _, hsettlement, htx, ho.valid, hl, ht.buy_mem, hat,
        hpays.paysMaker_bid ho hdir hl hagree⟩
  | ask =>
      rw [hdir] at hnamed
      have hl : Locates order.outPoint sellRef := by
        have hout : order.outPoint = trade.sellOrderOutPoint :=
          toOrderId_injective ho.valid ht.sellValid (ho.id.symm.trans hnamed)
        rw [hout]
        exact ht.sell_locates
      have hat := ho.orderAt ho.valid ho.id hl
      obtain rfl := hat.terms_unique ht.sell_order
      exact ⟨hash, tx, sellRef, _, hsettlement, htx, ho.valid, hl, ht.sell_mem, hat,
        hpays.paysMaker_ask ho hdir hl⟩

end

/-- The orders of a trade are stored when it is verified, and a settlement that
is confirmed once more names its orders by the stored texts. -/
def tradesInStep (drivers : Drivers) (seen db : Db) (event : BotEvent) : Prop :=
  tradeOrdersStored seen event ∧ ∀ e, event = .tradeConfirmed e → keepsInStep drivers db event

section
variable {drivers : Drivers} {node : Node} {v : ChainVerification} {content : Content}
  {seen db next : Db} {result : IngestionResult} {s t : Service}

/-- The bot's own writes fill no order, and leave to a filled one what its trade
recorded. -/
theorem filledHaveTrades_write {op : Op} (h : FilledHaveTrades db) (hop : isTransact op = false) :
    FilledHaveTrades (handle drivers node op db).2 := by
  intro order hmem hstatus
  rw [trades_of_write hop node]
  rcases written_of_handle hmem with hold | hwritten
  · exact h order hold hstatus
  · cases hwritten with
    | reserved => cases hstatus
    | released => cases hstatus
    | tracked => cases hstatus
    | extended id reservedUntil old hfound =>
        obtain ⟨trade, htrade, hconfirmed, hby⟩ := h old (Collection.find?_eq_some.mp hfound).1 hstatus
        exact ⟨trade, htrade, hconfirmed, hby.status, hby.settlement, hby.blockHash, hby.block, hby.named⟩
    | _ => cases hop

theorem filledHaveTrades_applyEvent {event : BotEvent} (h : FilledHaveTrades db)
    (hone : OneOrderPerSide v content) (hg : Grounded v content db)
    (hshown : Shown v content seen event)
    (happly : applyEvent drivers event db = .ok (result, next))
    (hkeeps : result.status = .applied → tradesInStep drivers seen db event) :
    FilledHaveTrades next := by
  cases event with
  | orderConfirmed e =>
      rcases applyOrderConfirmed_eq_ok.mp happly with ⟨-, -, rfl⟩ | ⟨-, -, -, -, -, rfl⟩
      · exact h
      · refine h.of_filled rfl fun order hmem hstatus => ?_
        rcases Collection.mem_docs_put.mp hmem with rfl | ⟨hold, -⟩
        · cases hstatus
        · exact hold
  | orderCancelled e =>
      rcases applyOrderCancelled_eq_ok.mp happly with ⟨-, -, rfl⟩ | ⟨old, -, -, -, rfl⟩
      · exact h
      · refine h.of_filled rfl fun order hmem hstatus => ?_
        rcases Collection.mem_docs_put.mp hmem with rfl | ⟨hold, -⟩
        · cases hstatus
        · exact hold
  | settlementSubmitted e =>
      rcases applySettlementSubmitted_eq_ok happly with ⟨-, rfl⟩ | ⟨-, -, rfl⟩
      · exact h
      · refine h.of_filled rfl fun order hmem hstatus => ?_
        obtain ⟨old, hold, rfl⟩ := mem_saveOrders.mp hmem
        split_ifs at hstatus ⊢
        · cases hstatus
        · exact hold
  | tradeConfirmed e =>
      rcases applyTradeConfirmed_eq_ok happly with ⟨-, rfl⟩ | ⟨hready, rfl, rfl⟩
      · exact h
      · obtain ⟨hstored, hspelled⟩ := hkeeps rfl
        obtain ⟨buy, sell, hsettles⟩ :=
          settles_of_shown hone hg hshown hstored hready (hspelled e rfl)
        exact h.tradeConfirmed hsettles rfl rfl
  | chainReorg e =>
      obtain ⟨rfl, rfl⟩ := applyChainReorg_eq_ok.mp happly
      exact h.chainReorg

theorem filledHaveTrades_advances (h : FilledHaveTrades s.db) (hone : OneOrderPerSide v content)
    (hg : Grounded v content s.db) (hr : Reliable v content s)
    (hstep : Advances drivers v content (tradesInStep drivers) s t) : FilledHaveTrades t.db := by
  cases hstep with
  | verify node event honest valid passed => exact h
  | commit checked mem kept =>
      rcases transact_cases drivers checked.event s.db with
        ⟨result, next, happly, hcommitted, hsame⟩ | ⟨hsame, -⟩
      · have hnext := filledHaveTrades_applyEvent h hone hg (hr.shown checked mem) happly
          (kept result hcommitted)
        exact hnext.of_filled hsame.trades fun order hmem _ => hsame.orders ▸ hmem
      · rw [hsame]
        exact h
  | write node op direct => exact filledHaveTrades_write h direct

theorem grounded_of_tradesInStep (h : Leads drivers v content (tradesInStep drivers) Service.empty s) :
    Grounded v content s.db :=
  grounded_of_leads (fun _ _ _ hkeeps => hkeeps.1) h

theorem filledHaveTrades_of_leads (hone : OneOrderPerSide v content)
    (h : Leads drivers v content (tradesInStep drivers) Service.empty s) : FilledHaveTrades s.db := by
  induction h with
  | refl => exact fun _ hmem => (List.not_mem_nil hmem).elim
  | tail hrun hstep ih =>
      exact filledHaveTrades_advances ih hone (grounded_of_tradesInStep hrun) (reliable_empty.leads hrun)
        hstep

end

/-- However verifications, transactions and the bot's writes interleave, every
filled order was paid what its own terms ask for by the transaction it names,
and no transaction pays for two orders of one side. -/
theorem filled_orders_paid (drivers : Drivers) (v : ChainVerification) (dex : Script)
    (content : Content) (hd : Deployed v dex) (hg : Guarded v dex content) (service : Service)
    (h : Leads drivers v content (tradesInStep drivers) Service.empty service) :
    (∀ order ∈ service.db.orders.docs, order.status = .filled → ∃ text hash tx ref,
      order.settlementTxHash = some text ∧ DenotesHash text hash ∧ content hash = some tx ∧
      Locates order.outPoint ref ∧ ref ∈ tx.inputs ∧ PaysMaker v.hash content tx order) ∧
    ∀ a ∈ service.db.orders.docs, ∀ b ∈ service.db.orders.docs, a.status = .filled →
      b.status = .filled → a.direction = b.direction →
      a.settlementTxHash.bind hashFrom = b.settlementTxHash.bind hashFrom →
      SameCell a.outPoint b.outPoint := by
  have hone := hg.oneOrderPerSide hd
  have hstep := filledHaveTrades_of_leads hone h
  have hground := grounded_of_tradesInStep h
  constructor
  · intro order horder hfilled
    obtain ⟨hash, tx, ref, terms, hs⟩ := settledIn_of_filled hstep hground hd hg horder hfilled
    obtain ⟨text, htext, hdenotes⟩ := hs.settlement
    exact ⟨text, hash, tx, ref, htext, hdenotes, hs.found, hs.located, hs.input, hs.paid⟩
  · intro a ha b hb hfa hfb hdir hsame
    obtain ⟨hash, tx, ref, terms, hsa⟩ := settledIn_of_filled hstep hground hd hg ha hfa
    obtain ⟨hash', tx', ref', terms', hsb⟩ := settledIn_of_filled hstep hground hd hg hb hfb
    obtain ⟨text, htext, hdenotes⟩ := hsa.settlement
    obtain ⟨text', htext', hdenotes'⟩ := hsb.settlement
    rw [htext, htext', Option.bind_some, Option.bind_some, hdenotes.hashFrom, hdenotes'.hashFrom,
      Option.some_inj] at hsame
    subst hsame
    obtain rfl := Option.some_inj.mp (hsa.found.symm.trans hsb.found)
    rw [hsa.located.sameCell_iff hsb.located hsa.valid hsb.valid]
    exact hone hash tx hsa.found ref hsa.input ref' hsb.input _ _ _ hsa.orderAt
      (hdir ▸ hsb.orderAt)

section
open SettlementBuilder

theorem filled_orders_paid_example : ∃ order ∈ exampleFilled.orders.docs, order.status = .filled ∧
    ∃ hash tx, exampleWorld.content hash = some tx ∧
      PaysMaker exampleScriptHash exampleWorld.content tx order := by
  have hmem := (Collection.find?_eq_some.mp exampleFilled_buy).1
  have hspelled : tradesInStep exampleDrivers exampleOpen exampleOpen (.tradeConfirmed exampleSettled) :=
    ⟨exampleSettled_ready.found, fun _ _ _ h => nomatch h⟩
  obtain ⟨verified, hlead⟩ := exampleFilled_leads ⟨trivial, nofun⟩ ⟨trivial, nofun⟩ hspelled
  obtain ⟨text, hash, tx, ref, -, -, htx, -, -, hpays⟩ :=
    (filled_orders_paid exampleDrivers exampleVerification exampleDex exampleWorld.content
      exampleVerification_deployed exampleWorld_guarded ⟨exampleFilled, verified⟩ hlead).1 _ hmem rfl
  exact ⟨_, hmem, rfl, hash, tx, htx, hpays⟩

end

end CkbDex.PaidTrades
