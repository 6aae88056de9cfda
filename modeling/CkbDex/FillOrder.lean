import CkbDex.AcceptedSettlements
import CkbDex.OccupiedCapacity
import CkbDex.OrderFormat
import CkbDex.SettlementTracking

/-!
# Settlements from the command line

`fill-order.ts` settles two order cells by hand: it reads both cells and the
locks of their makers from the chain, where the bot works from stored
documents. Every settlement that it submits is accepted by both order locks,
and for orders that the bot has indexed the two build the same settlement.
-/
namespace CkbDex.FillOrder
open Bytes Checked CellContext OrderLock Text Documents ChainCells SettlementBuilder Operations
open OrderLockRules (parseOrderArgs_eq_ok)
open OrderFormat (OrderTerms readOrderTerms termsOf readOrderTerms_eq_ok)
open Chains EventVerification Admission AcceptedSettlements OccupiedCapacity

/-- What is read from the chain. -/
structure Rpc where
  getCellLive : CellRef → Answer (Option CellOutput)
  getTransaction : Hash → Answer (Option TxResponse)
  getCell : CellRef → Answer (Option CellOutput)

def findInput (ccc : Client) (rpc : Rpc) (makerLockHash : Hex) : List CellRef → Except Failure Script
  | [] => throw (.other s!"No creation-transaction input matches maker lock hash {makerLockHash}")
  | input :: inputs => do
      let previousCell ← rpc.getCell input
      match previousCell.filter fun cell => hashText (ccc.hash cell.lock) = makerLockHash with
      | some cell => return cell.lock
      | none => findInput ccc rpc makerLockHash inputs

def findMakerLock (ccc : Client) (rpc : Rpc) (outPoint : CellRef) (makerLockHash : Hex) :
    Except Failure Script := do
  let creatingTx ← rpc.getTransaction outPoint.txHash
  match creatingTx.filter fun tx => tx.status = "committed" with
  | none =>
      let txHash := hashText outPoint.txHash
      throw (.other s!"Could not find the committed order-creation transaction {txHash}")
  | some tx => findInput ccc rpc makerLockHash tx.transaction.inputs

/-- The client library, with the amount it reads from the data of a token cell,
and the deployment: the DEX script and the hashes of the listed assets. -/
structure Deployment where
  ccc : Client
  udtBalanceFrom : List Byte → ℕ
  dex : Script
  assetHashes : List Hash

def assertDexLock (deployment : Deployment) (cell : CellOutput) : Except Failure Unit :=
  throwIf (cell.lock.codeHash ≠ deployment.dex.codeHash ∨ cell.lock.hashType ≠ deployment.dex.hashType)
    (.other "Both selected cells must use the configured DEX order lock")

def assertSupportedAsset (deployment : Deployment) (type : Script) : Except Failure Unit :=
  throwIf (deployment.ccc.hash type ∉ deployment.assetHashes)
    (.other "Token type is not listed in the deployment manifest")

def maxU64 : ℕ := 0xffffffffffffffff

/-- The transaction that the command line submits. -/
def fillOrder (deployment : Deployment) (rpc : Rpc) (buyOutPoint sellOutPoint : CellRef) :
    Except Failure Settlement := do
  let ccc := deployment.ccc
  let liveBuy ← rpc.getCellLive buyOutPoint
  let liveSell ← rpc.getCellLive sellOutPoint
  let buyCell ← okOr liveBuy (.other "Buy Order Cell is missing or already spent")
  let sellCell ← okOr liveSell (.other "Sell Order Cell is missing or already spent")
  assertDexLock deployment buyCell
  assertDexLock deployment sellCell
  let buy ← readOrderTerms buyCell.lock
  let sell ← readOrderTerms sellCell.lock
  throwIf (buy.side ≠ sideBuy.toNat ∨ sell.side ≠ sideSell.toNat)
    (.other "Select one BID (buy) Order Cell and one ASK (sell) Order Cell")
  throwIf (buy.xudtTypeHash ≠ sell.xudtTypeHash ∨ buy.amount ≠ sell.amount ∨ buy.price ≠ sell.price)
    (.other "The buy and sell orders must have the same xUDT, amount, and total price")
  throwIf (buyCell.type.isSome = true) (.other "A buy Order Cell must not have a type script")
  match sellCell.type with
  | none => throw (.other "The sell Order Cell type script does not match its declared xUDT hash")
  | some sellType => do
      assertSupportedAsset deployment sellType
      throwIf (hashText (ccc.hash sellType) ≠ sell.xudtTypeHash)
        (.other "The sell Order Cell type script does not match its declared xUDT hash")
      throwIf (deployment.udtBalanceFrom sellCell.data ≠ sell.amount)
        (.other "The sell Order Cell token amount does not match its declared amount")
      let buyerLock ← findMakerLock ccc rpc buyOutPoint buy.makerLockHash
      let sellerLock ← findMakerLock ccc rpc sellOutPoint sell.makerLockHash
      let sellerPayment := sellCell.capacity + sell.price
      throwIf (sellerPayment > maxU64) (.other "Seller payment exceeds the maximum u64 capacity")
      let sellerOutput := outputFrom ccc sellerPayment sellerLock none []
      let buyerOutput := outputFrom ccc 0 buyerLock (some sellType) sellCell.data
      let inputs := [outPointText buyOutPoint, outPointText sellOutPoint]
      let allocation ← allocateSettlementCapacity buyCell.capacity sell.price buyerOutput.capacity
        (ccc.estimateFee inputs [sellerOutput, buyerOutput])
      let allocated ← okOr allocation (.other
        "Buy Order Cell cannot cover the price, buyer token-cell capacity, and network fee")
      return {
        inputs
        outputs := [sellerOutput, { buyerOutput with capacity := allocated.tokenCapacity.toNat }]
        fee := allocated.fee }

theorem pairs_iff {buy sell : OrderArgs} : Pairs buy sell ↔
    ¬((termsOf buy).side ≠ sideBuy.toNat ∨ (termsOf sell).side ≠ sideSell.toNat) ∧
      ¬((termsOf buy).xudtTypeHash ≠ (termsOf sell).xudtTypeHash ∨
        (termsOf buy).amount ≠ (termsOf sell).amount ∨ (termsOf buy).price ≠ (termsOf sell).price) := by
  simp only [not_or, not_not, termsOf, BitVec.toNat_inj]
  constructor
  · intro h
    exact ⟨⟨h.buy, h.sell⟩, congrArg hashText h.token, h.amount, h.price⟩
  · rintro ⟨⟨hbuy, hsell⟩, htoken, hamount, hprice⟩
    exact ⟨hbuy, hsell, hashText_injective htoken, hamount, hprice⟩

section
variable {deployment : Deployment} {rpc : Rpc} {buyRef sellRef : CellRef} {buyCell sellCell : CellOutput}
  {buyTerms sellTerms : OrderArgs} {buyer seller sellType : Script} {settlement : Settlement}

theorem hash_of_findInput {makerLockHash : Hex} {inputs : List CellRef} {lock : Script}
    (h : findInput deployment.ccc rpc makerLockHash inputs = .ok lock) :
    hashText (deployment.ccc.hash lock) = makerLockHash := by
  induction inputs with
  | nil => cases h
  | cons input inputs ih =>
      rw [findInput, bind_eq_ok] at h
      obtain ⟨previousCell, -, h⟩ := h
      split at h
      · rename_i cell hcell
        obtain rfl := Except.ok.inj h
        exact of_decide_eq_true (Option.filter_eq_some_iff.mp hcell).2
      · exact ih h

theorem hash_of_findMakerLock {outPoint : CellRef} {makerLockHash : Hex} {lock : Script}
    (h : findMakerLock deployment.ccc rpc outPoint makerLockHash = .ok lock) :
    hashText (deployment.ccc.hash lock) = makerLockHash := by
  rw [findMakerLock, bind_eq_ok] at h
  obtain ⟨creatingTx, -, h⟩ := h
  split at h
  · cases h
  · exact hash_of_findInput h

/-- Two live cells of the DEX lock with matching orders, the locks of their
makers, and a payment that a cell can hold. -/
structure Selected (deployment : Deployment) (rpc : Rpc) (buyRef sellRef : CellRef)
    (buyCell sellCell : CellOutput) (buyTerms sellTerms : OrderArgs) (buyer seller sellType : Script) :
    Prop where
  buyLive : rpc.getCellLive buyRef = .ok (some buyCell)
  sellLive : rpc.getCellLive sellRef = .ok (some sellCell)
  buyDex : buyCell.lock.codeHash = deployment.dex.codeHash ∧ buyCell.lock.hashType = deployment.dex.hashType
  sellDex : sellCell.lock.codeHash = deployment.dex.codeHash ∧
      sellCell.lock.hashType = deployment.dex.hashType
  buyParsed : parseOrderArgs buyCell.lock.args = .ok buyTerms
  sellParsed : parseOrderArgs sellCell.lock.args = .ok sellTerms
  pair : Pairs buyTerms sellTerms
  plain : buyCell.type = none
  typed : sellCell.type = some sellType
  listed : deployment.ccc.hash sellType ∈ deployment.assetHashes
  token : deployment.ccc.hash sellType = sellTerms.xudtTypeHash
  amount : deployment.udtBalanceFrom sellCell.data = sellTerms.tokenAmount.toNat
  buyer : findMakerLock deployment.ccc rpc buyRef (hashText buyTerms.makerLockHash) = .ok buyer
  seller : findMakerLock deployment.ccc rpc sellRef (hashText sellTerms.makerLockHash) = .ok seller
  payment : sellCell.capacity + sellTerms.price.toNat ≤ maxU64

/-- The settlement of two cells, as far as the buy cell covers it. -/
def settleCells (ccc : Client) (inputs : List OutPoint) (buyCell sellCell : CellOutput)
    (buyer seller : Script)
    (price : ℕ) (error : Failure) : Except Failure Settlement := do
  let allocation ← allocateSettlementCapacity buyCell.capacity price
      (tokenOutputOf ccc sellCell buyer).capacity
    (ccc.estimateFee inputs [sellerOutputOf ccc sellCell seller price, tokenOutputOf ccc sellCell buyer])
  let allocated ← okOr allocation error
  return {
    inputs
    outputs := [sellerOutputOf ccc sellCell seller price,
      { tokenOutputOf ccc sellCell buyer with capacity := allocated.tokenCapacity.toNat }]
    fee := allocated.fee }

theorem settleCells_eq_ok {ccc : Client} {inputs : List OutPoint} {price : ℕ} {error : Failure} :
    settleCells ccc inputs buyCell sellCell buyer seller price error = .ok settlement ↔
      ∃ a, allocateSettlementCapacity buyCell.capacity price (tokenOutputOf ccc sellCell buyer).capacity
          (ccc.estimateFee inputs [sellerOutputOf ccc sellCell seller price,
              tokenOutputOf ccc sellCell buyer]) =
            .ok (some a) ∧ settlement = ⟨inputs, [sellerOutputOf ccc sellCell seller price,
        { tokenOutputOf ccc sellCell buyer with capacity := a.tokenCapacity.toNat }], a.fee⟩ := by
  simp only [settleCells, bind_eq_ok, okOr_eq_ok]
  constructor
  · rintro ⟨_, hallocated, a, rfl, hret⟩
    exact ⟨a, hallocated, (Except.ok.inj hret).symm⟩
  · rintro ⟨a, hallocated, rfl⟩
    exact ⟨_, hallocated, a, rfl, rfl⟩

def unfunded : Failure :=
  .other "Buy Order Cell cannot cover the price, buyer token-cell capacity, and network fee"

theorem fillOrder_eq_ok : fillOrder deployment rpc buyRef sellRef = .ok settlement ↔
    ∃ buyCell sellCell buyTerms sellTerms buyer seller sellType,
      Selected deployment rpc buyRef sellRef buyCell sellCell buyTerms sellTerms buyer seller sellType ∧
      settleCells deployment.ccc [outPointText buyRef, outPointText sellRef] buyCell sellCell buyer seller
        sellTerms.price.toNat unfunded = .ok settlement := by
  simp only [fillOrder, bind_eq_ok, okOr_eq_ok, throwIf_eq_ok, assertDexLock, readOrderTerms_eq_ok]
  constructor
  · rintro ⟨_, hbuyLive, _, hsellLive, buyCell, rfl, sellCell, rfl, -, hbuyDex, -, hsellDex, _,
      ⟨buyTerms, hbuyParsed, rfl⟩, _, ⟨sellTerms, hsellParsed, rfl⟩, -, hsides, -, hterms, -, hplain, hrest⟩
    cases htype : sellCell.type with
    | none =>
        rw [htype] at hrest
        cases hrest
    | some sellType =>
        rw [htype] at hrest
        simp only [bind_eq_ok, throwIf_eq_ok, assertSupportedAsset] at hrest
        obtain ⟨-, hlisted, -, htoken, -, hamount, buyer, hbuyer, seller, hseller, -, hpayment,
            hsettled⟩ := hrest
        refine ⟨buyCell, sellCell, buyTerms, sellTerms, buyer, seller, sellType, ?_, ?_⟩
        · constructor <;> try assumption
          · exact not_or.mp hbuyDex |>.imp not_not.mp not_not.mp
          · exact not_or.mp hsellDex |>.imp not_not.mp not_not.mp
          · exact pairs_iff.mpr ⟨hsides, hterms⟩
          · simpa using hplain
          · exact not_not.mp hlisted
          · exact hashText_injective (not_not.mp htoken)
          · exact not_not.mp hamount
          · exact not_lt.mp hpayment
        · unfold settleCells tokenOutputOf
          rw [htype, bind_eq_ok]
          obtain ⟨allocation, hallocation, allocated, hallocated, hret⟩ := hsettled
          exact ⟨allocation, hallocation, bind_eq_ok.mpr ⟨allocated, hallocated, hret⟩⟩
  · rintro ⟨buyCell, sellCell, buyTerms, sellTerms, buyer, seller, sellType, h, hsettled⟩
    obtain ⟨hsides, hterms⟩ := pairs_iff.mp h.pair
    refine ⟨_, h.buyLive, _, h.sellLive, buyCell, rfl, sellCell, rfl, (), ?_, (), ?_, _,
        ⟨buyTerms, h.buyParsed, rfl⟩,
      _, ⟨sellTerms, h.sellParsed, rfl⟩, (), hsides, (), hterms, (), ?_, ?_⟩
    · exact not_or.mpr (h.buyDex.imp not_not.mpr not_not.mpr)
    · exact not_or.mpr (h.sellDex.imp not_not.mpr not_not.mpr)
    · simp [h.plain]
    · rw [h.typed]
      simp only [bind_eq_ok, throwIf_eq_ok, assertSupportedAsset]
      unfold settleCells tokenOutputOf at hsettled
      rw [h.typed, bind_eq_ok] at hsettled
      obtain ⟨allocation, hallocation, hsettled⟩ := hsettled
      rw [bind_eq_ok] at hsettled
      obtain ⟨allocated, hallocated, hret⟩ := hsettled
      refine ⟨(), not_not.mpr h.listed, (), ?_, (), not_not.mpr h.amount, buyer, h.buyer, seller,
          h.seller, (),
        not_lt.mpr h.payment, allocation, hallocation, allocated, hallocated, hret⟩
      exact not_not.mpr (congrArg hashText h.token)

theorem fits_of_selected (h : Selected deployment rpc buyRef sellRef buyCell sellCell buyTerms
    sellTerms buyer seller
      sellType) (hpos : 0 < sellCell.capacity)
    (hsettled : settleCells deployment.ccc [outPointText buyRef, outPointText sellRef] buyCell
        sellCell buyer seller
      sellTerms.price.toNat unfunded = .ok settlement) :
    Fits deployment.ccc.hash buyRef sellRef buyCell sellCell buyTerms sellTerms settlement := by
  obtain ⟨a, hallocated, rfl⟩ := settleCells_eq_ok.mp hsettled
  obtain ⟨hfee, hmin, rfl⟩ := allocateSettlementCapacity_eq_ok.mp hallocated
  have hmin := le_trans (Int.natCast_nonneg _) hmin
  have hprice : buyTerms.price.toNat = sellTerms.price.toNat := congrArg BitVec.toNat h.pair.price
  have hinputs : [outPointText buyRef, outPointText sellRef].mapM Bot.refFrom = some [buyRef, sellRef] := by
    simp [Observation.refFrom_outPointText]
  refine ⟨h.pair.buy, h.pair.sell, h.pair.token, h.pair.amount, h.pair.price, hfee, hinputs, seller, buyer, _,
    hashText_injective (hash_of_findMakerLock h.seller),
        hashText_injective (hash_of_findMakerLock h.buyer), rfl,
    ?_, ?_⟩
  · omega
  · have hne : ¬((sellCell.capacity : ℤ) + (sellTerms.price.toNat : ℤ) = 0) := by omega
    have hpayment : ((sellCell.capacity : ℤ) + (sellTerms.price.toNat : ℤ)).toNat =
        sellCell.capacity + sellTerms.price.toNat := by omega
    have hrest : ∀ fee : ℕ, ((buyCell.capacity : ℤ) - (sellTerms.price.toNat : ℤ) - (fee : ℤ)).toNat =
        buyCell.capacity - sellTerms.price.toNat - fee := by
      intro fee
      omega
    rw [hprice, sellerOutputOf, outputFrom, if_neg hne, hpayment, hrest]
    rfl

/-- A token cell's data starts with its amount. -/
def Balances (deployment : Deployment) : Prop :=
  ∀ data, 16 ≤ data.length → deployment.udtBalanceFrom data = ofLe (slice data 0 16)

/-- The live cells that are read are cells of the chain. -/
def Reads (rpc : Rpc) (content : Content) : Prop :=
  ∀ ref cell, rpc.getCellLive ref = .ok (some cell) → cellAt content ref = some cell

/-- Every settlement that the command line submits for two cells of the chain is
accepted for both orders, and pays exactly the fee it was built with. The locks
of the two orders are not those of their makers, and the data of a token cell
starts with an amount. -/
theorem fillOrder_accepted {content : Content} (hbalances : Balances deployment) (hreads : Reads rpc content)
    (hbuyLive : rpc.getCellLive buyRef = .ok (some buyCell))
    (hsellLive : rpc.getCellLive sellRef = .ok (some sellCell)) (hbuyPos : 0 < buyCell.capacity)
    (hsellPos : 0 < sellCell.capacity) (hsum : buyCell.capacity + sellCell.capacity < 2 ^ 64)
    (htoken : sellCell.type.isSome = true → 16 ≤ sellCell.data.length)
    (hmakers : ∀ lock ∈ [buyCell.lock, sellCell.lock], ∀ terms, parseOrderArgs lock.args = .ok terms →
      deployment.ccc.hash buyCell.lock ≠ terms.makerLockHash ∧
        deployment.ccc.hash sellCell.lock ≠ terms.makerLockHash)
    (h : fillOrder deployment rpc buyRef sellRef = .ok settlement) :
    ∃ tx, Accepted deployment.ccc.hash deployment.dex content buyRef sellRef settlement tx := by
  obtain ⟨buyFound, sellFound, buyTerms, sellTerms, buyer, seller, sellType, hselected,
      hsettled⟩ := fillOrder_eq_ok.mp h
  obtain rfl : buyFound = buyCell := by
    have hsame := hselected.buyLive.symm.trans hbuyLive
    simpa using hsame
  obtain rfl : sellFound = sellCell := by
    have hsame := hselected.sellLive.symm.trans hsellLive
    simpa using hsame
  have hsides : sideBuy ≠ sideSell := by decide
  have hlength := htoken (by simp [hselected.typed])
  -- the documents that would mirror the cells
  have hbuy : Mirrors deployment.ccc.hash deployment.dex
      (indexedDocument (outPointText buyRef) buyFound buyer buyTerms "" 0 "" 0 "") buyFound buyTerms := by
    apply indexedDocument_mirrors hbuyPos (by omega) _ hselected.buyParsed
    · exact hashText_injective (hash_of_findMakerLock hselected.buyer)
    · intro hsell
      exact absurd (hselected.pair.buy.symm.trans hsell) hsides
    · exact fun _ => hselected.plain
    · simp [sameIdentity, hselected.buyDex.1, hselected.buyDex.2]
  have hsell : Mirrors deployment.ccc.hash deployment.dex
      (indexedDocument (outPointText sellRef) sellFound seller sellTerms "" 0 "" 0 "") sellFound
          sellTerms := by
    apply indexedDocument_mirrors hsellPos (by omega) _ hselected.sellParsed
    · exact hashText_injective (hash_of_findMakerLock hselected.seller)
    · intro _
      rw [hselected.typed, Option.map_some, hselected.token, ← hbalances _ hlength]
      exact ⟨rfl, hlength, hselected.amount⟩
    · intro hbuy
      exact absurd (hbuy.symm.trans hselected.pair.sell) hsides
    · simp [sameIdentity, hselected.sellDex.1, hselected.sellDex.2]
  have hbuyLock := hmakers _ List.mem_cons_self _ hselected.buyParsed
  have hsellLock := hmakers _ (List.mem_cons_of_mem _ List.mem_cons_self) _ hselected.sellParsed
  exact ⟨_, accepted_of_fits
    ⟨hbuy, Observation.refFrom_outPointText buyRef, hreads _ _ hbuyLive⟩
    ⟨hsell, Observation.refFrom_outPointText sellRef, hreads _ _ hsellLive⟩
    (fits_of_selected hselected hsellPos hsettled) ⟨hbuyLock.1, hsellLock.1⟩ ⟨hbuyLock.2, hsellLock.2⟩ hsum⟩

end

section
open Chains SpendClassification Acceptance Projection

variable {w : World} {c : Chain w} {deployment : Deployment} {v : ChainVerification} {buy sell : IndexedCell}
  {buyPosition sellPosition : Position} {buyTx sellTx : RawTx} {buyTerms sellTerms : OrderArgs}
  {buyer seller : Script} {settlement : Settlement}

/-- A node in step with a chain. -/
def rpcOf (c : Chain w) : Rpc where
  getCellLive ref := .ok (if c.isLive ref then cellAt w.content ref else none)
  getTransaction txHash := .ok (c.response txHash)
  getCell ref := .ok (cellAt w.content ref)

/-- The bot is configured for the same deployment. -/
structure Configures (deployment : Deployment) (v : ChainVerification) : Prop where
  hash : v.hash = deployment.ccc.hash
  codeHash : v.dexLock.codeHash = hashText deployment.dex.codeHash
  hashType : v.dexLock.hashType = hashTypeText deployment.dex.hashType
  assets : v.supportedAssetHashes = deployment.assetHashes.map hashText

/-- The scan admits a cell, and finds its maker among the inputs that created it. -/
structure Finds (v : ChainVerification) (content : Content) (cell : CellOutput) (tx : RawTx)
    (terms : OrderArgs)
    (owner : Script) : Prop where
  admits : Admits v cell terms
  maker : firstLock v.hash content (hashText terms.makerLockHash) tx.inputs = some owner

theorem findInput_rpcOf (hash : Hex) (inputs : List CellRef) :
    findInput deployment.ccc (rpcOf c) hash inputs =
      okOr (firstLock deployment.ccc.hash w.content hash inputs)
        (.other s!"No creation-transaction input matches maker lock hash {hash}") := by
  induction inputs with
  | nil => rfl
  | cons input inputs ih =>
      have hcell : (rpcOf c).getCell input = .ok (cellAt w.content input) := rfl
      rw [findInput, hcell]
      cases h : cellAt w.content input with
      | none => simpa [firstLock, h, bind, Except.bind] using ih
      | some cell =>
          by_cases hlock : hashText (deployment.ccc.hash cell.lock) = hash
          · simp [Option.filter, hlock, firstLock, h, okOr, bind, Except.bind, pure, Except.pure]
          · simpa [Option.filter, hlock, firstLock, h, bind, Except.bind] using ih

theorem findMakerLock_rpcOf (h : Created c buy buyPosition buyTx) (hash : Hex) :
    findMakerLock deployment.ccc (rpcOf c) buy.outPoint hash = .ok buyer ↔
      firstLock deployment.ccc.hash w.content hash buyTx.inputs = some buyer := by
  have hresponse : (rpcOf c).getTransaction buy.outPoint.txHash = .ok (some (buyPosition.response buyTx)) :=
    congrArg Except.ok h.response_eq
  rw [findMakerLock, hresponse]
  change findInput deployment.ccc (rpcOf c) hash buyTx.inputs = .ok buyer ↔ _
  rw [findInput_rpcOf, okOr_eq_ok]

theorem reads_rpcOf (c : Chain w) : Reads (rpcOf c) w.content := by
  intro ref cell h
  have hlive : (if c.isLive ref then cellAt w.content ref else none) = some cell := Except.ok.inj h
  split_ifs at hlive
  exact hlive

theorem getCellLive_rpcOf (h : Created c buy buyPosition buyTx) (hlive : c.isLive buy.outPoint = true) :
    (rpcOf c).getCellLive buy.outPoint = .ok (some buy.cell) := by
  have hcell : cellAt w.content buy.outPoint = some buy.cell := by
    simp only [cellAt, Option.bind_eq_some_iff]
    exact ⟨buyTx, h.txHash ▸ h.content, h.output⟩
  change Except.ok (if c.isLive buy.outPoint then cellAt w.content buy.outPoint else none) = _
  rw [if_pos hlive, hcell]

/-- The document that the scan stores for a cell, whatever was stored before. -/
def documentOf (address : Script → String) (existing : Option OrderDocument) (cell : IndexedCell)
    (terms : OrderArgs) (owner : Script) (p : Position) (tx : RawTx) : OrderDocument :=
  confirmedDocument existing (indexedEvent address cell terms owner p tx)

theorem buildSettlement_documentOf {address : Script → String} {buyBefore sellBefore : Option OrderDocument}
    {type : Script} (hpair : Pairs buyTerms sellTerms) (htype : sell.cell.type = some type)
    (hsupported : hashText buyTerms.xudtTypeHash ∈ v.supportedAssetHashes) :
    buildSettlement deployment.ccc v.supportedAssetHashes
        (documentOf address buyBefore buy buyTerms buyer buyPosition buyTx)
        (documentOf address sellBefore sell sellTerms seller sellPosition sellTx) = .ok settlement ↔
      settleCells deployment.ccc [outPointText buy.outPoint, outPointText sell.outPoint] buy.cell
          sell.cell buyer
        seller sellTerms.price.toNat unfunded = .ok settlement := by
  have hbuy := repeats_confirmedDocument buyBefore address buy buyTerms buyer buyPosition buyTx
  have hsell := repeats_confirmedDocument sellBefore address sell sellTerms seller sellPosition sellTx
  have hbuilt : buildSettlement deployment.ccc v.supportedAssetHashes
      (documentOf address buyBefore buy buyTerms buyer buyPosition buyTx)
      (documentOf address sellBefore sell sellTerms seller sellPosition sellTx) = _ :=
    buildSettlement_pair hbuy hsell hpair htype hsupported
  rw [hbuilt, hpair.price]
  change settleCells deployment.ccc [outPointText buy.outPoint, outPointText sell.outPoint]
      buy.cell sell.cell buyer
    seller sellTerms.price.toNat (insufficientBuyCapacity _) = .ok settlement ↔ _
  rw [settleCells_eq_ok, settleCells_eq_ok]

theorem pairs_of_buildSettlement {address : Script → String} {buyBefore sellBefore : Option OrderDocument}
    (hbuy : parseOrderArgs buy.cell.lock.args = .ok buyTerms)
    (hsell : parseOrderArgs sell.cell.lock.args = .ok sellTerms)
    (h : buildSettlement deployment.ccc v.supportedAssetHashes
      (documentOf address buyBefore buy buyTerms buyer buyPosition buyTx)
      (documentOf address sellBefore sell sellTerms seller sellPosition sellTx) = .ok settlement) :
    Pairs buyTerms sellTerms := by
  have hbuilt := built_of_buildSettlement h
  have hside : ∀ {cell : IndexedCell} {terms : OrderArgs}, parseOrderArgs cell.cell.lock.args = .ok terms →
      terms.side = sideBuy ∨ terms.side = sideSell := by
    intro cell terms hparsed
    obtain ⟨hw, hd⟩ := parseOrderArgs_eq_ok.mp hparsed
    exact OrderLockRules.side_of_wellFormed hw hd
  constructor
  · apply (hside hbuy).resolve_right
    intro hask
    have hbid : directionOf buyTerms.side = .bid := hbuilt.buy_direction
    rw [hask] at hbid
    exact absurd hbid (by decide)
  · apply (hside hsell).resolve_left
    intro hbid
    have hask : directionOf sellTerms.side = .ask := hbuilt.sell_direction
    rw [hbid] at hask
    exact absurd hask (by decide)
  · exact hashText_injective hbuilt.token
  · exact BitVec.eq_of_toNat_eq (toString_injective hbuilt.amount)
  · exact BitVec.eq_of_toNat_eq (toString_injective hbuilt.price)

/-- What the command line asks of two cells on chain, in the words of the scan. -/
theorem selected_iff {type : Script} (hconfigures : Configures deployment v) (hbalances : Balances deployment)
    (hbuy : Created c buy buyPosition buyTx) (hsell : Created c sell sellPosition sellTx)
    (hbuyLive : c.isLive buy.outPoint = true) (hsellLive : c.isLive sell.outPoint = true)
    (htoken : sell.cell.type.isSome = true → 16 ≤ sell.cell.data.length)
    (hcovered : buyTerms.price.toNat < buy.cell.capacity) :
    Selected deployment (rpcOf c) buy.outPoint sell.outPoint buy.cell sell.cell buyTerms sellTerms
        buyer seller type ↔
      Finds v w.content buy.cell buyTx buyTerms buyer ∧ Finds v w.content sell.cell sellTx sellTerms seller ∧
        Pairs buyTerms sellTerms ∧ sell.cell.type = some type ∧
        sell.cell.capacity + sellTerms.price.toNat ≤ maxU64 := by
  have hdex : ∀ lock : Script, (hashText lock.codeHash = v.dexLock.codeHash ∧
      hashTypeText lock.hashType = v.dexLock.hashType) ↔
        (lock.codeHash = deployment.dex.codeHash ∧ lock.hashType = deployment.dex.hashType) := by
    intro lock
    rw [hconfigures.codeHash, hconfigures.hashType]
    exact ⟨fun h => ⟨hashText_injective h.1, hashTypeText_injective h.2⟩,
      fun h => ⟨congrArg hashText h.1, congrArg hashTypeText h.2⟩⟩
  constructor
  · intro h
    have hbuyDex := (hdex buy.cell.lock).mpr h.buyDex
    have hsellDex := (hdex sell.cell.lock).mpr h.sellDex
    have hlisted : hashText sellTerms.xudtTypeHash ∈ v.supportedAssetHashes := by
      rw [hconfigures.assets, ← h.token]
      exact List.mem_map_of_mem h.listed
    refine ⟨⟨?_, ?_⟩, ⟨?_, ?_⟩, h.pair, h.typed, h.payment⟩
    · refine ⟨hbuyDex.1, hbuyDex.2, h.buyParsed, ?_, ?_, fun _ => ⟨h.plain, hcovered⟩⟩
      · rw [h.pair.token]
        exact hlisted
      · intro hask
        rw [h.pair.buy] at hask
        exact absurd hask (by decide)
    · rw [hconfigures.hash]
      exact (findMakerLock_rpcOf hbuy _).mp h.buyer
    · refine ⟨hsellDex.1, hsellDex.2, h.sellParsed, hlisted, fun _ => ?_, ?_⟩
      · have hlength := htoken (by simp [h.typed])
        refine ⟨type, h.typed, ?_, hlength, ?_⟩
        · rw [hconfigures.hash]
          exact h.token
        · rw [← hbalances _ hlength]
          exact h.amount
      · intro hbid
        rw [h.pair.sell] at hbid
        exact absurd (by decide) hbid
    · rw [hconfigures.hash]
      exact (findMakerLock_rpcOf hsell _).mp h.seller
  · rintro ⟨hbuyFound, hsellFound, hpair, htype, hpayment⟩
    have hask : directionOf sellTerms.side = .ask := by
      rw [hpair.sell]
      decide
    have hbid : directionOf buyTerms.side ≠ .ask := by
      rw [hpair.buy]
      decide
    obtain ⟨found, hfound, hhash, hlength, hamount⟩ := hsellFound.admits.ask hask
    obtain rfl := Option.some_inj.mp (hfound.symm.trans htype)
    rw [hconfigures.hash] at hhash
    have hlisted := hsellFound.admits.supported
    rw [hconfigures.assets, ← hhash] at hlisted
    obtain ⟨asset, hasset, hsame⟩ := List.mem_map.mp hlisted
    constructor
    · exact getCellLive_rpcOf hbuy hbuyLive
    · exact getCellLive_rpcOf hsell hsellLive
    · exact (hdex _).mp ⟨hbuyFound.admits.codeHash, hbuyFound.admits.hashType⟩
    · exact (hdex _).mp ⟨hsellFound.admits.codeHash, hsellFound.admits.hashType⟩
    · exact hbuyFound.admits.parsed
    · exact hsellFound.admits.parsed
    · exact hpair
    · exact (hbuyFound.admits.bid hbid).1
    · exact htype
    · exact hashText_injective hsame ▸ hasset
    · exact hhash
    · exact (hbalances _ hlength).trans hamount
    · exact (findMakerLock_rpcOf hbuy _).mpr (hconfigures.hash ▸ hbuyFound.maker)
    · exact (findMakerLock_rpcOf hsell _).mpr (hconfigures.hash ▸ hsellFound.maker)
    · exact hpayment

/-- A buy cell that covers its settlement has more than its price. -/
theorem covered_of_settleCells (hfills : FillsIn deployment.ccc) {inputs : List OutPoint}
    {buyCell sellCell : CellOutput}
    {price : ℕ} {error : Failure}
    (h : settleCells deployment.ccc inputs buyCell sellCell buyer seller price error = .ok settlement) :
    price < buyCell.capacity := by
  obtain ⟨a, hallocated, -⟩ := settleCells_eq_ok.mp h
  obtain ⟨-, hmin, -⟩ := allocateSettlementCapacity_eq_ok.mp hallocated
  rw [tokenOutput_capacity hfills] at hmin
  have hpos : 0 < occupiedCapacity buyer sellCell.type sellCell.data := by
    unfold occupiedCapacity occupiedBytes
    omega
  omega

/-- The command line settles two order cells on chain exactly when the scan
admits both and `executeTrade` settles the documents that it stores for them,
and the settlements are the same; only a payment of more than 64 bits is refused
here and not there. -/
theorem fillOrder_eq_executeTrade (address : Script → String) (buyBefore sellBefore : Option OrderDocument)
    (hconfigures : Configures deployment v) (hbalances : Balances deployment)
    (hfills : FillsIn deployment.ccc)
    (hbuy : Created c buy buyPosition buyTx) (hsell : Created c sell sellPosition sellTx)
    (hbuyLive : c.isLive buy.outPoint = true) (hsellLive : c.isLive sell.outPoint = true)
    (htoken : sell.cell.type.isSome = true → 16 ≤ sell.cell.data.length) (settlement : Settlement) :
    fillOrder deployment (rpcOf c) buy.outPoint sell.outPoint = .ok settlement ↔
      ∃ buyTerms sellTerms buyer seller, Finds v w.content buy.cell buyTx buyTerms buyer ∧
        Finds v w.content sell.cell sellTx sellTerms seller ∧
        buildSettlement deployment.ccc v.supportedAssetHashes
          (documentOf address buyBefore buy buyTerms buyer buyPosition buyTx)
          (documentOf address sellBefore sell sellTerms seller sellPosition sellTx) = .ok settlement ∧
        sell.cell.capacity + sellTerms.price.toNat ≤ maxU64 := by
  rw [fillOrder_eq_ok]
  constructor
  · rintro ⟨buyCell, sellCell, buyTerms, sellTerms, buyer, seller, type, h, hsettled⟩
    obtain rfl : buyCell = buy.cell := by
      have hsame := h.buyLive.symm.trans (getCellLive_rpcOf hbuy hbuyLive)
      simpa using hsame
    obtain rfl : sellCell = sell.cell := by
      have hsame := h.sellLive.symm.trans (getCellLive_rpcOf hsell hsellLive)
      simpa using hsame
    have hcovered := covered_of_settleCells hfills hsettled
    rw [← h.pair.price] at hcovered
    obtain ⟨hbuyFound, hsellFound, hpair, htype, hpayment⟩ :=
      (selected_iff hconfigures hbalances hbuy hsell hbuyLive hsellLive htoken hcovered).mp h
    exact ⟨buyTerms, sellTerms, buyer, seller, hbuyFound, hsellFound,
      (buildSettlement_documentOf hpair htype hbuyFound.admits.supported).mpr hsettled, hpayment⟩
  · rintro ⟨buyTerms, sellTerms, buyer, seller, hbuyFound, hsellFound, hbuilt, hpayment⟩
    have hpair := pairs_of_buildSettlement hbuyFound.admits.parsed hsellFound.admits.parsed hbuilt
    have hask : directionOf sellTerms.side = .ask := by
      rw [hpair.sell]
      decide
    obtain ⟨type, htype, -⟩ := hsellFound.admits.ask hask
    have hsettled := (buildSettlement_documentOf hpair htype hbuyFound.admits.supported).mp hbuilt
    have hcovered := covered_of_settleCells hfills hsettled
    rw [← hpair.price] at hcovered
    have hselected := (selected_iff hconfigures hbalances hbuy hsell hbuyLive hsellLive htoken hcovered).mpr
      ⟨hbuyFound, hsellFound, hpair, htype, hpayment⟩
    exact ⟨buy.cell, sell.cell, buyTerms, sellTerms, buyer, seller, type, hselected, hsettled⟩

open GroundedDocuments TerminalStatuses OrderLockRules in
def exampleDeployment : Deployment where
  ccc := exampleClient
  udtBalanceFrom data := ofLe (slice data 0 16)
  dex := exampleDex
  assetHashes := [exampleHash 9]

open GroundedDocuments TerminalStatuses OrderLockRules

theorem exampleDeployment_configures : Configures exampleDeployment exampleVerification :=
  ⟨rfl, rfl, rfl, rfl⟩

theorem exampleBuy_created : Created exampleEarly exampleBuyIndexed ⟨1, exampleHash 21, 0, exampleHash 5⟩
    exampleCreation :=
  ⟨exampleBuy_early.found, exampleBuy_early.txHash, exampleBuy_early.content, exampleBuy_early.output⟩

theorem exampleSell_created : Created exampleEarly exampleSellIndexed ⟨1, exampleHash 21, 0, exampleHash 5⟩
    exampleCreation :=
  ⟨exampleSell_early.found, exampleSell_early.txHash, exampleSell_early.content, exampleSell_early.output⟩

theorem exampleBuy_found : Finds exampleVerification exampleWorld.content exampleBuyCell exampleCreation
    (exampleOrder sideBuy (exampleHash 1)) (exampleOwner 1) := by
  refine ⟨⟨exampleBuy_early.codeHash, exampleBuy_early.hashType, exampleBuy_early.parsed,
      exampleBuy_early.supported,
    exampleBuy_early.asset, fun hbid => ⟨exampleBuy_early.plain hbid, by decide⟩⟩, by decide⟩

theorem exampleSell_found : Finds exampleVerification exampleWorld.content exampleSellCell exampleCreation
    (exampleOrder sideSell (exampleHash 2)) (exampleOwner 2) := by
  refine ⟨⟨exampleSell_early.codeHash, exampleSell_early.hashType, exampleSell_early.parsed,
      exampleSell_early.supported,
    exampleSell_early.asset, fun hbid => absurd (by decide) hbid⟩, by decide⟩

theorem exampleFill_settles : ∃ settlement,
    fillOrder exampleDeployment (rpcOf exampleEarly) exampleBuyIndexed.outPoint
    exampleSellIndexed.outPoint = .ok settlement := by
  obtain ⟨settlement, hbuilt⟩ := SettlementTracking.exampleTrade_builds
  have hpair : Pairs (exampleOrder sideBuy (exampleHash 1)) (exampleOrder sideSell (exampleHash 2)) := by
    constructor <;> decide
  have hbalances : Balances exampleDeployment := fun _ _ => rfl
  have hselected := (selected_iff exampleDeployment_configures hbalances exampleBuy_created
      exampleSell_created
    (by decide) (by decide) (by decide) (by decide)).mpr
        ⟨exampleBuy_found, exampleSell_found, hpair, rfl, by decide⟩
  exact ⟨settlement, fillOrder_eq_ok.mpr ⟨_, _, _, _, _, _, exampleTokenType, hselected,
    (buildSettlement_documentOf hpair rfl exampleBuy_found.admits.supported).mp hbuilt⟩⟩

theorem fillOrder_accepted_example : ∃ settlement tx, fillOrder exampleDeployment (rpcOf exampleEarly)
    exampleBuyIndexed.outPoint exampleSellIndexed.outPoint = .ok settlement ∧
    AcceptedSettlements.Accepted exampleScriptHash exampleDex exampleWorld.content exampleBuyIndexed.outPoint
      exampleSellIndexed.outPoint settlement tx := by
  obtain ⟨settlement, h⟩ := exampleFill_settles
  have hmakers : ∀ lock ∈ [exampleBuyCell.lock, exampleSellCell.lock], ∀ terms,
      parseOrderArgs lock.args = .ok terms → exampleClient.hash exampleBuyCell.lock ≠ terms.makerLockHash ∧
        exampleClient.hash exampleSellCell.lock ≠ terms.makerLockHash := by
    intro lock hmem terms hparsed
    rcases List.mem_cons.mp hmem with rfl | hmem
    · obtain rfl := Except.ok.inj (exampleBuy_early.parsed.symm.trans hparsed)
      decide
    · obtain rfl := List.mem_singleton.mp hmem
      obtain rfl := Except.ok.inj (exampleSell_early.parsed.symm.trans hparsed)
      decide
  have hbalances : Balances exampleDeployment := fun _ _ => rfl
  have hbuyLive : (rpcOf exampleEarly).getCellLive exampleBuyIndexed.outPoint = .ok (some exampleBuyCell) :=
    getCellLive_rpcOf exampleBuy_created (by decide)
  have hsellLive : (rpcOf exampleEarly).getCellLive exampleSellIndexed.outPoint =
      .ok (some exampleSellCell) :=
    getCellLive_rpcOf exampleSell_created (by decide)
  obtain ⟨tx, haccepted⟩ := fillOrder_accepted hbalances (reads_rpcOf exampleEarly) hbuyLive
      hsellLive (by decide)
    (by decide) (by decide) (by decide) hmakers h
  exact ⟨settlement, tx, h, haccepted⟩

theorem fillOrder_eq_executeTrade_example : ∃ settlement buyTerms sellTerms buyer seller,
    fillOrder exampleDeployment (rpcOf exampleEarly) exampleBuyIndexed.outPoint exampleSellIndexed.outPoint =
        .ok settlement ∧
      buildSettlement exampleDeployment.ccc exampleVerification.supportedAssetHashes
        (documentOf (fun _ => "ckt1") none exampleBuyIndexed buyTerms buyer
            ⟨1, exampleHash 21, 0, exampleHash 5⟩
          exampleCreation)
        (documentOf (fun _ => "ckt1") none exampleSellIndexed sellTerms seller
            ⟨1, exampleHash 21, 0, exampleHash 5⟩
          exampleCreation) = .ok settlement := by
  obtain ⟨settlement, h⟩ := exampleFill_settles
  obtain ⟨buyTerms, sellTerms, buyer, seller, -, -, hbuilt, -⟩ :=
    (fillOrder_eq_executeTrade (fun _ => "ckt1") none none
    exampleDeployment_configures (fun _ _ => rfl) exampleClient_fillsIn exampleBuy_created exampleSell_created
    (by decide) (by decide) (by decide) settlement).mp h
  exact ⟨settlement, buyTerms, sellTerms, buyer, seller, h, hbuilt⟩

end

end CkbDex.FillOrder
