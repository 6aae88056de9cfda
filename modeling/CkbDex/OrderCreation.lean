import CkbDex.AcceptedSettlements
import CkbDex.Admission
import CkbDex.Matching
import CkbDex.OrderFormat

/-!
# Orders that the wallet creates

The cells that the wallet builds for a buy and a sell order, and the capacity
that it reserves on a buy order: the price, the token cell that the buyer
receives, and twice the largest settlement fee. Two such orders of one amount
and price are matched, and any fee up to the cap can be paid from the reserve.
The conversion of a number to bytes is a parameter, as it is for the order format.
-/
namespace CkbDex.OrderCreation
open OrderLockRules hiding exampleBuy exampleSell
open Checked Bytes CellContext OrderLock Text Documents BotEvents ChainCells
open Projection Operations Chains EventVerification IngestionSteps CkbDex.Bot Acceptance Admission
open AcceptedSettlements SpendClassification
open OrderFormat (buildDexLock DexLockInput Pads)
open ScanCalls (Configured)
open Matching (matchGroupKey)
open SettlementBuilder

structure Token where
  type : Script
  typeHash : Hash

/-- `SETTLEMENT_FEE_RESERVE` -/
def settlementFeeReserve : ℤ := 2 * maxSettlementFeeShannons

section
variable (ccc : Client) (numLeToBytes : ℤ → ℕ → Except Failure (List Byte))

/-- Capacity of the token cell that a buyer receives. -/
def settlementTokenCellCapacity (makerLock : Script) (token : Token) (tokenAmount : ℤ) :
    Except Failure ℕ := do
  let data ← numLeToBytes tokenAmount 16
  return (outputFrom ccc 0 makerLock (some token.type) data).capacity

def buyOrderCapacity (makerLock : Script) (token : Token) (tokenAmount totalPrice : ℤ) :
    Except Failure ℤ := do
  let tokenCell ← settlementTokenCellCapacity ccc numLeToBytes makerLock token tokenAmount
  return totalPrice + tokenCell + settlementFeeReserve

def lockInput (side : Byte) (makerLockHash : Hash) (token : Token) (tokenAmount totalPrice : ℤ) :
    DexLockInput where
  side := side.toNat
  makerLockHash := hashText makerLockHash
  xudtTypeHash := hashText token.typeHash
  tokenAmount := tokenAmount
  price := totalPrice

/-- The order cell that `buildCreateOrderTx` starts from; what completes the
transaction comes after it. -/
def orderOutput (dexScript : Script) (token : Token) (side : Byte) (makerLock : Script)
    (makerLockHash : Hash) (tokenAmount totalPrice : ℤ) : Except Failure CellOutput := do
  let dexLock ← buildDexLock numLeToBytes dexScript
    (lockInput side makerLockHash token tokenAmount totalPrice)
  if side = sideSell then do
    let data ← numLeToBytes tokenAmount 16
    return outputFrom ccc 0 dexLock (some token.type) data
  else do
    let capacity ← buyOrderCapacity ccc numLeToBytes makerLock token tokenAmount totalPrice
    return outputFrom ccc capacity dexLock none []

end

/-- The terms of an order, as its args declare them. -/
def termsOf (side : Byte) (makerLockHash : Hash) (token : Token) (tokenAmount totalPrice : ℕ) :
    OrderArgs :=
  ⟨side, makerLockHash, token.typeHash, BitVec.ofNat 128 tokenAmount, BitVec.ofNat 64 totalPrice⟩

section
variable {ccc : Client} {numLeToBytes : ℤ → ℕ → Except Failure (List Byte)} {v : ChainVerification}
  {dex : Script} {token : Token} {side : Byte} {maker buyer seller : Script} {makerHash : Hash}
  {amount price : ℕ}

theorem amountBytes_eq (hpads : Pads numLeToBytes) (hamount : amount < 2 ^ 128) :
    numLeToBytes amount 16 = .ok (toLe 16 amount) :=
  hpads.fits amount 16 (lt_of_lt_of_le hamount (by norm_num))

theorem buildDexLock_eq (hpads : Pads numLeToBytes) (hamount : amount < 2 ^ 128) (hprice : price < 2 ^ 64) :
    buildDexLock numLeToBytes dex (lockInput side makerHash token amount price) =
      .ok { dex with args := orderArgs (termsOf side makerHash token amount price) } := by
  apply OrderFormat.buildDexLock_eq hpads
  have htoNat : (BitVec.ofNat 128 amount).toNat = amount := Nat.mod_eq_of_lt hamount
  have hpriceNat : (BitVec.ofNat 64 price).toNat = price := Nat.mod_eq_of_lt hprice
  exact ⟨rfl, hashFrom_hashText _, hashFrom_hashText _, congrArg Nat.cast htoNat.symm,
    congrArg Nat.cast hpriceNat.symm⟩

/-- The sell cell holds the amount that it declares. -/
def sellCellOf (ccc : Client) (dex : Script) (token : Token) (makerHash : Hash) (amount price : ℕ) :
    CellOutput :=
  outputFrom ccc 0 { dex with args := orderArgs (termsOf sideSell makerHash token amount price) }
    (some token.type) (toLe 16 amount)

/-- What the token cell of a buyer occupies. -/
def tokenCellOf (ccc : Client) (maker : Script) (token : Token) (amount : ℕ) : ℕ :=
  ccc.occupied maker (some token.type) (toLe 16 amount)

def buyCellOf (ccc : Client) (dex : Script) (token : Token) (maker : Script) (makerHash : Hash)
    (amount price : ℕ) : CellOutput where
  capacity := price + tokenCellOf ccc maker token amount + 20000
  lock := { dex with args := orderArgs (termsOf sideBuy makerHash token amount price) }
  type := none
  data := []

theorem orderOutput_sell (hpads : Pads numLeToBytes) (hamount : amount < 2 ^ 128) (hprice : price < 2 ^ 64) :
    orderOutput ccc numLeToBytes dex token sideSell maker makerHash amount price =
      .ok (sellCellOf ccc dex token makerHash amount price) := by
  simp only [orderOutput, bind_eq_ok, if_true]
  exact ⟨_, buildDexLock_eq hpads hamount hprice, _, amountBytes_eq hpads hamount, rfl⟩

theorem buyOrderCapacity_eq (hpads : Pads numLeToBytes) (dex : Script) (makerHash : Hash)
    (hamount : amount < 2 ^ 128) :
    buyOrderCapacity ccc numLeToBytes maker token amount price =
      .ok (buyCellOf ccc dex token maker makerHash amount price).capacity := by
  simp only [buyOrderCapacity, settlementTokenCellCapacity, bind_eq_ok]
  refine ⟨_, ⟨_, amountBytes_eq hpads hamount, rfl⟩, ?_⟩
  simp only [buyCellOf]
  push_cast
  rfl

theorem orderOutput_buy (hpads : Pads numLeToBytes) (hamount : amount < 2 ^ 128) (hprice : price < 2 ^ 64) :
    orderOutput ccc numLeToBytes dex token sideBuy maker makerHash amount price =
      .ok (buyCellOf ccc dex token maker makerHash amount price) := by
  have hside : ¬sideBuy = sideSell := by decide
  have hpositive : ((buyCellOf ccc dex token maker makerHash amount price).capacity : ℤ) ≠ 0 := by
    simp only [buyCellOf]
    omega
  simp only [orderOutput, bind_eq_ok, if_neg hside]
  refine ⟨_, buildDexLock_eq hpads hamount hprice, _, buyOrderCapacity_eq hpads dex makerHash hamount, ?_⟩
  rw [outputFrom, if_neg hpositive, Int.toNat_natCast]
  rfl

/-- A token that the backend supports, under its type hash. -/
structure Supported (v : ChainVerification) (token : Token) : Prop where
  typeHash : v.hash token.type = token.typeHash
  listed : hashText token.typeHash ∈ v.supportedAssetHashes

theorem sellCell_admitted (hdex : Configured v dex) (htoken : Supported v token)
    (hamount : amount < 2 ^ 128) : Admits v (sellCellOf ccc dex token makerHash amount price)
      (termsOf sideSell makerHash token amount price) where
  codeHash := hdex.codeHash.symm
  hashType := hdex.hashType.symm
  parsed := parseOrderArgs_orderArgs (Or.inr rfl)
  supported := htoken.listed
  ask := by
    intro _
    have hfits : amount < 256 ^ 16 := lt_of_lt_of_le hamount (by norm_num)
    have hlength : (toLe 16 amount).length = 16 := length_toLe 16 amount
    refine ⟨token.type, rfl, htoken.typeHash, hlength.ge, ?_⟩
    change ofLe (slice (toLe 16 amount) 0 16) = (BitVec.ofNat 128 amount).toNat
    rw [slice_full hlength, ofLe_toLe hfits, BitVec.toNat_ofNat, Nat.mod_eq_of_lt hamount]
  bid := fun hbid => absurd rfl hbid

theorem buyCell_admitted (hdex : Configured v dex) (htoken : Supported v token)
    (hprice : price < 2 ^ 64) : Admits v (buyCellOf ccc dex token maker makerHash amount price)
      (termsOf sideBuy makerHash token amount price) where
  codeHash := hdex.codeHash.symm
  hashType := hdex.hashType.symm
  parsed := parseOrderArgs_orderArgs (Or.inl rfl)
  supported := htoken.listed
  ask := fun hask => by cases hask
  bid := by
    intro _
    have htoNat : (BitVec.ofNat 64 price).toNat = price := Nat.mod_eq_of_lt hprice
    refine ⟨rfl, ?_⟩
    change (BitVec.ofNat 64 price).toNat < price + tokenCellOf ccc maker token amount + 20000
    omega

/-- Orders of one amount and price are in one group. -/
theorem matchGroupKey_eq {buyCell sellCell : CellOutput} {buyHash sellHash : Hash}
    {buyOrder sellOrder : OrderDocument}
    (hbuy : Repeats buyCell (termsOf sideBuy buyHash token amount price) buyer buyOrder)
    (hsell : Repeats sellCell (termsOf sideSell sellHash token amount price) seller sellOrder) :
    matchGroupKey buyOrder = matchGroupKey sellOrder := by
  rw [matchGroupKey, matchGroupKey, hbuy.token, hbuy.amount, hbuy.price, hsell.token, hsell.amount,
    hsell.price]
  rfl

/-- What the buyer receives: the token cell and the reserve less the fee. -/
def buyerOutputOf (ccc : Client) (buyer : Script) (token : Token) (amount : ℕ) (fee : ℤ) :
    CellOutput where
  capacity := (tokenCellOf ccc buyer token amount + settlementFeeReserve - fee).toNat
  lock := buyer
  type := some token.type
  data := toLe 16 amount

theorem allocation_eq {fee : ℤ} (hfee : fee ≤ maxSettlementFeeShannons) :
    allocateSettlementCapacity (buyCellOf ccc dex token buyer makerHash amount price).capacity price
      (tokenCellOf ccc buyer token amount) fee =
        .ok (some ⟨tokenCellOf ccc buyer token amount + settlementFeeReserve - fee, fee⟩) := by
  have hfee : fee ≤ 10000 := hfee
  refine allocateSettlementCapacity_eq_ok.mpr ⟨hfee, ?_, ?_⟩
  · simp only [buyCellOf]
    push_cast
    omega
  · simp only [buyCellOf, settlementFeeReserve, maxSettlementFeeShannons, Allocation.mk.injEq, and_true]
    push_cast
    ring

/-- The settlement that the bot builds for two such orders. -/
def settlementOf (ccc : Client) (dex : Script) (token : Token) (buyer seller : Script)
    (sellHash : Hash) (amount price fee : ℕ) (buyOrder sellOrder : OrderDocument) : Settlement where
  inputs := [buyOrder.outPoint, sellOrder.outPoint]
  outputs := [outputFrom ccc
      ((sellCellOf ccc dex token sellHash amount price).capacity + price) seller none [],
    buyerOutputOf ccc buyer token amount fee]
  fee := fee

/-- The fee that is estimated before the capacity is allocated. -/
def estimateOf (ccc : Client) (dex : Script) (token : Token) (buyer seller : Script)
    (sellHash : Hash) (amount price : ℕ) (buyOrder sellOrder : OrderDocument) : ℕ :=
  ccc.estimateFee [buyOrder.outPoint, sellOrder.outPoint]
    [outputFrom ccc ((sellCellOf ccc dex token sellHash amount price).capacity + price) seller none [],
      outputFrom ccc 0 buyer (some token.type) (toLe 16 amount)]

theorem buildSettlement_eq {buyOrder sellOrder : OrderDocument} {buyHash sellHash : Hash}
    (htoken : Supported v token) (hprice : price < 2 ^ 64)
    (hbuy : Repeats (buyCellOf ccc dex token buyer buyHash amount price)
      (termsOf sideBuy buyHash token amount price) buyer buyOrder)
    (hsell : Repeats (sellCellOf ccc dex token sellHash amount price)
      (termsOf sideSell sellHash token amount price) seller sellOrder)
    (hcap : (estimateOf ccc dex token buyer seller sellHash amount price buyOrder sellOrder : ℤ) ≤
      maxSettlementFeeShannons) :
    buildSettlement ccc v.supportedAssetHashes buyOrder sellOrder =
      .ok (settlementOf ccc dex token buyer seller sellHash amount price
        (estimateOf ccc dex token buyer seller sellHash amount price buyOrder sellOrder)
        buyOrder sellOrder) := by
  have htoNat : (termsOf sideBuy buyHash token amount price).price.toNat = price :=
    Nat.mod_eq_of_lt hprice
  have hallocation : allocateSettlementCapacity
      (buyCellOf ccc dex token buyer buyHash amount price).capacity price
      (tokenCellOf ccc buyer token amount)
      (estimateOf ccc dex token buyer seller sellHash amount price buyOrder sellOrder) = _ :=
    allocation_eq hcap
  have hbuilt : buildSettlement ccc v.supportedAssetHashes buyOrder sellOrder = _ :=
    buildSettlement_pair hbuy hsell ⟨rfl, rfl, rfl, rfl, rfl⟩ rfl htoken.listed
  rw [hbuilt, htoNat]
  exact bind_eq_ok.mpr ⟨_, hallocation, rfl⟩

/-- The contract's check of the buy order accepts what the allocation deducts. -/
theorem validateBuyOrder_settlement {fee : ℕ} {content : Content} {buyRef sellRef : CellRef}
    (buyOrder sellOrder : OrderDocument) (sellHash : Hash) (htoken : Supported v token)
    (hamount : amount < 2 ^ 128)
    (hcapacity : (buyCellOf ccc dex token buyer (v.hash buyer) amount price).capacity < 2 ^ 64)
    (hfee : (fee : ℤ) ≤ maxSettlementFeeShannons)
    (hfound : cellAt content buyRef = some (buyCellOf ccc dex token buyer (v.hash buyer) amount price)) :
    validateBuyOrder
      { tx := resolvedTx v.hash content ⟨[buyRef, sellRef],
          (settlementOf ccc dex token buyer seller sellHash amount price fee buyOrder sellOrder).outputs⟩
        script := (buyCellOf ccc dex token buyer (v.hash buyer) amount price).lock } 0
      (termsOf sideBuy (v.hash buyer) token amount price) = .ok () := by
  have hfee : (fee : ℤ) ≤ 10000 := hfee
  have hsum : price + tokenCellOf ccc buyer token amount + 20000 < 2 ^ 64 := hcapacity
  have hpriceNat : (BitVec.ofNat 64 price).toNat = price := Nat.mod_eq_of_lt (by omega)
  have hamountNat : (BitVec.ofNat 128 amount).toNat = amount := Nat.mod_eq_of_lt hamount
  have hown : (((buyCellOf ccc dex token buyer (v.hash buyer) amount price).toCell v.hash).capacity).toNat =
      price + tokenCellOf ccc buyer token amount + 20000 := Nat.mod_eq_of_lt hsum
  have hreturned : (((buyerOutputOf ccc buyer token amount fee).toCell v.hash).capacity).toNat =
      tokenCellOf ccc buyer token amount + 20000 - fee := by
    have htoNat : (tokenCellOf ccc buyer token amount + settlementFeeReserve - (fee : ℤ)).toNat =
        tokenCellOf ccc buyer token amount + 20000 - fee := by
      simp only [settlementFeeReserve, maxSettlementFeeShannons]
      omega
    change (BitVec.ofNat 64 (tokenCellOf ccc buyer token amount + settlementFeeReserve -
      (fee : ℤ)).toNat).toNat = _
    rw [htoNat, BitVec.toNat_ofNat, Nat.mod_eq_of_lt (by omega)]
  have houtputs : tokenOutputs (resolvedTx v.hash content ⟨[buyRef, sellRef],
      (settlementOf ccc dex token buyer seller sellHash amount price fee buyOrder sellOrder).outputs⟩)
      (v.hash buyer) token.typeHash = [(buyerOutputOf ccc buyer token amount fee).toCell v.hash] := by
    simp [tokenOutputs, resolvedTx, settlementOf, CellOutput.toCell, outputFrom, buyerOutputOf,
      htoken.typeHash]
  have hlength : (toLe 16 amount).length = 16 := length_toLe 16 amount
  have hheld : ofLe (slice (toLe 16 amount) 0 16) = amount := by
    rw [slice_full hlength, ofLe_toLe (lt_of_lt_of_le hamount (by norm_num))]
  have hterms : (termsOf sideBuy (v.hash buyer) token amount price).makerLockHash = v.hash buyer := rfl
  have htype : (termsOf sideBuy (v.hash buyer) token amount price).xudtTypeHash = token.typeHash := rfl
  have hinput : (resolvedTx v.hash content ⟨[buyRef, sellRef],
      (settlementOf ccc dex token buyer seller sellHash amount price fee
        buyOrder sellOrder).outputs⟩).inputs[0]? =
        some ((buyCellOf ccc dex token buyer (v.hash buyer) amount price).toCell v.hash) := by
    simp [resolvedTx, resolvedInputs, hfound]
  refine (validateBuyOrder_eq_ok hinput).mpr ?_
  constructor
  · rfl
  · rw [hterms, htype, houtputs]
    intro out hout
    obtain rfl := List.mem_singleton.mp hout
    exact hlength.ge
  · rw [hterms, htype, houtputs]
    change ofLe (slice (toLe 16 amount) 0 16) + 0 = (BitVec.ofNat 128 amount).toNat
    rw [hheld, hamountNat, add_zero]
  · rw [hterms, htype, houtputs, hown]
    change (BitVec.ofNat 64 price).toNat +
      (((buyerOutputOf ccc buyer token amount fee).toCell v.hash).capacity.toNat + 0) ≤ _
    rw [hpriceNat, hreturned]
    omega
  · rw [hterms, htype, houtputs, hown]
    change _ ≤ (BitVec.ofNat 64 price).toNat +
      (((buyerOutputOf ccc buyer token amount fee).toCell v.hash).capacity.toNat + 0) + 10000
    rw [hpriceNat, hreturned]
    omega

end

/-- A buy and a sell order that the wallet creates for one amount and price are
admitted and matched. Whatever the fee, the buyer's cell is allocated what it
occupies and the reserve less the fee; the settlement is built, and the contract
accepts what its transaction deducts from the buy order, with the documents' out
points resolved to the two cells. -/
theorem created_orders_settle (ccc : Client) (numLeToBytes : ℤ → ℕ → Except Failure (List Byte))
    (hpads : Pads numLeToBytes) (v : ChainVerification) (dex : Script) (token : Token)
    (hdex : Configured v dex) (htoken : Supported v token) (buyer seller : Script) (amount price : ℕ)
    (hamount : amount < 2 ^ 128)
    (hcapacity : price + tokenCellOf ccc buyer token amount + 20000 < 2 ^ 64) :
    ∃ buyCell sellCell buyTerms sellTerms,
      orderOutput ccc numLeToBytes dex token sideBuy buyer (v.hash buyer) amount price = .ok buyCell ∧
      buyOrderCapacity ccc numLeToBytes buyer token amount price = .ok buyCell.capacity ∧
      orderOutput ccc numLeToBytes dex token sideSell seller (v.hash seller) amount price = .ok sellCell ∧
      Admits v buyCell buyTerms ∧ Admits v sellCell sellTerms ∧
      (∀ fee : ℤ, 0 ≤ fee → fee ≤ maxSettlementFeeShannons → ∃ allocation,
        allocateSettlementCapacity buyCell.capacity price
          (outputFrom ccc 0 buyer sellCell.type sellCell.data).capacity fee = .ok (some allocation) ∧
        (outputFrom ccc 0 buyer sellCell.type sellCell.data).capacity ≤ allocation.tokenCapacity ∧
        allocation.tokenCapacity = (outputFrom ccc 0 buyer sellCell.type sellCell.data).capacity +
          settlementFeeReserve - fee) ∧
      ∀ buyOrder sellOrder, Repeats buyCell buyTerms buyer buyOrder →
        Repeats sellCell sellTerms seller sellOrder →
        matchGroupKey buyOrder = matchGroupKey sellOrder ∧
        ((estimateOf ccc dex token buyer seller (v.hash seller) amount price buyOrder sellOrder : ℤ) ≤
            maxSettlementFeeShannons → ∃ settlement,
          buildSettlement ccc v.supportedAssetHashes buyOrder sellOrder = .ok settlement ∧
          settlement.fee =
            estimateOf ccc dex token buyer seller (v.hash seller) amount price buyOrder sellOrder ∧
          settlement.outputs[1]? = some (buyerOutputOf ccc buyer token amount settlement.fee) ∧
          ∀ content buyRef sellRef, refFrom buyOrder.outPoint = some buyRef →
            refFrom sellOrder.outPoint = some sellRef → cellAt content buyRef = some buyCell →
            cellAt content sellRef = some sellCell → ∃ tx, transactionOf settlement = some tx ∧
              tx.inputs = [buyRef, sellRef] ∧
              validateBuyOrder { tx := resolvedTx v.hash content tx, script := buyCell.lock } 0 buyTerms =
                .ok ()) := by
  have hprice : price < 2 ^ 64 := by omega
  refine ⟨_, _, _, _, orderOutput_buy hpads hamount hprice, ?_, orderOutput_sell hpads hamount hprice,
    buyCell_admitted hdex htoken hprice, sellCell_admitted hdex htoken hamount, fun fee _ hfee => ?_,
    fun buyOrder sellOrder hbuy hsell => ⟨matchGroupKey_eq hbuy hsell, fun hfee => ?_⟩⟩
  · exact buyOrderCapacity_eq hpads dex _ hamount
  · have hle : fee ≤ 10000 := hfee
    refine ⟨_, allocation_eq hfee, ?_, rfl⟩
    change (tokenCellOf ccc buyer token amount : ℤ) ≤ tokenCellOf ccc buyer token amount + 20000 - fee
    omega
  · refine ⟨_, buildSettlement_eq htoken hprice hbuy hsell hfee, rfl, rfl, ?_⟩
    intro content buyRef sellRef hbuyRef hsellRef hfound _
    refine ⟨⟨[buyRef, sellRef], (settlementOf ccc dex token buyer seller (v.hash seller) amount price
      (estimateOf ccc dex token buyer seller (v.hash seller) amount price buyOrder sellOrder) buyOrder
      sellOrder).outputs⟩, ?_, rfl, validateBuyOrder_settlement buyOrder sellOrder (v.hash seller)
          htoken hamount hcapacity hfee hfound⟩
    simp [transactionOf, settlementOf, hbuyRef, hsellRef]

section
open OrderLockRules SettlementBuilder GroundedDocuments

def exampleToken : Token := ⟨exampleTokenType, exampleHash 9⟩

/-- A chain on which one transaction has created both orders. -/
def createdContent (buyCell sellCell : CellOutput) : Content :=
  fun hash => if hash = exampleHash 5 then some ⟨[], [buyCell, sellCell]⟩ else none

def createdOrder (index : BitVec 32) (cell : CellOutput) (terms : OrderArgs) (owner : Script) :
    OrderDocument :=
  confirmedDocument none (indexedEvent (fun _ => "ckt1") ⟨⟨exampleHash 5, index⟩, cell⟩ terms owner
    ⟨1, exampleHash 21, 0, exampleHash 5⟩ ⟨[], []⟩)

theorem createdOrder_repeats (index : BitVec 32) (cell : CellOutput) (terms : OrderArgs) (owner : Script) :
    Repeats cell terms owner (createdOrder index cell terms owner) :=
  repeats_confirmedDocument none (fun _ => "ckt1") ⟨⟨exampleHash 5, index⟩, cell⟩ terms owner
    ⟨1, exampleHash 21, 0, exampleHash 5⟩ ⟨[], []⟩

/-- Two orders of 100 tokens for 5000 shannons, settled at a fee of 500. -/
theorem created_orders_settle_example : ∃ buyCell sellCell buyTerms sellTerms settlement tx,
    orderOutput exampleClient OrderFormat.exampleNumLeToBytes exampleDex exampleToken sideBuy (exampleOwner 1)
      (exampleHash 1) 100 5000 = .ok buyCell ∧
    orderOutput exampleClient OrderFormat.exampleNumLeToBytes exampleDex exampleToken sideSell
        (exampleOwner 2)
      (exampleHash 2) 100 5000 = .ok sellCell ∧
    Admits exampleVerification buyCell buyTerms ∧ Admits exampleVerification sellCell sellTerms ∧
    (∃ allocation, allocateSettlementCapacity buyCell.capacity 5000
      (outputFrom exampleClient 0 (exampleOwner 1) sellCell.type sellCell.data).capacity 500 =
        .ok (some allocation)) ∧
    buildSettlement exampleClient exampleVerification.supportedAssetHashes
      (createdOrder 0 buyCell buyTerms (exampleOwner 1))
      (createdOrder 1 sellCell sellTerms (exampleOwner 2)) =
        .ok settlement ∧
    settlement.fee = 500 ∧ transactionOf settlement = some tx ∧
    validateBuyOrder { tx := resolvedTx exampleScriptHash (createdContent buyCell sellCell) tx
                       script := buyCell.lock } 0 buyTerms = .ok () := by
  obtain ⟨buyCell, sellCell, buyTerms, sellTerms, hbuy, -, hsell, hb, hs, hallocated, hsettled⟩ :=
    created_orders_settle exampleClient OrderFormat.exampleNumLeToBytes OrderFormat.exampleNumLeToBytes_pads
      exampleVerification exampleDex exampleToken ⟨rfl, rfl⟩ ⟨rfl, List.mem_singleton.mpr rfl⟩
          (exampleOwner 1)
      (exampleOwner 2) 100 5000 (by norm_num) (by decide)
  obtain ⟨-, hbuilt⟩ := hsettled (createdOrder 0 buyCell buyTerms (exampleOwner 1))
    (createdOrder 1 sellCell sellTerms (exampleOwner 2)) (createdOrder_repeats ..) (createdOrder_repeats ..)
  have hestimate : (500 : ℤ) ≤ 10000 := by decide
  obtain ⟨settlement, hbuild, hfee, -, haccepts⟩ := hbuilt hestimate
  obtain ⟨tx, hsubmitted, -, hvalid⟩ := haccepts (createdContent buyCell sellCell) ⟨exampleHash 5, 0⟩
    ⟨exampleHash 5, 1⟩ (Observation.refFrom_outPointText _) (Observation.refFrom_outPointText _) rfl rfl
  obtain ⟨allocation, hallocation, -⟩ := hallocated 500 (by decide) (by decide)
  exact ⟨buyCell, sellCell, buyTerms, sellTerms, settlement, tx, hbuy, hsell, hb, hs,
      ⟨allocation, hallocation⟩,
    hbuild, hfee, hsubmitted, hvalid⟩

end

end CkbDex.OrderCreation
