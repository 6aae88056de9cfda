import CkbDex.Admission
import CkbDex.Matching

/-!
# Quarantine

A buy order that lacks the capacity for a settlement is left out of matching for
an hour. What a settlement costs depends on the sell order as well: on the data
of its cell and on the lock of its owner. The buy order can settle with no sell
order at all when it lacks the capacity for the smallest.
-/
namespace CkbDex.Quarantine
open OrderLockRules hiding exampleBuy exampleSell
open Checked Bytes CellContext OrderLock Text Documents BotEvents ChainCells
open Projection Programs Operations EventVerification IngestionSteps CkbDex.Bot Acceptance Admission
open Matching (MatchHealth pairKey)
open SettlementBuilder
open GroundedDocuments (exampleDrivers exampleVerification)
open TerminalStatuses (exampleConfig exampleLate)

/-- `ORDER_QUARANTINE_MS` -/
def orderQuarantineMs : ℕ := 60 * 60000
def basePairBackoffMs : ℕ := 5000
def maxPairBackoffMs : ℕ := 10 * 60000

/-- Exponential backoff of a pair. -/
def recordPairFailure (health : MatchHealth) (buyId sellId : String) (now : ℕ) : MatchHealth :=
  let key := pairKey buyId sellId
  let failures := (health.pairs key).elim 0 Matching.PairState.failures + 1
  let delay := min (basePairBackoffMs * 2 ^ (failures - 1)) maxPairBackoffMs
  { health with pairs := Function.update health.pairs key (some ⟨failures, now + delay⟩) }

/-- What `handleMatchFailure` remembers of a failed pair. -/
def rememberFailure (health : MatchHealth) (buyId sellId : String) (error : Failure) (now : ℕ) :
    MatchHealth :=
  match error with
  | .app statusCode _ code =>
      if code = some "INSUFFICIENT_BUY_CAPACITY" then health.quarantineOrder buyId orderQuarantineMs now
      else if statusCode = 400 then
        (health.quarantineOrder buyId orderQuarantineMs now).quarantineOrder sellId orderQuarantineMs now
      else recordPairFailure health buyId sellId now
  | .other _ => recordPairFailure health buyId sellId now

/-- Bytes of a serialized script. -/
def scriptSize (script : Script) : ℕ := 53 + script.args.length

/-- Bytes of a serialized output with its data, and of the two offsets to them. -/
def outputSize (output : CellOutput) : ℕ :=
  36 + scriptSize output.lock + output.type.elim 0 scriptSize + output.data.length

/-- Bytes of a serialized transaction, but for the parts that all settlements share. -/
def txSize (inputs : List OutPoint) (outputs : List CellOutput) : ℕ :=
  44 * inputs.length + (outputs.map outputSize).sum

/-- What an output occupies grows with its scripts and its data; the fee grows
with the size of the transaction. -/
structure Monotonic (ccc : Client) : Prop where
  occupied : ∀ lock type data data', data.length ≤ data'.length →
    ccc.occupied lock type data ≤ ccc.occupied lock type data'
  fee : ∃ f : ℕ → ℕ, Monotone f ∧ ∀ inputs outputs, ccc.estimateFee inputs outputs =
    f (txSize inputs outputs)

/-- A sell order that the scan admits, of the type, amount and price of a buy
order; its owner's lock is that of its maker. -/
structure SellFor (v : ChainVerification) (buyTerms : OrderArgs) (type : Script)
    (sellCell : CellOutput) (sellTerms : OrderArgs) (seller : Script) (sellOrder : OrderDocument) :
    Prop where
  admits : Admits v sellCell sellTerms
  pair : Pairs buyTerms sellTerms
  type : sellCell.type = some type
  maker : v.hash seller = sellTerms.makerLockHash
  order : Repeats sellCell sellTerms seller sellOrder

/-- A lock without args. -/
def bareLock : Script := ⟨⟨List.replicate 32 0, List.length_replicate⟩, .data, []⟩

/-- The smallest token cell of a buyer: its data is the amount alone. -/
def leastTokenOutput (ccc : Client) (buyer type : Script) (amount : ℕ) : CellOutput :=
  outputFrom ccc 0 buyer (some type) (toLe 16 amount)

/-- The fee of the smallest settlement: the seller's lock has no args, and the
token cell is the smallest. -/
def leastFee (ccc : Client) (inputs : List OutPoint) (buyer type : Script) (amount : ℕ) : ℕ :=
  ccc.estimateFee inputs [outputFrom ccc 0 bareLock none [], leastTokenOutput ccc buyer type amount]

/-- What the smallest settlement takes from a buy order. -/
def leastCost (ccc : Client) (inputs : List OutPoint) (buyer type : Script) (terms : OrderArgs) : ℕ :=
  terms.price.toNat + (leastTokenOutput ccc buyer type terms.tokenAmount.toNat).capacity +
    leastFee ccc inputs buyer type terms.tokenAmount.toNat

/-- The fee that is estimated for a settlement. -/
def feeOf (ccc : Client) (buyOrder sellOrder : OrderDocument) (sellCell : CellOutput)
    (buyer seller : Script) (price : ℕ) : ℕ :=
  ccc.estimateFee [buyOrder.outPoint, sellOrder.outPoint]
    [sellerOutputOf ccc sellCell seller price, tokenOutputOf ccc sellCell buyer]

section
variable {config : Config} {v : ChainVerification} {ccc : Client} {buyCell sellCell : CellOutput}
  {buyTerms sellTerms : OrderArgs} {buyer seller type : Script} {buyOrder sellOrder : OrderDocument}

theorem outputSize_outputFrom (capacity : ℤ) (lock : Script) (type : Option Script)
    (data : List Byte) : outputSize (outputFrom ccc capacity lock type data) =
      36 + scriptSize lock + type.elim 0 scriptSize + data.length := rfl

/-- No settlement of a sell order is smaller than the least. -/
theorem leastFee_le (buyer : Script) (buyOrder : OrderDocument) (hmono : Monotonic ccc)
    (hsell : SellFor v buyTerms type sellCell sellTerms seller
    sellOrder) (inputs : List OutPoint) (hinputs : inputs.length = 2) :
    leastFee ccc inputs buyer type buyTerms.tokenAmount.toNat ≤
      feeOf ccc buyOrder sellOrder sellCell buyer seller buyTerms.price.toNat := by
  obtain ⟨f, hf, hfee⟩ := hmono.fee
  have hask : directionOf sellTerms.side = .ask := by
    rw [hsell.pair.sell]
    decide
  obtain ⟨-, -, -, hlength, -⟩ := hsell.admits.ask hask
  rw [leastFee, feeOf, hfee, hfee]
  refine hf ?_
  simp only [txSize, List.map_cons, List.map_nil, List.sum_cons, List.sum_nil, leastTokenOutput,
    sellerOutputOf, tokenOutputOf, outputSize_outputFrom, hsell.type, hinputs, List.length_cons,
    List.length_nil, length_toLe, scriptSize, bareLock]
  omega

theorem leastToken_le (buyer : Script) (hmono : Monotonic ccc)
    (hsell : SellFor v buyTerms type sellCell sellTerms seller
    sellOrder) : (leastTokenOutput ccc buyer type buyTerms.tokenAmount.toNat).capacity ≤
      (tokenOutputOf ccc sellCell buyer).capacity := by
  have hask : directionOf sellTerms.side = .ask := by
    rw [hsell.pair.sell]
    decide
  obtain ⟨-, -, -, hlength, -⟩ := hsell.admits.ask hask
  change ccc.occupied buyer (some type) _ ≤ ccc.occupied buyer sellCell.type _
  rw [hsell.type]
  exact hmono.occupied buyer (some type) _ _ (by rw [length_toLe]; exact hlength)

theorem allocate_over (buyCapacity price minimum : ℤ) {fee : ℤ} (h : 10000 < fee) : ∃ message,
    allocateSettlementCapacity buyCapacity price minimum fee = .error (.other message) := by
  have hover : fee > maxSettlementFeeShannons := h
  rw [allocateSettlementCapacity, throwIf, if_pos hover]
  exact ⟨_, rfl⟩

theorem allocate_low {buyCapacity price minimum fee : ℤ} (hfee : fee ≤ 10000)
    (h : buyCapacity - price - fee < minimum) :
    allocateSettlementCapacity buyCapacity price minimum fee = .ok none := by
  have hcap : ¬fee > maxSettlementFeeShannons := not_lt.mpr hfee
  rw [allocateSettlementCapacity, throwIf, if_neg hcap]
  exact if_pos h

/-- The capacity check of `executeTrade`, in numbers. -/
theorem buildSettlement_cases (ccc : Client) (hbuy : Repeats buyCell buyTerms buyer buyOrder)
    (hsupported : hashText buyTerms.xudtTypeHash ∈ v.supportedAssetHashes)
    (hsell : SellFor v buyTerms type sellCell sellTerms seller sellOrder) {fee : ℕ}
    (hfee : feeOf ccc buyOrder sellOrder sellCell buyer seller buyTerms.price.toNat = fee) :
    (10000 < fee ∧ ∃ message, buildSettlement ccc v.supportedAssetHashes buyOrder sellOrder =
      .error (.other message)) ∨
    (fee ≤ 10000 ∧
      buyCell.capacity < buyTerms.price.toNat + (tokenOutputOf ccc sellCell buyer).capacity + fee ∧
      buildSettlement ccc v.supportedAssetHashes buyOrder sellOrder =
        .error (insufficientBuyCapacity buyOrder.id)) ∨
    (fee ≤ 10000 ∧
      buyTerms.price.toNat + (tokenOutputOf ccc sellCell buyer).capacity + fee ≤ buyCell.capacity ∧
      ∃ settlement, buildSettlement ccc v.supportedAssetHashes buyOrder sellOrder = .ok settlement) := by
  rw [feeOf] at hfee
  rw [buildSettlement_pair hbuy hsell.order hsell.pair hsell.type hsupported, hfee]
  rcases lt_or_ge 10000 fee with hover | hcap
  · obtain ⟨message, h⟩ := allocate_over buyCell.capacity buyTerms.price.toNat
      (tokenOutputOf ccc sellCell buyer).capacity (Int.ofNat_lt.mpr hover)
    rw [h]
    exact Or.inl ⟨hover, message, rfl⟩
  have hcapInt : (fee : ℤ) ≤ 10000 := Int.ofNat_le.mpr hcap
  rcases lt_or_ge ((buyCell.capacity : ℤ) - buyTerms.price.toNat - fee)
    (tokenOutputOf ccc sellCell buyer).capacity with hlow | hmin
  · rw [allocate_low hcapInt hlow]
    exact Or.inr (Or.inl ⟨hcap, by omega, rfl⟩)
  · rw [allocateSettlementCapacity_eq_ok.mpr ⟨hcapInt, hmin, rfl⟩]
    exact Or.inr (Or.inr ⟨hcap, by omega, _, rfl⟩)

/-- The sell cell of the same terms that costs the buyer least. -/
def leastSellTerms (v : ChainVerification) (buyTerms : OrderArgs) : OrderArgs :=
  ⟨sideSell, v.hash bareLock, buyTerms.xudtTypeHash, buyTerms.tokenAmount, buyTerms.price⟩

def leastSellCell (v : ChainVerification) (buyTerms : OrderArgs) (type : Script)
    (sellCell : CellOutput) : CellOutput where
  capacity := sellCell.capacity
  lock := { sellCell.lock with args := orderArgs (leastSellTerms v buyTerms) }
  type := some type
  data := toLe 16 buyTerms.tokenAmount.toNat

theorem leastSell_for (hsell : SellFor v buyTerms type sellCell sellTerms seller sellOrder)
    {leastOrder : OrderDocument} (horder : Repeats (leastSellCell v buyTerms type sellCell)
      (leastSellTerms v buyTerms) bareLock leastOrder) :
    SellFor v buyTerms type (leastSellCell v buyTerms type sellCell) (leastSellTerms v buyTerms)
      bareLock leastOrder where
  admits := by
    have hask : directionOf sellTerms.side = .ask := by
      rw [hsell.pair.sell]
      decide
    obtain ⟨found, hfound, hhash, -, -⟩ := hsell.admits.ask hask
    obtain rfl := Option.some_inj.mp (hsell.type.symm.trans hfound)
    have hamount : buyTerms.tokenAmount.toNat < 256 ^ 16 := buyTerms.tokenAmount.isLt
    have hlength := length_toLe 16 buyTerms.tokenAmount.toNat
    refine ⟨hsell.admits.codeHash, hsell.admits.hashType, parseOrderArgs_orderArgs (Or.inr rfl), ?_,
      fun _ => ⟨type, rfl, ?_, hlength.ge, ?_⟩, fun hbid => absurd ?_ hbid⟩
    · change hashText buyTerms.xudtTypeHash ∈ _
      rw [hsell.pair.token]
      exact hsell.admits.supported
    · exact hhash.trans hsell.pair.token.symm
    · change ofLe (slice (toLe 16 buyTerms.tokenAmount.toNat) 0 16) = _
      rw [slice_full hlength, ofLe_toLe hamount]
      rfl
    · rfl
  pair := ⟨hsell.pair.buy, rfl, rfl, rfl, rfl⟩
  type := rfl
  maker := rfl
  order := horder

theorem leastSell_fee (hmono : Monotonic ccc) (sellOrder : OrderDocument) (inputs : List OutPoint)
    (hinputs : inputs.length = 2) :
    feeOf ccc buyOrder sellOrder (leastSellCell v buyTerms type sellCell) buyer bareLock
      buyTerms.price.toNat = leastFee ccc inputs buyer type buyTerms.tokenAmount.toNat := by
  obtain ⟨f, -, hfee⟩ := hmono.fee
  rw [feeOf, leastFee, hfee, hfee]
  refine congrArg f ?_
  simp only [txSize, List.map_cons, List.map_nil, List.sum_cons, List.sum_nil, leastTokenOutput,
    sellerOutputOf, tokenOutputOf, outputSize_outputFrom, leastSellCell, hinputs, List.length_cons,
    List.length_nil]

end

section
variable {config : Config} {buyOrder sellOrder : OrderDocument}

/-- `executeTrade` fails for want of capacity, and leaves the state as it was. -/
def FailsForCapacity (config : Config) (buyOrder sellOrder : OrderDocument) : Prop :=
  ∀ drivers node schedule db, run drivers node (executeTrade config schedule buyOrder sellOrder) db =
    (.error (insufficientBuyCapacity buyOrder.id), db)

theorem failsForCapacity (h : buildSettlement config.client config.verification.supportedAssetHashes
    buyOrder sellOrder = .error (insufficientBuyCapacity buyOrder.id)) :
    FailsForCapacity config buyOrder sellOrder := by
  intro drivers node schedule db
  rw [run, executeTrade, eval_bind, eval_require, h]

theorem isOrderQuarantined_iff (health : MatchHealth) (buyId sellId : String) (now t : ℕ) :
    ((rememberFailure health buyId sellId (insufficientBuyCapacity buyId) now).isOrderQuarantined
      buyId t).1 = true ↔ t < now + orderQuarantineMs := by
  have hcode : rememberFailure health buyId sellId (insufficientBuyCapacity buyId) now =
      health.quarantineOrder buyId orderQuarantineMs now := by
    simp only [rememberFailure, insufficientBuyCapacity, if_true]
  rw [hcode, MatchHealth.isOrderQuarantined, MatchHealth.quarantineOrder]
  simp only [Function.update_self]
  by_cases hover : now + orderQuarantineMs ≤ t
  · rw [if_pos hover]
    exact iff_of_false Bool.false_ne_true (not_lt.mpr hover)
  · rw [if_neg hover]
    exact iff_of_true rfl (not_le.mp hover)

theorem not_failsForCapacity {settlement : Settlement} (h : buildSettlement config.client
    config.verification.supportedAssetHashes buyOrder sellOrder = .ok settlement) :
    ¬FailsForCapacity config buyOrder sellOrder := by
  intro hfails
  have hempty := hfails exampleDrivers (exampleLate.node exampleDex 0) [] Db.empty
  obtain ⟨message, hunreserved⟩ : ∃ message, run exampleDrivers (exampleLate.node exampleDex 0)
      (executeTrade config [] buyOrder sellOrder) Db.empty =
        (.error (appError 409 message), Db.empty) := by
    rw [run, executeTrade, eval_bind, eval_require, h]
    exact ⟨_, rfl⟩
  rw [hunreserved, insufficientBuyCapacity, appError] at hempty
  simp at hempty

variable {buyCell metCell : CellOutput} {buyTerms metTerms : OrderArgs} {buyer metSeller type : Script}
  {metOrder : OrderDocument}

/-- A buy order that lacks what the smallest settlement takes settles with none. -/
theorem lacks_for_all (hmono : Monotonic config.client) (hbuy : Repeats buyCell buyTerms buyer buyOrder)
    (hadmits : Admits config.verification buyCell buyTerms) {inputs : List OutPoint}
    (hinputs : inputs.length = 2)
    (hlow : buyCell.capacity < leastCost config.client inputs buyer type buyTerms)
    {sellCell : CellOutput} {sellTerms : OrderArgs} {seller : Script}
    (hsell : SellFor config.verification buyTerms type sellCell sellTerms seller sellOrder) :
    10000 < feeOf config.client buyOrder sellOrder sellCell buyer seller buyTerms.price.toNat ∧
      (∃ message, buildSettlement config.client config.verification.supportedAssetHashes buyOrder
        sellOrder = .error (.other message)) ∨
    buildSettlement config.client config.verification.supportedAssetHashes buyOrder sellOrder =
      .error (insufficientBuyCapacity buyOrder.id) := by
  have htoken := leastToken_le buyer hmono hsell
  have hfee := leastFee_le buyer buyOrder hmono hsell inputs hinputs
  rcases buildSettlement_cases config.client hbuy hadmits.supported hsell rfl with
    hover | ⟨-, -, hlacks⟩ | ⟨-, hcovered, -⟩
  · exact Or.inl hover
  · exact Or.inr hlacks
  · rw [leastCost] at hlow
    omega

/-- A buy order with what the smallest settlement takes settles with some sell
order. -/
theorem settles_with_least (hmono : Monotonic config.client)
    (hbuy : Repeats buyCell buyTerms buyer buyOrder)
    (hadmits : Admits config.verification buyCell buyTerms)
    (hmet : SellFor config.verification buyTerms type metCell metTerms metSeller metOrder)
    (hmetFee : feeOf config.client buyOrder metOrder metCell buyer metSeller buyTerms.price.toNat ≤ 10000)
    (inputs : List OutPoint) (hinputs : inputs.length = 2)
    (hcost : leastCost config.client inputs buyer type buyTerms ≤ buyCell.capacity) :
    ∃ sellCell sellTerms seller sellOrder settlement,
      SellFor config.verification buyTerms type sellCell sellTerms seller sellOrder ∧
      feeOf config.client buyOrder sellOrder sellCell buyer seller buyTerms.price.toNat ≤ 10000 ∧
      buildSettlement config.client config.verification.supportedAssetHashes buyOrder sellOrder =
        .ok settlement := by
  have hmetLeast := leastFee_le buyer buyOrder hmono hmet inputs hinputs
  have hleast : SellFor config.verification buyTerms type _ _ bareLock _ :=
    leastSell_for hmet (repeats_confirmedDocument none (fun _ => "")
      ⟨⟨metTerms.makerLockHash, 0⟩, leastSellCell config.verification buyTerms type metCell⟩
      (leastSellTerms config.verification buyTerms) bareLock
      ⟨0, metTerms.makerLockHash, 0, metTerms.makerLockHash⟩ ⟨[], []⟩)
  have hfee : ∀ order, feeOf config.client buyOrder order
      (leastSellCell config.verification buyTerms type metCell) buyer bareLock
      buyTerms.price.toNat = _ := fun order => leastSell_fee hmono order inputs hinputs
  rcases buildSettlement_cases config.client hbuy hadmits.supported hleast (hfee _) with
    ⟨hover, -⟩ | ⟨-, hlow, -⟩ | ⟨hcap, -, settlement, hbuilt⟩
  · omega
  · rw [leastCost] at hcost
    exact absurd hlow (not_lt.mpr hcost)
  · exact ⟨_, _, _, _, settlement, hleast, (hfee _).trans_le hcap, hbuilt⟩

end

/-- A buy order that met a sell order it cannot pay for is left out of matching
for an hour. It can settle with no sell order of the same token, amount and price
just if it lacks what the smallest settlement takes: that with a cell which holds
the amount alone, of an owner whose lock has no args. Otherwise there is a sell
order that it would settle with. (A settlement whose fee is over the cap fails with
the error of the cap.) -/
theorem quarantine_justified_iff (config : Config) (hmono : Monotonic config.client)
    {buyCell metCell : CellOutput} {buyTerms metTerms : OrderArgs} {buyer metSeller type : Script}
    {buyOrder metOrder : OrderDocument} (hbuy : Repeats buyCell buyTerms buyer buyOrder)
    (hadmits : Admits config.verification buyCell buyTerms)
    (hmet : SellFor config.verification buyTerms type metCell metTerms metSeller metOrder)
    (hfail : buildSettlement config.client config.verification.supportedAssetHashes buyOrder metOrder =
      .error (insufficientBuyCapacity buyOrder.id)) :
    FailsForCapacity config buyOrder metOrder ∧
    (∀ health now t, ((rememberFailure health buyOrder.id metOrder.id
        (insufficientBuyCapacity buyOrder.id) now).isOrderQuarantined buyOrder.id t).1 = true ↔
      t < now + orderQuarantineMs) ∧
    ((∀ sellCell sellTerms seller sellOrder,
        SellFor config.verification buyTerms type sellCell sellTerms seller sellOrder →
        feeOf config.client buyOrder sellOrder sellCell buyer seller buyTerms.price.toNat ≤ 10000 →
        FailsForCapacity config buyOrder sellOrder) ↔
      buyCell.capacity < leastCost config.client [buyOrder.outPoint, metOrder.outPoint] buyer type
        buyTerms) ∧
    ((∀ sellCell sellTerms seller sellOrder settlement,
        SellFor config.verification buyTerms type sellCell sellTerms seller sellOrder →
        buildSettlement config.client config.verification.supportedAssetHashes buyOrder sellOrder ≠
          .ok settlement) ↔
      buyCell.capacity < leastCost config.client [buyOrder.outPoint, metOrder.outPoint] buyer type
        buyTerms) := by
  have hmetFee : feeOf config.client buyOrder metOrder metCell buyer metSeller
      buyTerms.price.toNat ≤ 10000 := by
    rcases buildSettlement_cases config.client hbuy hadmits.supported hmet rfl with
      ⟨-, message, hover⟩ | ⟨hcap, -, -⟩ | ⟨hcap, -⟩
    · rw [hfail] at hover
      cases hover
    · exact hcap
    · exact hcap
  have hsettles := settles_with_least hmono hbuy hadmits hmet hmetFee
    [buyOrder.outPoint, metOrder.outPoint] rfl
  refine ⟨failsForCapacity hfail, fun health now t => isOrderQuarantined_iff .., ⟨fun hall => ?_,
    fun hlow sellCell sellTerms seller sellOrder hsell hcap => ?_⟩, ⟨fun hall => ?_,
    fun hlow sellCell sellTerms seller sellOrder settlement hsell hbuilt => ?_⟩⟩
  · by_contra hcost
    obtain ⟨_, _, _, _, settlement, hsell, hcap, hbuilt⟩ := hsettles (not_lt.mp hcost)
    exact not_failsForCapacity hbuilt (hall _ _ _ _ hsell hcap)
  · rcases lacks_for_all hmono hbuy hadmits rfl hlow hsell with ⟨hover, -⟩ | hlacks
    · exact absurd hcap (not_le.mpr hover)
    · exact failsForCapacity hlacks
  · by_contra hcost
    obtain ⟨_, _, _, _, settlement, hsell, -, hbuilt⟩ := hsettles (not_lt.mp hcost)
    exact hall _ _ _ _ settlement hsell hbuilt
  · rcases lacks_for_all hmono hbuy hadmits rfl hlow hsell with ⟨-, message, hover⟩ | hlacks
    · rw [hover] at hbuilt
      cases hbuilt
    · rw [hlacks] at hbuilt
      cases hbuilt

/-- A client whose fee is a shannon a byte. -/
def sizeClient : Client := { exampleClient with estimateFee := txSize }

def sizeConfig : Config := { exampleConfig with client := sizeClient }

theorem sizeClient_monotonic : Monotonic sizeClient where
  occupied := fun _ _ _ _ h => Nat.mul_le_mul_right _ (Nat.add_le_add_left h _)
  fee := ⟨id, monotone_id, fun _ _ => rfl⟩

/-- What indexing stores for an output of the example. -/
def documentOf (index : CellRef) (cell : CellOutput) (terms : OrderArgs) (owner : Script) :
    OrderDocument :=
  confirmedDocument none (indexedEvent (fun _ => "ckt1") ⟨index, cell⟩ terms owner
    ⟨1, exampleHash 21, 0, exampleHash 5⟩ exampleCreation)

theorem documentOf_repeats (index : CellRef) (cell : CellOutput) (terms : OrderArgs) (owner : Script) :
    Repeats cell terms owner (documentOf index cell terms owner) :=
  repeats_confirmedDocument none _ ⟨index, cell⟩ terms owner _ _

/-- A buy cell with enough for a token cell of sixteen bytes of data. -/
def tightCell : CellOutput := { exampleBuyCell with capacity := 9100015000 }

def tightOrder : OrderDocument :=
  documentOf ⟨exampleHash 5, 0⟩ tightCell (exampleOrder sideBuy (exampleHash 1)) (exampleOwner 1)

/-- The sell cell of the example with other data. -/
def sellCellWith (data : List Byte) : CellOutput := { exampleSellCell with data }

def sellOrderWith (data : List Byte) : OrderDocument :=
  documentOf ⟨exampleHash 5, 1⟩ (sellCellWith data) (exampleOrder sideSell (exampleHash 2))
    (exampleOwner 2)

theorem sellOrderWith_for {data : List Byte} (hlength : 16 ≤ data.length)
    (hamount : ofLe (slice data 0 16) = 100) :
    SellFor exampleVerification (exampleOrder sideBuy (exampleHash 1)) exampleTokenType
      (sellCellWith data) (exampleOrder sideSell (exampleHash 2)) (exampleOwner 2)
      (sellOrderWith data) where
  admits :=
    { codeHash := exampleSell_indexable.codeHash
      hashType := exampleSell_indexable.hashType
      parsed := exampleSell_indexable.parsed
      supported := exampleSell_indexable.supported
      ask := fun _ => ⟨exampleTokenType, rfl, by decide, hlength, hamount⟩
      bid := fun hbid => absurd (by decide) hbid }
  pair := by constructor <;> decide
  type := rfl
  maker := by decide
  order := documentOf_repeats ..

theorem tightCell_admitted : Admits exampleVerification tightCell (exampleOrder sideBuy (exampleHash 1)) where
  codeHash := exampleBuy_indexable.codeHash
  hashType := exampleBuy_indexable.hashType
  parsed := exampleBuy_indexable.parsed
  supported := exampleBuy_indexable.supported
  ask := fun hask => absurd hask (by decide)
  bid := fun _ => ⟨rfl, by decide⟩

theorem sellOrderWith_fee (data : List Byte) : feeOf sizeClient tightOrder (sellOrderWith data)
    (sellCellWith data) (exampleOwner 1) (exampleOwner 2)
    (exampleOrder sideBuy (exampleHash 1)).price.toNat = 321 + data.length := by
  have hprice : (exampleOrder sideBuy (exampleHash 1)).price.toNat = 5000 := rfl
  rw [hprice]
  simp only [feeOf, sizeClient, txSize, List.map_cons, List.map_nil, List.sum_cons, List.sum_nil,
    sellerOutputOf, tokenOutputOf, outputSize_outputFrom, List.length_cons, List.length_nil,
    scriptSize, exampleOwner, sellCellWith, exampleSellCell, exampleTokenType, Option.elim]
  omega

/-- Data with a few bytes after the amount. -/
def longData : List Byte := toLe 16 100 ++ [1, 2, 3]

theorem longSell_for : SellFor exampleVerification (exampleOrder sideBuy (exampleHash 1))
    exampleTokenType (sellCellWith longData) (exampleOrder sideSell (exampleHash 2)) (exampleOwner 2)
    (sellOrderWith longData) := sellOrderWith_for (by decide) (by decide)

theorem leanSell_for : SellFor exampleVerification (exampleOrder sideBuy (exampleHash 1))
    exampleTokenType (sellCellWith (toLe 16 100)) (exampleOrder sideSell (exampleHash 2))
    (exampleOwner 2) (sellOrderWith (toLe 16 100)) := sellOrderWith_for (by decide) (by decide)

theorem tight_fails : buildSettlement sizeClient exampleVerification.supportedAssetHashes tightOrder
    (sellOrderWith longData) = .error (insufficientBuyCapacity tightOrder.id) := by
  rcases buildSettlement_cases sizeClient (documentOf_repeats ..) tightCell_admitted.supported
    longSell_for (sellOrderWith_fee _) with ⟨hover, -⟩ | ⟨-, -, hlacks⟩ | ⟨-, hcovered, -⟩
  · exact absurd hover (by decide)
  · exact hlacks
  · exact absurd hcovered (by decide)

theorem lean_settles : ∃ settlement, buildSettlement sizeClient
    exampleVerification.supportedAssetHashes tightOrder (sellOrderWith (toLe 16 100)) =
      .ok settlement := by
  rcases buildSettlement_cases sizeClient (documentOf_repeats ..) tightCell_admitted.supported
    leanSell_for (sellOrderWith_fee _) with ⟨hover, -⟩ | ⟨-, hlow, -⟩ | ⟨-, -, hbuilt⟩
  · exact absurd hover (by decide)
  · exact absurd hlow (by decide)
  · exact hbuilt

/-- The buy order fails against a sell order with three bytes after the amount in
its cell, and is left out of matching; with the sell order of the same terms
whose cell holds the amount alone it settles. -/
theorem quarantined_could_settle :
    Admits exampleVerification tightCell (exampleOrder sideBuy (exampleHash 1)) ∧
    (∀ data, data = longData ∨ data = toLe 16 100 →
      SellFor exampleVerification (exampleOrder sideBuy (exampleHash 1)) exampleTokenType
        (sellCellWith data) (exampleOrder sideSell (exampleHash 2)) (exampleOwner 2)
        (sellOrderWith data)) ∧
    FailsForCapacity sizeConfig tightOrder (sellOrderWith longData) ∧
    (∀ health, ((rememberFailure health tightOrder.id (sellOrderWith longData).id
      (insufficientBuyCapacity tightOrder.id) 0).isOrderQuarantined tightOrder.id 3599999).1 = true) ∧
    ∃ settlement, buildSettlement sizeClient exampleVerification.supportedAssetHashes tightOrder
      (sellOrderWith (toLe 16 100)) = .ok settlement := by
  refine ⟨tightCell_admitted, ?_, failsForCapacity tight_fails,
    fun health => (isOrderQuarantined_iff ..).mpr (by decide), lean_settles⟩
  rintro data (rfl | rfl)
  · exact longSell_for
  · exact leanSell_for

theorem quarantine_justified_example :
    (∀ sellCell sellTerms seller sellOrder settlement,
      SellFor sizeConfig.verification (exampleOrder sideBuy (exampleHash 1)) exampleTokenType sellCell
        sellTerms seller sellOrder →
      buildSettlement sizeConfig.client sizeConfig.verification.supportedAssetHashes tightOrder
        sellOrder ≠ .ok settlement) ↔
    tightCell.capacity < leastCost sizeConfig.client
      [tightOrder.outPoint, (sellOrderWith longData).outPoint] (exampleOwner 1) exampleTokenType
      (exampleOrder sideBuy (exampleHash 1)) :=
  (quarantine_justified_iff sizeConfig sizeClient_monotonic (documentOf_repeats ..) tightCell_admitted
    longSell_for tight_fails).2.2.2

end CkbDex.Quarantine
