import CkbDex.Observation
import CkbDex.Quarantine

/-!
# Occupied capacity

A cell must hold a CKB for each byte that it occupies. `executeTrade` sees to
it for the buyer's token cell; what the seller is paid depends on the sell order
and its price alone.
-/
namespace CkbDex.OccupiedCapacity
open Checked Bytes CellContext OrderLock OrderLockRules Text Documents ChainCells SettlementBuilder
open Programs Operations EventVerification CkbDex.Bot Admission Quarantine Observation IngestionSteps
open Acceptance (exampleBuy_indexable exampleSell_indexable)
open GroundedDocuments (exampleVerification)
open TerminalStatuses (exampleConfig)

/-- Code hash, hash type and args. -/
def scriptBytes (script : Script) : ℕ := 33 + script.args.length

/-- The capacity's own eight bytes, the scripts and the data. -/
def occupiedBytes (lock : Script) (type : Option Script) (data : List Byte) : ℕ :=
  8 + scriptBytes lock + type.elim 0 scriptBytes + data.length

/-- In shannons. -/
def occupiedCapacity (lock : Script) (type : Option Script) (data : List Byte) : ℕ :=
  occupiedBytes lock type data * 10 ^ 8

def Respects (cell : CellOutput) : Prop :=
  occupiedCapacity cell.lock cell.type cell.data ≤ cell.capacity

instance (cell : CellOutput) : Decidable (Respects cell) := inferInstanceAs (Decidable (_ ≤ _))

/-- The client library fills in what an output occupies. -/
def FillsIn (ccc : Client) : Prop :=
  ∀ lock type data, ccc.occupied lock type data = occupiedCapacity lock type data

/-- An order that the scan admits, as it is stored, on a cell that keeps the rule. -/
structure Admitted (v : ChainVerification) (cell : CellOutput) (terms : OrderArgs) (owner : Script)
    (order : OrderDocument) : Prop where
  admits : Admits v cell terms
  maker : v.hash owner = terms.makerLockHash
  stored : Repeats cell terms owner order
  located : ∃ ref, refFrom order.outPoint = some ref
  respects : Respects cell

/-- What `executeTrade` asks of two orders before it reserves them. -/
structure Covered (ccc : Client) (buyCell sellCell : CellOutput) (buyTerms sellTerms : OrderArgs)
    (buyer seller : Script) (buyOrder sellOrder : OrderDocument) : Prop where
  pair : Pairs buyTerms sellTerms
  fee_le : feeOf ccc buyOrder sellOrder sellCell buyer seller buyTerms.price.toNat ≤ 10000
  token : buyTerms.price.toNat + occupiedCapacity buyer sellCell.type sellCell.data +
    feeOf ccc buyOrder sellOrder sellCell buyer seller buyTerms.price.toNat ≤ buyCell.capacity

/-- The seller's payment holds what a cell of its lock occupies. -/
def PaymentFits (sellCell : CellOutput) (seller : Script) (price : ℕ) : Prop :=
  occupiedCapacity seller none [] ≤ sellCell.capacity + price

/-- Every transaction that `executeTrade` submits respects the rule, and when none
can, it reserves no order. -/
structure RespectsCapacity (config : Config) (buyCell sellCell : CellOutput) (terms : OrderArgs)
    (buyer seller : Script) (buyOrder sellOrder : OrderDocument) : Prop where
  outputs : ∀ schedule, Only (fun op => ∀ settlement, op = .sendTransaction settlement →
    ∀ output ∈ settlement.outputs, Respects output) (executeTrade config schedule buyOrder sellOrder)
  rejects : ¬(PaymentFits sellCell seller terms.price.toNat ∧
      terms.price.toNat + occupiedCapacity buyer sellCell.type sellCell.data +
        feeOf config.client buyOrder sellOrder sellCell buyer seller terms.price.toNat ≤
          buyCell.capacity) →
    ∀ schedule, Only (fun op => ∀ id deadline, op ≠ .reserve id deadline)
      (executeTrade config schedule buyOrder sellOrder)

section
variable {config : Config} {v : ChainVerification} {ccc : Client} {buyCell sellCell : CellOutput}
  {buyTerms sellTerms : OrderArgs} {buyer seller : Script} {buyOrder sellOrder : OrderDocument}
  {settlement : Settlement}

theorem Admitted.side {cell : CellOutput} {terms : OrderArgs} {owner : Script} {order : OrderDocument}
    (h : Admitted v cell terms owner order) : terms.side = sideBuy ∨ terms.side = sideSell := by
  obtain ⟨hw, hd⟩ := parseOrderArgs_eq_ok.mp h.admits.parsed
  exact side_of_wellFormed hw hd

theorem Admitted.side_of_bid {cell : CellOutput} {terms : OrderArgs} {owner : Script}
    {order : OrderDocument} (h : Admitted v cell terms owner order) (hbid : order.direction = .bid) :
    terms.side = sideBuy := by
  apply h.side.resolve_right
  intro hsell
  rw [h.stored.direction, hsell] at hbid
  exact absurd hbid (by decide)

theorem Admitted.side_of_ask {cell : CellOutput} {terms : OrderArgs} {owner : Script}
    {order : OrderDocument} (h : Admitted v cell terms owner order) (hask : order.direction = .ask) :
    terms.side = sideSell := by
  apply h.side.resolve_left
  intro hbuy
  rw [h.stored.direction, hbuy] at hask
  exact absurd hask (by decide)

/-- Only orders of one token, amount and price get as far as a settlement. -/
theorem pairs_of_built (hbuy : Admitted v buyCell buyTerms buyer buyOrder)
    (hsell : Admitted v sellCell sellTerms seller sellOrder) (h : Built ccc buyOrder sellOrder settlement) :
    Pairs buyTerms sellTerms where
  buy := hbuy.side_of_bid h.buy_direction
  sell := hsell.side_of_ask h.sell_direction
  token := by
    have htoken := h.token
    rw [hbuy.stored.token, hsell.stored.token] at htoken
    exact hashText_injective htoken
  amount := by
    have hamount := h.amount
    rw [hbuy.stored.amount, hsell.stored.amount] at hamount
    exact BitVec.eq_of_toNat_eq (toString_injective hamount)
  price := by
    have hprice := h.price
    rw [hbuy.stored.price, hsell.stored.price] at hprice
    exact BitVec.eq_of_toNat_eq (toString_injective hprice)

theorem tokenOutput_capacity (hfills : FillsIn ccc) (sellCell : CellOutput) (buyer : Script) :
    (tokenOutputOf ccc sellCell buyer).capacity = occupiedCapacity buyer sellCell.type sellCell.data := by
  rw [← hfills]
  rfl

/-- The settlement of two covered orders. -/
def settlementOf (ccc : Client) (buyCell sellCell : CellOutput) (price : ℕ) (buyer seller : Script)
    (buyOrder sellOrder : OrderDocument) : Settlement :=
  let fee := feeOf ccc buyOrder sellOrder sellCell buyer seller price
  { inputs := [buyOrder.outPoint, sellOrder.outPoint]
    outputs := [sellerOutputOf ccc sellCell seller price,
      { tokenOutputOf ccc sellCell buyer with capacity := ((buyCell.capacity : ℤ) - price - fee).toNat }]
    fee }

theorem buildSettlement_eq_ok (hfills : FillsIn ccc) (hbuy : Admitted v buyCell buyTerms buyer buyOrder)
    (hsell : Admitted v sellCell sellTerms seller sellOrder) :
    buildSettlement ccc v.supportedAssetHashes buyOrder sellOrder = .ok settlement ↔
      Covered ccc buyCell sellCell buyTerms sellTerms buyer seller buyOrder sellOrder ∧
        settlement = settlementOf ccc buyCell sellCell buyTerms.price.toNat buyer seller buyOrder
          sellOrder := by
  by_cases hpair : Pairs buyTerms sellTerms
  · have hask : directionOf sellTerms.side = .ask := by
      rw [hpair.sell]
      decide
    obtain ⟨type, htype, -⟩ := hsell.admits.ask hask
    rw [buildSettlement_pair hbuy.stored hsell.stored hpair htype hbuy.admits.supported]
    simp only [bind_eq_ok, okOr_eq_ok]
    have hmin := tokenOutput_capacity hfills sellCell buyer
    constructor
    · rintro ⟨_, hallocation, allocated, rfl, hreturn⟩
      obtain ⟨hfee, hlow, rfl⟩ := allocateSettlementCapacity_eq_ok.mp hallocation
      rw [hmin] at hlow
      have hfee : feeOf ccc buyOrder sellOrder sellCell buyer seller buyTerms.price.toNat ≤ 10000 :=
        Int.ofNat_le.mp hfee
      have hlow : (occupiedCapacity buyer sellCell.type sellCell.data : ℤ) ≤ buyCell.capacity -
          buyTerms.price.toNat -
            feeOf ccc buyOrder sellOrder sellCell buyer seller buyTerms.price.toNat := hlow
      constructor
      · exact ⟨hpair, hfee, by omega⟩
      · exact (Except.ok.inj hreturn).symm
    · rintro ⟨hcovered, rfl⟩
      have hfee := hcovered.fee_le
      have htoken := hcovered.token
      refine ⟨_, allocateSettlementCapacity_eq_ok.mpr ⟨Int.ofNat_le.mpr hfee, ?_, rfl⟩, _, rfl, ?_⟩
      · rw [hmin]
        show (occupiedCapacity buyer sellCell.type sellCell.data : ℤ) ≤ buyCell.capacity -
          buyTerms.price.toNat -
            feeOf ccc buyOrder sellOrder sellCell buyer seller buyTerms.price.toNat
        omega
      · rfl
  · constructor
    · intro h
      exact absurd (pairs_of_built hbuy hsell (built_of_buildSettlement h)) hpair
    · intro h
      exact absurd h.1.pair hpair

theorem respects_token (hcovered : Covered ccc buyCell sellCell buyTerms sellTerms buyer seller buyOrder
    sellOrder) : Respects { tokenOutputOf ccc sellCell buyer with
      capacity := ((buyCell.capacity : ℤ) - buyTerms.price.toNat -
        feeOf ccc buyOrder sellOrder sellCell buyer seller buyTerms.price.toNat).toNat } := by
  have htoken := hcovered.token
  show occupiedCapacity buyer sellCell.type sellCell.data ≤ ((buyCell.capacity : ℤ) -
    buyTerms.price.toNat - feeOf ccc buyOrder sellOrder sellCell buyer seller buyTerms.price.toNat).toNat
  omega

theorem respects_payment (hrespects : Respects sellCell) (price : ℕ) :
    Respects (sellerOutputOf ccc sellCell seller price) ↔ PaymentFits sellCell seller price := by
  have hpos : 0 < sellCell.capacity := by
    refine lt_of_lt_of_le ?_ hrespects
    unfold occupiedCapacity occupiedBytes scriptBytes
    omega
  have hcapacity : (sellerOutputOf ccc sellCell seller price).capacity = sellCell.capacity + price := by
    unfold sellerOutputOf outputFrom
    rw [if_neg (by omega)]
    show ((sellCell.capacity : ℤ) + price).toNat = _
    omega
  unfold Respects PaymentFits
  rw [hcapacity]
  rfl

/-- The outputs of a covered pair respect the rule exactly when the payment fits. -/
theorem respects_settlementOf (hrespects : Respects sellCell)
    (hcovered : Covered ccc buyCell sellCell buyTerms sellTerms buyer seller buyOrder sellOrder) :
    (∀ output ∈ (settlementOf ccc buyCell sellCell buyTerms.price.toNat buyer seller buyOrder
        sellOrder).outputs, Respects output) ↔
      PaymentFits sellCell seller buyTerms.price.toNat := by
  unfold settlementOf
  simp only [List.forall_mem_cons, List.not_mem_nil, false_implies, implies_true, and_true]
  rw [respects_payment hrespects]
  exact and_iff_left (respects_token hcovered)

/-- A pair that is not settled makes no call. -/
theorem executeTrade_error {error : Failure} (allowed : Op → Prop) (schedule : List Bool)
    (h : buildSettlement config.client config.verification.supportedAssetHashes buyOrder sellOrder =
      .error error) : Only allowed (executeTrade config schedule buyOrder sellOrder) := by
  unfold executeTrade
  rw [h]
  trivial

/-- Calls that submit no settlement but this one. -/
def submitsOnly (settlement : Settlement) (op : Op) : Prop := ∀ s, op = .sendTransaction s → s = settlement

theorem submitsOnly_of_watches {op : Op} (h : watches op) : submitsOnly settlement op := by
  rintro s rfl
  exact absurd h Bool.false_ne_true

theorem only_reserve {allowed : Op → Prop} (id : String) (hnow : allowed .now)
    (hreserve : ∀ deadline, allowed (.reserve id deadline)) : Only allowed (reserve id) :=
  only_bind (only_request.mpr hnow) fun now => only_request.mpr (hreserve (now + reservationTtl))

theorem only_settleReserved (schedule : List Bool) (reservedBuy reservedSell : OrderDocument) :
    Only (submitsOnly settlement) (settleReserved config schedule settlement reservedBuy reservedSell) := by
  have hlive : ∀ order, Only (submitsOnly settlement) (checkOrderLiveness config.verification order) :=
    fun order => (watches_checkOrderLiveness order).mono fun _ => submitsOnly_of_watches
  apply only_bind (only_promiseAll schedule (hlive reservedBuy) (hlive reservedSell))
  intro live
  apply only_bind (only_require _)
  intro checked
  apply only_bind
  · apply only_tryCatch
    · exact only_request.mpr fun s hs => (Op.sendTransaction.inj hs).symm
    · intro error
      unfold translateRejection
      dsimp only
      split_ifs
      all_goals first | exact only_pure _ | exact only_throw _
  · intro txHash
    apply only_bind
    · apply only_tryCatch
      · apply only_bind _ fun _ => only_pure _
        apply (reads_ingest _).mono
        rintro op (hread | rfl | ⟨message, rfl⟩)
        · exact submitsOnly_of_watches (watches_of_read hread)
        · intro s hs
          cases hs
        · intro s hs
          cases hs
      · intro error
        exact only_request.mpr fun s hs => by cases hs
    · exact fun _ => only_pure _

/-- `executeTrade` submits the settlement that it has built, and no other. -/
theorem only_executeTrade (schedule : List Bool)
    (h : buildSettlement config.client config.verification.supportedAssetHashes buyOrder sellOrder =
      .ok settlement) :
    Only (submitsOnly settlement) (executeTrade config schedule buyOrder sellOrder) := by
  have hreserve : ∀ id, Only (submitsOnly settlement) (reserve id) := fun id =>
    only_reserve id (fun s hs => by cases hs) fun deadline s hs => by cases hs
  have hrevert : ∀ id, Only (submitsOnly settlement) (revertToLive id) := fun id =>
    only_request.mpr fun s hs => by cases hs
  unfold executeTrade
  rw [h]
  apply only_bind_ok
  apply only_bind (hreserve buyOrder.id)
  intro buy
  apply only_bind (only_require _)
  intro reservedBuy
  apply only_bind (hreserve sellOrder.id)
  intro sell
  cases sell with
  | none => exact only_bind (hrevert _) fun _ => only_throw _
  | some reservedSell =>
      apply only_tryCatch (only_settleReserved schedule reservedBuy reservedSell)
      intro error
      apply only_bind _ fun _ => only_throw _
      apply only_bind (only_promiseAll _ (only_attempt (hrevert _)) (only_attempt (hrevert _)))
      exact fun results => only_bind (only_require _) fun _ => only_require _

theorem returns_request (op : Op) (answer : Answer (Res op)) : Returns (request op) answer :=
  @returns_perform Op Res Failure op answer

theorem returns_reserve (id : String) (order : Option OrderDocument) : Returns (reserve id) (.ok order) := by
  have hnow : Returns (request .now) (.ok (0 : ℕ)) := returns_request .now _
  exact returns_bind hnow (returns_request (.reserve id (0 + reservationTtl)) (.ok order))

theorem returns_checkOrderLiveness {v : ChainVerification} {order : OrderDocument} {ref : CellRef}
    (h : refFrom order.outPoint = some ref) : Returns (checkOrderLiveness v order) (.ok true) := by
  unfold checkOrderLiveness
  rw [h]
  have hlive : Returns (request (.getCellLive ref)) (.ok true) := returns_request (.getCellLive ref) _
  exact returns_bind (returns_require _) (returns_bind hlive (.pure _))

/-- Some run of `executeTrade` submits it. -/
theorem allowed_of_executeTrade {allowed : Op → Prop} {schedule : List Bool} {buyRef sellRef : CellRef}
    (hbuyRef : refFrom buyOrder.outPoint = some buyRef)
    (hsellRef : refFrom sellOrder.outPoint = some sellRef)
    (h : buildSettlement config.client config.verification.supportedAssetHashes buyOrder sellOrder =
      .ok settlement) (honly : Only allowed (executeTrade config schedule buyOrder sellOrder)) :
    allowed (.sendTransaction settlement) := by
  unfold executeTrade at honly
  rw [h] at honly
  have hbuy := honly.rest (returns_require _)
  have hsome := hbuy.rest (returns_reserve buyOrder.id (some buyOrder))
  have hsell := hsome.rest (returns_require _)
  have hboth := hsell.rest (returns_reserve sellOrder.id (some sellOrder))
  have hsettle := hboth.of_tryCatch
  have hchecked := hsettle.rest (returns_promiseAll schedule (returns_checkOrderLiveness hbuyRef)
    (returns_checkOrderLiveness hsellRef))
  have hsubmit := hchecked.rest (returns_require _)
  exact only_request.mp hsubmit.of_bind.of_tryCatch

theorem fits_of_respectsCapacity (hfills : FillsIn config.client)
    (hbuy : Admitted config.verification buyCell buyTerms buyer buyOrder)
    (hsell : Admitted config.verification sellCell sellTerms seller sellOrder)
    (h : RespectsCapacity config buyCell sellCell buyTerms buyer seller buyOrder sellOrder)
    (hcovered : Covered config.client buyCell sellCell buyTerms sellTerms buyer seller buyOrder sellOrder) :
    PaymentFits sellCell seller buyTerms.price.toNat := by
  obtain ⟨buyRef, hbuyRef⟩ := hbuy.located
  obtain ⟨sellRef, hsellRef⟩ := hsell.located
  have hbuilt := (buildSettlement_eq_ok hfills hbuy hsell).mpr ⟨hcovered, rfl⟩
  have hsent := allowed_of_executeTrade hbuyRef hsellRef hbuilt (h.outputs [])
  exact (respects_settlementOf hsell.respects hcovered).mp (hsent _ rfl)

theorem respectsCapacity_of_fits (hfills : FillsIn config.client)
    (hbuy : Admitted config.verification buyCell buyTerms buyer buyOrder)
    (hsell : Admitted config.verification sellCell sellTerms seller sellOrder)
    (hfits : Covered config.client buyCell sellCell buyTerms sellTerms buyer seller buyOrder sellOrder →
      PaymentFits sellCell seller buyTerms.price.toNat) :
    RespectsCapacity config buyCell sellCell buyTerms buyer seller buyOrder sellOrder := by
  cases hbuild : buildSettlement config.client config.verification.supportedAssetHashes buyOrder
      sellOrder with
  | error error =>
      constructor
      · intro schedule
        exact executeTrade_error _ schedule hbuild
      · intro himpossible schedule
        exact executeTrade_error _ schedule hbuild
  | ok settlement =>
      obtain ⟨hcovered, rfl⟩ := (buildSettlement_eq_ok hfills hbuy hsell).mp hbuild
      have hrespects := (respects_settlementOf hsell.respects hcovered).mpr (hfits hcovered)
      constructor
      · intro schedule
        apply (only_executeTrade schedule hbuild).mono
        intro op hop s hs
        rw [hop s hs]
        exact hrespects
      · intro himpossible
        exact absurd ⟨hfits hcovered, hcovered.token⟩ himpossible

end

/-- Settlements keep the rule exactly when the seller's payment holds what a cell of
the seller's lock occupies, or the pair is not settled for another reason. -/
theorem respects_capacity_iff (config : Config) (hfills : FillsIn config.client)
    {buyCell sellCell : CellOutput} {buyTerms sellTerms : OrderArgs} {buyer seller : Script}
    {buyOrder sellOrder : OrderDocument}
    (hbuy : Admitted config.verification buyCell buyTerms buyer buyOrder)
    (hsell : Admitted config.verification sellCell sellTerms seller sellOrder) :
    RespectsCapacity config buyCell sellCell buyTerms buyer seller buyOrder sellOrder ↔
      (Covered config.client buyCell sellCell buyTerms sellTerms buyer seller buyOrder sellOrder →
        PaymentFits sellCell seller buyTerms.price.toNat) :=
  ⟨fits_of_respectsCapacity hfills hbuy hsell, respectsCapacity_of_fits hfills hbuy hsell⟩

def longOwner : Script := ⟨exampleHash 8, .type, List.replicate 200 0⟩

/-- The smallest sell cell of the token. -/
def longSellCell : CellOutput where
  capacity := 18000000000
  lock := { exampleDex with args := orderArgs (exampleOrder sideSell (exampleHash 32)) }
  type := some exampleTokenType
  data := toLe 16 100

def longSellOrder : OrderDocument :=
  documentOf ⟨exampleHash 5, 1⟩ longSellCell (exampleOrder sideSell (exampleHash 32)) longOwner

def plainBuyOrder : OrderDocument :=
  documentOf ⟨exampleHash 5, 0⟩ exampleBuyCell (exampleOrder sideBuy (exampleHash 1)) (exampleOwner 1)

theorem exampleClient_fillsIn : FillsIn exampleClient := by
  intro lock type data
  cases type with
  | none =>
      show (41 + lock.args.length + 0 + data.length) * 10 ^ 8 = _
      unfold occupiedCapacity occupiedBytes scriptBytes
      simp only [Option.elim]
      omega
  | some script =>
      show (41 + lock.args.length + (33 + script.args.length) + data.length) * 10 ^ 8 = _
      unfold occupiedCapacity occupiedBytes scriptBytes
      simp only [Option.elim]
      omega

theorem plainBuy_admitted : Admitted exampleVerification exampleBuyCell
    (exampleOrder sideBuy (exampleHash 1)) (exampleOwner 1) plainBuyOrder where
  admits :=
    { codeHash := exampleBuy_indexable.codeHash
      hashType := exampleBuy_indexable.hashType
      parsed := exampleBuy_indexable.parsed
      supported := exampleBuy_indexable.supported
      ask := fun hask => absurd hask (by decide)
      bid := fun _ => ⟨rfl, by decide⟩ }
  maker := by decide
  stored := documentOf_repeats ..
  located := ⟨_, refFrom_outPointText _⟩
  respects := by decide

theorem longOwner_hash : exampleScriptHash longOwner = exampleHash 32 := by
  have hne : ∀ script : Script, script.args.length ≠ 200 → longOwner ≠ script := by
    rintro script hlength rfl
    exact hlength (List.length_replicate)
  unfold exampleScriptHash
  rw [if_neg (hne _ (by decide)), if_neg (hne _ (by decide)), if_neg (hne _ (by decide))]
  rfl

theorem longSell_admitted : Admitted exampleVerification longSellCell
    (exampleOrder sideSell (exampleHash 32)) longOwner longSellOrder where
  admits :=
    { codeHash := rfl
      hashType := rfl
      parsed := parseOrderArgs_orderArgs (Or.inr rfl)
      supported := exampleSell_indexable.supported
      ask := fun _ => ⟨exampleTokenType, rfl, by decide, by decide, by decide⟩
      bid := fun hbid => absurd (by decide) hbid }
  maker := longOwner_hash
  stored := documentOf_repeats ..
  located := ⟨_, refFrom_outPointText _⟩
  respects := by decide

theorem long_covered : Covered exampleClient exampleBuyCell longSellCell
    (exampleOrder sideBuy (exampleHash 1)) (exampleOrder sideSell (exampleHash 32)) (exampleOwner 1)
    longOwner plainBuyOrder longSellOrder where
  pair := by constructor <;> decide
  fee_le := by decide
  token := by decide

theorem respects_capacity_iff_example :
    RespectsCapacity exampleConfig exampleBuyCell longSellCell (exampleOrder sideBuy (exampleHash 1))
        (exampleOwner 1) longOwner plainBuyOrder longSellOrder ↔
      (Covered exampleClient exampleBuyCell longSellCell (exampleOrder sideBuy (exampleHash 1))
          (exampleOrder sideSell (exampleHash 32)) (exampleOwner 1) longOwner plainBuyOrder longSellOrder →
        PaymentFits longSellCell longOwner (exampleOrder sideBuy (exampleHash 1)).price.toNat) :=
  respects_capacity_iff exampleConfig exampleClient_fillsIn plainBuy_admitted longSell_admitted

/-- The pair is settled, and the seller's payment of 180 CKB is in a cell that
occupies 241 bytes. -/
theorem long_lock_underpaid :
    Admitted exampleVerification exampleBuyCell (exampleOrder sideBuy (exampleHash 1)) (exampleOwner 1)
        plainBuyOrder ∧
      Admitted exampleVerification longSellCell (exampleOrder sideSell (exampleHash 32)) longOwner
        longSellOrder ∧
      ¬RespectsCapacity exampleConfig exampleBuyCell longSellCell (exampleOrder sideBuy (exampleHash 1))
        (exampleOwner 1) longOwner plainBuyOrder longSellOrder := by
  refine ⟨plainBuy_admitted, longSell_admitted, ?_⟩
  intro h
  have hfits := fits_of_respectsCapacity exampleClient_fillsIn plainBuy_admitted longSell_admitted h
    long_covered
  have hlength : longOwner.args.length = 200 := List.length_replicate
  have hcapacity : longSellCell.capacity = 18000000000 := rfl
  have hprice : (exampleOrder sideBuy (exampleHash 1)).price.toNat = 5000 := rfl
  unfold PaymentFits occupiedCapacity occupiedBytes scriptBytes at hfits
  rw [hlength, hcapacity, hprice] at hfits
  exact absurd hfits (by decide)

end CkbDex.OccupiedCapacity
