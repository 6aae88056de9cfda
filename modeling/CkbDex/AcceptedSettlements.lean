import CkbDex.Observation

/-!
# Settlements that the contract accepts

What the bot submits for two indexed orders, with its out points resolved
through the chain to the cells that they name. The contract accepts the
transaction for both orders, whatever the fee estimate.
-/
namespace CkbDex.AcceptedSettlements
open Bytes Checked CellContext OrderLock OrderLockRules Text Documents ChainCells SettlementBuilder
open Operations Chains EventVerification CkbDex.Bot SpendClassification Acceptance

/-- The transaction that is submitted, its out points as the client library reads
them. -/
def transactionOf (settlement : Settlement) : Option RawTx := do
  let inputs ← settlement.inputs.mapM refFrom
  return { inputs, outputs := settlement.outputs }

/-- A document that mirrors an order cell of the chain under the cell's out
point. -/
structure Stands (hash : Script → Hash) (dex : Script) (content : Content) (doc : OrderDocument)
    (ref : CellRef) (cell : CellOutput) (order : OrderArgs) : Prop
    extends Mirrors hash dex doc cell order where
  located : refFrom doc.outPoint = some ref
  found : cellAt content ref = some cell

/-- The terms of the two orders agree, and the settlement spends the two cells
for the outputs that the contract looks for. -/
structure Fits (hash : Script → Hash) (buyRef sellRef : CellRef) (buyCell sellCell : CellOutput)
    (b s : OrderArgs) (settlement : Settlement) : Prop where
  buy_side : b.side = sideBuy
  sell_side : s.side = sideSell
  token : b.xudtTypeHash = s.xudtTypeHash
  amount : b.tokenAmount = s.tokenAmount
  price : b.price = s.price
  fee_le : settlement.fee ≤ 10000
  inputs : settlement.inputs.mapM refFrom = some [buyRef, sellRef]
  outputs : ∃ sellerLock buyerLock fee, hash sellerLock = s.makerLockHash ∧
    hash buyerLock = b.makerLockHash ∧ settlement.fee = (fee : ℕ) ∧
    fee + b.price.toNat ≤ buyCell.capacity ∧
    settlement.outputs = [⟨sellCell.capacity + b.price.toNat, sellerLock, none, []⟩,
      ⟨buyCell.capacity - b.price.toNat - fee, buyerLock, sellCell.type, sellCell.data⟩]

/-- The contract accepts the submitted transaction for each of the two distinct
order cells that it spends, and it pays exactly its fee. -/
structure Accepted (hash : Script → Hash) (dex : Script) (content : Content) (buyRef sellRef : CellRef)
    (settlement : Settlement) (tx : RawTx) : Prop where
  submitted : transactionOf settlement = some tx
  inputs : tx.inputs = [buyRef, sellRef]
  distinct : buyRef ≠ sellRef
  groups : ∀ ref ∈ tx.inputs, ∃ cell, cellAt content ref = some cell ∧ sameIdentity dex cell.lock = true ∧
    programEntry { tx := resolvedTx hash content tx, script := cell.lock } = 0
  fee : (totalCapacity (resolvedTx hash content tx).inputs : ℤ) -
    totalCapacity (resolvedTx hash content tx).outputs = settlement.fee
  fee_le : settlement.fee ≤ maxSettlementFee.toNat

section
variable {ccc : Client} {hash : Script → Hash} {dex : Script} {content : Content}
  {buyDoc sellDoc : OrderDocument} {buyRef sellRef : CellRef} {buyCell sellCell : CellOutput}
  {b s : OrderArgs} {settlement : Settlement}

theorem fits_of_built (hb : Stands ccc.hash dex content buyDoc buyRef buyCell b)
    (hs : Stands ccc.hash dex content sellDoc sellRef sellCell s) (h : Built ccc buyDoc sellDoc settlement) :
    Fits ccc.hash buyRef sellRef buyCell sellCell b s settlement := by
  obtain ⟨sellCapacity, price, buyCapacity, sellerLock, buyerLock, tokenType, tokenData, hsc, hpr,
    hbc, hsl, hbl, htt, htd, hfit, hout⟩ := h.outputs
  obtain rfl : sellCapacity = (sellCell.capacity : ℤ) :=
    Option.some_inj.mp (hsc.symm.trans hs.capacity)
  obtain rfl : price = (s.price.toNat : ℤ) := Option.some_inj.mp (hpr.symm.trans hs.price)
  obtain rfl : buyCapacity = (buyCell.capacity : ℤ) :=
    Option.some_inj.mp (hbc.symm.trans hb.capacity)
  obtain rfl : tokenType = sellCell.type := Option.some_inj.mp (htt.symm.trans hs.type)
  obtain rfl : tokenData = sellCell.data := Option.some_inj.mp (htd.symm.trans hs.data)
  obtain ⟨sellerOwner, hso, hsh⟩ := hs.owner
  obtain rfl : sellerLock = sellerOwner := Option.some_inj.mp (hsl.symm.trans hso)
  obtain ⟨buyerOwner, hbo, hbh⟩ := hb.owner
  obtain rfl : buyerLock = buyerOwner := Option.some_inj.mp (hbl.symm.trans hbo)
  have hprice : b.price = s.price := by
    have hp := hb.price
    rw [h.price, hs.price] at hp
    exact BitVec.eq_of_toNat_eq (Int.ofNat.inj (Option.some_inj.mp hp)).symm
  have hamount : b.tokenAmount = s.tokenAmount := by
    have ha := hb.amount
    rw [h.amount, hs.amount] at ha
    exact BitVec.eq_of_toNat_eq (Int.ofNat.inj (Option.some_inj.mp ha)).symm
  have htoken : b.xudtTypeHash = s.xudtTypeHash := by
    have ht := hb.token
    rw [h.token, hs.token] at ht
    exact (Option.some_inj.mp ht).symm
  have hinputs : settlement.inputs.mapM refFrom = some [buyRef, sellRef] := by
    simp [h.inputs, hb.located, hs.located]
  obtain ⟨fee, hfee⟩ := Int.eq_ofNat_of_zero_le h.fee_nonneg
  have hpos := hs.capacity_pos
  refine ⟨hb.side_of_bid h.buy_direction, hs.side_of_ask h.sell_direction, htoken, hamount, hprice,
    h.fee_le, hinputs, sellerLock, buyerLock, fee, hsh, hbh, hfee, ?_, ?_⟩
  · rw [hprice]
    omega
  · have hne : ¬((sellCell.capacity : ℤ) + (s.price.toNat : ℤ) = 0) := by omega
    have h₁ : ((sellCell.capacity : ℤ) + (s.price.toNat : ℤ)).toNat =
        sellCell.capacity + s.price.toNat := by omega
    have h₂ : ((buyCell.capacity : ℤ) - (s.price.toNat : ℤ) - settlement.fee).toNat =
        buyCell.capacity - s.price.toNat - fee := by omega
    rw [hout, outputFrom, if_neg hne, h₁, h₂, hprice]

/-- A buy order and a sell order are in different cells. -/
theorem Fits.distinct (h : Fits hash buyRef sellRef buyCell sellCell b s settlement)
    (hb : Stands hash dex content buyDoc buyRef buyCell b)
    (hs : Stands hash dex content sellDoc sellRef sellCell s) : buyRef ≠ sellRef := by
  rintro rfl
  obtain rfl : buyCell = sellCell := Option.some_inj.mp (hb.found.symm.trans hs.found)
  obtain rfl : b = s := Except.ok.inj (hb.terms.symm.trans hs.terms)
  have hsides : sideBuy = sideSell := h.buy_side.symm.trans h.sell_side
  exact absurd hsides (by decide)

/-- The transaction on chain: two order cells, and what the makers get for them. -/
theorem resolvedTx_of_fits (hb : Stands hash dex content buyDoc buyRef buyCell b)
    (hs : Stands hash dex content sellDoc sellRef sellCell s) {sellerLock buyerLock : Script} {fee : ℕ}
    (hseller : hash sellerLock = s.makerLockHash) (hbuyer : hash buyerLock = b.makerLockHash)
    (htype : sellCell.type.map hash = some s.xudtTypeHash)
    (houtputs : settlement.outputs = [⟨sellCell.capacity + b.price.toNat, sellerLock, none, []⟩,
      ⟨buyCell.capacity - b.price.toNat - fee, buyerLock, sellCell.type, sellCell.data⟩]) :
    resolvedTx hash content ⟨[buyRef, sellRef], settlement.outputs⟩ =
      { inputs := [buyCell.toCell hash, sellCell.toCell hash]
        outputs := [
          ⟨sellerLock, s.makerLockHash, none,
            BitVec.ofNat 64 (sellCell.capacity + b.price.toNat), []⟩,
          ⟨buyerLock, b.makerLockHash, some s.xudtTypeHash,
            BitVec.ofNat 64 (buyCell.capacity - b.price.toNat - fee), sellCell.data⟩] } := by
  simp only [resolvedTx, resolvedInputs, hb.found, hs.found, List.filterMap_cons, List.filterMap_nil,
    Option.map_some, houtputs, List.map_cons, List.map_nil, CellOutput.toCell, hseller, hbuyer, htype,
    Option.map_none]

theorem settlement_settles (hb : Stands hash dex content buyDoc buyRef buyCell b)
    (hs : Stands hash dex content sellDoc sellRef sellCell s)
    (hfits : Fits hash buyRef sellRef buyCell sellCell b s settlement)
    (hbuyLock : hash buyCell.lock ≠ b.makerLockHash ∧ hash buyCell.lock ≠ s.makerLockHash)
    (hsellLock : hash sellCell.lock ≠ b.makerLockHash ∧ hash sellCell.lock ≠ s.makerLockHash)
    (hsum : buyCell.capacity + sellCell.capacity < 2 ^ 64) {tx : Tx}
    (htx : tx = resolvedTx hash content ⟨[buyRef, sellRef], settlement.outputs⟩) :
    Settles tx (buyCell.toCell hash) b ∧ Settles tx (sellCell.toCell hash) s ∧
      (totalCapacity tx.inputs : ℤ) - totalCapacity tx.outputs = settlement.fee := by
  obtain ⟨sellerLock, buyerLock, fee, hsh, hbh, hfee, hfund, hout⟩ := hfits.outputs
  obtain ⟨htype, hlen, hheld⟩ := hs.asset hfits.sell_side
  have hplain := hb.plain hfits.buy_side
  have hbc := hb.toNat_capacity
  have hsc := hs.toNat_capacity
  have hpl := hb.capacity_lt
  have hfl := hfits.fee_le
  have hidb := hb.identity
  have hids := hs.identity
  simp only [sameIdentity, Bool.and_eq_true, decide_eq_true_eq] at hidb hids
  have hmod : ∀ n, n < 2 ^ 64 → n % 18446744073709551616 = n := fun n hn => Nat.mod_eq_of_lt hn
  rw [resolvedTx_of_fits hb hs hsh hbh htype hout] at htx
  have hdex : ∀ script, sameIdentity dex script = true →
      dexInputs tx script = [buyCell.toCell hash, sellCell.toCell hash] := by
    intro script hscript
    simp only [sameIdentity, Bool.and_eq_true, decide_eq_true_eq] at hscript
    simp [htx, dexInputs, sameIdentity, CellOutput.toCell, hidb, hids, hscript]
  have hpair : ∀ script, sameIdentity dex script = true → ∃ buy sell bo so, Pair tx script buy sell bo so :=
    fun script hscript =>
      ⟨_, _, b, s, Or.inl (hdex script hscript), hb.wellFormed.1, hb.wellFormed.2, hfits.buy_side,
        hs.wellFormed.1, hs.wellFormed.2, hfits.sell_side, hfits.token, hfits.amount, hfits.price⟩
  have hsides : sideBuy ≠ sideSell := by decide
  have hpairBuy := hpair _ hb.identity
  have hpairSell := hpair _ hs.identity
  subst htx
  refine ⟨⟨?_, hpairBuy, fun _ => ?_, fun h => ?_⟩, ⟨?_, hpairSell, fun h => ?_, fun _ => ?_⟩, ?_⟩
  · simpa [CellOutput.toCell] using And.intro hbuyLock.1 hsellLock.1
  · refine ⟨by simp [CellOutput.toCell, hplain], ?_, ?_, ?_, ?_⟩ <;>
      simp only [tokenOutputs, hfits.token, List.filter_cons, List.filter_nil, totalAmount,
        totalCapacity, hbc, hfits.amount] <;> simp
    · exact hlen
    · exact hheld
    · rw [hmod _ (by omega)]
      omega
    · rw [hmod _ (by omega)]
      omega
  · exact (hsides (hfits.buy_side.symm.trans h)).elim
  · simpa [CellOutput.toCell] using And.intro hbuyLock.2 hsellLock.2
  · exact (hsides (h.symm.trans hfits.sell_side)).elim
  · refine ⟨htype, hlen, hheld, ?_, ?_, ?_⟩ <;>
      simp only [plainOutputs, List.filter_cons, List.filter_nil, totalCapacity, hsc,
        ← hfits.price] <;> simp
    · omega
    · omega
    · rw [hmod _ (by omega)]
  · simp only [totalCapacity, List.map_cons, List.map_nil, List.sum_cons, List.sum_nil, hbc, hsc,
      BitVec.toNat_ofNat]
    rw [Nat.mod_eq_of_lt (by omega), Nat.mod_eq_of_lt (by omega)]
    omega

/-- A settlement that spends two order cells for the outputs they ask for. -/
theorem accepted_of_fits (hb : Stands hash dex content buyDoc buyRef buyCell b)
    (hs : Stands hash dex content sellDoc sellRef sellCell s)
    (hfits : Fits hash buyRef sellRef buyCell sellCell b s settlement)
    (hbuyLock : hash buyCell.lock ≠ b.makerLockHash ∧ hash buyCell.lock ≠ s.makerLockHash)
    (hsellLock : hash sellCell.lock ≠ b.makerLockHash ∧ hash sellCell.lock ≠ s.makerLockHash)
    (hsum : buyCell.capacity + sellCell.capacity < 2 ^ 64) :
    Accepted hash dex content buyRef sellRef settlement ⟨[buyRef, sellRef], settlement.outputs⟩ := by
  obtain ⟨hbuy, hsell, hfee⟩ := settlement_settles hb hs hfits hbuyLock hsellLock hsum rfl
  have hown : ∀ {ref : CellRef} {cell : CellOutput}, cellAt content ref = some cell →
      ref ∈ [buyRef, sellRef] →
      cell.toCell hash ∈ (resolvedTx hash content ⟨[buyRef, sellRef], settlement.outputs⟩).inputs :=
    fun hfound hmem => mem_resolvedInputs.mpr ⟨_, hmem, _, hfound, rfl⟩
  constructor
  · rw [transactionOf, hfits.inputs]
    rfl
  · rfl
  · exact hfits.distinct hb hs
  · intro ref hmem
    rcases List.mem_cons.mp hmem with rfl | hmem
    · exact ⟨buyCell, hb.found, hb.identity, (accepted_iff (hown hb.found List.mem_cons_self) hb.wellFormed.1
        hb.wellFormed.2).mpr (Or.inr hbuy)⟩
    · obtain rfl := List.mem_singleton.mp hmem
      exact ⟨sellCell, hs.found, hs.identity, (accepted_iff (hown hs.found (by simp)) hs.wellFormed.1
        hs.wellFormed.2).mpr (Or.inr hsell)⟩
  · exact hfee
  · exact hfits.fee_le

/-- Every settlement that the bot builds for two indexed orders is a transaction
that the contract accepts for both of their cells, whatever the fee estimate. -/
theorem buildSettlement_accepted {supported : List Hex}
    (hb : Stands ccc.hash dex content buyDoc buyRef buyCell b)
    (hs : Stands ccc.hash dex content sellDoc sellRef sellCell s)
    (hbuyLock : ccc.hash buyCell.lock ≠ b.makerLockHash ∧ ccc.hash buyCell.lock ≠ s.makerLockHash)
    (hsellLock : ccc.hash sellCell.lock ≠ b.makerLockHash ∧ ccc.hash sellCell.lock ≠ s.makerLockHash)
    (hsum : buyCell.capacity + sellCell.capacity < 2 ^ 64)
    (hbuild : buildSettlement ccc supported buyDoc sellDoc = .ok settlement) :
    ∃ tx, Accepted ccc.hash dex content buyRef sellRef settlement tx :=
  ⟨_, accepted_of_fits hb hs (fits_of_built hb hs (built_of_buildSettlement hbuild)) hbuyLock hsellLock hsum⟩

end

open GroundedDocuments

theorem buildSettlement_accepted_example : ∃ settlement tx,
    buildSettlement exampleClient [hashText (exampleHash 9)]
      (exampleDocument "0" exampleBuyCell (exampleOwner 1) (exampleOrder sideBuy (exampleHash 1)))
      (exampleDocument "1" exampleSellCell (exampleOwner 2) (exampleOrder sideSell (exampleHash 2))) =
        .ok settlement ∧
      Accepted exampleScriptHash exampleDex exampleWorld.content ⟨exampleHash 5, 0⟩ ⟨exampleHash 5, 1⟩
        settlement tx := by
  have hb : Mirrors exampleClient.hash exampleDex (exampleDocument "0" exampleBuyCell
      (exampleOwner 1) (exampleOrder sideBuy (exampleHash 1))) exampleBuyCell
      (exampleOrder sideBuy (exampleHash 1)) :=
    indexedDocument_mirrors (by decide) (by decide) (by decide) (by decide) (by decide)
      (by decide) (by decide)
  have hs : Mirrors exampleClient.hash exampleDex (exampleDocument "1" exampleSellCell
      (exampleOwner 2) (exampleOrder sideSell (exampleHash 2))) exampleSellCell
      (exampleOrder sideSell (exampleHash 2)) :=
    indexedDocument_mirrors (by decide) (by decide) (by decide) (by decide) (by decide)
      (by decide) (by decide)
  obtain ⟨settlement, hbuild⟩ : ∃ settlement, buildSettlement exampleClient
      [hashText (exampleHash 9)]
      (exampleDocument "0" exampleBuyCell (exampleOwner 1) (exampleOrder sideBuy (exampleHash 1)))
      (exampleDocument "1" exampleSellCell (exampleOwner 2)
        (exampleOrder sideSell (exampleHash 2))) = .ok settlement := ⟨_, rfl⟩
  have hbuy : refFrom ⟨hashText (exampleHash 5), "0"⟩ = some ⟨exampleHash 5, 0⟩ :=
    Observation.refFrom_outPointText ⟨exampleHash 5, 0⟩
  have hsell : refFrom ⟨hashText (exampleHash 5), "1"⟩ = some ⟨exampleHash 5, 1⟩ :=
    Observation.refFrom_outPointText ⟨exampleHash 5, 1⟩
  have hbuyCell : cellAt exampleWorld.content ⟨exampleHash 5, 0⟩ = some exampleBuyCell := by decide
  have hsellCell : cellAt exampleWorld.content ⟨exampleHash 5, 1⟩ = some exampleSellCell := by decide
  obtain ⟨tx, haccepted⟩ := buildSettlement_accepted ⟨hb, hbuy, hbuyCell⟩ ⟨hs, hsell, hsellCell⟩ (by decide)
    (by decide) (by decide) hbuild
  exact ⟨settlement, tx, hbuild, haccepted⟩

end CkbDex.AcceptedSettlements
