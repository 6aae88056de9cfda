import CkbDex.OrderLockRules
import Mathlib.Algebra.Order.BigOperators.Group.List

/-!
# Orders under several script identities

A deployed program can be referenced by several pairs of a code hash and a hash
type, and each group of a transaction counts the orders of its own pair only.
The groups then share the outputs: a maker with one settled order is paid in
full, and a maker with several can be paid for one of them.
-/
namespace CkbDex.ScriptIdentities
open Checked Bytes CellContext OrderLock OrderLockRules

/-- The claims that ask for something. -/
def standing (claims : List ℕ) : List ℕ := claims.filter (0 < ·)

/-- The least payment that covers each claim on its own. -/
def largest (claims : List ℕ) : ℕ := claims.foldr max 0

theorem le_largest {claims : List ℕ} {x : ℕ} (h : x ∈ claims) : x ≤ largest claims := by
  induction claims with
  | nil => cases h
  | cons y claims ih =>
      rcases List.mem_cons.mp h with rfl | h
      · exact le_max_left _ _
      · exact (ih h).trans (le_max_right _ _)

theorem largest_le {claims : List ℕ} {p : ℕ} (h : ∀ x ∈ claims, x ≤ p) : largest claims ≤ p := by
  induction claims with
  | nil => exact Nat.zero_le p
  | cons y claims ih =>
      exact max_le (h y List.mem_cons_self) (ih fun x hx => h x (List.mem_cons_of_mem y hx))

theorem largest_le_sum (claims : List ℕ) : largest claims ≤ claims.sum :=
  largest_le fun _ hx => List.le_sum_of_mem hx

theorem standing_eq_nil {claims : List ℕ} (h : claims.sum = 0) : standing claims = [] := by
  refine List.filter_eq_nil_iff.mpr fun x hx => ?_
  have hle := List.le_sum_of_mem hx
  simp only [decide_eq_true_eq]
  omega

/-- The largest claim covers all of them when at most one asks for something. -/
theorem sum_le_largest_iff {claims : List ℕ} :
    claims.sum ≤ largest claims ↔ (standing claims).length ≤ 1 := by
  induction claims with
  | nil => simp [standing]
  | cons x claims ih =>
      have hsum := largest_le_sum claims
      change x + claims.sum ≤ max x (largest claims) ↔ _
      by_cases hx : 0 < x
      · have hlen : (standing (x :: claims)).length = (standing claims).length + 1 := by
          simp [standing, hx]
        rw [hlen]
        constructor
        · intro h
          have hzero : claims.sum = 0 := by omega
          rw [standing_eq_nil hzero, List.length_nil]
        · intro h
          have hle := ih.mpr (by omega)
          have hnil : standing claims = [] := List.length_eq_zero_iff.mp (by omega)
          have hnone : largest claims ≤ 0 := largest_le fun y hy => by
            have := List.filter_eq_nil_iff.mp hnil y hy
            simpa using this
          omega
      · obtain rfl : x = 0 := by omega
        rw [Nat.zero_add, Nat.zero_max, ih]
        simp [standing]

/-- A code hash and a hash type, by which a lock names its program. -/
abbrev Identity := Hash × HashType

def identityOf (script : Script) : Identity := (script.codeHash, script.hashType)

/-- The inputs locked by a program under any of its identities. -/
def orderCells (program : List Identity) (inputs : List Cell) : List Cell :=
  inputs.filter fun c => identityOf c.lock ∈ program

/-- Every group of the program returns 0. -/
def Accepted (program : List Identity) (tx : Tx) : Prop :=
  ∀ c ∈ orderCells program tx.inputs, programEntry { tx, script := c.lock } = 0

/-- The order of a cell, if it is on a side, belongs to a maker and is not
cancelled by the maker. -/
def settledOrder (inputs : List Cell) (side : Byte) (maker : Hash) (c : Cell) :
    Option (Cell × OrderArgs) :=
  match parseOrderArgs c.lock.args with
  | .ok order =>
      if order.side = side ∧ order.makerLockHash = maker ∧ ∀ input ∈ inputs, input.lockHash ≠ maker
      then some (c, order) else none
  | .error _ => none

def settledOrders (program : List Identity) (inputs : List Cell) (side : Byte) (maker : Hash) :
    List (Cell × OrderArgs) :=
  (orderCells program inputs).filterMap (settledOrder inputs side maker)

/-- What each settled sell order of a maker is due: its capacity and its price. -/
def sellClaims (program : List Identity) (inputs : List Cell) (maker : Hash) : List ℕ :=
  (settledOrders program inputs sideSell maker).map fun o => o.1.capacity.toNat + o.2.price.toNat

/-- The amount that each settled buy order of a maker asks of a token. -/
def buyClaims (program : List Identity) (inputs : List Cell) (maker token : Hash) : List ℕ :=
  ((settledOrders program inputs sideBuy maker).filter fun o => o.2.xudtTypeHash = token).map
    fun o => o.2.tokenAmount.toNat

/-- Every maker receives what its settled orders are due together. -/
structure Paid (program : List Identity) (tx : Tx) : Prop where
  sellers : ∀ maker, (sellClaims program tx.inputs maker).sum ≤ totalCapacity (plainOutputs tx maker)
  buyers : ∀ maker token, (buyClaims program tx.inputs maker token).sum ≤
    totalAmount (tokenOutputs tx maker token)

/-- No maker has two settled sell orders, or two settled buy orders of a token,
that ask for something. -/
structure SingleClaims (program : List Identity) (inputs : List Cell) : Prop where
  sellers : ∀ maker, (standing (sellClaims program inputs maker)).length ≤ 1
  buyers : ∀ maker token, (standing (buyClaims program inputs maker token)).length ≤ 1

section
variable {program : List Identity} {tx : Tx} {inputs : List Cell} {side : Byte} {maker token : Hash}
  {c : Cell} {order : OrderArgs}

theorem mem_orderCells : c ∈ orderCells program inputs ↔ c ∈ inputs ∧ identityOf c.lock ∈ program := by
  simp [orderCells]

theorem mem_settledOrders : (c, order) ∈ settledOrders program inputs side maker ↔
    c ∈ orderCells program inputs ∧ parseOrderArgs c.lock.args = .ok order ∧ order.side = side ∧
      order.makerLockHash = maker ∧ ∀ input ∈ inputs, input.lockHash ≠ maker := by
  simp only [settledOrders, List.mem_filterMap]
  constructor
  · rintro ⟨d, hd, hsettled⟩
    unfold settledOrder at hsettled
    split at hsettled
    next order' hparse =>
      split_ifs at hsettled with hcond
      obtain ⟨rfl, rfl⟩ := Prod.mk.inj (Option.some_inj.mp hsettled)
      exact ⟨hd, hparse, hcond⟩
    next => cases hsettled
  · rintro ⟨hc, hparse, hcond⟩
    refine ⟨c, hc, ?_⟩
    rw [settledOrder, hparse]
    exact if_pos hcond

theorem settledOrder_eq_none (hparse : parseOrderArgs c.lock.args = .ok order)
    (hside : order.side ≠ side) : settledOrder inputs side maker c = none := by
  rw [settledOrder, hparse]
  exact if_neg fun h => hside h.1

/-- A settled order has passed the settlement branch. -/
theorem Accepted.settles (h : Accepted program tx)
    (hmem : (c, order) ∈ settledOrders program tx.inputs side maker) : Settles tx c order := by
  obtain ⟨hc, hparse, -, rfl, hsettled⟩ := mem_settledOrders.mp hmem
  obtain ⟨hformed, hterms⟩ := parseOrderArgs_eq_ok.mp hparse
  rcases (accepted_iff (mem_orderCells.mp hc).1 hformed hterms).mp (h c hc) with hcancels | hsettles
  · obtain ⟨input, hinput, hlock⟩ := hcancels.authorized
    exact (hsettled input hinput hlock).elim
  · exact hsettles

theorem Accepted.sellSide (h : Accepted program tx)
    (hmem : (c, order) ∈ settledOrders program tx.inputs sideSell maker) : SellSide tx c order :=
  (h.settles hmem).sell_side (mem_settledOrders.mp hmem).2.2.1

theorem Accepted.buySide (h : Accepted program tx)
    (hmem : (c, order) ∈ settledOrders program tx.inputs sideBuy maker) : BuySide tx c order :=
  (h.settles hmem).buy_side (mem_settledOrders.mp hmem).2.2.1

/-- The outputs of a seller cover each of its claims. -/
theorem Accepted.covers_sellers (h : Accepted program tx) :
    largest (sellClaims program tx.inputs maker) ≤ totalCapacity (plainOutputs tx maker) := by
  refine largest_le fun x hx => ?_
  obtain ⟨⟨c, order⟩, hmem, rfl⟩ := List.mem_map.mp hx
  have hpaid := (h.sellSide hmem).paid
  rwa [(mem_settledOrders.mp hmem).2.2.2.1] at hpaid

/-- A buyer receives exactly what each of its claims asks for. -/
theorem Accepted.meets_buyers (h : Accepted program tx) {x : ℕ}
    (hx : x ∈ buyClaims program tx.inputs maker token) :
    x = totalAmount (tokenOutputs tx maker token) := by
  obtain ⟨⟨c, order⟩, hmem, rfl⟩ := List.mem_map.mp hx
  obtain ⟨hmem, htoken⟩ := List.mem_filter.mp hmem
  have hreceived := (h.buySide hmem).received
  rw [(mem_settledOrders.mp hmem).2.2.2.1, of_decide_eq_true htoken] at hreceived
  exact hreceived.symm

/-- Single claims are paid in full. -/
theorem Accepted.paid (h : Accepted program tx) (hsingle : SingleClaims program tx.inputs) :
    Paid program tx where
  sellers maker := (sum_le_largest_iff.mpr (hsingle.sellers maker)).trans h.covers_sellers
  buyers maker token := (sum_le_largest_iff.mpr (hsingle.buyers maker token)).trans
    (largest_le fun _ hx => (h.meets_buyers hx).le)

/-- Orders under one identity are a pair, so no maker has two claims on a side. -/
theorem Accepted.single_of_identity {identity : Identity} (h : Accepted [identity] tx) :
    SingleClaims [identity] tx.inputs := by
  have hshort : ∀ side maker, (settledOrders [identity] tx.inputs side maker).length ≤ 1 := by
    intro side maker
    cases hs : settledOrders [identity] tx.inputs side maker with
    | nil => simp
    | cons o rest =>
        obtain ⟨c, order⟩ := o
        have hmem : (c, order) ∈ settledOrders [identity] tx.inputs side maker := by simp [hs]
        obtain ⟨buy, sell, b, s, hpair⟩ := (h.settles hmem).pair
        have hidentity : identityOf c.lock = identity := by
          simpa using (mem_orderCells.mp (mem_settledOrders.mp hmem).1).2
        have hcells : orderCells [identity] tx.inputs = dexInputs tx c.lock := by
          refine List.filter_congr fun d _ => ?_
          simp [sameIdentity, ← hidentity, identityOf]
        have hbuy := parseOrderArgs_eq_ok.mpr ⟨hpair.buy_formed, hpair.buy_terms⟩
        have hsell := parseOrderArgs_eq_ok.mpr ⟨hpair.sell_formed, hpair.sell_terms⟩
        -- Of the two orders of a pair only one is on the side.
        have hone : settledOrder tx.inputs side maker buy = none ∨
            settledOrder tx.inputs side maker sell = none := by
          by_cases hside : b.side = side
          · refine Or.inr (settledOrder_eq_none hsell ?_)
            rw [← hside, hpair.buy_side, hpair.sell_side]
            decide
          · exact Or.inl (settledOrder_eq_none hbuy hside)
        rw [← hs, settledOrders, hcells]
        rcases hpair.inputs with hin | hin <;> rw [hin] <;> rcases hone with hnone | hnone
        · rw [List.filterMap_cons_none hnone]
          exact List.length_filterMap_le _ _
        · cases hb : settledOrder tx.inputs side maker buy <;> simp [hb, hnone]
        · cases hb : settledOrder tx.inputs side maker sell <;> simp [hb, hnone]
        · rw [List.filterMap_cons_none hnone]
          exact List.length_filterMap_le _ _
  constructor
  · intro maker
    refine (List.length_filter_le _ _).trans ?_
    rw [sellClaims, List.length_map]
    exact hshort _ _
  · intro maker token
    refine (List.length_filter_le _ _).trans ?_
    rw [buyClaims, List.length_map]
    exact (List.length_filter_le _ _).trans (hshort _ _)

/-- The outputs with the plain CKB of a maker replaced by one payment. -/
def payOnce (payment : Cell) (outputs : List Cell) : List Cell :=
  (outputs.filter fun c => ¬(c.lockHash = payment.lockHash ∧ c.typeHash = none)) ++ [payment]

section
variable {payment : Cell}

theorem plainOutputs_payOnce (hplain : payment.typeHash = none) (outputs : List Cell) :
    plainOutputs ⟨inputs, payOnce payment outputs⟩ payment.lockHash = [payment] := by
  simp only [plainOutputs, payOnce, List.filter_append, List.filter_filter]
  rw [List.filter_eq_nil_iff.mpr, List.nil_append]
  · simp [hplain]
  · intro c _
    simp only [decide_not, Bool.and_eq_true, decide_eq_true_eq, Bool.not_eq_true',
      decide_eq_false_iff_not, not_and_not_right]
    exact id

theorem plainOutputs_payOnce_of_ne (hne : maker ≠ payment.lockHash) :
    plainOutputs ⟨tx.inputs, payOnce payment tx.outputs⟩ maker = plainOutputs tx maker := by
  simp only [plainOutputs, payOnce, List.filter_append, List.filter_filter]
  have hlast : ([payment].filter fun c => decide (c.lockHash = maker ∧ c.typeHash = none)) = [] := by
    simp [hne.symm]
  rw [hlast, List.append_nil]
  refine List.filter_congr fun c _ => ?_
  by_cases hc : c.lockHash = maker ∧ c.typeHash = none
  · simp [hc, hne]
  · simp [hc]

theorem tokenOutputs_payOnce (hplain : payment.typeHash = none) :
    tokenOutputs ⟨tx.inputs, payOnce payment tx.outputs⟩ maker token = tokenOutputs tx maker token := by
  simp only [tokenOutputs, payOnce, List.filter_append, List.filter_filter]
  have hlast : ([payment].filter fun c =>
      decide (c.lockHash = maker ∧ c.typeHash = some token)) = [] := by
    simp [hplain]
  rw [hlast, List.append_nil]
  refine List.filter_congr fun c _ => ?_
  by_cases hc : c.lockHash = maker ∧ c.typeHash = some token
  · simp [hc]
  · simp [hc]

/-- The groups accept the one payment as long as it covers each claim of the
maker on its own. -/
theorem Accepted.paying_once (h : Accepted program tx) (hplain : payment.typeHash = none)
    (hsettled : ∀ input ∈ tx.inputs, input.lockHash ≠ payment.lockHash)
    (hcovers : largest (sellClaims program tx.inputs payment.lockHash) ≤ payment.capacity.toNat) :
    Accepted program ⟨tx.inputs, payOnce payment tx.outputs⟩ := by
  intro c hc
  have hin : c ∈ tx.inputs := (mem_orderCells.mp hc).1
  have hin' : c ∈ (⟨tx.inputs, payOnce payment tx.outputs⟩ : Tx).inputs := hin
  obtain ⟨hformed, order, hterms⟩ := wellFormed_of_accepted (h c hc)
  refine (accepted_iff hin' hformed hterms).mpr ?_
  rcases (accepted_iff hin hformed hterms).mp (h c hc) with hcancels | hsettles
  · left
    obtain ⟨input, hinput, hlock⟩ := hcancels.authorized
    obtain ⟨out, hout, hmaker, htype, hdata, hcapacity⟩ := hcancels.refund
    have hne : out.lockHash ≠ payment.lockHash := by
      rw [hmaker, ← hlock]
      exact hsettled input hinput
    refine ⟨⟨input, hinput, hlock⟩, hcancels.single, out, ?_, hmaker, htype, hdata, hcapacity⟩
    exact List.mem_append_left _ (List.mem_filter.mpr ⟨hout, by simp [hne]⟩)
  · right
    obtain ⟨buy, sell, b, s, hpair⟩ := hsettles.pair
    refine ⟨hsettles.unauthorized, ⟨buy, sell, b, s, ⟨hpair.inputs, hpair.buy_formed, hpair.buy_terms,
      hpair.buy_side, hpair.sell_formed, hpair.sell_terms, hpair.sell_side, hpair.token, hpair.amount,
      hpair.price⟩⟩, fun hside => ?_, fun hside => ?_⟩
    · obtain ⟨plain, readable, received, funded, returned⟩ := hsettles.buy_side hside
      rw [← tokenOutputs_payOnce hplain] at readable received funded returned
      exact ⟨plain, readable, received, funded, returned⟩
    · have hcheck := hsettles.sell_side hside
      obtain ⟨asset, readable, held, due_fits, paid_fits, paid⟩ := hcheck
      by_cases hmaker : order.makerLockHash = payment.lockHash
      · have hmem : (c, order) ∈ settledOrders program tx.inputs sideSell payment.lockHash :=
          mem_settledOrders.mpr ⟨hc, parseOrderArgs_eq_ok.mpr ⟨hformed, hterms⟩, hside, hmaker, hsettled⟩
        have hdue : c.capacity.toNat + order.price.toNat ≤ payment.capacity.toNat :=
          (le_largest (List.mem_map_of_mem hmem)).trans hcovers
        have htotal : totalCapacity (plainOutputs ⟨tx.inputs, payOnce payment tx.outputs⟩
            order.makerLockHash) = payment.capacity.toNat := by
          rw [hmaker, plainOutputs_payOnce hplain]
          simp [totalCapacity]
        have hfits := payment.capacity.isLt
        rw [← htotal] at hdue hfits
        exact ⟨asset, readable, held, due_fits, hfits, hdue⟩
      · rw [← plainOutputs_payOnce_of_ne hmaker] at paid_fits paid
        exact ⟨asset, readable, held, due_fits, paid_fits, paid⟩

/-- If every way to pay for the inputs that the groups accept pays all claims,
the claims are single. -/
theorem Accepted.single_of_paid (h : Accepted program tx)
    (hall : ∀ outputs, Accepted program ⟨tx.inputs, outputs⟩ → Paid program ⟨tx.inputs, outputs⟩) :
    SingleClaims program tx.inputs where
  sellers := by
    intro maker
    rw [← sum_le_largest_iff]
    by_cases hzero : largest (sellClaims program tx.inputs maker) = 0
    · have hnone : (standing (sellClaims program tx.inputs maker)).length ≤ 1 := by
        have hnil : standing (sellClaims program tx.inputs maker) = [] := by
          refine List.filter_eq_nil_iff.mpr fun x hx => ?_
          have hle := le_largest hx
          simp only [decide_eq_true_eq]
          omega
        simp [hnil]
      exact sum_le_largest_iff.mpr hnone
    · obtain ⟨x, hx⟩ : ∃ x, x ∈ sellClaims program tx.inputs maker := by
        refine List.exists_mem_of_ne_nil _ fun hnil => hzero ?_
        rw [hnil]
        rfl
      obtain ⟨⟨c, order⟩, hmem, -⟩ := List.mem_map.mp hx
      obtain ⟨-, -, -, hmaker, hsettled⟩ := mem_settledOrders.mp hmem
      have hcovers : largest (sellClaims program tx.inputs maker) ≤
          totalCapacity (plainOutputs tx maker) := h.covers_sellers
      have hfits : totalCapacity (plainOutputs tx maker) < 2 ^ 64 := hmaker ▸ (h.sellSide hmem).paid_fits
      -- One of the maker's outputs is kept, with the largest claim as its capacity.
      obtain ⟨out, hout⟩ : ∃ out, out ∈ plainOutputs tx maker := by
        refine List.exists_mem_of_ne_nil _ fun hnil => hzero ?_
        rw [hnil] at hcovers
        exact Nat.le_zero.mp hcovers
      obtain ⟨hlock, htype⟩ : out.lockHash = maker ∧ out.typeHash = none := by
        simpa using (List.mem_filter.mp hout).2
      obtain ⟨payment, hpayment, hplain, hcapacity⟩ : ∃ payment : Cell, payment.lockHash = maker ∧
          payment.typeHash = none ∧
          payment.capacity.toNat = largest (sellClaims program tx.inputs maker) := by
        refine ⟨{ out with capacity := BitVec.ofNat 64 (largest (sellClaims program tx.inputs maker)) },
          hlock, htype, ?_⟩
        rw [BitVec.toNat_ofNat, Nat.mod_eq_of_lt (by omega)]
      subst hpayment
      have hpaid := (hall _ (h.paying_once hplain hsettled hcapacity.ge)).sellers payment.lockHash
      have htotal : totalCapacity (plainOutputs ⟨tx.inputs, payOnce payment tx.outputs⟩
          payment.lockHash) = payment.capacity.toNat := by
        rw [plainOutputs_payOnce hplain]
        simp [totalCapacity]
      rw [htotal, hcapacity] at hpaid
      exact hpaid
  buyers := by
    intro maker token
    rw [← sum_le_largest_iff]
    have hpaid := (hall tx.outputs h).buyers maker token
    cases hclaims : buyClaims program tx.inputs maker token with
    | nil => exact Nat.le_refl 0
    | cons x claims =>
        have hx : x ∈ buyClaims program tx.inputs maker token := by simp [hclaims]
        have htotal := h.meets_buyers hx
        rw [← hclaims]
        exact hpaid.trans (htotal ▸ le_largest hx)

end

end

/-- An accepted transaction pays all settled orders when no maker has two that
ask for something; with the same inputs every accepted transaction does exactly
then. -/
theorem paid_iff_single {program : List Identity} {tx : Tx} (h : Accepted program tx) :
    (SingleClaims program tx.inputs → Paid program tx) ∧
      ((∀ outputs, Accepted program ⟨tx.inputs, outputs⟩ → Paid program ⟨tx.inputs, outputs⟩) ↔
        SingleClaims program tx.inputs) := by
  refine ⟨h.paid, h.single_of_paid, fun hsingle outputs haccepted => ?_⟩
  exact haccepted.paid hsingle

/-- A pair of orders under one identity. -/
theorem paid_iff_single_example : Paid [identityOf exampleBuy.lock] exampleSettlement := by
  have haccepted : Accepted [identityOf exampleBuy.lock] exampleSettlement := by
    unfold Accepted
    decide
  exact (paid_iff_single haccepted).1 haccepted.single_of_identity

/-- A cell under another identity of its program. -/
def underOther (c : Cell) : Cell :=
  { c with lock := { c.lock with codeHash := exampleHash 6, hashType := .data1 } }

def exampleProgram : List Identity := [(exampleHash 7, .type), (exampleHash 6, .data1)]

/-- Two pairs of orders with one seller, whose single output of 25000 both sell
orders count; the price of the second order goes to someone else. -/
def exampleShared : Tx where
  inputs := [exampleBuy, exampleSell,
    underOther (exampleOrderCell (exampleOrder sideBuy (exampleHash 11)) (exampleHash 13) 40000),
    underOther (exampleOrderCell (exampleOrder sideSell (exampleHash 2)) (exampleHash 14) 20000)]
  outputs := [
    ⟨⟨exampleHash 8, .type, []⟩, exampleHash 2, none, 25000, []⟩,
    ⟨⟨exampleHash 8, .type, []⟩, exampleHash 1, some (exampleHash 9), 34000, exampleSell.data⟩,
    ⟨⟨exampleHash 8, .type, []⟩, exampleHash 11, some (exampleHash 9), 34000, exampleSell.data⟩,
    ⟨⟨exampleHash 8, .type, []⟩, exampleHash 15, none, 26000, []⟩]

theorem shared_payment_accepted : Accepted exampleProgram exampleShared ∧
    totalCapacity exampleShared.outputs ≤ totalCapacity exampleShared.inputs ∧
    ¬Paid exampleProgram exampleShared := by
  refine ⟨?_, by decide, fun h => ?_⟩
  · unfold Accepted
    decide
  · have hseller := h.sellers (exampleHash 2)
    revert hseller
    decide

end CkbDex.ScriptIdentities
