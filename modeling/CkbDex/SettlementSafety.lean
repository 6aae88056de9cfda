import CkbDex.OrderLockRules

/-!
# Settlement safety of the order lock

The two groups of a settlement run separately and each checks its own side.
Together with conservation over the whole transaction they bound what any
third party can take out of it.
-/
namespace CkbDex.SettlementSafety
open Checked Bytes CellContext OrderLock OrderLockRules

theorem sum_filter_add_not {α : Type*} (p : α → Bool) (f : α → ℕ) (xs : List α) :
    ((xs.filter p).map f).sum + ((xs.filter fun x => !p x).map f).sum = (xs.map f).sum := by
  induction xs with
  | nil => rfl
  | cons x xs ih =>
      by_cases hp : p x = true
      · simp only [List.filter_cons, hp, if_true, Bool.not_true, Bool.false_eq_true, if_false,
          List.map_cons, List.sum_cons]
        omega
      · simp only [List.filter_cons, hp, Bool.not_false, if_false, if_true, List.map_cons,
          List.sum_cons, Bool.false_eq_true]
        omega

/-- Two disjoint selections and the rest make up the whole list. -/
theorem sum_filter_three {α : Type*} {p q : α → Bool} (hdisjoint : ∀ x, q x = true → p x = false)
    (f : α → ℕ) (xs : List α) :
    ((xs.filter p).map f).sum + ((xs.filter q).map f).sum +
      ((xs.filter fun x => !p x && !q x).map f).sum = (xs.map f).sum := by
  have hp := sum_filter_add_not p f xs
  have hq := sum_filter_add_not q f (xs.filter fun x => !p x)
  rw [List.filter_filter, List.filter_filter] at hq
  have hqp : (xs.filter fun x => q x && !p x) = xs.filter q := by
    refine List.filter_congr fun x _ => ?_
    cases hx : q x with
    | false => rfl
    | true => rw [hdisjoint x hx, Bool.not_false, Bool.and_true]
  have hrest : (xs.filter fun x => !q x && !p x) = xs.filter fun x => !p x && !q x :=
    List.filter_congr fun x _ => Bool.and_comm ..
  rw [hqp, hrest] at hq
  omega

/-- Tokens of a type held by cells. -/
def tokensOf (token : Hash) (cells : List Cell) : ℕ :=
  totalAmount (cells.filter fun c => c.typeHash = some token)

/-- The inputs that are not DEX orders. -/
def otherInputs (tx : Tx) (script : Script) : List Cell :=
  tx.inputs.filter fun c => !sameIdentity script c.lock

/-- The outputs that are neither the buyer's tokens nor plain CKB of the
seller. -/
def otherOutputs (tx : Tx) (buyer seller token : Hash) : List Cell :=
  tx.outputs.filter fun c => !decide (c.lockHash = buyer ∧ c.typeHash = some token) &&
    !decide (c.lockHash = seller ∧ c.typeHash = none)

theorem totalCapacity_inputs (tx : Tx) (script : Script) :
    totalCapacity (dexInputs tx script) + totalCapacity (otherInputs tx script) =
      totalCapacity tx.inputs :=
  sum_filter_add_not _ _ _

theorem token_plain_disjoint {buyer seller token : Hash} (c : Cell)
    (h : decide (c.lockHash = seller ∧ c.typeHash = none) = true) :
    decide (c.lockHash = buyer ∧ c.typeHash = some token) = false := by
  rw [decide_eq_true_eq] at h
  rw [decide_eq_false_iff_not]
  rintro ⟨-, ht⟩
  rw [h.2] at ht
  cases ht

theorem totalCapacity_outputs (tx : Tx) (buyer seller token : Hash) :
    totalCapacity (tokenOutputs tx buyer token) + totalCapacity (plainOutputs tx seller) +
      totalCapacity (otherOutputs tx buyer seller token) = totalCapacity tx.outputs :=
  sum_filter_three token_plain_disjoint _ _

theorem tokensOf_filter (token : Hash) (p : Cell → Bool) (cells : List Cell) :
    tokensOf token (cells.filter p) =
      (((cells.filter fun c => c.typeHash = some token).filter p).map heldAmount).sum := by
  rw [tokensOf, totalAmount, List.filter_filter, List.filter_filter]
  exact congrArg (fun xs => (List.map heldAmount xs).sum)
    (List.filter_congr fun c _ => Bool.and_comm ..)

theorem tokensOf_inputs (token : Hash) (tx : Tx) (script : Script) :
    tokensOf token (dexInputs tx script) + tokensOf token (otherInputs tx script) =
      tokensOf token tx.inputs := by
  rw [dexInputs, otherInputs, tokensOf_filter, tokensOf_filter]
  exact sum_filter_add_not _ _ _

theorem tokensOf_outputs (tx : Tx) (buyer seller token : Hash) :
    totalAmount (tokenOutputs tx buyer token) +
      tokensOf token (otherOutputs tx buyer seller token) = tokensOf token tx.outputs := by
  have hplain : tokensOf token (plainOutputs tx seller) = 0 := by
    rw [tokensOf, plainOutputs, List.filter_filter, totalAmount]
    rw [List.filter_eq_nil_iff.mpr]
    · rfl
    · intro c _ h
      simp only [Bool.and_eq_true, decide_eq_true_eq] at h
      rw [h.2.2] at h
      cases h.1
  have htoken : tokensOf token (tokenOutputs tx buyer token) =
      totalAmount (tokenOutputs tx buyer token) := by
    rw [tokensOf, tokenOutputs, List.filter_filter]
    refine congrArg totalAmount (List.filter_congr fun c _ => ?_)
    by_cases ht : c.typeHash = some token <;> simp [ht]
  have hall : tokensOf token (tokenOutputs tx buyer token) +
      tokensOf token (plainOutputs tx seller) +
      tokensOf token (otherOutputs tx buyer seller token) = tokensOf token tx.outputs := by
    simp only [tokenOutputs, plainOutputs, otherOutputs, tokensOf_filter]
    exact sum_filter_three token_plain_disjoint _ _
  rw [htoken, hplain, Nat.add_zero] at hall
  exact hall

/-- What holds of a transaction in which both orders of a settlement were
accepted: the pair is alone, and each maker receives what its args declare. -/
structure SafeSettlement (tx : Tx) (script : Script) (buy sell : Cell) (b s : OrderArgs) :
    Prop where
  pair : Pair tx script buy sell b s
  no_maker : ∀ c ∈ tx.inputs, c.lockHash ≠ b.makerLockHash ∧ c.lockHash ≠ s.makerLockHash
  sold : sell.typeHash = some b.xudtTypeHash ∧ heldAmount sell = b.tokenAmount.toNat
  unspent_type : buy.typeHash = none
  received : totalAmount (tokenOutputs tx b.makerLockHash b.xudtTypeHash) = b.tokenAmount.toNat
  kept : b.price.toNat + totalCapacity (tokenOutputs tx b.makerLockHash b.xudtTypeHash) ≤
    buy.capacity.toNat
  returned : buy.capacity.toNat ≤ b.price.toNat +
    totalCapacity (tokenOutputs tx b.makerLockHash b.xudtTypeHash) + 10000
  paid : sell.capacity.toNat + b.price.toNat ≤ totalCapacity (plainOutputs tx s.makerLockHash)
  disjoint : List.Disjoint (tokenOutputs tx b.makerLockHash b.xudtTypeHash)
    (plainOutputs tx s.makerLockHash)

section
variable {tx : Tx} {script : Script} {buy sell : Cell} {b s : OrderArgs}

theorem tokenOutputs_disjoint (buyer seller token : Hash) :
    List.Disjoint (tokenOutputs tx buyer token) (plainOutputs tx seller) := by
  intro c ht hp
  have h₁ := (List.mem_filter.mp ht).2
  have h₂ := (List.mem_filter.mp hp).2
  rw [token_plain_disjoint c h₂] at h₁
  cases h₁

/-- The capacity that leaves the pair, to other outputs or as a fee, exceeds
what others brought in by at most the fee cap. -/
theorem SafeSettlement.capacity_bound (h : SafeSettlement tx script buy sell b s)
    (hbalance : totalCapacity tx.outputs ≤ totalCapacity tx.inputs) :
    totalCapacity (otherOutputs tx b.makerLockHash s.makerLockHash b.xudtTypeHash) +
        (totalCapacity tx.inputs - totalCapacity tx.outputs) ≤
      totalCapacity (otherInputs tx script) + 10000 := by
  have hin := totalCapacity_inputs tx script
  have hout := totalCapacity_outputs tx b.makerLockHash s.makerLockHash b.xudtTypeHash
  have hpair : totalCapacity (dexInputs tx script) =
      buy.capacity.toNat + sell.capacity.toNat := by
    rcases h.pair.inputs with e | e <;> rw [e] <;> simp [totalCapacity]
    omega
  have hret := h.returned
  have hpaid := h.paid
  omega

/-- No token of the traded type leaves the pair. -/
theorem SafeSettlement.token_bound (h : SafeSettlement tx script buy sell b s)
    (hbalance : tokensOf b.xudtTypeHash tx.outputs ≤ tokensOf b.xudtTypeHash tx.inputs) :
    tokensOf b.xudtTypeHash
        (otherOutputs tx b.makerLockHash s.makerLockHash b.xudtTypeHash) ≤
      tokensOf b.xudtTypeHash (otherInputs tx script) := by
  have hin := tokensOf_inputs b.xudtTypeHash tx script
  have hout := tokensOf_outputs tx b.makerLockHash s.makerLockHash b.xudtTypeHash
  have hbuy := h.unspent_type
  obtain ⟨hsell, hheld⟩ := h.sold
  have hpair : tokensOf b.xudtTypeHash (dexInputs tx script) = b.tokenAmount.toNat := by
    rcases h.pair.inputs with e | e <;> rw [e] <;>
      simp [tokensOf, totalAmount, hbuy, hsell, hheld]
  have hrec := h.received
  omega

theorem safeSettlement_of_settles (hpair : Pair tx script buy sell b s)
    (hbuy : Settles tx buy b) (hsell : Settles tx sell s) :
    SafeSettlement tx script buy sell b s := by
  have hb := hbuy.buy_side hpair.buy_side
  have hs := hsell.sell_side hpair.sell_side
  have hheld := hs.held
  have hpaid := hs.paid
  rw [← hpair.amount] at hheld
  rw [← hpair.price] at hpaid
  refine ⟨hpair, fun c hc => ⟨hbuy.unauthorized c hc, hsell.unauthorized c hc⟩, ⟨?_, hheld⟩,
    hb.plain, hb.received, hb.funded, hb.returned, hpaid, tokenOutputs_disjoint ..⟩
  rw [hpair.token]
  exact hs.asset

end

/-- A settlement in which every DEX input is accepted is safe for both makers,
and nothing but the fee cap can be taken out of it. -/
theorem settlement_safe {tx : Tx} {own : Cell} {order : OrderArgs} (hown : own ∈ tx.inputs)
    (hterms : Declares own.lock.args order)
    (hsettle : ∀ c ∈ tx.inputs, c.lockHash ≠ order.makerLockHash)
    (haccept : ∀ c ∈ dexInputs tx own.lock, programEntry { tx, script := c.lock } = 0) :
    ∃ buy sell b s, SafeSettlement tx own.lock buy sell b s ∧
      (totalCapacity tx.outputs ≤ totalCapacity tx.inputs →
        totalCapacity (otherOutputs tx b.makerLockHash s.makerLockHash b.xudtTypeHash) +
            (totalCapacity tx.inputs - totalCapacity tx.outputs) ≤
          totalCapacity (otherInputs tx own.lock) + 10000) ∧
      (tokensOf b.xudtTypeHash tx.outputs ≤ tokensOf b.xudtTypeHash tx.inputs →
        tokensOf b.xudtTypeHash
            (otherOutputs tx b.makerLockHash s.makerLockHash b.xudtTypeHash) ≤
          tokensOf b.xudtTypeHash (otherInputs tx own.lock)) := by
  have hself := haccept own (mem_dexInputs_self hown)
  obtain ⟨hw, -⟩ := wellFormed_of_accepted hself
  have hmine : Settles tx own order := by
    rcases (accepted_iff hown hw hterms).mp hself with h | h
    · obtain ⟨c, hc, he⟩ := h.authorized
      exact (hsettle c hc he).elim
    · exact h
  obtain ⟨buy, sell, b, s, hpair⟩ := hmine.pair
  have hmem : buy ∈ dexInputs tx own.lock ∧ sell ∈ dexInputs tx own.lock := by
    rcases hpair.inputs with e | e <;> simp [e]
  have htwo : (dexInputs tx own.lock).length = 2 := by
    rcases hpair.inputs with e | e <;> rw [e] <;> rfl
  -- With two DEX inputs neither group can have taken its cancellation branch.
  have hbranch : ∀ c o, c ∈ dexInputs tx own.lock → WellFormed c.lock.args →
      Declares c.lock.args o → Settles tx c o := by
    intro c o hc hwc hdc
    have hin := (List.mem_filter.mp hc).1
    rcases (accepted_iff hin hwc hdc).mp (haccept c hc) with h | h
    · have hone := h.single
      rw [dexInputs_congr (sameIdentity_of_mem hc), htwo] at hone
      cases hone
    · exact h
  have hsafe := safeSettlement_of_settles hpair
    (hbranch buy b hmem.1 hpair.buy_formed hpair.buy_terms)
    (hbranch sell s hmem.2 hpair.sell_formed hpair.sell_terms)
  exact ⟨buy, sell, b, s, hsafe, hsafe.capacity_bound, hsafe.token_bound⟩

theorem settlement_safe_example :
    ∃ buy sell b s, SafeSettlement exampleSettlement exampleBuy.lock buy sell b s ∧
      (totalCapacity exampleSettlement.outputs ≤ totalCapacity exampleSettlement.inputs →
        totalCapacity (otherOutputs exampleSettlement b.makerLockHash s.makerLockHash
            b.xudtTypeHash) +
            (totalCapacity exampleSettlement.inputs - totalCapacity exampleSettlement.outputs) ≤
          totalCapacity (otherInputs exampleSettlement exampleBuy.lock) + 10000) ∧
      (tokensOf b.xudtTypeHash exampleSettlement.outputs ≤
          tokensOf b.xudtTypeHash exampleSettlement.inputs →
        tokensOf b.xudtTypeHash (otherOutputs exampleSettlement b.makerLockHash s.makerLockHash
            b.xudtTypeHash) ≤
          tokensOf b.xudtTypeHash (otherInputs exampleSettlement exampleBuy.lock)) := by
  have hterms : Declares exampleBuy.lock.args (exampleOrder sideBuy (exampleHash 1)) :=
    (parseOrderArgs_eq_ok.mp (by decide)).2
  exact settlement_safe (by simp [exampleSettlement]) hterms (by decide) (by decide)

end CkbDex.SettlementSafety
