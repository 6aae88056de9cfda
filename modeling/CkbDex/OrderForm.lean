import CkbDex.OrderFormat
import CkbDex.PlainDecimals

/-!
# The order form

The texts of the order form and the order they stand for. Prices are for a whole
token; the order holds their total, rounded down. The client library's reading
of a decimal is a parameter.
-/
namespace CkbDex.OrderForm
open Checked Bytes CellContext OrderLock OrderLockRules Text Documents OrderFormat PlainDecimals

inductive FormSide
  | long
  | short
  deriving DecidableEq, Repr

structure FormValues where
  side : FormSide
  orderPrice : String
  amount : String

structure Token where
  symbol : String
  decimals : ℕ

structure FormError where
  field : Option String
  error : String
  deriving DecidableEq, Repr

structure Draft where
  side : FormSide
  contractSide : ℕ
  pricePerToken : ℤ
  tokenAmount : ℤ
  totalPrice : ℤ
  deriving DecidableEq, Repr

def CKB_DECIMALS : ℕ := 8

def MAX_U64 : ℤ := 0xffffffffffffffff

def SIDE_BUY : ℕ := 0

def SIDE_SELL : ℕ := 1

section
variable (fixedPointFrom : List Char → ℕ → ℤ)

def parseUnits (text : String) (decimals : ℕ) : Option ℤ :=
  let s := trim text.toList
  if decimal.rmatch s = false then none
  else
    let frac := (s.splitOn '.').getD 1 []
    if frac.length > decimals then none else some (fixedPointFrom s decimals)

def buildOrderDraft (form : FormValues) (token : Option Token) : Except FormError Draft := do
  let token ← okOr token ⟨none, "Trading is unavailable because no market token is configured."⟩
  let symbol := token.symbol
  let decimals := token.decimals
  throwIf (trim form.orderPrice.toList = [])
    ⟨some "orderPrice", "Enter the price in CKB you want per token."⟩
  let pricePerToken ← okOr (parseUnits fixedPointFrom form.orderPrice CKB_DECIMALS)
    ⟨some "orderPrice", "Order price must be a number with at most 8 decimal places (e.g. 12.5)."⟩
  throwIf (pricePerToken ≤ 0) ⟨some "orderPrice", "Order price must be greater than 0 CKB."⟩
  let verb := if form.side = .long then "buy" else "sell"
  throwIf (trim form.amount.toList = [])
    ⟨some "amount", s!"Enter how many {symbol} you want to {verb}."⟩
  let tokenAmount ← okOr (parseUnits fixedPointFrom form.amount decimals)
    ⟨some "amount",
      if decimals ≠ 0 then s!"Amount must be a number with at most {decimals} decimal places."
      else s!"{symbol} can't be split — enter a whole number."⟩
  throwIf (tokenAmount ≤ 0) ⟨some "amount", s!"Amount must be greater than 0 {symbol}."⟩
  let totalPrice := (pricePerToken * tokenAmount).tdiv (10 ^ decimals)
  throwIf (totalPrice ≤ 0)
    ⟨some "orderPrice", "The order total rounds down to 0 CKB — raise the price or amount."⟩
  throwIf (totalPrice > MAX_U64)
    ⟨some "amount", "The order total is larger than the contract allows. Reduce the price or amount."⟩
  return {
    side := form.side
    contractSide := if form.side = .long then SIDE_BUY else SIDE_SELL
    pricePerToken
    tokenAmount
    totalPrice }

/-- `ccc.fixedPointFrom` gives a plain decimal in units, when the units are fine
enough. -/
def ParsesExactly : Prop :=
  ∀ text whole frac decimals, Writes text whole frac → frac.length ≤ decimals →
    (fixedPointFrom text decimals : ℚ) = numberOf whole frac * 10 ^ decimals

end

/-- The text writes `units` units of a number, with the given number of digits for
the units. -/
def Reads (text : List Char) (decimals units : ℕ) : Prop :=
  ∃ whole frac, Writes text whole frac ∧ frac.length ≤ decimals ∧
    (units : ℚ) = numberOf whole frac * 10 ^ decimals

/-- The draft of a price and an amount. -/
def draftOf (side : FormSide) (price amount decimals : ℕ) : Draft where
  side
  contractSide := if side = .long then SIDE_BUY else SIDE_SELL
  pricePerToken := price
  tokenAmount := amount
  totalPrice := (price * amount / 10 ^ decimals : ℕ)

section
variable {fixedPointFrom : List Char → ℕ → ℤ} {form : FormValues} {token : Token} {draft : Draft}

/-- A text is parsed exactly when it writes a number of units. -/
theorem parseUnits_eq_some (hexact : ParsesExactly fixedPointFrom) {text : String} {decimals : ℕ} {v : ℤ} :
    parseUnits fixedPointFrom text decimals = some v ↔
      ∃ units : ℕ, v = units ∧ Reads (trim text.toList) decimals units := by
  unfold parseUnits
  dsimp only
  constructor
  · intro h
    split_ifs at h with hmatch hlong
    obtain ⟨whole, frac, hwrites⟩ := decimal_rmatch_iff.mp (eq_true_of_ne_false hmatch)
    rw [hwrites.split_frac, not_lt] at hlong
    have hvalue := hexact _ whole frac decimals hwrites hlong
    have hunits := numberOf_mul_pow whole hlong
    rw [Option.some_inj.mp h] at hvalue
    refine ⟨valueOf whole * 10 ^ decimals + valueOf frac * 10 ^ (decimals - frac.length), ?_, ?_⟩
    · have hsame := hvalue.trans hunits
      exact_mod_cast hsame
    · exact ⟨whole, frac, hwrites, hlong, hunits.symm⟩
  · rintro ⟨units, rfl, whole, frac, hwrites, hlong, hunits⟩
    have hmatch := decimal_rmatch_iff.mpr ⟨whole, frac, hwrites⟩
    have hvalue := (hexact _ whole frac decimals hwrites hlong).trans hunits.symm
    rw [if_neg (by simp [hmatch])]
    simp only [hwrites.split_frac, if_neg (not_lt.mpr hlong), Option.some_inj]
    exact_mod_cast hvalue

theorem Reads.ne_nil {text : List Char} {decimals units : ℕ} (h : Reads text decimals units) : text ≠ [] := by
  obtain ⟨whole, frac, hwrites, -⟩ := h
  rcases hwrites.text with ⟨rfl, rfl⟩ | rfl
  · exact hwrites.nonempty.resolve_right (not_not.mpr rfl)
  · exact List.append_ne_nil_of_right_ne_nil whole (List.cons_ne_nil '.' frac)

/-- A plain decimal has no spaces around it. -/
theorem Reads.trim {text : List Char} {decimals units : ℕ} (h : Reads text decimals units) :
    Text.trim text = text := by
  obtain ⟨whole, frac, hwrites, -⟩ := h
  exact hwrites.trim

/-- The form accepts texts of a positive price and a positive amount whose total is
in range, and nothing else. -/
theorem buildOrderDraft_eq_ok (hexact : ParsesExactly fixedPointFrom) :
    buildOrderDraft fixedPointFrom form (some token) = .ok draft ↔
      ∃ price amount : ℕ, Reads (trim form.orderPrice.toList) CKB_DECIMALS price ∧
        Reads (trim form.amount.toList) token.decimals amount ∧ 0 < price ∧ 0 < amount ∧
        0 < price * amount / 10 ^ token.decimals ∧ price * amount / 10 ^ token.decimals < 2 ^ 64 ∧
        draft = draftOf form.side price amount token.decimals := by
  unfold buildOrderDraft
  simp only [bind_eq_ok, okOr_eq_ok, throwIf_eq_ok, Option.some_inj, exists_const, exists_eq_left',
    parseUnits_eq_some hexact]
  have htotal : ∀ price amount : ℕ, ((price : ℤ) * (amount : ℤ)).tdiv (10 ^ token.decimals) =
      (price * amount / 10 ^ token.decimals : ℕ) := by
    intro price amount
    rw [Int.tdiv_eq_ediv_of_nonneg (by positivity)]
    push_cast
    rfl
  constructor
  · rintro ⟨-, _, ⟨price, rfl, hprice⟩, hpos, -, _, ⟨amount, rfl, hamount⟩, hpos', hlow, hhigh, hdraft⟩
    rw [htotal] at hlow hhigh
    refine ⟨price, amount, hprice, hamount, by omega, by omega, by omega, ?_, ?_⟩
    · unfold MAX_U64 at hhigh
      omega
    · rw [← Except.ok.inj hdraft, htotal]
      rfl
  · rintro ⟨price, amount, hprice, hamount, hpos, hpos', hlow, hhigh, rfl⟩
    refine ⟨hprice.ne_nil, price, ⟨price, rfl, hprice⟩, by omega, hamount.ne_nil, amount,
      ⟨amount, rfl, hamount⟩, by omega, ?_, ?_, ?_⟩
    · rw [htotal]
      omega
    · rw [htotal]
      unfold MAX_U64
      omega
    · rw [htotal]
      rfl

/-- The total bounds the amount: a token has at most nineteen decimals, and a price
is at least one unit. -/
theorem amount_lt {price amount decimals : ℕ} (hdecimals : decimals ≤ 19) (hprice : 0 < price)
    (htotal : price * amount / 10 ^ decimals < 2 ^ 64) : amount < 2 ^ 128 := by
  have hproduct : price * amount < 2 ^ 64 * 10 ^ decimals :=
    (Nat.div_lt_iff_lt_mul (by positivity)).mp htotal
  have hunits : 10 ^ decimals ≤ 10 ^ 19 := Nat.pow_le_pow_right (by decide) hdecimals
  calc
    amount ≤ price * amount := Nat.le_mul_of_pos_left amount hprice
    _ < 2 ^ 64 * 10 ^ decimals := hproduct
    _ ≤ 2 ^ 64 * 10 ^ 19 := Nat.mul_le_mul_left _ hunits
    _ < 2 ^ 128 := by norm_num

/-- The input of the lock for a draft. -/
def lockInput (draft : Draft) (makerLockHash xudtTypeHash : Hex) : DexLockInput where
  side := draft.contractSide
  makerLockHash
  xudtTypeHash
  tokenAmount := draft.tokenAmount
  price := draft.totalPrice

theorem lock_of_draft {numLeToBytes : ℤ → ℕ → Except Failure (List Byte)} (hpads : Pads numLeToBytes)
    (dexScript : Script) {makerLockHash xudtTypeHash : Hex}
    (hmaker : (hashFrom makerLockHash).isSome = true) (htoken : (hashFrom xudtTypeHash).isSome = true)
    {side : FormSide} {price amount decimals : ℕ} (hamount : amount < 2 ^ 128)
    (htotal : price * amount / 10 ^ decimals < 2 ^ 64) :
    ∃ args order,
      buildDexLock numLeToBytes dexScript
          (lockInput (draftOf side price amount decimals) makerLockHash xudtTypeHash) =
        .ok { dexScript with args } ∧
      parseOrderArgs args = .ok order ∧
      (lockInput (draftOf side price amount decimals) makerLockHash xudtTypeHash).Describes order := by
  have hvalid : (lockInput (draftOf side price amount decimals) makerLockHash xudtTypeHash).Valid := by
    constructor
    · cases side with
      | long => exact Or.inl rfl
      | short => exact Or.inr rfl
    · exact hmaker
    · exact htoken
  have hfits : (lockInput (draftOf side price amount decimals) makerLockHash xudtTypeHash).Fits := by
    have hamount : (amount : ℤ) < 2 ^ 128 := by exact_mod_cast hamount
    have htotal : ((price * amount / 10 ^ decimals : ℕ) : ℤ) < 2 ^ 64 := by exact_mod_cast htotal
    exact ⟨⟨Int.natCast_nonneg amount, hamount⟩, Int.natCast_nonneg _, htotal⟩
  obtain ⟨order, hdescribes, hside⟩ := exists_describes hvalid hfits
  exact ⟨orderArgs order, order, buildDexLock_eq hpads hdescribes, parseOrderArgs_orderArgs hside,
    hdescribes⟩

end

/-- A draft of the form stands for the numbers that its texts write, and its order
reads back as the draft; and every price and amount with a total in range has a
draft. -/
theorem drafts_encode_exactly {fixedPointFrom : List Char → ℕ → ℤ} (hexact : ParsesExactly fixedPointFrom)
    {numLeToBytes : ℤ → ℕ → Except Failure (List Byte)} (hpads : Pads numLeToBytes)
    (dexScript : Script) (form : FormValues) (token : Token) (hdecimals : token.decimals ≤ 19) :
    (∀ draft, buildOrderDraft fixedPointFrom form (some token) = .ok draft →
      (∃ price amount : ℕ, Reads (trim form.orderPrice.toList) CKB_DECIMALS price ∧
        Reads (trim form.amount.toList) token.decimals amount ∧ draft.side = form.side ∧
        draft.pricePerToken = price ∧ draft.tokenAmount = amount ∧ 0 < amount ∧
        draft.totalPrice = (price * amount / 10 ^ token.decimals : ℕ)) ∧
      1 ≤ draft.totalPrice ∧ draft.totalPrice < 2 ^ 64 ∧ draft.tokenAmount < 2 ^ 128 ∧
      ∀ makerLockHash xudtTypeHash : Hex, (hashFrom makerLockHash).isSome = true →
        (hashFrom xudtTypeHash).isSome = true → ∃ args order,
          buildDexLock numLeToBytes dexScript (lockInput draft makerLockHash xudtTypeHash) =
            .ok { dexScript with args } ∧
          parseOrderArgs args = .ok order ∧
          order.side = (if draft.side = .long then sideBuy else sideSell) ∧
          (order.tokenAmount.toNat : ℤ) = draft.tokenAmount ∧
          (order.price.toNat : ℤ) = draft.totalPrice) ∧
    ∀ price amount : ℕ, Reads form.orderPrice.toList CKB_DECIMALS price →
      Reads form.amount.toList token.decimals amount → 0 < price → 0 < amount →
      1 ≤ price * amount / 10 ^ token.decimals → price * amount / 10 ^ token.decimals < 2 ^ 64 →
      buildOrderDraft fixedPointFrom form (some token) =
        .ok (draftOf form.side price amount token.decimals) := by
  constructor
  · intro draft h
    obtain ⟨price, amount, hprice, hamount, hpos, hpos', hlow, hhigh, rfl⟩ :=
      (buildOrderDraft_eq_ok hexact).mp h
    have hfits := amount_lt hdecimals hpos hhigh
    refine ⟨⟨price, amount, hprice, hamount, rfl, rfl, rfl, hpos', rfl⟩, ?_, ?_, ?_, ?_⟩
    · show 1 ≤ ((price * amount / 10 ^ token.decimals : ℕ) : ℤ)
      exact_mod_cast hlow
    · show ((price * amount / 10 ^ token.decimals : ℕ) : ℤ) < 2 ^ 64
      exact_mod_cast hhigh
    · show (amount : ℤ) < 2 ^ 128
      exact_mod_cast hfits
    · intro makerLockHash xudtTypeHash hmaker htoken
      obtain ⟨args, order, hargs, hparse, hdescribes⟩ :=
        lock_of_draft hpads dexScript hmaker htoken hfits hhigh
      refine ⟨args, order, hargs, hparse, ?_, hdescribes.amount.symm, hdescribes.price.symm⟩
      apply BitVec.eq_of_toNat_eq
      rw [← hdescribes.side]
      show (if form.side = .long then SIDE_BUY else SIDE_SELL) =
        (if form.side = .long then sideBuy else sideSell).toNat
      cases form.side with
      | long => rfl
      | short => rfl
  · intro price amount hprice hamount hpos hpos' hlow hhigh
    rw [buildOrderDraft_eq_ok hexact]
    refine ⟨price, amount, ?_, ?_, hpos, hpos', hlow, hhigh, rfl⟩
    · rw [hprice.trim]
      exact hprice
    · rw [hamount.trim]
      exact hamount

def exampleFixedPointFrom (text : List Char) (decimals : ℕ) : ℤ :=
  let parts := text.splitOn '.'
  let whole := parts.getD 0 []
  let frac := (parts.getD 1 []).take decimals
  (valueOf (whole ++ List.replicate decimals '0') +
    valueOf (frac ++ List.replicate (decimals - frac.length) '0') : ℕ)

theorem exampleFixedPointFrom_exact : ParsesExactly exampleFixedPointFrom := by
  intro text whole frac decimals hwrites hlong
  rw [numberOf_mul_pow whole hlong]
  unfold exampleFixedPointFrom
  simp only [hwrites.split_whole, hwrites.split_frac, List.take_of_length_le hlong, valueOf_append,
    valueOf_zeros, List.length_replicate, add_zero, Int.cast_natCast]

/-- Buying a quarter of a token for 12.5 a token. -/
theorem drafts_encode_exactly_example :
    buildOrderDraft exampleFixedPointFrom ⟨.long, "12.5", ".25"⟩ (some ⟨"TOK", 2⟩) =
      .ok ⟨.long, 0, 1250000000, 25, 312500000⟩ ∧
    ∃ args order, buildDexLock exampleNumLeToBytes ⟨exampleHash 7, .type, []⟩
        ⟨0, hashText (exampleHash 2), hashText (exampleHash 9), 25, 312500000⟩ =
          .ok ⟨exampleHash 7, .type, args⟩ ∧
      parseOrderArgs args = .ok order ∧ order.side = sideBuy ∧ (order.tokenAmount.toNat : ℤ) = 25 ∧
      (order.price.toNat : ℤ) = 312500000 := by
  obtain ⟨hsound, hcomplete⟩ := drafts_encode_exactly exampleFixedPointFrom_exact
    exampleNumLeToBytes_pads ⟨exampleHash 7, .type, []⟩ ⟨.long, "12.5", ".25"⟩ ⟨"TOK", 2⟩ (by decide)
  have hprice : Reads "12.5".toList CKB_DECIMALS 1250000000 := by
    refine ⟨['1', '2'], ['5'], ⟨List.all_eq_true.mp (by decide), List.all_eq_true.mp (by decide),
      Or.inl (List.cons_ne_nil _ _), Or.inr rfl⟩, by decide, ?_⟩
    have hwhole : valueOf ['1', '2'] = 12 := by decide
    have hfrac : valueOf ['5'] = 5 := by decide
    norm_num [numberOf, hwhole, hfrac, CKB_DECIMALS]
  have hamount : Reads ".25".toList 2 25 := by
    refine ⟨[], ['2', '5'], ⟨List.all_eq_true.mp (by decide), List.all_eq_true.mp (by decide),
      Or.inr (List.cons_ne_nil _ _), Or.inr rfl⟩, by decide, ?_⟩
    have hwhole : valueOf [] = 0 := by decide
    have hfrac : valueOf ['2', '5'] = 25 := by decide
    norm_num [numberOf, hwhole, hfrac]
  have hdraft := hcomplete 1250000000 25 hprice hamount (by decide) (by decide) (by decide) (by decide)
  apply And.intro hdraft
  exact (hsound _ hdraft).2.2.2.2 (hashText (exampleHash 2)) (hashText (exampleHash 9)) (by simp) (by simp)

end CkbDex.OrderForm
