import CkbDex.CursorText
import CkbDex.Decimals
import CkbDex.EventSpelling
import Mathlib.Data.Prod.Lex
import Mathlib.Data.String.Basic

/-!
# The list endpoints

The order book, the orders and the trades, a page at a time: what each of them
filters and sorts by, and the comparison that its cursor adds to the filter.
The documents have the sort keys that ingestion writes.
-/
namespace CkbDex.MarketPaging
open Checked Collections Decimals Documents Keyset Number Pagination Projection Text

/-- What a number path stores: any binary64 value but NaN. -/
structure StoredNumber where
  value : JsNumber
  ne_nan : value ≠ .nan
  exact : ∀ q, value = .finite q → binary64 q = .finite q

/-- A decimal that was read from an integer's text. -/
structure StoredPrice where
  negative : Bool
  digits : ℕ
  short : digits < 10 ^ precision

def StoredPrice.value (price : StoredPrice) : ℤ :=
  if price.negative then -price.digits else price.digits

def StoredPrice.text (price : StoredPrice) : String :=
  if price.negative then "-" ++ toString price.digits else toString price.digits

/-- The largest time value of a `Date`. -/
def maxTime : ℕ := 8640000000000000

structure StoredOrder where
  order : OrderDocument
  createdAt : ℕ
  createdAt_le : createdAt ≤ maxTime
  priceValue : StoredPrice
  blockNum : StoredNumber
  txIdx : StoredNumber

structure StoredTrade where
  trade : TradeDocument
  blockNum : StoredNumber

/-- Stored numbers in the order of the database. -/
abbrev Rank : Type := WithBot (WithTop ℚ)

def rankAt (q : ℚ) : Rank := ((q : WithTop ℚ) : WithBot (WithTop ℚ))

def StoredNumber.rank (x : StoredNumber) : Rank :=
  match x.value with
  | .finite q => rankAt q
  | .infinity negative => if negative then ⊥ else ⊤
  | .nan => ⊥

/-- `$gt` -/
def StoredNumber.isAbove (x : StoredNumber) (n : ℤ) : Bool :=
  match x.value with
  | .finite q => n < q
  | .infinity negative => !negative
  | .nan => false

/-- `$lt` -/
def StoredNumber.isBelow (x : StoredNumber) (n : ℤ) : Bool :=
  match x.value with
  | .finite q => q < n
  | .infinity negative => negative
  | .nan => false

def StoredNumber.equals (x : StoredNumber) (n : ℤ) : Bool := x.value = .finite n

/-- A number in a cursor, which `JSON` writes as `null` when it is not finite. -/
def StoredNumber.field (x : StoredNumber) : Field :=
  match x.value with
  | .finite q => if q.den = 1 then .integer q.num else .other
  | _ => .other

theorem rankAt_lt {p q : ℚ} : rankAt p < rankAt q ↔ p < q := by simp [rankAt]

theorem rankAt_inj {p q : ℚ} : rankAt p = rankAt q ↔ p = q := by simp [rankAt]

theorem rankAt_lt_top (q : ℚ) : rankAt q < ⊤ := WithBot.coe_lt_coe.mpr (WithTop.coe_lt_top q)

namespace StoredNumber
variable (x : StoredNumber) (n : ℤ)

theorem isAbove_eq : x.isAbove n = decide (rankAt n < x.rank) := by
  obtain ⟨value, hnan, hexact⟩ := x
  cases value with
  | nan => exact absurd rfl hnan
  | infinity negative => cases negative <;> simp [isAbove, rank, rankAt_lt_top]
  | finite q => simp only [isAbove, rank, rankAt_lt]

theorem isBelow_eq : x.isBelow n = decide (x.rank < rankAt n) := by
  obtain ⟨value, hnan, hexact⟩ := x
  cases value with
  | nan => exact absurd rfl hnan
  | infinity negative => cases negative <;> simp [isBelow, rank, rankAt]
  | finite q => simp only [isBelow, rank, rankAt_lt]

theorem equals_eq : x.equals n = decide (rankAt n = x.rank) := by
  obtain ⟨value, hnan, hexact⟩ := x
  cases value with
  | nan => exact absurd rfl hnan
  | infinity negative => cases negative <;> simp [equals, rank, rankAt]
  | finite q => simp only [equals, rank, rankAt_inj, JsNumber.finite.injEq, eq_comm]

theorem exact_field : x.field.Exact := by
  obtain ⟨value, hnan, hexact⟩ := x
  cases value with
  | nan => trivial
  | infinity negative => trivial
  | finite q =>
    simp only [field]
    split_ifs with hden
    · have hnum : (q.num : ℚ) = q := Rat.coe_int_num_of_den_eq_one hden
      rw [Field.Exact, hnum]
      exact hexact q rfl
    · trivial

end StoredNumber

/-- `z.string()` -/
def readText : Option Field → Option String
  | some (.text s) => some s
  | _ => none

/-- `z.number().int()` -/
def readInteger : Option Field → Option ℤ
  | some (.integer n) => some n
  | _ => none

/-- `z.string().regex(/^\d{1,40}$/)` -/
def readPrice (field : Option Field) : Option String :=
  (readText field).filter fun s => 1 ≤ s.length && s.length ≤ 40 && s.toList.all Char.isDigit

/-- `z.string().max(200)` -/
def readId (field : Option Field) : Option String :=
  (readText field).filter fun s => utf16Length s ≤ 200

/-- `Decimal128.fromString` of digits. -/
def decimalFrom (s : String) : Except Failure ℤ := do
  let n ← okOr (digitsValue 10 s.toList) (.other "not a valid Decimal128 string")
  throwIf (¬Fits n) (.other "inexact rounding")
  return n

/-- `new Date`, which the driver refuses when it is invalid. -/
def dateFrom (c : ℤ) : Except Failure ℤ := do
  throwIf (maxTime < c.natAbs) (.other "Cast to date failed for value \"Invalid Date\"")
  return c

/-- An integer is read from the field of a number just when the number is that
integer. -/
theorem readInteger_field {x : StoredNumber} {n : ℤ} (h : readInteger (some x.field) = some n) :
    x.rank = rankAt n := by
  obtain ⟨value, hnan, hexact⟩ := x
  cases value with
  | nan => cases h
  | infinity negative => cases h
  | finite q =>
    simp only [StoredNumber.field] at h
    split_ifs at h with hden
    · obtain rfl := Option.some_inj.mp h
      exact congrArg rankAt (Rat.coe_int_num_of_den_eq_one hden).symm
    · cases h

theorem readId_text {s i : String} (h : readId (some (.text s)) = some i) : i = s := by
  simp only [readId, readText, Option.filter_eq_some_iff, Option.some_inj] at h
  exact h.1.symm

/-- The text of a price passes as digits just when the price has no sign. -/
theorem readPrice_text {price : StoredPrice} {p : String} :
    readPrice (some (.text price.text)) = some p ↔
      price.negative = false ∧ p = toString price.digits := by
  simp only [readPrice, readText, Option.filter_eq_some_iff, Option.some_inj, Bool.and_eq_true,
    List.all_eq_true, decide_eq_true_eq]
  cases hsign : price.negative with
  | true =>
    refine iff_of_false ?_ fun h => by cases h.1
    rintro ⟨rfl, -, hdigits⟩
    rw [StoredPrice.text, if_pos hsign, String.toList_append] at hdigits
    exact absurd (hdigits '-' (List.mem_append_left _ (by decide))) (by decide)
  | false =>
    rw [StoredPrice.text, hsign, if_neg Bool.false_ne_true]
    constructor
    · rintro ⟨rfl, -⟩
      exact ⟨rfl, rfl⟩
    · rintro ⟨-, rfl⟩
      have hlen : (toString price.digits).length ≤ 40 :=
        (Nat.length_repr_le_iff (by decide)).mpr (price.short.trans (by decide))
      exact ⟨rfl, ⟨Nat.length_repr_pos, hlen⟩, isDigit_toList_toString⟩

theorem decimalFrom_price {price : StoredPrice} {p : String}
    (h : readPrice (some (.text price.text)) = some p) : decimalFrom p = .ok price.value := by
  obtain ⟨hsign, rfl⟩ := readPrice_text.mp h
  have hfits : Fits price.digits := fits_of_lt price.short
  have hread : digitsValue 10 (toString price.digits).toList = some price.digits := by
    rw [toList_toString, digitsValue_toDigits]
  rw [StoredPrice.value, hsign, if_neg Bool.false_ne_true]
  exact bind_eq_ok.mpr ⟨_, okOr_eq_ok.mpr hread, bind_eq_ok.mpr
    ⟨(), throwIf_eq_ok.mpr (not_not.mpr hfits), rfl⟩⟩

structure OrderBookQuery where
  xudtTypeHash : Option Hex
  direction : Option Direction

structure OrderBookCursor where
  p : String
  b : ℤ
  t : ℤ
  i : String

/-- Asks ascend and bids descend by price. -/
def priceDirection (query : OrderBookQuery) : ℤ := if query.direction = some .bid then -1 else 1

def orderBookCursor (fields : String → Option Field) : Option OrderBookCursor := do
  let p ← readPrice (fields "p")
  let b ← readInteger (fields "b")
  let t ← readInteger (fields "t")
  let i ← readId (fields "i")
  return { p, b, t, i }

def pastPrice (query : OrderBookQuery) (price : ℤ) (order : StoredOrder) : Bool :=
  if priceDirection query = 1 then price < order.priceValue.value else order.priceValue.value < price

def orderBookPast (query : OrderBookQuery) (cursor : OrderBookCursor) :
    Except Failure (StoredOrder → Bool) := do
  let price ← decimalFrom cursor.p
  return fun o =>
    pastPrice query price o ||
    (o.priceValue.value = price && o.blockNum.isAbove cursor.b) ||
    (o.priceValue.value = price && o.blockNum.equals cursor.b && o.txIdx.isAbove cursor.t) ||
    (o.priceValue.value = price && o.blockNum.equals cursor.b && o.txIdx.equals cursor.t &&
      cursor.i < o.order.id)

abbrev BookKey : Type := ℤ ×ₗ Rank ×ₗ Rank ×ₗ String

def orderBook (query : OrderBookQuery) : Listing StoredOrder BookKey OrderBookCursor where
  id o := o.order.id
  filter o := o.order.status = .live && query.xudtTypeHash.all (· = o.order.xudtTypeHash) &&
    query.direction.all (· = o.order.direction)
  sort o := toLex (priceDirection query * o.priceValue.value,
    toLex (o.blockNum.rank, toLex (o.txIdx.rank, o.order.id)))
  cursor o := [("p", .text o.priceValue.text), ("b", o.blockNum.field), ("t", o.txIdx.field),
    ("i", .text o.order.id)]
  shape := orderBookCursor
  past := orderBookPast query

theorem priceDirection_eq (query : OrderBookQuery) :
    priceDirection query = 1 ∨ priceDirection query = -1 := by
  unfold priceDirection
  split_ifs
  · exact Or.inr rfl
  · exact Or.inl rfl

theorem pastPrice_iff {query : OrderBookQuery} {price : ℤ} {order : StoredOrder} :
    pastPrice query price order = true ↔
      priceDirection query * price < priceDirection query * order.priceValue.value := by
  rcases priceDirection_eq query with h | h <;> simp [pastPrice, h]

theorem samePrice_iff (query : OrderBookQuery) {m n : ℤ} :
    n = m ↔ priceDirection query * m = priceDirection query * n := by
  rcases priceDirection_eq query with h | h <;> simp [h, eq_comm]

/-- The filter of a cursor is the lexicographic successor relation, price,
block, transaction and id. -/
theorem orderBook_lawful (query : OrderBookQuery) : (orderBook query).Lawful where
  id_of_sort a b h := by
    simp only [orderBook, EmbeddingLike.apply_eq_iff_eq, Prod.mk.injEq] at h
    exact h.2.2.2
  distinct a := by simp [orderBook]
  exact a field hfield := by
    simp only [orderBook, List.mem_cons, List.not_mem_nil, or_false] at hfield
    rcases hfield with rfl | rfl | rfl | rfl
    · trivial
    · exact a.blockNum.exact_field
    · exact a.txIdx.exact_field
    · trivial
  successor a c h := by
    simp only [orderBook, orderBookCursor, Option.bind_eq_bind, Option.bind_eq_some_iff, Option.pure_def,
      Option.some_inj] at h
    obtain ⟨p, hp, b, hb, t, ht, i, hi, rfl⟩ := h
    have hprice := decimalFrom_price hp
    have hblock := readInteger_field hb
    have hindex := readInteger_field ht
    obtain rfl := readId_text hi
    refine ⟨_, bind_eq_ok.mpr ⟨_, hprice, rfl⟩, fun o => ?_⟩
    rw [Bool.eq_iff_iff, decide_eq_true_eq]
    simp only [orderBook, Prod.Lex.toLex_lt_toLex, hblock, hindex, StoredNumber.isAbove_eq,
      StoredNumber.equals_eq, Bool.or_eq_true, Bool.and_eq_true, decide_eq_true_eq, pastPrice_iff]
    rw [samePrice_iff query]
    tauto

structure OrderQuery where
  xudtTypeHash : Option Hex
  makerLockHash : Option Hex
  direction : Option Direction
  status : Option OrderStatus

structure OrderListCursor where
  c : ℤ
  i : String

def orderListCursor (fields : String → Option Field) : Option OrderListCursor := do
  let c ← readInteger (fields "c")
  let i ← readId (fields "i")
  return { c, i }

def orderListPast (cursor : OrderListCursor) : Except Failure (StoredOrder → Bool) := do
  let createdAt ← dateFrom cursor.c
  return fun o => o.createdAt < createdAt || (o.createdAt = createdAt && cursor.i < o.order.id)

/-- The newest first. -/
def orderList (query : OrderQuery) : Listing StoredOrder (ℕᵒᵈ ×ₗ String) OrderListCursor where
  id o := o.order.id
  filter o := query.makerLockHash.all (· = o.order.ownerLockHash) &&
    query.xudtTypeHash.all (· = o.order.xudtTypeHash) &&
    query.direction.all (· = o.order.direction) && query.status.all (· = o.order.status)
  sort o := toLex (OrderDual.toDual o.createdAt, o.order.id)
  cursor o := [("c", .integer o.createdAt), ("i", .text o.order.id)]
  shape := orderListCursor
  past := orderListPast

theorem orderList_lawful (query : OrderQuery) : (orderList query).Lawful where
  id_of_sort a b h := by
    simp only [orderList, EmbeddingLike.apply_eq_iff_eq, Prod.mk.injEq] at h
    exact h.2
  distinct a := by simp [orderList]
  exact a field hfield := by
    simp only [orderList, List.mem_cons, List.not_mem_nil, or_false] at hfield
    rcases hfield with rfl | rfl
    · exact binary64_natCast (a.createdAt_le.trans_lt (by decide))
    · trivial
  successor a c h := by
    simp only [orderList, orderListCursor, Option.bind_eq_bind, Option.bind_eq_some_iff,
      Option.pure_def, Option.some_inj] at h
    obtain ⟨c, hc, i, hi, rfl⟩ := h
    obtain rfl : c = a.createdAt := by
      simpa [readInteger, eq_comm] using hc
    obtain rfl := readId_text hi
    have hdate : dateFrom a.createdAt = .ok (a.createdAt : ℤ) :=
      bind_eq_ok.mpr ⟨(), throwIf_eq_ok.mpr (not_lt.mpr a.createdAt_le), rfl⟩
    refine ⟨_, bind_eq_ok.mpr ⟨_, hdate, rfl⟩, fun o => ?_⟩
    rw [Bool.eq_iff_iff, decide_eq_true_eq]
    simp only [orderList, Prod.Lex.toLex_lt_toLex, OrderDual.toDual_lt_toDual, EmbeddingLike.apply_eq_iff_eq,
      Bool.or_eq_true, Bool.and_eq_true, decide_eq_true_eq, Nat.cast_lt, Nat.cast_inj]
    rw [eq_comm]

structure TradesQuery where
  xudtTypeHash : Option Hex

structure TradeCursor where
  b : ℤ
  i : String

def tradeCursor (fields : String → Option Field) : Option TradeCursor := do
  let b ← readInteger (fields "b")
  let i ← readId (fields "i")
  return { b, i }

def tradesPast (cursor : TradeCursor) : Except Failure (StoredTrade → Bool) :=
  return fun t => t.blockNum.isBelow cursor.b || (t.blockNum.equals cursor.b && cursor.i < t.trade.id)

def trades (query : TradesQuery) : Listing StoredTrade (Rankᵒᵈ ×ₗ String) TradeCursor where
  id t := t.trade.id
  filter t := t.trade.status ≠ .reverted && query.xudtTypeHash.all (· = t.trade.xudtTypeHash)
  sort t := toLex (OrderDual.toDual t.blockNum.rank, t.trade.id)
  cursor t := [("b", t.blockNum.field), ("i", .text t.trade.id)]
  shape := tradeCursor
  past := tradesPast

theorem trades_lawful (query : TradesQuery) : (trades query).Lawful where
  id_of_sort a b h := by
    simp only [trades, EmbeddingLike.apply_eq_iff_eq, Prod.mk.injEq] at h
    exact h.2
  distinct a := by simp [trades]
  exact a field hfield := by
    simp only [trades, List.mem_cons, List.not_mem_nil, or_false] at hfield
    rcases hfield with rfl | rfl
    · exact a.blockNum.exact_field
    · trivial
  successor a c h := by
    simp only [trades, tradeCursor, Option.bind_eq_bind, Option.bind_eq_some_iff, Option.pure_def,
      Option.some_inj] at h
    obtain ⟨b, hb, i, hi, rfl⟩ := h
    have hblock := readInteger_field hb
    obtain rfl := readId_text hi
    refine ⟨_, rfl, fun t => ?_⟩
    rw [Bool.eq_iff_iff, decide_eq_true_eq]
    simp only [trades, Prod.Lex.toLex_lt_toLex, OrderDual.toDual_lt_toDual, EmbeddingLike.apply_eq_iff_eq,
      hblock, StoredNumber.isBelow_eq, StoredNumber.equals_eq, Bool.or_eq_true, Bool.and_eq_true,
      decide_eq_true_eq]

/-- An order without its sort keys. -/
structure PublicOrder where
  order : OrderDocument
  createdAt : ℕ

def stripSortKeys (o : StoredOrder) : PublicOrder := { order := o.order, createdAt := o.createdAt }

def getOrderBook (runtime : Runtime) (query : OrderBookQuery) (limit : ℕ) (cursor : Option String)
    (orders : List StoredOrder) : Except Failure (Page PublicOrder) :=
  ((orderBook query).page runtime limit cursor orders).map (Page.map stripSortKeys)

def getOrders (runtime : Runtime) (query : OrderQuery) (limit : ℕ) (cursor : Option String)
    (orders : List StoredOrder) : Except Failure (Page PublicOrder) :=
  ((orderList query).page runtime limit cursor orders).map (Page.map stripSortKeys)

def getTrades (runtime : Runtime) (query : TradesQuery) (limit : ℕ) (cursor : Option String)
    (stored : List StoredTrade) : Except Failure (Page TradeDocument) :=
  ((trades query).page runtime limit cursor stored).map (Page.map StoredTrade.trade)

section
variable {runtime : Runtime}

theorem isSome_readId {s : String} : (readId (some (.text s))).isSome = true ↔ utf16Length s ≤ 200 := by
  simp [readId, readText, Option.isSome_filter]

theorem isSome_readInteger {x : StoredNumber} :
    (readInteger (some x.field)).isSome = true ↔ ∃ n : ℤ, x.value = .finite n := by
  obtain ⟨value, hnan, hexact⟩ := x
  cases value with
  | nan => exact absurd rfl hnan
  | infinity negative => simp [StoredNumber.field, readInteger]
  | finite q =>
    simp only [StoredNumber.field]
    split_ifs with hden
    · exact iff_of_true rfl ⟨q.num, congrArg _ (Rat.coe_int_num_of_den_eq_one hden).symm⟩
    · refine iff_of_false Bool.false_ne_true ?_
      rintro ⟨n, hn⟩
      exact hden (by rw [JsNumber.finite.inj hn]; rfl)

theorem isSome_readPrice {price : StoredPrice} :
    (readPrice (some (.text price.text))).isSome = true ↔ price.negative = false := by
  rw [Option.isSome_iff_exists]
  simp only [readPrice_text, exists_and_left, exists_eq, and_true]

/-- An order whose cursor a request for the book may carry. -/
def BookCursorFits (runtime : Runtime) (query : OrderBookQuery) (o : StoredOrder) : Prop :=
  utf16Length (encodeCursor runtime ((orderBook query).cursor o)) ≤ maxCursorLength ∧
    o.priceValue.negative = false ∧ (∃ b : ℤ, o.blockNum.value = .finite b) ∧
    (∃ t : ℤ, o.txIdx.value = .finite t) ∧ utf16Length o.order.id ≤ 200

def OrderCursorFits (runtime : Runtime) (query : OrderQuery) (o : StoredOrder) : Prop :=
  utf16Length (encodeCursor runtime ((orderList query).cursor o)) ≤ maxCursorLength ∧
    utf16Length o.order.id ≤ 200

def TradeCursorFits (runtime : Runtime) (query : TradesQuery) (t : StoredTrade) : Prop :=
  utf16Length (encodeCursor runtime ((trades query).cursor t)) ≤ maxCursorLength ∧
    (∃ b : ℤ, t.blockNum.value = .finite b) ∧ utf16Length t.trade.id ≤ 200

theorem orderBook_accepted_iff {query : OrderBookQuery} (o : StoredOrder) :
    (orderBook query).Accepted runtime o ↔ BookCursorFits runtime query o := by
  rw [BookCursorFits, ← isSome_readPrice, ← isSome_readInteger, ← isSome_readInteger, ← isSome_readId]
  refine and_congr_right fun _ => ?_
  change (((readPrice (some (.text o.priceValue.text))).bind fun p =>
    (readInteger (some o.blockNum.field)).bind fun b => (readInteger (some o.txIdx.field)).bind fun t =>
      (readId (some (.text o.order.id))).bind fun i => some (OrderBookCursor.mk p b t i)).isSome = true) ↔ _
  cases readPrice (some (.text o.priceValue.text)) <;> cases readInteger (some o.blockNum.field) <;>
    cases readInteger (some o.txIdx.field) <;> cases readId (some (.text o.order.id)) <;> simp

theorem orderList_accepted_iff {query : OrderQuery} (o : StoredOrder) :
    (orderList query).Accepted runtime o ↔ OrderCursorFits runtime query o := by
  rw [OrderCursorFits, ← isSome_readId]
  refine and_congr_right fun _ => ?_
  change ((readId (some (.text o.order.id))).bind fun i =>
    some (OrderListCursor.mk o.createdAt i)).isSome = true ↔ _
  cases readId (some (.text o.order.id)) <;> simp

theorem trades_accepted_iff {query : TradesQuery} (t : StoredTrade) :
    (trades query).Accepted runtime t ↔ TradeCursorFits runtime query t := by
  rw [TradeCursorFits, ← isSome_readInteger, ← isSome_readId]
  refine and_congr_right fun _ => ?_
  change ((readInteger (some t.blockNum.field)).bind fun b => (readId (some (.text t.trade.id))).bind fun i =>
    some (TradeCursor.mk b i)).isSome = true ↔ _
  cases readInteger (some t.blockNum.field) <;> cases readId (some (.text t.trade.id)) <;> simp

/-- Paging neither skips nor repeats, whatever is filtered by and whatever
changes between the pages, where the documents that others follow have cursors
that fit. Of unchanged documents it is so only there. A client of an endpoint
receives what the endpoint shows of these pages. -/
theorem market_paging (runtime : Runtime) :
    (∀ query, (orderBook query).ExactWhere runtime (BookCursorFits runtime query) ∧ ∀ limit docs k,
      traverse (fun j cursor => getOrderBook runtime query limit cursor (docs j)) k =
        Prod.map (List.map stripSortKeys) id ((orderBook query).follow runtime limit docs k)) ∧
    (∀ query, (orderList query).ExactWhere runtime (OrderCursorFits runtime query) ∧ ∀ limit docs k,
      traverse (fun j cursor => getOrders runtime query limit cursor (docs j)) k =
        Prod.map (List.map stripSortKeys) id ((orderList query).follow runtime limit docs k)) ∧
    ∀ query, (trades query).ExactWhere runtime (TradeCursorFits runtime query) ∧ ∀ limit docs k,
      traverse (fun j cursor => getTrades runtime query limit cursor (docs j)) k =
        Prod.map (List.map StoredTrade.trade) id ((trades query).follow runtime limit docs k) := by
  refine ⟨fun query => ⟨?_, fun limit docs => ?_⟩, fun query => ⟨?_, fun limit docs => ?_⟩,
    fun query => ⟨?_, fun limit docs => ?_⟩⟩
  · exact (orderBook_lawful query).exactWhere orderBook_accepted_iff
  · exact traverse_map stripSortKeys fun j cursor => (orderBook query).page runtime limit cursor (docs j)
  · exact (orderList_lawful query).exactWhere orderList_accepted_iff
  · exact traverse_map stripSortKeys fun j cursor => (orderList query).page runtime limit cursor (docs j)
  · exact (trades_lawful query).exactWhere trades_accepted_iff
  · exact traverse_map StoredTrade.trade fun j cursor => (trades query).page runtime limit cursor (docs j)

end

section
open BotEvents Programs Operations Chains EventVerification IngestionSteps ProjectionSteps
open GroundedDocuments Acceptance EventSpelling
open SettlementBuilder (exampleDex)
open OrderLockRules (exampleHash)

/-- The sort keys that ingestion derives from an order's texts. -/
structure StoredOrder.Derived (o : StoredOrder) : Prop where
  priceValue : bigInt o.order.pricePerToken = some o.priceValue.value
  blockNum : number o.order.blockNumber = o.blockNum.value
  txIdx : number o.order.txIndex = o.txIdx.value

/-- The index 0 with many digits. -/
def zeros (digits : ℕ) : String := String.ofList (List.replicate digits '0')

def exampleStored (order : OrderDocument) : StoredOrder where
  order := order
  createdAt := 1700000000000
  createdAt_le := by decide
  priceValue := ⟨false, 5000, by decide⟩
  blockNum := ⟨.finite 1, by decide, fun q h => by
    cases h
    exact binary64_natCast (n := 1) (by decide)⟩
  txIdx := ⟨.finite 0, by decide, fun q h => by
    cases h
    exact binary64_natCast (n := 0) (by decide)⟩

theorem exampleStored_derived {order : OrderDocument} (hprice : order.pricePerToken = toString 5000)
    (hblock : order.blockNumber = toString 1) (hindex : order.txIndex = toString 0) :
    (exampleStored order).Derived where
  priceValue := by
    rw [exampleStored, hprice]
    exact bigInt_toString 5000
  blockNum := by
    rw [exampleStored, hblock]
    exact number_toString (by norm_num)
  txIdx := by
    rw [exampleStored, hindex]
    exact number_toString (by norm_num)

theorem exampleBuy_ne_sell : ([exampleBuy, exampleSell].map OrderDocument.id).Nodup := by
  decide +kernel

/-- Two orders of one transaction. -/
def exampleShortOrders : Collection String StoredOrder fun o => o.order.id where
  docs := [exampleStored exampleBuy, exampleStored exampleSell]
  nodup := exampleBuy_ne_sell

theorem exampleStored_fits {order : OrderDocument}
    (hcursor : utf16Length (encodeCursor CursorText.runtime ((orderBook ⟨none, none⟩).cursor
      (exampleStored order))) ≤ maxCursorLength) (hid : utf16Length order.id ≤ 200) :
    BookCursorFits CursorText.runtime ⟨none, none⟩ (exampleStored order) :=
  ⟨hcursor, rfl, ⟨1, rfl⟩, ⟨0, rfl⟩, hid⟩

theorem exampleShortOrders_followable : (orderBook ⟨none, none⟩).Followable
    (BookCursorFits CursorText.runtime ⟨none, none⟩) exampleShortOrders.docs := by
  intro a ha _ b _ _ _
  simp only [exampleShortOrders, List.mem_cons, List.not_mem_nil, or_false] at ha
  rcases ha with rfl | rfl
  · exact exampleStored_fits (by decide +kernel) (by decide +kernel)
  · exact exampleStored_fits (by decide +kernel) (by decide +kernel)

/-- The book of the two orders, an order a page. -/
theorem market_paging_example :
    ((orderBook ⟨none, none⟩).PagesExactly CursorText.runtime 1 fun _ => exampleShortOrders) ∧
    ∃ k, traverse (fun _ cursor =>
        getOrderBook CursorText.runtime ⟨none, none⟩ 1 cursor exampleShortOrders.docs) k =
      ((listed (orderBook ⟨none, none⟩).sort (orderBook ⟨none, none⟩).filter exampleShortOrders.docs).map
        stripSortKeys, .finished) := by
  obtain ⟨hexact, hshown⟩ := (market_paging CursorText.runtime).1 ⟨none, none⟩
  have hpages := hexact.changing 1 le_rfl (by decide) (fun _ => exampleShortOrders)
    fun _ => exampleShortOrders_followable
  obtain ⟨k, hwhole⟩ := hpages.whole exampleShortOrders fun _ => rfl
  refine ⟨hpages, k, ?_⟩
  rw [hshown 1 (fun _ => exampleShortOrders.docs) k, hwhole]
  rfl

section
variable (digits : ℕ)

def exampleLong : OrderDocument := confirmedDocument none (redelivered (zeros digits))

theorem zeros_toList : (zeros digits).toList = List.replicate digits '0' := String.toList_ofList

theorem zeros_nonempty (h : 0 < digits) : isNonempty (zeros digits) = true := by
  refine decide_eq_true fun hempty => ?_
  have hlen := congrArg (fun s => s.toList.length) hempty
  simp only [zeros_toList, List.length_replicate] at hlen
  exact h.ne' hlen

theorem exampleLong_id : (exampleLong digits).id.toList =
    (hashText (exampleHash 5) ++ ":").toList ++ List.replicate digits '0' := by
  have hhash : (redelivered (zeros digits)).outPoint.txHash = hashText (exampleHash 5) := rfl
  change ((redelivered (zeros digits)).outPoint.txHash ++ ":" ++ zeros digits).toList = _
  rw [hhash, String.toList_append, zeros_toList]

theorem exampleLong_lt_sell : (exampleLong digits).id < exampleSell.id := by
  rw [String.lt_iff, exampleLong_id]
  refine (List.append_left_lt ?_).trans_eq (String.toList_append (t := "1")).symm
  cases digits with
  | zero => exact List.Lex.nil
  | succ digits => exact List.Lex.rel (by decide)

theorem exampleLong_long : digits < utf16Length (exampleLong digits).id := by
  refine lt_of_lt_of_le ?_ (length_le_utf16Length _)
  rw [exampleLong_id, List.length_append, List.length_replicate, String.toList_append, List.length_append]
  exact Nat.lt_add_of_pos_left (Nat.add_pos_right _ Nat.one_pos)

theorem zeros_value (h : 0 < digits) : bigInt (zeros digits) = some 0 := by
  have hzeros : ∀ n, digitsFrom 10 0 (List.replicate n '0') = some 0 := by
    intro n
    induction n with
    | zero => rfl
    | succ n ih => exact ih
  refine bigInt_digits (n := 0) (fun c hc => ?_) ?_
  · rw [zeros_toList] at hc
    rw [List.eq_of_mem_replicate hc]
    rfl
  · rw [zeros_toList, digitsValue, if_neg (by simpa using h.ne')]
    exact hzeros digits

/-- The state after the order with the long index, and after another one. -/
def exampleLongIndexed : Db :=
  recorded (Db.empty.putOrder (exampleLong digits)) (applied "redelivery") "redelivery"

def exampleBothIndexed : Db :=
  recorded ((exampleLongIndexed digits).putOrder exampleSell) (applied exampleSellConfirmed.eventId)
    exampleSellConfirmed.eventId

theorem exampleLong_ingested (h : 0 < digits) :
    run exampleDrivers (exampleChain.node exampleDex 0)
      (ingest exampleVerification (.orderConfirmed (redelivered (zeros digits)))) Db.empty =
        (.ok (applied "redelivery"), exampleLongIndexed digits) := by
  have hnumber : number (zeros digits) = .finite 0 :=
    number_of_bigInt_exact (n := 0) (zeros_value digits h) (by norm_num)
  have happly : applyOrderConfirmed exampleDrivers (redelivered (zeros digits)) Db.empty =
      .ok (applied "redelivery", Db.empty.putOrder (exampleLong digits)) := by
    refine applyOrderConfirmed_eq_ok.mpr (Or.inr ⟨rfl, ?_, ?_, ?_, rfl, rfl⟩)
    · exact exampleDrivers_reads.decimal128 5000 (by norm_num)
    · exact number_ne_nan_of_bigInt (bigInt_toString 1)
    · exact number_ne_nan_of_bigInt (bigInt_toString 0)
  exact run_ingest_eq (.orderConfirmed (redelivered (zeros digits))) rfl
    (redelivered_verified (zeros digits) (by rw [hnumber]; rfl) Db.empty) happly

theorem exampleSell_ingested :
    run exampleDrivers (exampleChain.node exampleDex 0)
      (ingest exampleVerification (.orderConfirmed exampleSellConfirmed)) (exampleLongIndexed digits) =
        (.ok (applied exampleSellConfirmed.eventId), exampleBothIndexed digits) := by
  have hnew : (exampleLongIndexed digits).processed exampleSellConfirmed.eventId = false := by
    rw [Bool.eq_false_iff, ne_eq, exampleLongIndexed, processed_recorded, not_or]
    exact ⟨by decide +kernel, Bool.false_ne_true⟩
  have hfind : (exampleLongIndexed digits).orders.find? exampleSell.id = none :=
    Collection.find?_put.trans (if_neg (exampleLong_lt_sell digits).ne)
  exact exampleSell_indexable.ingested (fun _ => "ckt1") exampleDrivers_reads hnew hfind rfl

def exampleStoredOrders : Collection String StoredOrder fun o => o.order.id where
  docs := [exampleStored (exampleLong digits), exampleStored exampleSell]
  nodup := by simpa [exampleStored] using (exampleLong_lt_sell digits).ne

theorem exampleStoredOrders_indexed : ∀ o ∈ (exampleStoredOrders digits).docs,
    o.Derived ∧ o.order ∈ (exampleBothIndexed digits).orders.docs := by
  have hlong : exampleLong digits ∈ (Db.empty.orders.put (exampleLong digits)).docs :=
    Collection.mem_docs_put.mpr (Or.inl rfl)
  have hboth : ∀ order, order = exampleSell ∨
      order ∈ (Db.empty.orders.put (exampleLong digits)).docs ∧ order.id ≠ exampleSell.id →
        order ∈ (exampleBothIndexed digits).orders.docs := fun order h => Collection.mem_docs_put.mpr h
  intro o ho
  simp only [exampleStoredOrders, List.mem_cons, List.not_mem_nil, or_false] at ho
  rcases ho with rfl | rfl
  · exact ⟨exampleStored_derived rfl rfl rfl, hboth _ (Or.inr ⟨hlong, (exampleLong_lt_sell digits).ne⟩)⟩
  · exact ⟨exampleStored_derived rfl rfl rfl, hboth _ (Or.inl rfl)⟩

theorem exampleStoredOrders_refused (h : 200 ≤ digits) :
    ¬(orderBook ⟨none, none⟩).PagesExactly CursorText.runtime 1 fun _ => exampleStoredOrders digits := by
  intro hpages
  have hfollowed : (orderBook ⟨none, none⟩).Accepted CursorText.runtime
      (exampleStored (exampleLong digits)) := by
    have hfollowable := (orderBook_lawful ⟨none, none⟩).followable hpages
    refine hfollowable (exampleStored (exampleLong digits)) ?_ ?_ (exampleStored exampleSell) ?_ ?_ ?_
    · simp [exampleStoredOrders]
    · simp [orderBook, exampleStored, exampleLong, confirmedDocument]
    · simp [exampleStoredOrders]
    · simp [orderBook, exampleStored, exampleSell, confirmedDocument]
    · simp only [orderBook, Prod.Lex.toLex_lt_toLex]
      exact Or.inr ⟨rfl, Or.inr ⟨rfl, Or.inr ⟨rfl, exampleLong_lt_sell digits⟩⟩⟩
  have hfits := (orderBook_accepted_iff (exampleStored (exampleLong digits))).mp hfollowed
  exact absurd (h.trans_lt (exampleLong_long digits)) (not_lt.mpr hfits.2.2.2.2)

end

/-- An index that the schema and the verification accept makes an id that the
next cursor may not hold: the page after the order is refused. -/
theorem long_id_refused :
    (BotEvent.orderConfirmed (redelivered (zeros 201))).valid = true ∧
    run exampleDrivers (exampleChain.node exampleDex 0)
      (ingest exampleVerification (.orderConfirmed (redelivered (zeros 201)))) Db.empty =
        (.ok (applied "redelivery"), exampleLongIndexed 201) ∧
    run exampleDrivers (exampleChain.node exampleDex 0)
      (ingest exampleVerification (.orderConfirmed exampleSellConfirmed)) (exampleLongIndexed 201) =
        (.ok (applied exampleSellConfirmed.eventId), exampleBothIndexed 201) ∧
    (∀ o ∈ (exampleStoredOrders 201).docs, o.Derived ∧ o.order ∈ (exampleBothIndexed 201).orders.docs) ∧
    ¬(orderBook ⟨none, none⟩).PagesExactly CursorText.runtime 1 fun _ => exampleStoredOrders 201 :=
  ⟨redelivered_valid (zeros_nonempty 201 (by decide)), exampleLong_ingested 201 (by decide),
    exampleSell_ingested 201, exampleStoredOrders_indexed 201, exampleStoredOrders_refused 201 (by decide)⟩

end

end CkbDex.MarketPaging
