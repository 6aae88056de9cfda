import CkbDex.MarketPaging
import CkbDex.Matching

/-!
# Price and time priority

The order book is ranked three times: by the bot, which reads the texts of the
stored orders, and by the endpoint and the realtime snapshots, which have the
database sort by the keys derived from them.
-/
namespace CkbDex.Priority
open BotEvents Checked Collections Decimals Documents IngestionSteps Keyset Matching MarketPaging Number
open Operations Pagination Programs Projection ProjectionSteps SettlementBuilder Text

/-- One side of the snapshot of an order book. -/
def snapshotSide (limit : ℕ) (xudtTypeHash : Hex) (direction : Direction) (price : ℤ)
    (orders : List StoredOrder) : List PublicOrder :=
  let found := orders.filter fun o =>
    o.order.xudtTypeHash = xudtTypeHash && o.order.status = .live && o.order.direction = direction
  let key (o : StoredOrder) : BookKey :=
    toLex (price * o.priceValue.value, toLex (o.blockNum.rank, toLex (o.txIdx.rank, o.order.id)))
  ((found.insertionSort fun a b => key a ≤ key b).take limit).map stripSortKeys

/-- `getSnapshot` of an order book channel. -/
def orderBookSnapshot (limit : ℕ) (xudtTypeHash : Hex) (orders : List StoredOrder) : List PublicOrder :=
  snapshotSide limit xudtTypeHash .ask 1 orders ++ snapshotSide limit xudtTypeHash .bid (-1) orders

/-- The endpoint's query for one side of a market. -/
def sideOf (xudtTypeHash : Hex) (direction : Direction) : OrderBookQuery :=
  ⟨some xudtTypeHash, some direction⟩

/-- All that the endpoint lists of one side of a market, page after page. -/
def book (xudtTypeHash : Hex) (direction : Direction) (orders : List StoredOrder) : List StoredOrder :=
  listed (orderBook (sideOf xudtTypeHash direction)).sort (orderBook (sideOf xudtTypeHash direction)).filter
    orders

/-- The snapshot's sides are the endpoint's first pages. -/
def SnapshotIsFirstPage (xudtTypeHash : Hex) (orders : List StoredOrder) : Prop :=
  ∀ runtime limit, ∃ asks bids,
    getOrderBook runtime (sideOf xudtTypeHash .ask) limit none orders = .ok asks ∧
    getOrderBook runtime (sideOf xudtTypeHash .bid) limit none orders = .ok bids ∧
    snapshotSide limit xudtTypeHash .ask 1 orders = asks.items ∧
    snapshotSide limit xudtTypeHash .bid (-1) orders = bids.items ∧
    orderBookSnapshot limit xudtTypeHash orders = asks.items ++ bids.items

structure SortKeys where
  priceValue : StoredPrice
  blockNum : StoredNumber
  txIdx : StoredNumber

def storedPrice (n : ℤ) : Option StoredPrice :=
  if h : n.natAbs < 10 ^ precision then some ⟨n < 0, n.natAbs, h⟩ else none

def storedNumber : JsNumber → Option StoredNumber
  | .nan => none
  | .infinity negative => some ⟨.infinity negative, by simp, by simp⟩
  | .finite q =>
      if h : binary64 q = .finite q then
        some ⟨.finite q, by simp, fun _ hp => JsNumber.finite.inj hp ▸ h⟩ else none

/-- `Decimal128.fromString` of an integer's text, and `Number` of the two others. -/
def keysOf (price block index : String) : Option SortKeys := do
  let priceValue ← (bigInt price).bind storedPrice
  let blockNum ← storedNumber (number block)
  let txIdx ← storedNumber (number index)
  return { priceValue, blockNum, txIdx }

/-- The sort keys of the stored orders, by id. -/
abbrev KeyTable := String → Option SortKeys

/-- The keys are in the `$set` of `applyOrderConfirmed` and nowhere else. -/
def setKeys (drivers : Drivers) (db : Db) (keys : KeyTable) : Op → KeyTable
  | .transact (.orderConfirmed event) =>
      match (transact drivers (.orderConfirmed event) db).1 with
      | .committed result =>
          if result.status = .applied then
            Function.update keys (toOrderId event.outPoint)
              (keysOf event.order.pricePerToken event.order.blockNumber event.order.txIndex)
          else keys
      | _ => keys
  | _ => keys

/-- The orders and their keys after any calls of ingestion and the bot. -/
inductive Reached (drivers : Drivers) : Db → KeyTable → Prop
  | empty : Reached drivers Db.empty fun _ => none
  | step {db : Db} {keys : KeyTable} (node : Node) (op : Op) (before : Reached drivers db keys) :
      Reached drivers (handle drivers node op db).2 (setKeys drivers db keys op)

/-- What the database answers a query from. -/
structure Holds (db : Db) (keys : KeyTable) (orders : List StoredOrder) : Prop where
  documents : orders.map StoredOrder.order = db.orders.docs
  keys : ∀ o ∈ orders, keys o.order.id = some ⟨o.priceValue, o.blockNum, o.txIdx⟩

/-- An order at a place on the chain that two small numbers give. -/
structure SmallPlace (order : OrderDocument) : Prop where
  block : ∃ n < 2 ^ 53, bigInt order.blockNumber = some ((n : ℕ) : ℤ)
  index : ∃ n < 2 ^ 53, bigInt order.txIndex = some ((n : ℕ) : ℤ)

/-- The sort keys are those of the order's texts. -/
structure Indexed (o : StoredOrder) : Prop where
  derived : o.Derived
  place : SmallPlace o.order

def blockOf (order : OrderDocument) : ℤ := (bigInt order.blockNumber).getD 0

def indexOf (order : OrderDocument) : ℤ := (bigInt order.txIndex).getD 0

/-- Orders of different prices, blocks or transactions. -/
def Differs (a b : OrderDocument) : Prop :=
  priceOf a ≠ priceOf b ∨ blockOf a ≠ blockOf b ∨ indexOf a ≠ indexOf b

/-- Two orders on one side of a market. -/
def SameSide (a b : OrderDocument) : Prop := a.xudtTypeHash = b.xudtTypeHash ∧ a.direction = b.direction

/-- The bot, given some orders, ranks those on one side that differ as the endpoint
does. -/
def RanksAlike (given orders : List StoredOrder) : Prop :=
  ∃ sorted, sort (given.map StoredOrder.order) = .ok sorted ∧
    ∀ a ∈ given, ∀ b ∈ given, SameSide a.order b.order → Differs a.order b.order →
      ([a.order, b.order].Sublist sorted ↔
        [a, b].Sublist (book a.order.xudtTypeHash a.order.direction orders))

/-- Whichever orders of one side the bot is given. -/
def SameRanking (xudtTypeHash : Hex) (direction : Direction) (orders : List StoredOrder) : Prop :=
  ∀ given : List StoredOrder, given.Nodup → (∀ o ∈ given, o ∈ book xudtTypeHash direction orders) →
    RanksAlike given orders

/-- Two orders of one price and block, but not of one transaction, have the same
text for the block. -/
def SpelledAlike (a b : OrderDocument) : Prop :=
  priceOf a = priceOf b → blockOf a = blockOf b → indexOf a ≠ indexOf b → a.blockNumber = b.blockNumber

section
variable {drivers : Drivers} {db : Db} {keys : KeyTable} {orders : List StoredOrder} {order : OrderDocument}

def documentKeys (order : OrderDocument) : Option SortKeys :=
  keysOf order.pricePerToken order.blockNumber order.txIndex

/-- Each order has the keys of its texts. -/
def KeysInStep (db : Db) (keys : KeyTable) : Prop :=
  ∀ order ∈ db.orders.docs, keys order.id = documentKeys order

theorem KeysInStep.of_facts (h : KeysInStep db keys)
    (hfacts : ∃ old ∈ db.orders.docs, factsOf order = factsOf old) :
    keys order.id = documentKeys order := by
  obtain ⟨old, hold, hsame⟩ := hfacts
  have hid : order.id = old.id := congrArg OrderFacts.id hsame
  have hprice : order.pricePerToken = old.pricePerToken := congrArg OrderFacts.pricePerToken hsame
  have hblock : order.blockNumber = old.blockNumber := congrArg OrderFacts.blockNumber hsame
  have hindex : order.txIndex = old.txIndex := congrArg OrderFacts.txIndex hsame
  unfold documentKeys
  rw [hid, hprice, hblock, hindex]
  exact h old hold

theorem KeysInStep.orderConfirmed (h : KeysInStep db keys) (event : OrderConfirmedEvent)
    (hmem : order ∈ (transact drivers (.orderConfirmed event) db).2.orders.docs) :
    setKeys drivers db keys (.transact (.orderConfirmed event)) order.id = documentKeys order := by
  rcases transact_cases drivers (.orderConfirmed event) db with
    ⟨result, next, happly, hcommitted, hsame⟩ | ⟨hsame, hnever⟩
  · rw [hsame.orders] at hmem
    simp only [setKeys, hcommitted]
    rcases applyOrderConfirmed_eq_ok.mp happly with ⟨-, rfl, rfl⟩ | ⟨-, -, -, -, rfl, rfl⟩
    · exact h order hmem
    · have happlied : (applied event.eventId).status = .applied := rfl
      rw [if_pos happlied]
      rcases Collection.mem_docs_put.mp hmem with rfl | ⟨hold, hne⟩
      · exact Function.update_self ..
      · have hne : order.id ≠ toOrderId event.outPoint := hne
        rw [Function.update_of_ne hne]
        exact h order hold
  · rw [hsame] at hmem
    simp only [setKeys]
    cases houtcome : (transact drivers (.orderConfirmed event) db).1 with
    | committed result => exact absurd houtcome (hnever result)
    | _ => exact h order hmem

theorem KeysInStep.step (h : KeysInStep db keys) (node : Node) (op : Op) :
    KeysInStep (handle drivers node op db).2 (setKeys drivers db keys op) := by
  intro order hmem
  cases op with
  | transact event =>
      cases event with
      | orderConfirmed event => exact h.orderConfirmed event hmem
      | _ =>
          apply h.of_facts
          rcases transact_cases drivers _ db with ⟨result, next, happly, -, hsame⟩ | ⟨hsame, -⟩
          · have hnext : order ∈ next.orders.docs := hsame.orders ▸ hmem
            apply (facts_of_applyEvent happly hnext).resolve_right
            rintro ⟨e, he, -⟩
            cases he
          · exact ⟨order, hsame ▸ hmem, rfl⟩
  | _ => exact h.of_facts (facts_of_write rfl node hmem)

theorem value_storedPrice {n : ℤ} {price : StoredPrice} (h : storedPrice n = some price) :
    price.value = n := by
  unfold storedPrice at h
  split_ifs at h
  obtain rfl := Option.some_inj.mp h
  simp only [StoredPrice.value, decide_eq_true_eq]
  split_ifs <;> omega

theorem value_storedNumber {x : JsNumber} {n : StoredNumber} (h : storedNumber x = some n) : x = n.value := by
  cases x with
  | nan => cases h
  | infinity negative =>
      obtain rfl := Option.some_inj.mp h
      rfl
  | finite q =>
      simp only [storedNumber] at h
      split_ifs at h
      obtain rfl := Option.some_inj.mp h
      rfl

theorem derived_of_keys {o : StoredOrder}
    (h : documentKeys o.order = some ⟨o.priceValue, o.blockNum, o.txIdx⟩) : o.Derived := by
  simp only [documentKeys, keysOf, Option.bind_eq_bind, Option.bind_eq_some_iff, Option.pure_def,
    Option.some_inj, SortKeys.mk.injEq] at h
  obtain ⟨price, ⟨n, hn, hprice⟩, block, hblock, index, hindex, rfl, rfl, rfl⟩ := h
  constructor
  · rw [hn, value_storedPrice hprice]
  · exact value_storedNumber hblock
  · exact value_storedNumber hindex

theorem keysInStep_of_reached (h : Reached drivers db keys) : KeysInStep db keys := by
  induction h with
  | empty => exact fun _ h => nomatch h
  | step node op _ ih => exact ih.step node op

theorem indexed_of_reached (h : Reached drivers db keys) (horders : Holds db keys orders)
    (hplace : ∀ o ∈ orders, SmallPlace o.order) : ∀ o ∈ orders, Indexed o := by
  intro o ho
  have hmem : o.order ∈ db.orders.docs := horders.documents ▸ List.mem_map_of_mem ho
  apply Indexed.mk _ (hplace o ho)
  apply derived_of_keys
  rw [← keysInStep_of_reached h o.order hmem]
  exact horders.keys o ho

end

section
variable {α κ : Type} [LinearOrder κ] {key : α → κ} {l : List α} {a b : α}

theorem before_or_after (ha : a ∈ l) (hb : b ∈ l) (hne : a ≠ b) : [a, b].Sublist l ∨ [b, a].Sublist l := by
  have : Std.Symm fun x y => [x, y].Sublist l ∨ [y, x].Sublist l := ⟨fun x y => Or.symm⟩
  have hpairs : l.Pairwise fun x y => [x, y].Sublist l ∨ [y, x].Sublist l :=
    List.pairwise_of_forall_sublist Or.inl
  exact hpairs.forall ha hb hne

/-- In a list that is in order, what comes first has the smaller key. -/
theorem before_iff (hl : l.Pairwise fun x y => key x ≤ key y) (ha : a ∈ l) (hb : b ∈ l)
    (hne : key a ≠ key b) : [a, b].Sublist l ↔ key a < key b := by
  constructor
  · intro hbefore
    exact lt_of_le_of_ne (hl.forall_sublist hbefore) hne
  · intro hlt
    apply (before_or_after ha hb fun hsame => hne (congrArg key hsame)).resolve_right
    intro hafter
    exact absurd hlt (not_lt.mpr (hl.forall_sublist hafter))

end

section
variable {a b order : OrderDocument} {orders : List OrderDocument}

/-- The comparison follows the numbers. -/
def Follows (a b : OrderDocument) : Prop :=
  ∃ ordering, compareOrders a b = .ok ordering ∧ (rank a < rank b → ordering = .lt) ∧
    (rank b < rank a → ordering = .gt)

theorem insertOrder_ranked (hcompare : ∀ other ∈ orders, Follows order other)
    (hsorted : orders.Pairwise fun a b => rank a ≤ rank b) :
    ∃ sorted, insertOrder order orders = .ok sorted ∧ sorted.Perm (order :: orders) ∧
      sorted.Pairwise fun a b => rank a ≤ rank b := by
  induction orders with
  | nil => exact ⟨[order], rfl, List.Perm.refl _, List.pairwise_singleton _ _⟩
  | cons first rest ih =>
      obtain ⟨hfirst, hrest⟩ := List.pairwise_cons.mp hsorted
      obtain ⟨ordering, heq, hlt, hgt⟩ := hcompare first List.mem_cons_self
      obtain ⟨inserted, hinsert, hperm, hranked⟩ := ih
        (fun other hmem => hcompare other (List.mem_cons_of_mem first hmem)) hrest
      unfold insertOrder
      rw [heq]
      by_cases hbefore : ordering = .lt
      · have hle : rank order ≤ rank first := by
          by_contra habove
          rw [hgt (not_le.mp habove)] at hbefore
          cases hbefore
        refine ⟨order :: first :: rest, ?_, List.Perm.refl _, ?_⟩
        · rw [hbefore]
          rfl
        · apply List.pairwise_cons.mpr
          apply And.intro _ hsorted
          intro other hmem
          rcases List.mem_cons.mp hmem with rfl | hmem
          · exact hle
          · exact hle.trans (hfirst other hmem)
      · have hle : rank first ≤ rank order := by
          by_contra hbelow
          exact hbefore (hlt (not_le.mp hbelow))
        refine ⟨first :: inserted, ?_, ?_, ?_⟩
        · simp [bind, Except.bind, pure, Except.pure, hbefore, hinsert]
        · exact (hperm.cons first).trans (List.Perm.swap order first rest)
        · apply List.pairwise_cons.mpr
          apply And.intro _ hranked
          intro other hmem
          rcases List.mem_cons.mp (hperm.mem_iff.mp hmem) with rfl | hmem
          · exact hle
          · exact hfirst other hmem

/-- Where the comparison follows the numbers, so does the sort. -/
theorem sort_ranked (hcompare : ∀ a ∈ orders, ∀ b ∈ orders, Follows a b) :
    ∃ sorted, sort orders = .ok sorted ∧ sorted.Perm orders ∧
      sorted.Pairwise fun a b => rank a ≤ rank b := by
  induction orders using List.reverseRecOn with
  | nil => exact ⟨[], rfl, List.Perm.refl _, List.Pairwise.nil⟩
  | append_singleton orders order ih =>
      obtain ⟨sorted, hsort, hperm, hranked⟩ := ih fun a ha b hb =>
        hcompare a (List.mem_append_left _ ha) b (List.mem_append_left _ hb)
      obtain ⟨inserted, hinsert, hperm', hranked'⟩ := insertOrder_ranked
        (fun other hmem => hcompare order (by simp) other
          (List.mem_append_left _ (hperm.mem_iff.mp hmem))) hranked
      refine ⟨inserted, ?_, ?_, hranked'⟩
      · rw [sort] at hsort
        rw [sort, List.foldlM_append, hsort]
        simp only [bind, Except.bind, List.foldlM_cons, List.foldlM_nil, hinsert, pure, Except.pure]
      · exact hperm'.trans ((hperm.cons order).trans (List.perm_append_singleton order orders).symm)

/-- The texts of an order are integers. -/
structure Reads (order : OrderDocument) : Prop where
  price : bigInt order.pricePerToken = some (priceOf order)
  block : bigInt order.blockNumber = some (blockOf order)
  index : bigInt order.txIndex = some (indexOf order)

theorem rank_lt_iff : rank a < rank b ↔
    a.direction = .ask ∧ b.direction = .bid ∨ a.direction = b.direction ∧
      ((if a.direction = .ask then priceOf a < priceOf b else priceOf b < priceOf a) ∨
        priceOf a = priceOf b ∧ (blockOf a < blockOf b ∨ blockOf a = blockOf b ∧ indexOf a < indexOf b)) := by
  unfold rank age
  cases a.direction <;> cases b.direction <;>
    simp [Prod.Lex.toLex_lt_toLex, blockOf, indexOf]

theorem toBigInt_eq {text : String} {n : ℤ} (h : bigInt text = some n) : toBigInt text = .ok n := by
  rw [toBigInt, h]
  rfl

theorem compareOrders_eq (ha : Reads a) (hb : Reads b) (hside : a.direction = b.direction) :
    compareOrders a b = .ok
      (if priceOf a ≠ priceOf b then
        if (a.direction = .ask ↔ priceOf a < priceOf b) then .lt else .gt
      else if a.blockNumber ≠ b.blockNumber then if blockOf a < blockOf b then .lt else .gt
      else if a.txIndex ≠ b.txIndex then if indexOf a < indexOf b then .lt else .gt
      else .eq) := by
  unfold compareOrders
  rw [toBigInt_eq ha.price, toBigInt_eq hb.price, toBigInt_eq ha.block, toBigInt_eq hb.block,
    toBigInt_eq ha.index, toBigInt_eq hb.index, if_neg (not_not.mpr hside)]
  simp only [bind, Except.bind, pure, Except.pure]
  by_cases hprice : priceOf a = priceOf b
  · rw [if_neg (not_not.mpr hprice), hprice, sub_self, ite_self, if_neg (not_not.mpr rfl)]
    split_ifs <;> rfl
  · rw [if_pos hprice]
    cases a.direction
    all_goals
      simp only [sub_ne_zero, sub_neg, ne_eq, reduceCtorEq, true_iff, false_iff, not_lt, if_true, if_false]
    all_goals
      split_ifs <;> first | rfl | omega

/-- The comparison goes wrong where equal numbers are spelled differently. -/
theorem compareOrders_follows (ha : Reads a) (hb : Reads b)
    (halike : a.direction = b.direction → SpelledAlike a b) : Follows a b := by
  have hblock : a.blockNumber = b.blockNumber → blockOf a = blockOf b := fun h => by
    unfold blockOf
    rw [h]
  have hindex : a.txIndex = b.txIndex → indexOf a = indexOf b := fun h => by
    unfold indexOf
    rw [h]
  unfold Follows
  rw [rank_lt_iff, rank_lt_iff]
  by_cases hside : a.direction = b.direction
  · have halike := halike hside
    unfold SpelledAlike at halike
    refine ⟨_, compareOrders_eq ha hb hside, ?_, ?_⟩
    all_goals
      rw [hside]
      cases b.direction
      all_goals
        simp only [reduceCtorEq, and_false, false_and, true_and, false_or, true_iff, false_iff,
          if_true, if_false]
        intro hlt
        split_ifs <;> grind
  · unfold compareOrders
    rw [if_pos hside]
    refine ⟨_, rfl, ?_, ?_⟩
    all_goals
      cases hda : a.direction <;> cases hdb : b.direction <;> simp_all

end

section
variable {a b o : StoredOrder} {orders given : List StoredOrder} {xudtTypeHash : Hex} {direction : Direction}

theorem mem_book : o ∈ book xudtTypeHash direction orders ↔ o ∈ orders ∧ o.order.status = .live ∧
    o.order.xudtTypeHash = xudtTypeHash ∧ o.order.direction = direction := by
  rw [book, mem_listed]
  simp only [orderBook, sideOf, Option.all_some, Bool.and_eq_true, decide_eq_true_eq]
  grind

theorem Indexed.reads (h : Indexed o) : Reads o.order where
  price := by
    rw [priceOf, h.derived.priceValue]
    rfl
  block := by
    obtain ⟨n, -, hn⟩ := h.place.block
    rw [blockOf, hn]
    rfl
  index := by
    obtain ⟨n, -, hn⟩ := h.place.index
    rw [indexOf, hn]
    rfl

theorem Indexed.priceValue (h : Indexed o) : o.priceValue.value = priceOf o.order := by
  rw [priceOf, h.derived.priceValue]
  rfl

theorem Indexed.blockNum (h : Indexed o) : o.blockNum.rank = rankAt (blockOf o.order) := by
  obtain ⟨n, hlt, hn⟩ := h.place.block
  have hvalue : o.blockNum.value = .finite n := by
    rw [← h.derived.blockNum, number_of_bigInt_exact hn hlt]
  rw [blockOf, hn, StoredNumber.rank, hvalue]
  rfl

theorem Indexed.txIdx (h : Indexed o) : o.txIdx.rank = rankAt (indexOf o.order) := by
  obtain ⟨n, hlt, hn⟩ := h.place.index
  have hvalue : o.txIdx.value = .finite n := by
    rw [← h.derived.txIdx, number_of_bigInt_exact hn hlt]
  rw [indexOf, hn, StoredNumber.rank, hvalue]
  rfl

/-- The sort keys of a side are in the order of the texts' numbers. -/
theorem sort_lt_iff (xudtTypeHash : Hex) (ha : Indexed a) (hb : Indexed b)
    (hside : a.order.direction = b.order.direction)
    (hdiffer : Differs a.order b.order) :
    (orderBook (sideOf xudtTypeHash a.order.direction)).sort a <
        (orderBook (sideOf xudtTypeHash a.order.direction)).sort b ↔ rank a.order < rank b.order := by
  unfold Differs at hdiffer
  rw [rank_lt_iff, ← hside]
  simp only [orderBook, Prod.Lex.toLex_lt_toLex, ha.priceValue, hb.priceValue, ha.blockNum, hb.blockNum,
    ha.txIdx, hb.txIdx, rankAt_lt, rankAt_inj, Int.cast_lt, Int.cast_inj]
  cases a.order.direction
  all_goals
    simp [priceDirection, sideOf]
    grind

theorem rank_ne (hside : a.order.direction = b.order.direction) (hdiffer : Differs a.order b.order) :
    rank a.order ≠ rank b.order := by
  intro hsame
  unfold Differs at hdiffer
  unfold rank age at hsame
  rw [hside] at hsame
  cases hdirection : b.order.direction <;> simp [hdirection, blockOf, indexOf] at hsame hdiffer <;> tauto

theorem SpelledAlike.symm {a b : OrderDocument} (h : SpelledAlike a b) : SpelledAlike b a :=
  fun hprice hblock hindex => (h hprice.symm hblock.symm hindex.symm).symm

theorem Differs.symm {a b : OrderDocument} (h : Differs a b) : Differs b a :=
  h.imp Ne.symm (Or.imp Ne.symm Ne.symm)

/-- In a list in the order of its numbers, and in the book, what differs comes in
one order. -/
theorem before_book_iff {sorted : List OrderDocument}
    (hranked : sorted.Pairwise fun a b => rank a ≤ rank b) (ha : Indexed a) (hb : Indexed b)
    (hsorteda : a.order ∈ sorted) (hsortedb : b.order ∈ sorted)
    (hbooka : a ∈ book xudtTypeHash a.order.direction orders)
    (hbookb : b ∈ book xudtTypeHash a.order.direction orders)
    (hside : a.order.direction = b.order.direction) (hdiffer : Differs a.order b.order) :
    [a.order, b.order].Sublist sorted ↔ [a, b].Sublist (book xudtTypeHash a.order.direction orders) := by
  have hne := rank_ne hside hdiffer
  have hlt := sort_lt_iff xudtTypeHash ha hb hside hdiffer
  have hgt := sort_lt_iff xudtTypeHash hb ha hside.symm hdiffer.symm
  rw [← hside] at hgt
  have hkeys : (orderBook (sideOf xudtTypeHash a.order.direction)).sort a ≠
      (orderBook (sideOf xudtTypeHash a.order.direction)).sort b := by
    intro hsame
    rw [hsame] at hlt hgt
    rcases lt_or_gt_of_ne hne with hbelow | habove
    · exact lt_irrefl _ (hlt.mpr hbelow)
    · exact lt_irrefl _ (hgt.mpr habove)
  have hlisted : (book xudtTypeHash a.order.direction orders).Pairwise fun x y =>
      (orderBook (sideOf xudtTypeHash a.order.direction)).sort x ≤
        (orderBook (sideOf xudtTypeHash a.order.direction)).sort y := List.pairwise_insertionSort _ _
  rw [before_iff hranked hsorteda hsortedb hne, before_iff hlisted hbooka hbookb hkeys, hlt]

/-- The bot follows the book where equal blocks are spelled alike. -/
theorem ranksAlike (hindexed : ∀ o ∈ orders, Indexed o)
    (hgiven : ∀ o ∈ given, o ∈ orders ∧ o.order.status = .live)
    (halike : ∀ a ∈ given, ∀ b ∈ given, a.order.direction = b.order.direction →
      SpelledAlike a.order b.order) :
    RanksAlike given orders := by
  have hcompare : ∀ x ∈ given.map StoredOrder.order, ∀ y ∈ given.map StoredOrder.order, Follows x y := by
    intro x hx y hy
    obtain ⟨a, ha, rfl⟩ := List.mem_map.mp hx
    obtain ⟨b, hb, rfl⟩ := List.mem_map.mp hy
    exact compareOrders_follows (hindexed a (hgiven a ha).1).reads (hindexed b (hgiven b hb).1).reads
      (halike a ha b hb)
  obtain ⟨sorted, hsort, hperm, hranked⟩ := sort_ranked hcompare
  refine ⟨sorted, hsort, ?_⟩
  intro a ha b hb hside hdiffer
  have hsorted : ∀ o ∈ given, o.order ∈ sorted := fun o ho =>
    hperm.mem_iff.mpr (List.mem_map_of_mem ho)
  apply before_book_iff hranked (hindexed a (hgiven a ha).1) (hindexed b (hgiven b hb).1)
    (hsorted a ha) (hsorted b hb) _ _ hside.2 hdiffer
  · exact mem_book.mpr ⟨(hgiven a ha).1, (hgiven a ha).2, rfl, rfl⟩
  · exact mem_book.mpr ⟨(hgiven b hb).1, (hgiven b hb).2, hside.1.symm, hside.2.symm⟩

/-- Two orders of one block and several spellings each come after the other. -/
theorem compareOrders_of_not_alike {a b : OrderDocument} (ha : Reads a) (hb : Reads b)
    (hside : a.direction = b.direction) (h : ¬SpelledAlike a b) : compareOrders a b = .ok .gt := by
  unfold SpelledAlike at h
  rw [compareOrders_eq ha hb hside]
  split_ifs <;> grind

theorem sort_two {a b : OrderDocument} (h : compareOrders b a = .ok .gt) : sort [a, b] = .ok [a, b] := by
  simp [sort, insertOrder, h, bind, Except.bind, pure, Except.pure]

/-- Which of them the bot ranks first is decided by how they were given. -/
theorem not_sameRanking_of_before (ha : Indexed a) (hb : Indexed b)
    (hbefore : [a, b].Sublist (book xudtTypeHash direction orders))
    (h : ¬SpelledAlike a.order b.order) : ¬SameRanking xudtTypeHash direction orders := by
  intro hranking
  have hbook : ∀ o ∈ [a, b], o ∈ book xudtTypeHash direction orders := fun o ho => hbefore.subset ho
  obtain ⟨-, -, hmarketa, hsidea⟩ := mem_book.mp (hbook a (by simp))
  obtain ⟨-, -, hmarketb, hsideb⟩ := mem_book.mp (hbook b (by simp))
  have htexts : a.order ≠ b.order := by
    intro hsame
    rw [hsame] at h
    exact h fun _ _ _ => rfl
  have hdiffer : Differs a.order b.order := by
    unfold SpelledAlike at h
    unfold Differs
    tauto
  have hnodup : [b, a].Nodup := by
    simpa using fun hsame : b = a => htexts (congrArg StoredOrder.order hsame.symm)
  have hgiven : ∀ o ∈ [b, a], o ∈ book xudtTypeHash direction orders := fun o ho =>
      hbook o (by simp at ho ⊢; tauto)
  obtain ⟨sorted, hsort, hranked⟩ := hranking [b, a] hnodup hgiven
  have hkept := sort_two (compareOrders_of_not_alike ha.reads hb.reads (hsidea.trans hsideb.symm) h)
  have hsorted : sorted = [b.order, a.order] := Except.ok.inj (hsort.symm.trans hkept)
  have hafter := (hranked a (by simp) b (by simp) ⟨hmarketa.trans hmarketb.symm, hsidea.trans hsideb.symm⟩
    hdiffer).mpr
  rw [hmarketa, hsidea, hsorted] at hafter
  have hsame := (hafter hbefore).eq_of_length rfl
  exact htexts (List.cons.inj hsame).1

theorem not_sameRanking (ha : Indexed a) (hb : Indexed b)
    (hbooka : a ∈ book xudtTypeHash direction orders) (hbookb : b ∈ book xudtTypeHash direction orders)
    (h : ¬SpelledAlike a.order b.order) : ¬SameRanking xudtTypeHash direction orders := by
  have hne : a ≠ b := by
    intro hsame
    rw [hsame] at h
    exact h fun _ _ _ => rfl
  rcases before_or_after hbooka hbookb hne with hbefore | hafter
  · exact not_sameRanking_of_before ha hb hbefore h
  · exact not_sameRanking_of_before hb ha hafter fun hsame => h hsame.symm

theorem snapshotSide_eq (limit : ℕ) (price : ℤ)
    (hprice : price = priceDirection (sideOf xudtTypeHash direction)) :
    snapshotSide limit xudtTypeHash direction price orders =
      ((book xudtTypeHash direction orders).take limit).map stripSortKeys := by
  subst hprice
  unfold snapshotSide book listed
  have hfilter : ∀ o : StoredOrder, (decide (o.order.xudtTypeHash = xudtTypeHash) &&
      decide (o.order.status = .live) && decide (o.order.direction = direction)) =
        (orderBook (sideOf xudtTypeHash direction)).filter o := by
    intro o
    simp only [orderBook, sideOf, Option.all_some]
    grind
  simp only [hfilter]
  rfl

theorem getOrderBook_first (runtime : Runtime) (limit : ℕ) :
    ∃ page, getOrderBook runtime (sideOf xudtTypeHash direction) limit none orders = .ok page ∧
      page.items = ((book xudtTypeHash direction orders).take limit).map stripSortKeys := by
  refine ⟨_, rfl, ?_⟩
  have hfilter : (fun o => (orderBook (sideOf xudtTypeHash direction)).filter o && true) =
      (orderBook (sideOf xudtTypeHash direction)).filter := funext fun o => Bool.and_true _
  simp only [Page.map, book, hfilter, List.take_take, Nat.min_eq_left (Nat.le_succ limit)]

theorem snapshotIsFirstPage (xudtTypeHash : Hex) (orders : List StoredOrder) :
    SnapshotIsFirstPage xudtTypeHash orders := by
  intro runtime limit
  obtain ⟨asks, hasks, hask⟩ := getOrderBook_first runtime limit
  obtain ⟨bids, hbids, hbid⟩ := getOrderBook_first runtime limit
  have hasks' : snapshotSide limit xudtTypeHash .ask 1 orders = asks.items :=
    (snapshotSide_eq limit 1 rfl).trans hask.symm
  have hbids' : snapshotSide limit xudtTypeHash .bid (-1) orders = bids.items :=
    (snapshotSide_eq limit (-1) rfl).trans hbid.symm
  refine ⟨asks, bids, hasks, hbids, hasks', hbids', ?_⟩
  rw [orderBookSnapshot, hasks', hbids']

end

/-- In every state that ingestion and the bot reach, the snapshot of a market is the
first page of each side, and the bot ranks the sides as the endpoint does exactly
where orders of one price and block have the block in one spelling. -/
theorem same_priority_iff {drivers : Drivers} {db : Db} {keys : KeyTable} {orders : List StoredOrder}
    (hreached : Reached drivers db keys) (horders : Holds db keys orders)
    (hplace : ∀ o ∈ orders, SmallPlace o.order) :
    (((∀ xudtTypeHash direction, SameRanking xudtTypeHash direction orders) ∧
        ∀ xudtTypeHash, SnapshotIsFirstPage xudtTypeHash orders) ↔
      ∀ a ∈ orders, ∀ b ∈ orders, a.order.status = .live → b.order.status = .live →
        SameSide a.order b.order → SpelledAlike a.order b.order) ∧
    ∀ given : List StoredOrder, (∀ o ∈ given, o ∈ orders ∧ o.order.status = .live) →
      (∀ a ∈ given, ∀ b ∈ given, a.order.direction = b.order.direction → SpelledAlike a.order b.order) →
      RanksAlike given orders := by
  have hindexed := indexed_of_reached hreached horders hplace
  refine ⟨⟨?_, ?_⟩, fun given hgiven halike => ranksAlike hindexed hgiven halike⟩
  · rintro ⟨hranking, -⟩ a ha b hb halive hblive hside
    by_contra hspelled
    apply not_sameRanking (hindexed a ha) (hindexed b hb) _ _ hspelled
      (hranking a.order.xudtTypeHash a.order.direction)
    · exact mem_book.mpr ⟨ha, halive, rfl, rfl⟩
    · exact mem_book.mpr ⟨hb, hblive, hside.1.symm, hside.2.symm⟩
  · intro hspelled
    apply And.intro _ fun xudtTypeHash => snapshotIsFirstPage xudtTypeHash orders
    intro xudtTypeHash direction given _ hbook
    have hgiven : ∀ o ∈ given, o ∈ orders ∧ o.order.status = .live := fun o ho =>
      ⟨(mem_book.mp (hbook o ho)).1, (mem_book.mp (hbook o ho)).2.1⟩
    apply ranksAlike hindexed hgiven
    intro a ha b hb hside
    have hmarket : a.order.xudtTypeHash = b.order.xudtTypeHash :=
      (mem_book.mp (hbook a ha)).2.2.1.trans (mem_book.mp (hbook b hb)).2.2.1.symm
    exact hspelled a (hgiven a ha).1 b (hgiven b hb).1 (hgiven a ha).2 (hgiven b hb).2 ⟨hmarket, hside⟩

section
open Acceptance GroundedDocuments
open OrderLockRules (exampleHash)

def smallNumber (n : ℕ) (h : n < 2 ^ 53) : StoredNumber :=
  ⟨.finite n, by simp, fun _ hq => JsNumber.finite.inj hq ▸ binary64_natCast h⟩

theorem storedNumber_of_bigInt {text : String} {n : ℕ} (h : bigInt text = some (n : ℤ)) (hn : n < 2 ^ 53) :
    storedNumber (number text) = some (smallNumber n hn) := by
  rw [number_of_bigInt_exact h hn]
  exact dif_pos (binary64_natCast hn)

/-- A sell order in transaction 0 or 1 of block 16. -/
def confirmedAt (transaction : Fin 2) (block : String) : OrderConfirmedEvent :=
  { exampleSellConfirmed with
    eventId := toString transaction.val
    blockNumber := some block
    outPoint := ⟨hashText (exampleHash (transaction.val + 5)), "0"⟩
    order := { exampleSellConfirmed.order with
      blockNumber := block
      txIndex := toString transaction.val } }

theorem transaction_lt (transaction : Fin 2) : (transaction : ℕ) < 2 ^ 53 :=
  transaction.isLt.trans (by decide)

theorem block_lt : 16 < 2 ^ 53 := by decide

theorem price_lt : 5000 < 10 ^ precision := by decide

theorem placedAt_le : 1700000000000 ≤ maxTime := by decide

def storedAt (transaction : Fin 2) (block : String) : StoredOrder where
  order := confirmedDocument none (confirmedAt transaction block)
  createdAt := 1700000000000
  createdAt_le := placedAt_le
  priceValue := ⟨false, 5000, price_lt⟩
  blockNum := smallNumber 16 block_lt
  txIdx := smallNumber transaction (transaction_lt transaction)

theorem confirmedAt_valid (transaction : Fin 2) {block : String} (h : isNonempty block = true) :
    (BotEvent.orderConfirmed (confirmedAt transaction block)).valid = true := by
  have hindex : isNonempty (toString transaction.val) = true := isNonempty_toString transaction.val
  have hbase : EventBase.valid (confirmedAt transaction block).toEventBase = true := by
    have hhash : (confirmedAt transaction block).blockHash.all isHash = true :=
      isHash_hashText (exampleHash 21)
    have hid : isNonempty (confirmedAt transaction block).eventId = true := hindex
    have hblock : (confirmedAt transaction block).blockNumber.all isNonempty = true := h
    rw [EventBase.valid, hid, hblock, hhash]
    rfl
  have hout : OutPoint.valid (confirmedAt transaction block).outPoint = true :=
    Bool.and_eq_true_iff.mpr ⟨isHash_hashText _, isNonempty_toString 0⟩
  have horder : ConfirmedOrder.valid (confirmedAt transaction block).order = true := by
    have hsell : ConfirmedOrder.valid exampleSellConfirmed.order = true := valid_indexedOrder fun _ => "ckt1"
    simp only [ConfirmedOrder.valid, Bool.and_eq_true] at hsell ⊢
    exact ⟨⟨hsell.1.1, h⟩, hindex⟩
  simp only [BotEvent.valid, BotEvent.base, hbase, hout, horder, Bool.and_self]

theorem storedAt_keys (transaction : Fin 2) {block : String} (h : bigInt block = some 16) :
    keysOf (confirmedAt transaction block).order.pricePerToken block (toString transaction.val) =
      some ⟨(storedAt transaction block).priceValue, (storedAt transaction block).blockNum,
        (storedAt transaction block).txIdx⟩ := by
  have hprice : bigInt (confirmedAt transaction block).order.pricePerToken = some 5000 := bigInt_toString 5000
  have hindex : bigInt (toString transaction.val) = some (transaction.val : ℤ) := bigInt_toString _
  have hblock : bigInt block = some ((16 : ℕ) : ℤ) := h
  unfold keysOf
  rw [hprice, storedNumber_of_bigInt hblock (by decide), storedNumber_of_bigInt hindex (by omega)]
  rfl

theorem confirmedAt_applied (transaction : Fin 2) {block : String} {db : Db} (h : bigInt block = some 16)
    (hnew : db.orders.find? (toOrderId (confirmedAt transaction block).outPoint) = none) :
    applyEvent exampleDrivers (.orderConfirmed (confirmedAt transaction block)) db =
      .ok (applied (toString transaction.val), db.putOrder (storedAt transaction block).order) := by
  change applyOrderConfirmed exampleDrivers (confirmedAt transaction block) db = _
  apply applyOrderConfirmed_eq_ok.mpr
  refine Or.inr ⟨?_, exampleDrivers_reads.decimal128 5000 (by decide),
    number_ne_nan_of_bigInt (n := 16) h, number_ne_nan_of_bigInt (bigInt_toString _), rfl, ?_⟩
  · rw [hnew]
    rfl
  · rw [hnew]
    rfl

/-- The states after both orders, the block of the second in hexadecimal. -/
def firstPlaced : Db :=
  recorded (Db.empty.putOrder (storedAt 0 "16").order) (applied "0") "0"

def bothPlaced : Db :=
  recorded (firstPlaced.putOrder (storedAt 1 "0x10").order) (applied "1") "1"

theorem firstPlaced_committed :
    transact exampleDrivers (.orderConfirmed (confirmedAt 0 "16")) Db.empty =
      (.committed (applied "0"), firstPlaced) := by
  have hblock : bigInt "16" = some 16 := by decide
  exact transact_eq rfl (confirmedAt_applied 0 hblock rfl)

theorem bothPlaced_committed :
    transact exampleDrivers (.orderConfirmed (confirmedAt 1 "0x10")) firstPlaced =
      (.committed (applied "1"), bothPlaced) := by
  have hblock : bigInt "0x10" = some 16 := by decide
  have hfind : firstPlaced.orders.find? (toOrderId (confirmedAt 1 "0x10").outPoint) = none :=
    Collection.find?_put.trans (if_neg (by decide +kernel))
  have hnew : firstPlaced.processed (BotEvent.orderConfirmed (confirmedAt 1 "0x10")).eventId = false := by
    decide +kernel
  exact transact_eq hnew (confirmedAt_applied 1 hblock hfind)

def placedKeys : KeyTable :=
  Function.update (Function.update (fun _ => none) (storedAt 0 "16").order.id
    (documentKeys (storedAt 0 "16").order)) (storedAt 1 "0x10").order.id
    (documentKeys (storedAt 1 "0x10").order)

theorem bothPlaced_reached : Reached exampleDrivers bothPlaced placedKeys := by
  have hstep : ∀ {event : OrderConfirmedEvent} {db next : Db} {keys : KeyTable} {id : String},
      transact exampleDrivers (.orderConfirmed event) db = (.committed (applied id), next) →
      Reached exampleDrivers db keys → Reached exampleDrivers next (Function.update keys
        (toOrderId event.outPoint)
        (keysOf event.order.pricePerToken event.order.blockNumber event.order.txIndex)) := by
    intro event db next keys id hcommitted hreached
    have hnext := hreached.step (exampleChain.node SettlementBuilder.exampleDex 0)
      (.transact (.orderConfirmed event))
    simp only [handle, setKeys, hcommitted] at hnext
    exact hnext
  exact hstep bothPlaced_committed (hstep firstPlaced_committed .empty)

theorem storedAt_id_ne : (storedAt 0 "16").order.id ≠ (storedAt 1 "0x10").order.id := by decide +kernel

theorem bothPlaced_holds : Holds bothPlaced placedKeys [storedAt 0 "16", storedAt 1 "0x10"] where
  documents := by
    have hfind : firstPlaced.orders.find? (storedAt 1 "0x10").order.id = none :=
      Collection.find?_put.trans (if_neg storedAt_id_ne)
    have hdocs : (firstPlaced.orders.put (storedAt 1 "0x10").order).docs =
        firstPlaced.orders.docs ++ [(storedAt 1 "0x10").order] := by
      rw [Collection.put, dif_neg (by simp [hfind])]
    exact hdocs.symm
  keys := by
    intro o ho
    rcases List.mem_pair.mp ho with rfl | rfl
    · rw [placedKeys, Function.update_of_ne storedAt_id_ne, Function.update_self]
      exact storedAt_keys 0 (by decide)
    · rw [placedKeys, Function.update_self]
      exact storedAt_keys 1 (by decide)

theorem storedAt_place (transaction : Fin 2) {block : String} (h : bigInt block = some 16) :
    SmallPlace (storedAt transaction block).order where
  block := ⟨16, by decide, h⟩
  index := ⟨transaction.val, by omega, bigInt_toString _⟩

theorem bothPlaced_place : ∀ o ∈ [storedAt 0 "16", storedAt 1 "0x10"], SmallPlace o.order := by
  intro o ho
  rcases List.mem_pair.mp ho with rfl | rfl
  · exact storedAt_place 0 (by decide)
  · exact storedAt_place 1 (by decide)

theorem same_priority_iff_example :
    (((∀ xudtTypeHash direction,
          SameRanking xudtTypeHash direction [storedAt 0 "16", storedAt 1 "0x10"]) ∧
        ∀ xudtTypeHash, SnapshotIsFirstPage xudtTypeHash [storedAt 0 "16", storedAt 1 "0x10"]) ↔
      ∀ a ∈ [storedAt 0 "16", storedAt 1 "0x10"], ∀ b ∈ [storedAt 0 "16", storedAt 1 "0x10"],
        a.order.status = .live → b.order.status = .live → SameSide a.order b.order →
          SpelledAlike a.order b.order) ∧
    RanksAlike [storedAt 0 "16"] [storedAt 0 "16", storedAt 1 "0x10"] := by
  obtain ⟨hiff, hmixed⟩ := same_priority_iff bothPlaced_reached bothPlaced_holds bothPlaced_place
  apply And.intro hiff
  apply hmixed
  · intro o ho
    rw [List.mem_singleton.mp ho]
    exact ⟨List.mem_cons_self, rfl⟩
  · intro a ha b hb _
    rw [List.mem_singleton.mp ha, List.mem_singleton.mp hb]
    exact fun _ _ _ => rfl

theorem storedAt_not_alike : ¬SpelledAlike (storedAt 0 "16").order (storedAt 1 "0x10").order := by
  intro h
  have hsame := h rfl (by decide +kernel) (by decide +kernel)
  exact absurd hsame (by decide +kernel)

/-- Each of two orders of block 16 comes after the other for the bot, which serves
them as they were given, and the endpoint lists them by their transactions. -/
theorem respelled_block_reorders :
    (BotEvent.orderConfirmed (confirmedAt 0 "16")).valid = true ∧
    (BotEvent.orderConfirmed (confirmedAt 1 "0x10")).valid = true ∧
    Reached exampleDrivers bothPlaced placedKeys ∧
    Holds bothPlaced placedKeys [storedAt 0 "16", storedAt 1 "0x10"] ∧
    (∀ o ∈ [storedAt 0 "16", storedAt 1 "0x10"], SmallPlace o.order) ∧
    compareOrders (storedAt 0 "16").order (storedAt 1 "0x10").order = .ok .gt ∧
    compareOrders (storedAt 1 "0x10").order (storedAt 0 "16").order = .ok .gt ∧
    ¬SameRanking (storedAt 0 "16").order.xudtTypeHash .ask [storedAt 0 "16", storedAt 1 "0x10"] := by
  have hindexed := indexed_of_reached bothPlaced_reached bothPlaced_holds bothPlaced_place
  have hfirst := hindexed (storedAt 0 "16") (by simp)
  have hsecond := hindexed (storedAt 1 "0x10") (by simp)
  refine ⟨?_, ?_, bothPlaced_reached, bothPlaced_holds, bothPlaced_place, ?_, ?_, ?_⟩
  · exact confirmedAt_valid 0 (by decide)
  · exact confirmedAt_valid 1 (by decide)
  · exact compareOrders_of_not_alike hfirst.reads hsecond.reads rfl storedAt_not_alike
  · exact compareOrders_of_not_alike hsecond.reads hfirst.reads rfl fun h => storedAt_not_alike h.symm
  · apply not_sameRanking hfirst hsecond _ _ storedAt_not_alike
    · exact mem_book.mpr ⟨by simp, rfl, rfl, rfl⟩
    · exact mem_book.mpr ⟨by simp, rfl, rfl, rfl⟩

end

end CkbDex.Priority
