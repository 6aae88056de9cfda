import CkbDex.GreedyMatching
import CkbDex.SettlementBuilder

/-!
# Matching

How the bot pairs live orders: price and then age decide the order of service,
orders match on the same token, amount and price, and what failed before is left
out for a while. Texts that are no integers make the comparison throw.
-/
namespace CkbDex.Matching
open Documents GreedyMatching SettlementBuilder Text
open OrderLockRules (exampleHash exampleOrder)
open OrderLock (sideBuy sideSell)

structure PairState where
  failures : ℕ
  expiry : ℕ

structure MatchHealth where
  quarantinedOrders : String → Option ℕ
  pairs : String → Option PairState

def pairKey (buyId sellId : String) : String := s!"{buyId}|{sellId}"

def MatchHealth.quarantineOrder (health : MatchHealth) (orderId : String) (ms now : ℕ) : MatchHealth :=
  { health with quarantinedOrders := Function.update health.quarantinedOrders orderId (some (now + ms)) }

/-- An entry that is over is deleted. -/
def MatchHealth.isOrderQuarantined (health : MatchHealth) (orderId : String) (now : ℕ) :
    Bool × MatchHealth :=
  match health.quarantinedOrders orderId with
  | none => (false, health)
  | some expiry =>
      if expiry ≤ now then
        (false, { health with quarantinedOrders := Function.update health.quarantinedOrders orderId none })
      else (true, health)

def MatchHealth.isPairBlocked (health : MatchHealth) (buyId sellId : String) (now : ℕ) : Bool :=
  match health.pairs (pairKey buyId sellId) with
  | none => false
  | some state => now < state.expiry

/-- The comparison of `sort`. -/
def compareOrders (a b : OrderDocument) : Except Failure Ordering := do
  if a.direction ≠ b.direction then
    return if a.direction = .ask then .lt else .gt
  let priceA ← toBigInt a.pricePerToken
  let priceB ← toBigInt b.pricePerToken
  let priceDelta := if a.direction = .ask then priceA - priceB else priceB - priceA
  if priceDelta ≠ 0 then
    return if priceDelta < 0 then .lt else .gt
  if a.blockNumber ≠ b.blockNumber then
    return if (← toBigInt a.blockNumber) < (← toBigInt b.blockNumber) then .lt else .gt
  if a.txIndex ≠ b.txIndex then
    return if (← toBigInt a.txIndex) < (← toBigInt b.txIndex) then .lt else .gt
  return .eq

def insertOrder (order : OrderDocument) : List OrderDocument → Except Failure (List OrderDocument)
  | [] => return [order]
  | first :: rest => do
      if (← compareOrders order first) = .lt then return order :: first :: rest
      else return first :: (← insertOrder order rest)

/-- `Array.prototype.sort` is stable: an order stays behind those before it that
it does not precede. -/
def sort (orders : List OrderDocument) : Except Failure (List OrderDocument) :=
  orders.foldlM (fun sorted order => insertOrder order sorted) []

structure Bucket where
  buys : List OrderDocument
  sells : List OrderDocument

def Bucket.push (bucket : Bucket) (order : OrderDocument) : Bucket :=
  match order.direction with
  | .bid => { bucket with buys := bucket.buys ++ [order] }
  | .ask => { bucket with sells := bucket.sells ++ [order] }

def matchGroupKey (order : OrderDocument) : String :=
  s!"{order.xudtTypeHash}:{order.remainingAmount}:{order.pricePerToken}"

/-- A `Map` keeps the order in which its keys came. -/
def addToGroup (groups : List (String × Bucket)) (order : OrderDocument) : List (String × Bucket) :=
  let key := matchGroupKey order
  if key ∈ groups.map Prod.fst then
    groups.map fun group => if group.1 = key then (key, group.2.push order) else group
  else groups ++ [(key, (Bucket.mk [] []).push order)]

def findMatch (orders : List OrderDocument) : Except Failure (Option (OrderDocument × OrderDocument)) := do
  let groups := (← sort orders).foldl addToGroup []
  return groups.findSome? fun group =>
    match group.2.buys, group.2.sells with
    | buy :: _, sell :: _ => some (buy, sell)
    | _, _ => none

/-- The groups of the orders that are not quarantined. -/
def addUnlessQuarantined (now : ℕ) (state : List (String × Bucket) × MatchHealth)
    (order : OrderDocument) : List (String × Bucket) × MatchHealth :=
  let (quarantined, health) := state.2.isOrderQuarantined order.id now
  if quarantined then (state.1, health) else (addToGroup state.1 order, health)

/-- The pairs of a group. -/
def matchBucket (health : MatchHealth) (now : ℕ) (bucket : Bucket) : List (OrderDocument × OrderDocument) :=
  serve (fun buy sell => !health.isPairBlocked buy.id sell.id now) OrderDocument.id bucket.sells []
    bucket.buys

def findMatches (health : MatchHealth) (now : ℕ) (orders : List OrderDocument) :
    Except Failure (List (OrderDocument × OrderDocument) × MatchHealth) := do
  let (groups, health) := (← sort orders).foldl (addUnlessQuarantined now) ([], health)
  return (groups.flatMap fun group => matchBucket health now group.2, health)

def priceOf (order : OrderDocument) : ℤ := (bigInt order.pricePerToken).getD 0

/-- The place of an order on the chain. -/
def age (order : OrderDocument) : ℤ ×ₗ ℤ :=
  toLex ((bigInt order.blockNumber).getD 0, (bigInt order.txIndex).getD 0)

/-- Sells before buys, the best price first, the oldest first. -/
def rank (order : OrderDocument) : ℕ ×ₗ ℤ ×ₗ ℤ ×ₗ ℤ :=
  match order.direction with
  | .ask => toLex (0, toLex (priceOf order, age order))
  | .bid => toLex (1, toLex (-priceOf order, age order))

/-- The numbers of an order are decimal texts. -/
structure Canonical (order : OrderDocument) : Prop where
  price : ∃ n : ℕ, order.pricePerToken = toString n
  amount : ∃ n : ℕ, order.remainingAmount = toString n
  block : ∃ n : ℕ, order.blockNumber = toString n
  index : ∃ n : ℕ, order.txIndex = toString n

section
variable {a b order : OrderDocument} {orders : List OrderDocument} {health : MatchHealth} {now : ℕ}
  {groups : List (String × Bucket)}

theorem toBigInt_toString (n : ℕ) : toBigInt (toString n) = .ok (n : ℤ) := by
  rw [toBigInt, bigInt_toString]
  rfl

theorem toString_eq_iff {m n : ℕ} : toString m = toString n ↔ m = n :=
  ⟨toString_injective, congrArg toString⟩

theorem compareOrders_eq (ha : Canonical a) (hb : Canonical b) :
    ∃ ordering, compareOrders a b = .ok ordering ∧ (ordering = .lt ↔ rank a < rank b) := by
  obtain ⟨priceA, hpriceA⟩ := ha.price
  obtain ⟨priceB, hpriceB⟩ := hb.price
  obtain ⟨blockA, hblockA⟩ := ha.block
  obtain ⟨blockB, hblockB⟩ := hb.block
  obtain ⟨indexA, hindexA⟩ := ha.index
  obtain ⟨indexB, hindexB⟩ := hb.index
  have hrank : rank a < rank b ↔ a.direction = .ask ∧ b.direction = .bid ∨ a.direction = b.direction ∧
      ((if a.direction = .ask then (priceA : ℤ) < priceB else (priceB : ℤ) < priceA) ∨ priceA = priceB ∧
        (blockA < blockB ∨ blockA = blockB ∧ indexA < indexB)) := by
    unfold rank age priceOf
    rw [hpriceA, hpriceB, hblockA, hblockB, hindexA, hindexB]
    simp only [bigInt_toString, Option.getD_some]
    cases a.direction <;> cases b.direction <;> simp [Prod.Lex.toLex_lt_toLex]
  rw [hrank]
  unfold compareOrders
  rw [hpriceA, hpriceB, hblockA, hblockB, hindexA, hindexB]
  simp only [toBigInt_toString, toString_eq_iff, ne_eq]
  cases a.direction <;> cases b.direction <;>
    simp only [bind, Except.bind, pure, Except.pure, reduceCtorEq, not_true_eq_false,
      not_false_eq_true, if_true, if_false, true_and, false_and, false_or, or_false]
  case ask.ask | bid.bid =>
    split_ifs <;> refine ⟨_, rfl, ?_⟩ <;> simp <;> omega
  case ask.bid => exact ⟨_, rfl, by simp⟩
  case bid.ask => exact ⟨_, rfl, by simp⟩

/-- Orders that the comparison does not tell apart. -/
def SamePlace (a b : OrderDocument) : Prop :=
  a.direction = b.direction ∧ a.pricePerToken = b.pricePerToken ∧ a.blockNumber = b.blockNumber ∧
    a.txIndex = b.txIndex

instance (a b : OrderDocument) : Decidable (SamePlace a b) :=
  inferInstanceAs (Decidable (_ ∧ _ ∧ _ ∧ _))

theorem rank_eq_iff (ha : Canonical a) (hb : Canonical b) : rank a = rank b ↔ SamePlace a b := by
  obtain ⟨priceA, hpriceA⟩ := ha.price
  obtain ⟨priceB, hpriceB⟩ := hb.price
  obtain ⟨blockA, hblockA⟩ := ha.block
  obtain ⟨blockB, hblockB⟩ := hb.block
  obtain ⟨indexA, hindexA⟩ := ha.index
  obtain ⟨indexB, hindexB⟩ := hb.index
  unfold rank age priceOf SamePlace
  rw [hpriceA, hpriceB, hblockA, hblockB, hindexA, hindexB]
  simp only [bigInt_toString, Option.getD_some, toString_eq_iff]
  cases a.direction <;> cases b.direction <;> simp

theorem insertOrder_eq (ha : Canonical a) (h : ∀ order ∈ orders, Canonical order) :
    insertOrder a orders = .ok (insertBehind rank a orders) := by
  induction orders with
  | nil => rfl
  | cons first rest ih =>
      obtain ⟨ordering, hcompare, hordering⟩ := compareOrders_eq ha (h first List.mem_cons_self)
      have hrest := ih fun order hmem => h order (List.mem_cons_of_mem _ hmem)
      rw [insertOrder, hcompare, insertBehind, hrest]
      by_cases hlt : rank a < rank first
      · rw [if_pos hlt]
        simp [bind, Except.bind, pure, Except.pure, hordering.mpr hlt]
      · rw [if_neg hlt]
        have hno : ordering ≠ .lt := fun h => hlt (hordering.mp h)
        simp [bind, Except.bind, pure, Except.pure, hno]

theorem sort_eq (h : ∀ order ∈ orders, Canonical order) :
    sort orders = .ok (orders.insertionSort fun a b => rank a ≤ rank b) := by
  induction orders using List.reverseRecOn with
  | nil => rfl
  | append_singleton orders order ih =>
      have hrest := ih fun other hmem => h other (List.mem_append_left _ hmem)
      have hinsert : insertOrder order (orders.insertionSort fun a b => rank a ≤ rank b) =
          .ok (insertBehind rank order (orders.insertionSort fun a b => rank a ≤ rank b)) :=
        insertOrder_eq (h order (by simp)) fun other hmem =>
          h other (List.mem_append_left _ ((List.mem_insertionSort _).mp hmem))
      rw [sort] at hrest
      rw [sort, List.foldlM_append, hrest, insertionSort_concat]
      simp only [bind, Except.bind, List.foldlM_cons, List.foldlM_nil, hinsert, pure, Except.pure]

/-- Orders on the same token, amount and price. -/
def SameTerms (a b : OrderDocument) : Prop :=
  a.xudtTypeHash = b.xudtTypeHash ∧ a.remainingAmount = b.remainingAmount ∧
    a.pricePerToken = b.pricePerToken

theorem toList_matchGroupKey {amount price : ℕ} (hamount : order.remainingAmount = toString amount)
    (hprice : order.pricePerToken = toString price) :
    (matchGroupKey order).toList = (order.xudtTypeHash.toList ++ ':' :: (toString amount).toList) ++
      ':' :: (toString price).toList := by
  have hstring : ∀ text : String, toString text = text := fun _ => rfl
  have hcolon : ":".toList = [':'] := rfl
  simp only [matchGroupKey, hamount, hprice, String.toList_append, hstring, hcolon, List.append_assoc,
    List.cons_append, List.nil_append]

theorem matchGroupKey_eq_iff (ha : Canonical a) (hb : Canonical b) :
    matchGroupKey a = matchGroupKey b ↔ SameTerms a b := by
  constructor
  · intro h
    obtain ⟨priceA, hpriceA⟩ := ha.price
    obtain ⟨priceB, hpriceB⟩ := hb.price
    obtain ⟨amountA, hamountA⟩ := ha.amount
    obtain ⟨amountB, hamountB⟩ := hb.amount
    have hlist := congrArg String.toList h
    rw [toList_matchGroupKey hamountA hpriceA, toList_matchGroupKey hamountB hpriceB] at hlist
    obtain ⟨hleft, hprice⟩ := append_colon_right ne_colon_of_mem ne_colon_of_mem hlist
    obtain ⟨htoken, hamount⟩ := append_colon_right ne_colon_of_mem ne_colon_of_mem hleft
    exact ⟨String.toList_inj.mp htoken, by rw [hamountA, hamountB, String.toList_inj.mp hamount],
      by rw [hpriceA, hpriceB, String.toList_inj.mp hprice]⟩
  · rintro ⟨htoken, hamount, hprice⟩
    rw [matchGroupKey, matchGroupKey, htoken, hamount, hprice]

def bucketOf (key : String) (orders : List OrderDocument) : Bucket where
  buys := orders.filter fun order => matchGroupKey order = key ∧ order.direction = .bid
  sells := orders.filter fun order => matchGroupKey order = key ∧ order.direction = .ask

/-- The groups of some orders: a bucket for each key, with its orders in turn. -/
structure Grouped (orders : List OrderDocument) (groups : List (String × Bucket)) : Prop where
  keys : (groups.map Prod.fst).Nodup
  buckets : ∀ group ∈ groups, group.2 = bucketOf group.1 orders
  covers : ∀ order ∈ orders, matchGroupKey order ∈ groups.map Prod.fst

theorem bucketOf_append_self (orders : List OrderDocument) (order : OrderDocument) :
    bucketOf (matchGroupKey order) (orders ++ [order]) =
      (bucketOf (matchGroupKey order) orders).push order := by
  unfold bucketOf Bucket.push
  cases hdirection : order.direction <;> simp [List.filter_append, hdirection]

theorem bucketOf_append_ne (orders : List OrderDocument) {key : String} (h : matchGroupKey order ≠ key) :
    bucketOf key (orders ++ [order]) = bucketOf key orders := by
  simp [bucketOf, List.filter_append, h]

theorem bucketOf_of_not_mem {key : String} (h : ∀ order ∈ orders, matchGroupKey order ≠ key) :
    bucketOf key orders = ⟨[], []⟩ := by
  unfold bucketOf
  congr 1 <;> refine List.filter_eq_nil_iff.mpr fun order hmem => ?_ <;> simp [h order hmem]

theorem Grouped.add (h : Grouped orders groups) (order : OrderDocument) :
    Grouped (orders ++ [order]) (addToGroup groups order) := by
  unfold addToGroup
  simp only
  split_ifs with hmem
  · have hkeys : (groups.map fun group => if group.1 = matchGroupKey order then
        (matchGroupKey order, group.2.push order) else group).map Prod.fst = groups.map Prod.fst := by
      rw [List.map_map]
      refine List.map_congr_left fun group _ => ?_
      by_cases hgroup : group.1 = matchGroupKey order
      · simp [hgroup]
      · simp [hgroup]
    refine ⟨hkeys ▸ h.keys, fun group hgroup => ?_, fun other hother => ?_⟩
    · obtain ⟨old, hold, rfl⟩ := List.mem_map.mp hgroup
      by_cases hkey : old.1 = matchGroupKey order
      · rw [if_pos hkey, h.buckets old hold, hkey, bucketOf_append_self]
      · rw [if_neg hkey, h.buckets old hold, bucketOf_append_ne orders fun heq => hkey heq.symm]
    · rw [hkeys]
      rcases List.mem_append.mp hother with hother | hother
      · exact h.covers other hother
      · obtain rfl := List.mem_singleton.mp hother
        exact hmem
  · refine ⟨?_, fun group hgroup => ?_, fun other hother => ?_⟩
    · rw [List.map_append]
      exact List.Nodup.append h.keys (List.nodup_singleton _) (by simpa using hmem)
    · rcases List.mem_append.mp hgroup with hgroup | hgroup
      · rw [h.buckets group hgroup, bucketOf_append_ne orders fun heq => ?_]
        exact hmem (heq ▸ List.mem_map_of_mem hgroup)
      · obtain rfl := List.mem_singleton.mp hgroup
        rw [bucketOf_append_self, bucketOf_of_not_mem fun other hother heq => ?_]
        exact hmem (heq ▸ h.covers other hother)
    · rw [List.map_append, List.mem_append]
      rcases List.mem_append.mp hother with hother | hother
      · exact Or.inl (h.covers other hother)
      · obtain rfl := List.mem_singleton.mp hother
        exact Or.inr (by simp)

theorem grouped_foldl (orders : List OrderDocument) : Grouped orders (orders.foldl addToGroup []) := by
  induction orders using List.reverseRecOn with
  | nil => exact ⟨List.nodup_nil, fun _ h => (List.not_mem_nil h).elim, fun _ h => (List.not_mem_nil h).elim⟩
  | append_singleton orders order ih =>
      rw [List.foldl_append]
      exact ih.add order

def quarantined (health : MatchHealth) (now : ℕ) (order : OrderDocument) : Bool :=
  (health.isOrderQuarantined order.id now).1

theorem quarantined_eq (health : MatchHealth) (now : ℕ) (order : OrderDocument) :
    quarantined health now order = (health.quarantinedOrders order.id).any fun expiry => now < expiry := by
  unfold quarantined MatchHealth.isOrderQuarantined
  cases health.quarantinedOrders order.id with
  | none => rfl
  | some expiry =>
      simp only [Option.any_some]
      split_ifs with hover
      · simp [hover]
      · simp [not_le.mp hover]

/-- Deleting what is over changes no answer. -/
theorem quarantined_after (health : MatchHealth) (now : ℕ) (a b : OrderDocument) :
    quarantined (health.isOrderQuarantined a.id now).2 now b = quarantined health now b ∧
      (health.isOrderQuarantined a.id now).2.pairs = health.pairs := by
  rw [quarantined_eq, quarantined_eq]
  unfold MatchHealth.isOrderQuarantined
  cases ha : health.quarantinedOrders a.id with
  | none => exact ⟨rfl, rfl⟩
  | some expiry =>
      simp only
      split_ifs with hover
      · refine ⟨?_, rfl⟩
        by_cases hid : b.id = a.id
        · simp [hid, ha, hover]
        · simp [hid]
      · exact ⟨rfl, rfl⟩

theorem foldl_addUnlessQuarantined (orders : List OrderDocument) (groups : List (String × Bucket))
    (health : MatchHealth) (now : ℕ) : ∃ after,
    orders.foldl (addUnlessQuarantined now) (groups, health) =
        ((orders.filter fun order => !quarantined health now order).foldl addToGroup groups, after) ∧
      after.pairs = health.pairs := by
  induction orders generalizing groups health with
  | nil => exact ⟨health, rfl, rfl⟩
  | cons order orders ih =>
      have hanswers : (fun other => !quarantined (health.isOrderQuarantined order.id now).2 now other) =
          fun other => !quarantined health now other :=
        funext fun other => congrArg _ (quarantined_after health now order other).1
      have hpairs := (quarantined_after health now order order).2
      cases hquarantined : quarantined health now order with
      | true =>
          obtain ⟨after, heq, hafter⟩ := ih groups (health.isOrderQuarantined order.id now).2
          refine ⟨after, ?_, hafter.trans hpairs⟩
          rw [List.foldl_cons, List.filter_cons_of_neg (by simp [hquarantined]), ← hanswers, ← heq]
          congr 1
          unfold quarantined at hquarantined
          simp [addUnlessQuarantined, hquarantined]
      | false =>
          obtain ⟨after, heq, hafter⟩ := ih (addToGroup groups order)
            (health.isOrderQuarantined order.id now).2
          refine ⟨after, ?_, hafter.trans hpairs⟩
          rw [List.foldl_cons, List.filter_cons_of_pos (by simp [hquarantined]), List.foldl_cons,
            ← hanswers, ← heq]
          congr 1
          unfold quarantined at hquarantined
          simp [addUnlessQuarantined, hquarantined]

/-- A buy and a sell that may be settled with each other at this time. -/
structure Admissible (health : MatchHealth) (now : ℕ) (orders : List OrderDocument)
    (buy sell : OrderDocument) : Prop where
  buy_mem : buy ∈ orders
  sell_mem : sell ∈ orders
  bid : buy.direction = .bid
  ask : sell.direction = .ask
  terms : SameTerms buy sell
  buy_free : quarantined health now buy = false
  sell_free : quarantined health now sell = false
  unblocked : health.isPairBlocked buy.id sell.id now = false

/-- A matching that respects priority: buys are served from the oldest on, each
with the oldest sell that is left for it. -/
structure PriorityMatching (health : MatchHealth) (now : ℕ) (orders : List OrderDocument)
    (pairs : List (OrderDocument × OrderDocument)) : Prop where
  sound : ∀ pair ∈ pairs, Admissible health now orders pair.1 pair.2
  once : (pairs.flatMap fun pair => [pair.1.id, pair.2.id]).Nodup
  maximal : ∀ buy sell, Admissible health now orders buy sell →
    ∃ pair ∈ pairs, pair.1 = buy ∨ pair.2 = sell
  in_turn : pairs.Pairwise fun first next => SameTerms first.1 next.1 → age first.1 ≤ age next.1
  /-- An older sell was given to a buy that came before. -/
  earliest : ∀ buy sell other, (buy, sell) ∈ pairs → Admissible health now orders buy other →
    age other < age sell → ∃ first, [(first, other), (buy, sell)].Sublist pairs
  /-- A buy gets nothing only if each of its sells was given to a buy no younger. -/
  passed : ∀ buy sell, Admissible health now orders buy sell → (∀ other, (buy, other) ∉ pairs) →
    ∃ first, (first, sell) ∈ pairs ∧ age first ≤ age buy

/-- The orders that are served, in turn. -/
def inLine (health : MatchHealth) (now : ℕ) (orders : List OrderDocument) : List OrderDocument :=
  (orders.insertionSort fun a b => rank a ≤ rank b).filter fun order => !quarantined health now order

def matchesOf (health : MatchHealth) (now : ℕ) (orders : List OrderDocument) :
    List (OrderDocument × OrderDocument) :=
  ((inLine health now orders).foldl addToGroup []).flatMap fun group => matchBucket health now group.2

theorem mem_inLine :
    order ∈ inLine health now orders ↔ order ∈ orders ∧ quarantined health now order = false := by
  simp [inLine]

theorem pairwise_inLine (health : MatchHealth) (now : ℕ) (orders : List OrderDocument) :
    (inLine health now orders).Pairwise fun a b => rank a ≤ rank b := by
  have : Std.Total fun a b : OrderDocument => rank a ≤ rank b := ⟨fun a b => le_total (rank a) (rank b)⟩
  have : IsTrans OrderDocument fun a b => rank a ≤ rank b := ⟨fun _ _ _ => le_trans⟩
  exact (List.pairwise_insertionSort _ orders).filter _

theorem nodup_inLine (hids : (orders.map OrderDocument.id).Nodup) : (inLine health now orders).Nodup :=
  ((List.perm_insertionSort _ orders).nodup_iff.mpr (List.Nodup.of_map _ hids)).filter _

theorem findMatches_eq (h : ∀ order ∈ orders, Canonical order) (health : MatchHealth) (now : ℕ) :
    ∃ after, findMatches health now orders = .ok (matchesOf health now orders, after) := by
  obtain ⟨after, hfold, hpairs⟩ := foldl_addUnlessQuarantined
    (orders.insertionSort fun a b => rank a ≤ rank b) [] health now
  have hbucket : ∀ bucket, matchBucket after now bucket = matchBucket health now bucket := by
    intro bucket
    simp only [matchBucket, MatchHealth.isPairBlocked, hpairs]
  refine ⟨after, ?_⟩
  simp only [findMatches, sort_eq h, bind, Except.bind, pure, Except.pure, hfold, hbucket]
  rfl

/-- For orders of one side and price, rank is age. -/
theorem rank_le_iff (hdirection : a.direction = b.direction) (hprice : a.pricePerToken = b.pricePerToken) :
    rank a ≤ rank b ↔ age a ≤ age b := by
  unfold rank priceOf
  rw [hprice, hdirection]
  cases b.direction <;> simp [Prod.Lex.toLex_le_toLex]

theorem mem_buys {key : String} : order ∈ (bucketOf key orders).buys ↔
    order ∈ orders ∧ matchGroupKey order = key ∧ order.direction = .bid := by
  simp [bucketOf]

theorem mem_sells {key : String} : order ∈ (bucketOf key orders).sells ↔
    order ∈ orders ∧ matchGroupKey order = key ∧ order.direction = .ask := by
  simp [bucketOf]

section
variable {group : String × Bucket} {buy sell other : OrderDocument}
  {pair : OrderDocument × OrderDocument} (hids : (orders.map OrderDocument.id).Nodup)
  (hcanonical : ∀ order ∈ orders, Canonical order)

/-- The group of a key. -/
theorem bucket_of_mem (hgroup : group ∈ (inLine health now orders).foldl addToGroup []) :
    group.2 = bucketOf group.1 (inLine health now orders) :=
  (grouped_foldl _).buckets group hgroup

theorem mem_group (hgroup : group ∈ (inLine health now orders).foldl addToGroup []) :
    (order ∈ group.2.buys ↔ (order ∈ orders ∧ quarantined health now order = false) ∧
        matchGroupKey order = group.1 ∧ order.direction = .bid) ∧
      (order ∈ group.2.sells ↔ (order ∈ orders ∧ quarantined health now order = false) ∧
        matchGroupKey order = group.1 ∧ order.direction = .ask) := by
  rw [bucket_of_mem hgroup, mem_buys, mem_sells, mem_inLine]
  exact ⟨Iff.rfl, Iff.rfl⟩

include hcanonical in
theorem admissible_of_group (hgroup : group ∈ (inLine health now orders).foldl addToGroup [])
    (hbuy : buy ∈ group.2.buys) (hsell : sell ∈ group.2.sells)
    (hunblocked : health.isPairBlocked buy.id sell.id now = false) :
    Admissible health now orders buy sell := by
  obtain ⟨⟨hbuyMem, hbuyFree⟩, hbuyKey, hbid⟩ := (mem_group hgroup).1.mp hbuy
  obtain ⟨⟨hsellMem, hsellFree⟩, hsellKey, hask⟩ := (mem_group hgroup).2.mp hsell
  have hterms := (matchGroupKey_eq_iff (hcanonical buy hbuyMem) (hcanonical sell hsellMem)).mp
    (hbuyKey.trans hsellKey.symm)
  exact ⟨hbuyMem, hsellMem, hbid, hask, hterms, hbuyFree, hsellFree, hunblocked⟩

include hcanonical in
theorem sell_of_buy (hgroup : group ∈ (inLine health now orders).foldl addToGroup [])
    (hbuy : buy ∈ group.2.buys) (h : Admissible health now orders buy sell) : sell ∈ group.2.sells := by
  obtain ⟨-, hkey, -⟩ := (mem_group hgroup).1.mp hbuy
  refine (mem_group hgroup).2.mpr ⟨⟨h.sell_mem, h.sell_free⟩, ?_, h.ask⟩
  rw [← hkey]
  exact ((matchGroupKey_eq_iff (hcanonical buy h.buy_mem) (hcanonical sell h.sell_mem)).mpr h.terms).symm

theorem group_of_buy (h : Admissible health now orders buy sell) :
    ∃ group ∈ (inLine health now orders).foldl addToGroup [], buy ∈ group.2.buys := by
  obtain ⟨group, hgroup, hkey⟩ := List.mem_map.mp
    ((grouped_foldl _).covers buy (mem_inLine.mpr ⟨h.buy_mem, h.buy_free⟩))
  exact ⟨group, hgroup, (mem_group hgroup).1.mpr ⟨⟨h.buy_mem, h.buy_free⟩, hkey.symm, h.bid⟩⟩

include hcanonical in
/-- Each side of a group is in the order of age. -/
theorem group_in_turn (hgroup : group ∈ (inLine health now orders).foldl addToGroup []) :
    (group.2.buys.Pairwise fun a b => age a ≤ age b) ∧
      group.2.sells.Pairwise fun a b => age a ≤ age b := by
  have hage : ∀ a b, a ∈ orders → b ∈ orders → matchGroupKey a = matchGroupKey b →
      a.direction = b.direction → rank a ≤ rank b → age a ≤ age b := fun a b ha hb hkey hdirection =>
    (rank_le_iff hdirection
      ((matchGroupKey_eq_iff (hcanonical a ha) (hcanonical b hb)).mp hkey).2.2).mp
  have hsorted := pairwise_inLine health now orders
  constructor
  · refine List.Pairwise.imp_of_mem (R := fun a b => rank a ≤ rank b) (fun {a b} ha hb hle => ?_) ?_
    · obtain ⟨⟨ha, -⟩, hkeyA, hbidA⟩ := (mem_group hgroup).1.mp ha
      obtain ⟨⟨hb, -⟩, hkeyB, hbidB⟩ := (mem_group hgroup).1.mp hb
      exact hage a b ha hb (hkeyA.trans hkeyB.symm) (hbidA.trans hbidB.symm) hle
    · rw [bucket_of_mem hgroup]
      exact hsorted.filter _
  · refine List.Pairwise.imp_of_mem (R := fun a b => rank a ≤ rank b) (fun {a b} ha hb hle => ?_) ?_
    · obtain ⟨⟨ha, -⟩, hkeyA, haskA⟩ := (mem_group hgroup).2.mp ha
      obtain ⟨⟨hb, -⟩, hkeyB, haskB⟩ := (mem_group hgroup).2.mp hb
      exact hage a b ha hb (hkeyA.trans hkeyB.symm) (haskA.trans haskB.symm) hle
    · rw [bucket_of_mem hgroup]
      exact hsorted.filter _

/-- What a pair of a group consists of. -/
theorem mem_matchBucket (hgroup : group ∈ (inLine health now orders).foldl addToGroup [])
    (h : pair ∈ matchBucket health now group.2) :
    (pair.1 ∈ group.2.buys ∧ pair.2 ∈ group.2.sells) ∧
      (matchGroupKey pair.1 = group.1 ∧ matchGroupKey pair.2 = group.1) ∧
      health.isPairBlocked pair.1.id pair.2.id now = false := by
  obtain ⟨hbuy, hsell, -, hallowed⟩ := mem_serve h
  refine ⟨⟨hbuy, hsell⟩, ⟨?_, ?_⟩, by simpa using hallowed⟩
  · exact ((mem_group hgroup).1.mp hbuy).2.1
  · exact ((mem_group hgroup).2.mp hsell).2.1

theorem mem_matchesOf : pair ∈ matchesOf health now orders ↔
    ∃ group ∈ (inLine health now orders).foldl addToGroup [], pair ∈ matchBucket health now group.2 :=
  List.mem_flatMap

/-- Pairs of two groups have no order in common. -/
theorem pairwise_groups {R : OrderDocument × OrderDocument → OrderDocument × OrderDocument → Prop}
    (h : ∀ first next, matchGroupKey first.1 ≠ matchGroupKey next.1 →
      matchGroupKey first.2 ≠ matchGroupKey next.2 → R first next)
    (hgroups : ∀ group ∈ (inLine health now orders).foldl addToGroup [],
      (matchBucket health now group.2).Pairwise R) : (matchesOf health now orders).Pairwise R := by
  refine List.pairwise_flatMap.mpr ⟨hgroups, ?_⟩
  have hkeys := List.pairwise_map.mp (grouped_foldl (inLine health now orders)).keys
  refine hkeys.imp_of_mem fun {first next} hfirst hnext hne a ha b hb => ?_
  obtain ⟨-, ⟨hkeyA, hkeyA'⟩, -⟩ := mem_matchBucket hfirst ha
  obtain ⟨-, ⟨hkeyB, hkeyB'⟩, -⟩ := mem_matchBucket hnext hb
  exact h a b (by rwa [hkeyA, hkeyB]) (by rwa [hkeyA', hkeyB'])

include hids in
theorem sells_injective (hgroup : group ∈ (inLine health now orders).foldl addToGroup []) :
    ∀ a ∈ group.2.sells, ∀ b ∈ group.2.sells, a.id = b.id → a = b := by
  intro a ha b hb heq
  obtain ⟨⟨ha, -⟩, -⟩ := (mem_group hgroup).2.mp ha
  obtain ⟨⟨hb, -⟩, -⟩ := (mem_group hgroup).2.mp hb
  exact List.inj_on_of_nodup_map hids ha hb heq

include hids in
theorem matchesOf_distinct : (matchesOf health now orders).Pairwise fun first next =>
    first.1 ≠ next.1 ∧ first.2 ≠ next.2 := by
  refine pairwise_groups (fun first next hbuy hsell => ⟨fun heq => hbuy (heq ▸ rfl),
    fun heq => hsell (heq ▸ rfl)⟩) fun group hgroup => ?_
  have hbuys : group.2.buys.Nodup := by
    rw [bucket_of_mem hgroup]
    exact (nodup_inLine hids).filter _
  refine List.Pairwise.and ?_ ?_
  · exact List.pairwise_map.mp ((serve_sublist _ _ _ _ _).nodup hbuys)
  · have hsells := List.pairwise_map.mp (serve_nodup
      (fun buy sell => !health.isPairBlocked buy.id sell.id now) OrderDocument.id group.2.sells []
      group.2.buys)
    exact hsells.imp fun hne heq => hne (congrArg OrderDocument.id heq)

include hcanonical in
theorem matchesOf_sound (h : pair ∈ matchesOf health now orders) :
    Admissible health now orders pair.1 pair.2 := by
  obtain ⟨group, hgroup, hpair⟩ := mem_matchesOf.mp h
  obtain ⟨⟨hbuy, hsell⟩, -, hunblocked⟩ := mem_matchBucket hgroup hpair
  exact admissible_of_group hcanonical hgroup hbuy hsell hunblocked

include hids hcanonical in
theorem matchesOf_passed (h : Admissible health now orders buy sell)
    (hnone : ∀ other, (buy, other) ∉ matchesOf health now orders) :
    ∃ first, (first, sell) ∈ matchesOf health now orders ∧ age first ≤ age buy := by
  obtain ⟨group, hgroup, hbuy⟩ := group_of_buy h
  have hsell := sell_of_buy hcanonical hgroup hbuy h
  obtain ⟨first, hserved, hbefore⟩ := served_before (sells_injective hids hgroup) hbuy
    (fun other hmem => hnone other (mem_matchesOf.mpr ⟨group, hgroup, hmem⟩)) hsell
    List.not_mem_nil (by simp [h.unblocked])
  refine ⟨first, mem_matchesOf.mpr ⟨group, hgroup, hserved⟩, ?_⟩
  have hpair := (group_in_turn hcanonical hgroup).1.sublist hbefore
  exact List.rel_of_pairwise_cons hpair (List.mem_singleton_self buy)

include hids hcanonical in
theorem matchesOf_earliest (hpair : (buy, sell) ∈ matchesOf health now orders)
    (h : Admissible health now orders buy other) (hlt : age other < age sell) :
    ∃ first, [(first, other), (buy, sell)].Sublist (matchesOf health now orders) := by
  obtain ⟨group, hgroup, hserved⟩ := mem_matchesOf.mp hpair
  have hbuy := (mem_matchBucket hgroup hserved).1.1
  obtain ⟨first, hsublist⟩ := given_before (group_in_turn hcanonical hgroup).2
    (sells_injective hids hgroup) hserved (sell_of_buy hcanonical hgroup hbuy h) List.not_mem_nil
    (by simp [h.unblocked]) hlt
  refine ⟨first, hsublist.trans ?_⟩
  rw [matchesOf, List.flatMap_def]
  exact List.sublist_flatten_of_mem (List.mem_map_of_mem hgroup)

include hids hcanonical in
theorem matchesOf_priority : PriorityMatching health now orders (matchesOf health now orders) := by
  refine ⟨fun pair hpair => matchesOf_sound hcanonical hpair, ?_, fun buy sell h => ?_, ?_,
    fun buy sell other hpair h hlt => matchesOf_earliest hids hcanonical hpair h hlt,
    fun buy sell h hnone => matchesOf_passed hids hcanonical h hnone⟩
  · have hsame : ∀ a ∈ orders, ∀ b ∈ orders, a.id = b.id → a = b := fun a ha b hb =>
      List.inj_on_of_nodup_map hids ha hb
    have hsides : ∀ a b : OrderDocument, a.direction = .bid → b.direction = .ask → a ≠ b := by
      rintro a b ha hb rfl
      rw [ha] at hb
      cases hb
    refine List.nodup_flatMap.mpr ⟨fun pair hpair => ?_, ?_⟩
    · have h := matchesOf_sound hcanonical hpair
      simp only [List.nodup_cons, List.mem_singleton, List.not_mem_nil, not_false_eq_true,
        List.nodup_nil, and_self, and_true]
      exact fun heq => hsides _ _ h.bid h.ask (hsame _ h.buy_mem _ h.sell_mem heq)
    · refine (matchesOf_distinct hids).imp_of_mem fun {first next} hfirst hnext hne => ?_
      have h := matchesOf_sound hcanonical hfirst
      have h' := matchesOf_sound hcanonical hnext
      intro id hid hid'
      simp only [List.mem_cons, List.not_mem_nil, or_false] at hid hid'
      rcases hid with rfl | rfl <;> rcases hid' with heq | heq
      · exact hne.1 (hsame _ h.buy_mem _ h'.buy_mem heq)
      · exact hsides _ _ h.bid h'.ask (hsame _ h.buy_mem _ h'.sell_mem heq)
      · exact hsides _ _ h'.bid h.ask (hsame _ h'.buy_mem _ h.sell_mem heq.symm)
      · exact hne.2 (hsame _ h.sell_mem _ h'.sell_mem heq)
  · by_cases hnone : ∀ other, (buy, other) ∉ matchesOf health now orders
    · obtain ⟨first, hpair, -⟩ := matchesOf_passed hids hcanonical h hnone
      exact ⟨_, hpair, Or.inr rfl⟩
    · push Not at hnone
      obtain ⟨other, hpair⟩ := hnone
      exact ⟨_, hpair, Or.inl rfl⟩
  · -- Within a group the pairs are in the order of the buys.
    have hserved : ∀ group ∈ (inLine health now orders).foldl addToGroup [],
        (matchBucket health now group.2).Pairwise fun first next =>
          matchGroupKey first.1 = matchGroupKey next.1 → age first.1 ≤ age next.1 := by
      intro group hgroup
      have hbuys := (group_in_turn hcanonical hgroup).1.sublist (serve_sublist
        (fun buy sell => !health.isPairBlocked buy.id sell.id now) OrderDocument.id group.2.sells []
        group.2.buys)
      refine List.Pairwise.imp ?_ (List.pairwise_map.mp hbuys)
      intro first next hle _
      exact hle
    have hturn := pairwise_groups (fun first next hkey _ heq => (hkey heq).elim) hserved
    refine hturn.imp_of_mem fun {first next} hfirst hnext hle hterms => ?_
    have h := matchesOf_sound hcanonical hfirst
    have h' := matchesOf_sound hcanonical hnext
    exact hle ((matchGroupKey_eq_iff (hcanonical _ h.buy_mem) (hcanonical _ h'.buy_mem)).mpr hterms)

theorem findSome?_congr {α β : Type*} {f g : α → Option β} {l : List α} (h : ∀ a ∈ l, f a = g a) :
    l.findSome? f = l.findSome? g := by
  induction l with
  | nil => rfl
  | cons a l ih =>
      rw [List.findSome?_cons, List.findSome?_cons, h a List.mem_cons_self,
        ih fun b hb => h b (List.mem_cons_of_mem _ hb)]

include hcanonical in
/-- Where nothing is left out, the first pair is the one that `findMatch` returns. -/
theorem findMatch_eq (hfree : ∀ order ∈ orders, quarantined health now order = false)
    (hunblocked : ∀ buy ∈ orders, ∀ sell ∈ orders, health.isPairBlocked buy.id sell.id now = false) :
    findMatch orders = .ok (matchesOf health now orders).head? := by
  have hline : inLine health now orders = orders.insertionSort fun a b => rank a ≤ rank b := by
    refine List.filter_eq_self.mpr fun order hmem => ?_
    simp [hfree order ((List.mem_insertionSort _).mp hmem)]
  simp only [findMatch, sort_eq hcanonical, bind, Except.bind, pure, Except.pure]
  rw [matchesOf, List.head?_flatMap, ← hline]
  refine congrArg Except.ok (findSome?_congr fun group hgroup => ?_)
  rw [matchBucket, head?_serve fun buy hbuy sell hsell => ?_]
  · cases group.2.buys with
    | nil => rfl
    | cons buy buys => cases group.2.sells <;> rfl
  · obtain ⟨⟨hbuy, -⟩, -⟩ := (mem_group hgroup).1.mp hbuy
    obtain ⟨⟨hsell, -⟩, -⟩ := (mem_group hgroup).2.mp hsell
    simp [hunblocked buy hbuy sell hsell]

end

end

/-- Lists whose orders come in the same order wherever the comparison does not
tell them apart. -/
def SameUpToPlace (a b : List OrderDocument) : Prop :=
  ∀ order, a.filter (SamePlace order ·) = b.filter (SamePlace order ·)

theorem SameUpToPlace.mem_iff {a b : List OrderDocument} (h : SameUpToPlace a b) (order : OrderDocument) :
    order ∈ a ↔ order ∈ b := by
  have hself : SamePlace order order := ⟨rfl, rfl, rfl, rfl⟩
  have hclass := congrArg (order ∈ ·) (h order)
  simpa [hself] using hclass

theorem SameUpToPlace.filter_rank {a b : List OrderDocument} (h : SameUpToPlace a b)
    (hcanonical : ∀ order ∈ b, Canonical order) (k : ℕ ×ₗ ℤ ×ₗ ℤ ×ₗ ℤ) :
    a.filter (fun order => rank order = k) = b.filter fun order => rank order = k := by
  by_cases hnone : ∃ order ∈ b, rank order = k
  · obtain ⟨first, hfirst, rfl⟩ := hnone
    have hclass : ∀ order ∈ b, decide (rank order = rank first) = decide (SamePlace first order) := by
      intro order hmem
      rw [decide_eq_decide, ← rank_eq_iff (hcanonical first hfirst) (hcanonical order hmem), eq_comm]
    rw [List.filter_congr hclass, ← h first]
    exact List.filter_congr fun order hmem => hclass order ((h.mem_iff order).mp hmem)
  · push Not at hnone
    have hb : b.filter (fun order => rank order = k) = [] :=
      List.filter_eq_nil_iff.mpr fun order hmem => by simpa using hnone order hmem
    rw [hb]
    exact List.filter_eq_nil_iff.mpr fun order hmem => by
      simpa using hnone order ((h.mem_iff order).mp hmem)

/-- The bot's matching is sound and maximal, serves the oldest orders first and
gives each buy the oldest sell left for it. It depends on the order of its input
only among orders of the same side, price, block and transaction index, and where
nothing is left out its first pair is the one that `findMatch` returns. -/
theorem findMatches_priority (health : MatchHealth) (now : ℕ) (orders : List OrderDocument)
    (hids : (orders.map OrderDocument.id).Nodup) (hcanonical : ∀ order ∈ orders, Canonical order) :
    ∃ pairs after, findMatches health now orders = .ok (pairs, after) ∧
      PriorityMatching health now orders pairs ∧
      (∀ shuffled, SameUpToPlace shuffled orders →
        findMatches health now shuffled = findMatches health now orders) ∧
      ((∀ order ∈ orders, quarantined health now order = false) →
        (∀ buy ∈ orders, ∀ sell ∈ orders, health.isPairBlocked buy.id sell.id now = false) →
          findMatch orders = .ok pairs.head? ∧ (findMatch orders = .ok none ↔ pairs = [])) := by
  obtain ⟨after, heq⟩ := findMatches_eq hcanonical health now
  refine ⟨_, after, heq, matchesOf_priority hids hcanonical, fun shuffled hsame => ?_,
    fun hfree hunblocked => ?_⟩
  · have hshuffled : ∀ order ∈ shuffled, Canonical order := fun order hmem =>
      hcanonical order ((hsame.mem_iff order).mp hmem)
    rw [findMatches, findMatches, sort_eq hshuffled, sort_eq hcanonical,
      insertionSort_congr (hsame.filter_rank hcanonical)]
  · rw [findMatch_eq hcanonical hfree hunblocked]
    refine ⟨rfl, ?_⟩
    cases matchesOf health now orders <;> simp

def exampleBuy (id blockNumber : String) : OrderDocument :=
  { exampleDocument "0" exampleBuyCell (exampleOwner 1) (exampleOrder sideBuy (exampleHash 1)) with
    id, blockNumber }

def exampleSell (id blockNumber : String) : OrderDocument :=
  { exampleDocument "1" exampleSellCell (exampleOwner 2) (exampleOrder sideSell (exampleHash 2)) with
    id, blockNumber }

/-- The oldest buy failed with the oldest sell. -/
def exampleHealth : MatchHealth where
  quarantinedOrders := fun _ => none
  pairs := Function.update (fun _ => none) (pairKey "b7" "s8") (some ⟨1, 5000⟩)

def exampleOrders : List OrderDocument :=
  [exampleBuy "b9" "9", exampleSell "s10" "10", exampleBuy "b7" "7", exampleSell "s8" "8"]

theorem findMatches_priority_example : ∃ pairs after,
    findMatches exampleHealth 0 exampleOrders = .ok (pairs, after) ∧
      PriorityMatching exampleHealth 0 exampleOrders pairs := by
  have hcanonical : ∀ order ∈ exampleOrders, Canonical order := by
    intro order hmem
    simp only [exampleOrders, List.mem_cons, List.not_mem_nil, or_false] at hmem
    rcases hmem with rfl | rfl | rfl | rfl
    · exact ⟨⟨_, rfl⟩, ⟨_, rfl⟩, ⟨9, rfl⟩, ⟨0, rfl⟩⟩
    · exact ⟨⟨_, rfl⟩, ⟨_, rfl⟩, ⟨10, rfl⟩, ⟨0, rfl⟩⟩
    · exact ⟨⟨_, rfl⟩, ⟨_, rfl⟩, ⟨7, rfl⟩, ⟨0, rfl⟩⟩
    · exact ⟨⟨_, rfl⟩, ⟨_, rfl⟩, ⟨8, rfl⟩, ⟨0, rfl⟩⟩
  obtain ⟨pairs, after, heq, hpriority, -⟩ :=
    findMatches_priority exampleHealth 0 exampleOrders (by decide) hcanonical
  exact ⟨pairs, after, heq, hpriority⟩

end CkbDex.Matching
