import CkbDex.OrderLock

/-!
# Acceptance rules of the order lock

The README's rule list as conditions over exact natural numbers, and the proof
that the entry point returns 0 exactly when they hold. One lemma describes
each function of the contract; the loops are described by the sums they
compute, the cancellation loop by the output it looks for.
-/
namespace CkbDex.OrderLockRules
open Checked Bytes CellContext OrderLock

/-- Order args of the supported format, version and side. -/
structure WellFormed (args : List Byte) : Prop where
  length : args.length = 90
  version : args[0]? = some 1
  side : args[1]? = some 0 ∨ args[1]? = some 1

/-- The terms that order args declare. -/
structure Declares (args : List Byte) (order : OrderArgs) : Prop where
  side : args[1]? = some order.side
  maker : slice args 2 34 = order.makerLockHash.toList
  token : slice args 34 66 = order.xudtTypeHash.toList
  amount : ofLe (slice args 66 82) = order.tokenAmount.toNat
  price : ofLe (slice args 82 90) = order.price.toNat

/-- The inputs that use the code hash and the hash type of a lock. -/
def dexInputs (tx : Tx) (script : Script) : List Cell :=
  tx.inputs.filter fun c => sameIdentity script c.lock

/-- Plain CKB outputs under a lock. -/
def plainOutputs (tx : Tx) (maker : Hash) : List Cell :=
  tx.outputs.filter fun c => c.lockHash = maker ∧ c.typeHash = none

/-- Outputs of a type under a lock. -/
def tokenOutputs (tx : Tx) (maker token : Hash) : List Cell :=
  tx.outputs.filter fun c => c.lockHash = maker ∧ c.typeHash = some token

def totalCapacity (cells : List Cell) : ℕ := (cells.map fun c => c.capacity.toNat).sum

/-- The amount in the first 16 data bytes of a token cell. -/
def heldAmount (c : Cell) : ℕ := ofLe (slice c.data 0 16)

def totalAmount (cells : List Cell) : ℕ := (cells.map heldAmount).sum

structure Cancels (tx : Tx) (own : Cell) (order : OrderArgs) : Prop where
  authorized : ∃ c ∈ tx.inputs, c.lockHash = order.makerLockHash
  single : (dexInputs tx own.lock).length = 1
  refund : ∃ out ∈ tx.outputs, out.lockHash = order.makerLockHash ∧
    out.typeHash = own.typeHash ∧ out.data = own.data ∧
    own.capacity.toNat ≤ out.capacity.toNat

/-- What the lock of a sell order checks in a settlement. -/
structure SellSide (tx : Tx) (own : Cell) (order : OrderArgs) : Prop where
  asset : own.typeHash = some order.xudtTypeHash
  readable : 16 ≤ own.data.length
  held : heldAmount own = order.tokenAmount.toNat
  due_fits : own.capacity.toNat + order.price.toNat < 2 ^ 64
  paid_fits : totalCapacity (plainOutputs tx order.makerLockHash) < 2 ^ 64
  paid : own.capacity.toNat + order.price.toNat ≤
    totalCapacity (plainOutputs tx order.makerLockHash)

/-- What the lock of a buy order checks in a settlement. -/
structure BuySide (tx : Tx) (own : Cell) (order : OrderArgs) : Prop where
  plain : own.typeHash = none
  readable : ∀ out ∈ tokenOutputs tx order.makerLockHash order.xudtTypeHash, 16 ≤ out.data.length
  received : totalAmount (tokenOutputs tx order.makerLockHash order.xudtTypeHash) =
    order.tokenAmount.toNat
  funded : order.price.toNat +
    totalCapacity (tokenOutputs tx order.makerLockHash order.xudtTypeHash) ≤ own.capacity.toNat
  returned : own.capacity.toNat ≤ order.price.toNat +
    totalCapacity (tokenOutputs tx order.makerLockHash order.xudtTypeHash) + 10000

/-- A buy and a sell order that are the only DEX inputs and agree. -/
structure Pair (tx : Tx) (script : Script) (buy sell : Cell) (buyOrder sellOrder : OrderArgs) :
    Prop where
  inputs : dexInputs tx script = [buy, sell] ∨ dexInputs tx script = [sell, buy]
  buy_formed : WellFormed buy.lock.args
  buy_terms : Declares buy.lock.args buyOrder
  buy_side : buyOrder.side = sideBuy
  sell_formed : WellFormed sell.lock.args
  sell_terms : Declares sell.lock.args sellOrder
  sell_side : sellOrder.side = sideSell
  token : buyOrder.xudtTypeHash = sellOrder.xudtTypeHash
  amount : buyOrder.tokenAmount = sellOrder.tokenAmount
  price : buyOrder.price = sellOrder.price

structure Settles (tx : Tx) (own : Cell) (order : OrderArgs) : Prop where
  unauthorized : ∀ c ∈ tx.inputs, c.lockHash ≠ order.makerLockHash
  pair : ∃ buy sell buyOrder sellOrder, Pair tx own.lock buy sell buyOrder sellOrder
  buy_side : order.side = sideBuy → BuySide tx own order
  sell_side : order.side = sideSell → SellSide tx own order

theorem field_eq_ok {args : List Byte} {start stop n : ℕ} {e : ErrorCode} {a : FixedBytes n} :
    field args start stop n e = .ok a ↔ slice args start stop = a.toList := by
  rw [field, okOr_eq_ok, tryInto_eq_some]

theorem getD_eq_iff {args : List Byte} {i : ℕ} (h : i < args.length) (b : Byte) :
    args.getD i 0 = b ↔ args[i]? = some b := by
  rw [List.getD_eq_getElem?_getD, List.getElem?_eq_getElem h]
  simp

/-- The parser accepts exactly the well-formed args and returns their terms. -/
theorem parseOrderArgs_eq_ok {args : List Byte} {order : OrderArgs} :
    parseOrderArgs args = .ok order ↔ WellFormed args ∧ Declares args order := by
  simp only [parseOrderArgs, bind_eq_ok, throwIf_eq_ok, field_eq_ok]
  simp only [exists_const, not_not, not_and_or, orderArgsLen, orderVersion]
  constructor
  · rintro ⟨hlen, hver, hside, maker, hm, token, ht, tb, hb, pb, hp, ho⟩
    obtain rfl := Except.ok.inj ho
    rw [getD_eq_iff (by omega)] at hver hside
    rw [getD_eq_iff (by omega)] at hside
    refine ⟨⟨hlen, hver, hside⟩, ?_, hm, ht, ?_, ?_⟩
    · exact (getD_eq_iff (by omega) _).mp rfl
    · rw [hb, toNat_wordOfLe (n := 16) tb.length_toList]
    · rw [hp, toNat_wordOfLe (n := 8) pb.length_toList]
  · rintro ⟨⟨hlen, hver, hside⟩, hs, hm, ht, ha, hp⟩
    have htb : (slice args 66 82).length = 16 := length_slice (by omega)
    have hpb : (slice args 82 90).length = 8 := length_slice (by omega)
    have hsd := (getD_eq_iff (by omega) order.side).mpr hs
    refine ⟨hlen, (getD_eq_iff (by omega) _).mpr hver, ?_, _, hm, _, ht, ⟨_, htb⟩, rfl,
      ⟨_, hpb⟩, rfl, ?_⟩
    · exact hside.imp (getD_eq_iff (by omega) _).mpr (getD_eq_iff (by omega) _).mpr
    · have h1 : wordOfLe 128 (slice args 66 82) = order.tokenAmount := by
        apply BitVec.eq_of_toNat_eq
        rw [toNat_wordOfLe (n := 16) htb, ha]
      have h2 : wordOfLe 64 (slice args 82 90) = order.price := by
        apply BitVec.eq_of_toNat_eq
        rw [toNat_wordOfLe (n := 8) hpb, hp]
      rw [hsd, h1, h2]
      rfl

theorem side_of_wellFormed {args : List Byte} {order : OrderArgs} (hw : WellFormed args)
    (hd : Declares args order) : order.side = sideBuy ∨ order.side = sideSell := by
  have hs := hd.side
  exact hw.side.imp (fun h => Option.some_inj.mp (hs.symm.trans h))
    (fun h => Option.some_inj.mp (hs.symm.trans h))

theorem declares_unique {args : List Byte} {a b : OrderArgs} (hw : WellFormed args)
    (ha : Declares args a) (hb : Declares args b) : a = b :=
  Except.ok.inj ((parseOrderArgs_eq_ok.mpr ⟨hw, ha⟩).symm.trans
    (parseOrderArgs_eq_ok.mpr ⟨hw, hb⟩))

/-- Well-formed args, in the numbers that a program outside the contract tests. -/
theorem wellFormed_iff {args : List Byte} : WellFormed args ↔ args.length = 90 ∧
    (args.getD 0 0).toNat = 1 ∧ ¬((args.getD 1 0).toNat ≠ 0 ∧ (args.getD 1 0).toNat ≠ 1) := by
  have hbyte : ∀ b : Byte, ∀ n < 256, b.toNat = n ↔ b = BitVec.ofNat 8 n := by
    intro b n hn
    rw [← BitVec.toNat_inj, BitVec.toNat_ofNat, Nat.mod_eq_of_lt (by omega)]
  rw [not_and_or, not_not, not_not, hbyte _ 0 (by decide), hbyte _ 1 (by decide),
    hbyte _ 1 (by decide)]
  constructor
  · rintro ⟨hlen, hver, hside⟩
    exact ⟨hlen, (getD_eq_iff (by omega) _).mpr hver,
      hside.imp (getD_eq_iff (by omega) _).mpr (getD_eq_iff (by omega) _).mpr⟩
  · rintro ⟨hlen, hver, hside⟩
    exact ⟨hlen, (getD_eq_iff (by omega) _).mp hver,
      hside.imp (getD_eq_iff (by omega) _).mp (getD_eq_iff (by omega) _).mp⟩

theorem exists_declares {args : List Byte} (h : args.length = 90) :
    ∃ order, Declares args order := by
  have hm : (slice args 2 34).length = 32 := length_slice (by omega)
  have ht : (slice args 34 66).length = 32 := length_slice (by omega)
  have ha : (slice args 66 82).length = 16 := length_slice (by omega)
  have hp : (slice args 82 90).length = 8 := length_slice (by omega)
  exact ⟨⟨args.getD 1 0, ⟨_, hm⟩, ⟨_, ht⟩, wordOfLe 128 (slice args 66 82),
    wordOfLe 64 (slice args 82 90)⟩, (getD_eq_iff (by omega) _).mp rfl, rfl, rfl,
    (toNat_wordOfLe (n := 16) ha).symm, (toNat_wordOfLe (n := 8) hp).symm⟩

theorem Declares.side_byte {args : List Byte} {order : OrderArgs} (h : Declares args order) :
    args.getD 1 0 = order.side := by
  rw [List.getD_eq_getElem?_getD, h.side, Option.getD_some]

/-- `order_args` of the contract's tests, at the supported version. -/
def orderArgs (order : OrderArgs) : List Byte :=
  orderVersion :: order.side :: (order.makerLockHash.toList ++ (order.xudtTypeHash.toList ++
    (toLe 16 order.tokenAmount.toNat ++ toLe 8 order.price.toNat)))

theorem slice_append_left {xs ys : List Byte} {n : ℕ} (h : xs.length = n) :
    slice (xs ++ ys) 0 n = xs := by
  simp [slice, ← h]

theorem slice_full {xs : List Byte} {n : ℕ} (h : xs.length = n) : slice xs 0 n = xs := by
  simp [slice, ← h]

theorem slice_append_right {xs ys : List Byte} {m n : ℕ} (h : xs.length ≤ m) :
    slice (xs ++ ys) m n = slice ys (m - xs.length) (n - xs.length) := by
  simp only [slice, List.drop_append, List.drop_eq_nil_of_le h, List.nil_append]
  congr 1
  omega

theorem slice_cons (b : Byte) (bs : List Byte) (m n : ℕ) :
    slice (b :: bs) (m + 1) (n + 1) = slice bs m n := by
  simp [slice]

/-- What the maker writes is what the contract reads. -/
theorem parseOrderArgs_orderArgs {order : OrderArgs}
    (hside : order.side = sideBuy ∨ order.side = sideSell) :
    parseOrderArgs (orderArgs order) = .ok order := by
  have hm := order.makerLockHash.length_toList
  have ht := order.xudtTypeHash.length_toList
  have hamount : order.tokenAmount.toNat < 256 ^ 16 := order.tokenAmount.isLt
  have hprice : order.price.toNat < 256 ^ 8 := order.price.isLt
  rw [parseOrderArgs_eq_ok]
  refine ⟨⟨?_, rfl, ?_⟩, ⟨rfl, ?_, ?_, ?_, ?_⟩⟩
  · simp [orderArgs, hm, ht]
  · exact hside.imp (congrArg some) (congrArg some)
  · rw [orderArgs, slice_cons, slice_cons, slice_append_left hm]
  · rw [orderArgs, slice_cons, slice_cons, slice_append_right (by omega), hm,
      slice_append_left ht]
  · rw [orderArgs, slice_cons, slice_cons, slice_append_right (by omega), hm,
      slice_append_right (by omega), ht, slice_append_left (length_toLe ..), ofLe_toLe hamount]
  · rw [orderArgs, slice_cons, slice_cons, slice_append_right (by omega), hm,
      slice_append_right (by omega), ht, slice_append_right (by simp), length_toLe]
    have hend := slice_full (length_toLe 8 order.price.toNat)
    rw [hend, ofLe_toLe hprice]

section
variable {ctx : Context} {index : ℕ} {cell : Cell} {order : OrderArgs}

theorem loadTokenAmount_eq_ok {source : Source} (h : (ctx.cells source)[index]? = some cell)
    {amount : BitVec 128} :
    loadTokenAmount ctx index source = .ok amount ↔
      16 ≤ cell.data.length ∧ heldAmount cell = amount.toNat := by
  simp only [loadTokenAmount, bind_eq_ok, mapError_eq_ok, Context.loadCellData,
    load_of_getElem? _ h, throwIf_eq_ok, field_eq_ok, Except.ok.injEq, exists_eq_left']
  simp only [exists_const, not_lt]
  constructor
  · rintro ⟨hlen, a, ha, hv⟩
    obtain rfl := Except.ok.inj hv
    refine ⟨hlen, ?_⟩
    rw [heldAmount, ha, toNat_wordOfLe (n := 16) a.length_toList]
  · rintro ⟨hlen, hv⟩
    have hs : (slice cell.data 0 16).length = 16 := length_slice hlen
    refine ⟨hlen, ⟨_, hs⟩, rfl, congrArg Except.ok (BitVec.eq_of_toNat_eq ?_)⟩
    rw [toNat_wordOfLe (n := 16) hs]
    exact hv

theorem addSellerOutput_at {out : Cell} {i : ℕ} (acc : BitVec 64)
    (h : (ctx.cells .output)[i]? = some out) :
    addSellerOutput ctx order acc (out.lockHash, i) =
      sumLoop (fun c => c.lockHash = order.makerLockHash ∧ c.typeHash = none) Cell.capacity
        .outputCapacityOverflow acc out := by
  simp only [addSellerOutput, sumLoop, Context.loadCellTypeHash, Context.loadCellCapacity,
    load_of_getElem? _ h]
  by_cases hm : out.lockHash = order.makerLockHash
  · by_cases ht : out.typeHash = none
    · simp [hm, ht, Except.mapError, bind, Except.bind]
    · obtain ⟨t, ht⟩ := Option.ne_none_iff_exists'.mp ht
      simp [hm, ht]
  · simp [hm]

theorem validateSellOrder_eq_ok (h : ctx.tx.inputs[index]? = some cell) :
    validateSellOrder ctx index order = .ok () ↔ SellSide ctx.tx cell order := by
  have hin : (ctx.cells .input)[index]? = some cell := h
  have hloop : ∀ total, (ctx.queryIter Cell.lockHash .output).zipIdx.foldlM
      (addSellerOutput ctx order) 0 = .ok total ↔
      totalCapacity (plainOutputs ctx.tx order.makerLockHash) = total.toNat := by
    intro total
    rw [foldlM_enumerate (fun acc out i => addSellerOutput_at acc), foldlM_sumLoop]
    simp [totalCapacity, plainOutputs, Context.cells]
  simp only [validateSellOrder, bind_eq_ok, mapError_eq_ok, Context.loadCellTypeHash,
    Context.loadCellCapacity, load_of_getElem? _ hin, throwIf_eq_ok, okOr_eq_ok, Except.ok.injEq,
    exists_eq_left', loadTokenAmount_eq_ok hin, hloop, checkedAdd_eq_some]
  simp only [exists_const, not_not, BitVec.lt_def, not_lt]
  constructor
  · rintro ⟨htype, held, ⟨hlen, hheld⟩, heq, due, hdue, paid, hpaid, hle⟩
    subst heq
    have hd := due.isLt
    have hp := paid.isLt
    exact ⟨htype, hlen, hheld, by omega, by omega, by omega⟩
  · rintro ⟨htype, hlen, hheld, hdf, hpf, hle⟩
    refine ⟨htype, order.tokenAmount, ⟨hlen, hheld⟩, rfl,
      BitVec.ofNat 64 (cell.capacity.toNat + order.price.toNat), ?_,
      BitVec.ofNat 64 (totalCapacity (plainOutputs ctx.tx order.makerLockHash)), ?_, ?_⟩ <;>
      simp only [BitVec.toNat_ofNat, Nat.mod_eq_of_lt hdf, Nat.mod_eq_of_lt hpf]
    exact hle

theorem addBuyerOutput_at {out : Cell} {i : ℕ} (acc : BitVec 128 × BitVec 64)
    (h : (ctx.cells .output)[i]? = some out) :
    addBuyerOutput ctx order acc (out.lockHash, i) =
      pairLoop (fun c => c.lockHash = order.makerLockHash ∧
          c.typeHash = some order.xudtTypeHash) (fun c => 16 ≤ c.data.length)
        (fun c => wordOfLe 128 (slice c.data 0 16)) Cell.capacity
        .tokenAmount .tokenAmountOverflow .buyerTokenCapacityOverflow acc out := by
  simp only [addBuyerOutput, pairLoop, Context.loadCellTypeHash, Context.loadCellCapacity,
    load_of_getElem? _ h]
  by_cases hm : out.lockHash = order.makerLockHash
  · by_cases ht : out.typeHash = some order.xudtTypeHash
    · by_cases hlen : 16 ≤ out.data.length
      · have hs : (slice out.data 0 16).length = 16 := length_slice hlen
        have hread : loadTokenAmount ctx i .output = .ok (wordOfLe 128 (slice out.data 0 16)) := by
          rw [loadTokenAmount_eq_ok h, toNat_wordOfLe (n := 16) hs]
          exact ⟨hlen, rfl⟩
        simp [hm, ht, hlen, hread, throwIf, Except.mapError, bind, Except.bind]
      · have hread : loadTokenAmount ctx i .output = .error .tokenAmount := by
          have hlt : out.data.length < 16 := by omega
          simp [loadTokenAmount, Context.loadCellData, load_of_getElem? _ h, Except.mapError,
            throwIf, hlt, bind, Except.bind]
        simp [hm, ht, hlen, hread, throwIf, bind, Except.bind]
    · simp [hm, ht]
  · simp [hm]

theorem validateBuyOrder_eq_ok (h : ctx.tx.inputs[index]? = some cell) :
    validateBuyOrder ctx index order = .ok () ↔ BuySide ctx.tx cell order := by
  have hin : (ctx.cells .input)[index]? = some cell := h
  have hloop : ∀ total, (ctx.queryIter Cell.lockHash .output).zipIdx.foldlM
      (addBuyerOutput ctx order) (0, 0) = .ok total ↔
      (∀ out ∈ tokenOutputs ctx.tx order.makerLockHash order.xudtTypeHash,
        16 ≤ out.data.length) ∧
      totalAmount (tokenOutputs ctx.tx order.makerLockHash order.xudtTypeHash) =
        total.1.toNat ∧
      totalCapacity (tokenOutputs ctx.tx order.makerLockHash order.xudtTypeHash) =
        total.2.toNat := by
    intro total
    rw [foldlM_enumerate (fun acc out i => addBuyerOutput_at acc), foldlM_pairLoop]
    simp only [decide_eq_true_eq]
    change (∀ out ∈ tokenOutputs ctx.tx order.makerLockHash order.xudtTypeHash, _) ∧
      0 + ((tokenOutputs ctx.tx order.makerLockHash order.xudtTypeHash).map _).sum = _ ∧
      0 + totalCapacity (tokenOutputs ctx.tx order.makerLockHash order.xudtTypeHash) = _ ↔ _
    refine and_congr_right fun hread => ?_
    have hmap : (tokenOutputs ctx.tx order.makerLockHash order.xudtTypeHash).map
        (fun c => (wordOfLe 128 (slice c.data 0 16)).toNat) =
        (tokenOutputs ctx.tx order.makerLockHash order.xudtTypeHash).map heldAmount :=
      List.map_congr_left fun c hc => toNat_wordOfLe (n := 16) (length_slice (hread c hc))
    rw [hmap, Nat.zero_add, Nat.zero_add]
    rfl
  simp only [validateBuyOrder, bind_eq_ok, mapError_eq_ok, Context.loadCellTypeHash,
    Context.loadCellCapacity, load_of_getElem? _ hin, throwIf_eq_ok, okOr_eq_ok, Except.ok.injEq,
    exists_eq_left', hloop, checkedAdd_eq_some, checkedSub_eq_some]
  simp only [exists_const, not_not, gt_iff_lt, BitVec.lt_def, not_lt]
  have hfee : maxSettlementFee.toNat = 10000 := rfl
  constructor
  · rintro ⟨htype, ⟨amount, capacity⟩, ⟨hread, hamount, hcapacity⟩, heq, due, hdue, rest, hrest,
      hle⟩
    simp only at heq hamount hcapacity hdue
    subst heq
    exact ⟨htype, hread, hamount, by omega, by omega⟩
  · rintro ⟨htype, hread, hamount, hfund, hret⟩
    have hown := cell.capacity.isLt
    have hmod : ∀ n, n ≤ cell.capacity.toNat → n % 2 ^ 64 = n :=
      fun n hn => Nat.mod_eq_of_lt (by omega)
    refine ⟨htype, (order.tokenAmount, BitVec.ofNat 64
      (totalCapacity (tokenOutputs ctx.tx order.makerLockHash order.xudtTypeHash))),
      ⟨hread, hamount, ?_⟩, rfl, BitVec.ofNat 64 (order.price.toNat +
      totalCapacity (tokenOutputs ctx.tx order.makerLockHash order.xudtTypeHash)), ?_,
      BitVec.ofNat 64 (cell.capacity.toNat - (order.price.toNat +
      totalCapacity (tokenOutputs ctx.tx order.makerLockHash order.xudtTypeHash))), ?_, ?_⟩ <;>
      simp only [BitVec.toNat_ofNat] <;> simp (disch := omega) only [hmod] <;> omega

end

theorem findRefund_eq_ok {ctx : Context} {order : OrderArgs} {capacity : BitVec 64}
    {typeHash : Option Hash} {data : List Byte} (done rest : List Cell)
    (hsplit : ctx.tx.outputs = done ++ rest) :
    findRefund ctx order capacity typeHash data ((rest.map Cell.lockHash).zipIdx done.length) =
        .ok () ↔
      ∃ out ∈ rest, out.lockHash = order.makerLockHash ∧ out.typeHash = typeHash ∧
        out.data = data ∧ capacity.toNat ≤ out.capacity.toNat := by
  induction rest generalizing done with
  | nil => simp [findRefund]
  | cons out rest ih =>
      have hout : (ctx.cells .output)[done.length]? = some out := by
        simp [Context.cells, hsplit]
      have hnext := ih (done ++ [out]) (by simp [hsplit])
      rw [List.length_append, List.length_singleton] at hnext
      simp only [List.map_cons, List.zipIdx_cons, findRefund, Context.loadCellTypeHash,
        Context.loadCellData, Context.loadCellCapacity, load_of_getElem? _ hout, Except.mapError,
        bind, Except.bind, List.exists_mem_cons_iff, ← hnext]
      by_cases hm : out.lockHash = order.makerLockHash
      · by_cases ht : out.typeHash = typeHash
        · by_cases hd : out.data = data
          · by_cases hc : capacity.toNat ≤ out.capacity.toNat <;>
              simp [hm, ht, hd, hc, BitVec.le_def]
          · simp [hm, ht, hd]
        · simp [hm, ht]
      · simp [hm]

theorem validateCancellation_eq_ok {tx : Tx} {own : Cell} {order : OrderArgs}
    (hown : ({ tx, script := own.lock : Context}.cells .groupInput)[0]? = some own) :
    validateCancellation { tx, script := own.lock } order = .ok () ↔
      ∃ out ∈ tx.outputs, out.lockHash = order.makerLockHash ∧ out.typeHash = own.typeHash ∧
        out.data = own.data ∧ own.capacity.toNat ≤ out.capacity.toNat := by
  simp only [validateCancellation, Context.loadCellCapacity, Context.loadCellTypeHash,
    Context.loadCellData, bind_eq_ok, mapError_eq_ok, load_of_getElem? _ hown, Except.ok.injEq,
    exists_eq_left']
  exact findRefund_eq_ok [] tx.outputs rfl

/-- The loop over the indexed locks of the inputs only looks at DEX inputs. -/
theorem collect_eq_dexInputs (ctx : Context) (script : Script) :
    ∃ located : List (Cell × ℕ), located.map Prod.fst = dexInputs ctx.tx script ∧
      (∀ c i, (c, i) ∈ located → ctx.tx.inputs[i]? = some c) ∧
      (ctx.queryIter Cell.lock .input).zipIdx.foldlM (collectOrder script) {} =
        located.foldlM (fun slots input => collectOrder script slots (input.1.lock, input.2)) {} := by
  refine ⟨ctx.tx.inputs.zipIdx.filter (fun input => sameIdentity script input.1.lock), ?_, ?_, ?_⟩
  · have hf : (fun input : Cell × ℕ => sameIdentity script input.1.lock) =
        (fun c : Cell => sameIdentity script c.lock) ∘ Prod.fst := rfl
    rw [hf, ← List.filter_map, List.zipIdx_map_fst]
    rfl
  · intro c i hmem
    exact List.mem_zipIdx_iff_getElem?.mp (List.mem_of_mem_filter hmem)
  · rw [List.foldlM_filter, Context.queryIter, List.zipIdx_map, List.foldlM_map]
    refine congrFun (congrFun (congrArg _ (funext fun slots => funext fun input => ?_)) _) _
    by_cases hs : sameIdentity script input.1.lock = true
    · simp [hs, Prod.map]
    · simp [collectOrder, hs, pure, Except.pure]

theorem collectOrder_dex {script : Script} {slots : Slots} {c : Cell} {i : ℕ}
    (hs : sameIdentity script c.lock = true) {slots' : Slots} :
    collectOrder script slots (c.lock, i) = .ok slots' ↔
      ∃ order, parseOrderArgs c.lock.args = .ok order ∧
        ((order.side = sideBuy ∧ slots.buyOrder = none ∧
            slots' = { slots with buyOrder := some (i, order) }) ∨
          (order.side = sideSell ∧ slots.sellOrder = none ∧
            slots' = { slots with sellOrder := some (i, order) })) := by
  simp only [collectOrder, hs, Bool.not_true, Bool.false_eq_true, if_false, bind_eq_ok,
    Option.isNone_iff_eq_none]
  refine exists_congr fun order => and_congr_right fun _ => ?_
  have hne : sideBuy ≠ sideSell := by decide
  by_cases hb : order.side = sideBuy ∧ slots.buyOrder = none
  · have hns : ¬order.side = sideSell := fun h => hne (hb.1.symm.trans h)
    rw [if_pos hb]
    constructor
    · intro h
      exact Or.inl ⟨hb.1, hb.2, (Except.ok.inj h).symm⟩
    · rintro (⟨-, -, rfl⟩ | ⟨hsell, -, -⟩)
      · rfl
      · exact (hns hsell).elim
  · rw [if_neg hb]
    by_cases hsell : order.side = sideSell ∧ slots.sellOrder = none
    · rw [if_pos hsell]
      constructor
      · intro h
        exact Or.inr ⟨hsell.1, hsell.2, (Except.ok.inj h).symm⟩
      · rintro (⟨h₁, h₂, -⟩ | ⟨-, -, rfl⟩)
        · exact (hb ⟨h₁, h₂⟩).elim
        · rfl
    · rw [if_neg hsell]
      constructor
      · intro h
        cases h
      · rintro (⟨h₁, h₂, -⟩ | ⟨h₁, h₂, -⟩)
        · exact (hb ⟨h₁, h₂⟩).elim
        · exact (hsell ⟨h₁, h₂⟩).elim

/-- Two DEX inputs fill both slots exactly when one is a buy and one a sell. -/
theorem collect_two {script : Script} {c₁ c₂ : Cell} {i₁ i₂ : ℕ} {slots : Slots}
    (h₁ : sameIdentity script c₁.lock = true) (h₂ : sameIdentity script c₂.lock = true) :
    [(c₁, i₁), (c₂, i₂)].foldlM (fun slots input =>
        collectOrder script slots (input.1.lock, input.2)) {} = .ok slots ↔
      ∃ o₁ o₂, parseOrderArgs c₁.lock.args = .ok o₁ ∧ parseOrderArgs c₂.lock.args = .ok o₂ ∧
        ((o₁.side = sideBuy ∧ o₂.side = sideSell ∧ slots = ⟨some (i₁, o₁), some (i₂, o₂)⟩) ∨
          (o₁.side = sideSell ∧ o₂.side = sideBuy ∧ slots = ⟨some (i₂, o₂), some (i₁, o₁)⟩)) := by
  simp only [List.foldlM_cons, List.foldlM_nil, bind_eq_ok, collectOrder_dex h₁,
    collectOrder_dex h₂]
  constructor
  · rintro ⟨s₁, ⟨o₁, hp₁, hfirst⟩, s₂, ⟨o₂, hp₂, hsecond⟩, hlast⟩
    obtain rfl := Except.ok.inj hlast
    refine ⟨o₁, o₂, hp₁, hp₂, ?_⟩
    rcases hfirst with ⟨hs₁, -, rfl⟩ | ⟨hs₁, -, rfl⟩
    · rcases hsecond with ⟨-, hfull, -⟩ | ⟨hs₂, -, rfl⟩
      · cases hfull
      · exact Or.inl ⟨hs₁, hs₂, rfl⟩
    · rcases hsecond with ⟨hs₂, -, rfl⟩ | ⟨-, hfull, -⟩
      · exact Or.inr ⟨hs₁, hs₂, rfl⟩
      · cases hfull
  · rintro ⟨o₁, o₂, hp₁, hp₂, ⟨hs₁, hs₂, rfl⟩ | ⟨hs₁, hs₂, rfl⟩⟩
    · exact ⟨_, ⟨o₁, hp₁, Or.inl ⟨hs₁, trivial, rfl⟩⟩, _, ⟨o₂, hp₂, Or.inr ⟨hs₂, rfl, rfl⟩⟩, rfl⟩
    · exact ⟨_, ⟨o₁, hp₁, Or.inr ⟨hs₁, trivial, rfl⟩⟩, _, ⟨o₂, hp₂, Or.inl ⟨hs₂, rfl, rfl⟩⟩, rfl⟩

theorem validateSettlement_of_slots {ctx : Context} {script : Script} {own : OrderArgs}
    {i j : ℕ} {buy sell : Cell} {b s : OrderArgs}
    (hcollect : (ctx.queryIter Cell.lock .input).zipIdx.foldlM (collectOrder script) {} =
      .ok ⟨some (i, b), some (j, s)⟩)
    (hbuy : ctx.tx.inputs[i]? = some buy) (hsell : ctx.tx.inputs[j]? = some sell) :
    validateSettlement ctx script own = .ok () ↔
      (b.xudtTypeHash = s.xudtTypeHash ∧ b.tokenAmount = s.tokenAmount ∧ b.price = s.price) ∧
        (own.side = sideBuy ∧ BuySide ctx.tx buy b ∨
          own.side = sideSell ∧ SellSide ctx.tx sell s) := by
  have hne : sideBuy ≠ sideSell := by decide
  simp only [validateSettlement, hcollect, bind_eq_ok, Except.ok.injEq, exists_eq_left',
    okOr_eq_ok, Option.some_inj, throwIf_eq_ok]
  simp only [exists_const, not_or, not_not]
  refine and_congr_right fun _ => ?_
  by_cases hb : own.side = sideBuy
  · rw [if_pos hb, validateBuyOrder_eq_ok hbuy]
    constructor
    · exact fun h => Or.inl ⟨hb, h⟩
    · rintro (⟨-, h⟩ | ⟨hs, -⟩)
      · exact h
      · exact (hne (hb.symm.trans hs)).elim
  · rw [if_neg hb]
    by_cases hs : own.side = sideSell
    · rw [if_pos hs, validateSellOrder_eq_ok hsell]
      constructor
      · exact fun h => Or.inr ⟨hs, h⟩
      · rintro (⟨h, -⟩ | ⟨-, h⟩)
        · exact (hb h).elim
        · exact h
    · rw [if_neg hs]
      constructor
      · intro h
        cases h
      · rintro (⟨h, -⟩ | ⟨h, -⟩)
        · exact (hb h).elim
        · exact (hs h).elim

theorem sameIdentity_of_mem {tx : Tx} {script : Script} {c : Cell}
    (h : c ∈ dexInputs tx script) : sameIdentity script c.lock = true :=
  (List.mem_filter.mp h).2

/-- The slots found in two DEX inputs, read as a pair of orders. -/
theorem dexInputs_congr {tx : Tx} {script other : Script} (h : sameIdentity script other = true) :
    dexInputs tx other = dexInputs tx script := by
  simp only [sameIdentity, Bool.and_eq_true, decide_eq_true_eq] at h
  simp only [dexInputs, sameIdentity, h.1, h.2]

theorem collect_eq_pair {tx : Tx} {script : Script} (two : (dexInputs tx script).length = 2) :
    ∃ c₁ c₂ i₁ i₂, dexInputs tx script = [c₁, c₂] ∧ tx.inputs[i₁]? = some c₁ ∧
      tx.inputs[i₂]? = some c₂ ∧ ∀ slots,
      (({ tx, script } : Context).queryIter Cell.lock .input).zipIdx.foldlM
          (collectOrder script) {} = .ok slots ↔
        ∃ o₁ o₂, parseOrderArgs c₁.lock.args = .ok o₁ ∧ parseOrderArgs c₂.lock.args = .ok o₂ ∧
          ((o₁.side = sideBuy ∧ o₂.side = sideSell ∧ slots = ⟨some (i₁, o₁), some (i₂, o₂)⟩) ∨
            (o₁.side = sideSell ∧ o₂.side = sideBuy ∧
              slots = ⟨some (i₂, o₂), some (i₁, o₁)⟩)) := by
  obtain ⟨located, hcells, hget, hfold⟩ :=
    collect_eq_dexInputs { tx, script } script
  obtain ⟨c₁, c₂, hdex⟩ := List.length_eq_two.mp two
  rw [hdex] at hcells
  have hlen : located.length = 2 := by
    rw [← List.length_map Prod.fst, hcells]
    rfl
  obtain ⟨⟨d₁, i₁⟩, ⟨d₂, i₂⟩, rfl⟩ := List.length_eq_two.mp hlen
  simp only [List.map_cons, List.map_nil, List.cons.injEq, and_true] at hcells
  obtain ⟨rfl, rfl⟩ := hcells
  have hmem₁ : d₁ ∈ dexInputs tx script := by simp [hdex]
  have hmem₂ : d₂ ∈ dexInputs tx script := by simp [hdex]
  have h₁ := sameIdentity_of_mem hmem₁
  have h₂ := sameIdentity_of_mem hmem₂
  refine ⟨d₁, d₂, i₁, i₂, hdex, hget d₁ i₁ (by simp), hget d₂ i₂ (by simp), fun slots => ?_⟩
  rw [hfold]
  exact collect_two h₁ h₂

theorem validateSettlement_eq_ok {tx : Tx} {script : Script} {own : OrderArgs}
    (two : (dexInputs tx script).length = 2) :
    validateSettlement { tx, script } script own = .ok () ↔
      ∃ buy sell buyOrder sellOrder, Pair tx script buy sell buyOrder sellOrder ∧
        (own.side = sideBuy ∧ BuySide tx buy buyOrder ∨
          own.side = sideSell ∧ SellSide tx sell sellOrder) := by
  obtain ⟨c₁, c₂, i₁, i₂, hdex, hi₁, hi₂, hslots⟩ := collect_eq_pair two
  constructor
  · intro h
    have h' := h
    rw [validateSettlement, bind_eq_ok] at h'
    obtain ⟨slots, hcollect, -⟩ := h'
    obtain ⟨o₁, o₂, hp₁, hp₂, hcase⟩ := (hslots slots).mp hcollect
    obtain ⟨hw₁, hd₁⟩ := parseOrderArgs_eq_ok.mp hp₁
    obtain ⟨hw₂, hd₂⟩ := parseOrderArgs_eq_ok.mp hp₂
    rcases hcase with ⟨hs₁, hs₂, rfl⟩ | ⟨hs₁, hs₂, rfl⟩
    · obtain ⟨⟨ht, ha, hp⟩, hside⟩ := (validateSettlement_of_slots hcollect hi₁ hi₂).mp h
      exact ⟨c₁, c₂, o₁, o₂, ⟨Or.inl hdex, hw₁, hd₁, hs₁, hw₂, hd₂, hs₂, ht, ha, hp⟩, hside⟩
    · obtain ⟨⟨ht, ha, hp⟩, hside⟩ := (validateSettlement_of_slots hcollect hi₂ hi₁).mp h
      exact ⟨c₂, c₁, o₂, o₁, ⟨Or.inr hdex, hw₂, hd₂, hs₂, hw₁, hd₁, hs₁, ht, ha, hp⟩, hside⟩
  · rintro ⟨buy, sell, b, s, hpair, hside⟩
    have hpb := parseOrderArgs_eq_ok.mpr ⟨hpair.buy_formed, hpair.buy_terms⟩
    have hps := parseOrderArgs_eq_ok.mpr ⟨hpair.sell_formed, hpair.sell_terms⟩
    have hagree := And.intro hpair.token (And.intro hpair.amount hpair.price)
    rcases hpair.inputs with hin | hin
    · obtain ⟨rfl, rfl⟩ : c₁ = buy ∧ c₂ = sell := by simpa using hdex.symm.trans hin
      have hcollect := (hslots _).mpr
        ⟨b, s, hpb, hps, Or.inl ⟨hpair.buy_side, hpair.sell_side, rfl⟩⟩
      exact (validateSettlement_of_slots hcollect hi₁ hi₂).mpr ⟨hagree, hside⟩
    · obtain ⟨rfl, rfl⟩ : c₁ = sell ∧ c₂ = buy := by simpa using hdex.symm.trans hin
      have hcollect := (hslots _).mpr
        ⟨s, b, hps, hpb, Or.inr ⟨hpair.sell_side, hpair.buy_side, rfl⟩⟩
      exact (validateSettlement_of_slots hcollect hi₂ hi₁).mpr ⟨hagree, hside⟩

theorem exitCode_eq_zero {r : Except ErrorCode Unit} : exitCode r = 0 ↔ r = .ok () := by
  cases r with
  | error e => cases e <;> simp [exitCode, ErrorCode.code]
  | ok u => simp [exitCode]

theorem dexInputCount_eq (ctx : Context) :
    ((ctx.queryIter Cell.lock .input).filter (sameIdentity ctx.script)).length =
      (dexInputs ctx.tx ctx.script).length := by
  rw [Context.queryIter, List.filter_map, List.length_map]
  rfl

theorem mem_dexInputs_self {tx : Tx} {own : Cell} (h : own ∈ tx.inputs) :
    own ∈ dexInputs tx own.lock :=
  List.mem_filter.mpr ⟨h, by simp [sameIdentity]⟩

/-- A lone DEX input is the first input of its own script group. -/
theorem groupInput_of_single {tx : Tx} {own : Cell} (h : own ∈ tx.inputs)
    (single : (dexInputs tx own.lock).length = 1) :
    ({ tx, script := own.lock : Context}.cells .groupInput)[0]? = some own := by
  obtain ⟨c, hc⟩ := List.length_eq_one_iff.mp single
  obtain rfl : own = c := by simpa [hc] using mem_dexInputs_self h
  have hgroup : tx.inputs.filter (fun c => c.lock = own.lock) = [own] := by
    have hsub : tx.inputs.filter (fun c => c.lock = own.lock) =
        (dexInputs tx own.lock).filter (fun c => c.lock = own.lock) := by
      rw [dexInputs, List.filter_filter]
      refine List.filter_congr fun c _ => ?_
      by_cases hl : c.lock = own.lock <;> simp [hl, sameIdentity]
    rw [hsub, hc]
    simp
  simp [Context.cells, hgroup]

/-- In a pair that contains the running order, the side names its cell. -/
theorem own_of_pair {tx : Tx} {own buy sell : Cell} {order b s : OrderArgs}
    (hown : own ∈ tx.inputs) (hw : WellFormed own.lock.args) (hd : Declares own.lock.args order)
    (hpair : Pair tx own.lock buy sell b s) :
    (order.side = sideBuy → own = buy ∧ order = b) ∧
      (order.side = sideSell → own = sell ∧ order = s) := by
  have hne : sideBuy ≠ sideSell := by decide
  have hmem : own = buy ∨ own = sell := by
    have hm := mem_dexInputs_self hown
    rcases hpair.inputs with hin | hin
    · simpa [hin] using hm
    · simpa [hin, or_comm] using hm
  have hbuy : own = buy → order = b := fun e => by
    subst e
    exact declares_unique hw hd hpair.buy_terms
  have hsell : own = sell → order = s := fun e => by
    subst e
    exact declares_unique hw hd hpair.sell_terms
  constructor
  · intro hside
    rcases hmem with e | e
    · exact ⟨e, hbuy e⟩
    · exact (hne (hside.symm.trans (hsell e ▸ hpair.sell_side))).elim
  · intro hside
    rcases hmem with e | e
    · exact (hne ((hbuy e ▸ hpair.buy_side).symm.trans hside)).elim
    · exact ⟨e, hsell e⟩

theorem settles_iff {tx : Tx} {own : Cell} {order : OrderArgs} (hown : own ∈ tx.inputs)
    (hw : WellFormed own.lock.args) (hd : Declares own.lock.args order) :
    (∃ buy sell b s, Pair tx own.lock buy sell b s ∧
        (order.side = sideBuy ∧ BuySide tx buy b ∨ order.side = sideSell ∧ SellSide tx sell s)) ↔
      (∃ buy sell b s, Pair tx own.lock buy sell b s) ∧
        (order.side = sideBuy → BuySide tx own order) ∧
        (order.side = sideSell → SellSide tx own order) := by
  have hne : sideBuy ≠ sideSell := by decide
  constructor
  · rintro ⟨buy, sell, b, s, hpair, hside⟩
    obtain ⟨hb, hs⟩ := own_of_pair hown hw hd hpair
    refine ⟨⟨buy, sell, b, s, hpair⟩, ?_, ?_⟩
    · intro h
      obtain ⟨rfl, rfl⟩ := hb h
      rcases hside with ⟨-, hcheck⟩ | ⟨h', -⟩
      · exact hcheck
      · exact (hne (h.symm.trans h')).elim
    · intro h
      obtain ⟨rfl, rfl⟩ := hs h
      rcases hside with ⟨h', -⟩ | ⟨-, hcheck⟩
      · exact (hne (h'.symm.trans h)).elim
      · exact hcheck
  · rintro ⟨⟨buy, sell, b, s, hpair⟩, hbuy, hsell⟩
    obtain ⟨hb, hs⟩ := own_of_pair hown hw hd hpair
    refine ⟨buy, sell, b, s, hpair, ?_⟩
    rcases side_of_wellFormed hw hd with h | h
    · obtain ⟨rfl, rfl⟩ := hb h
      exact Or.inl ⟨h, hbuy h⟩
    · obtain ⟨rfl, rfl⟩ := hs h
      exact Or.inr ⟨h, hsell h⟩

/-- An accepted input has well-formed args. -/
theorem wellFormed_of_accepted {tx : Tx} {own : Cell}
    (h : programEntry { tx, script := own.lock } = 0) :
    WellFormed own.lock.args ∧ ∃ order, Declares own.lock.args order := by
  simp only [programEntry, exitCode_eq_zero, bind_eq_ok, mapError_eq_ok, Context.loadScript,
    Except.ok.injEq, exists_eq_left', parseOrderArgs_eq_ok] at h
  obtain ⟨order, ⟨hw, hd⟩, -⟩ := h
  exact ⟨hw, order, hd⟩

/-- An input of known terms is accepted by its cancellation or its settlement
branch. -/
theorem accepted_iff {tx : Tx} {own : Cell} {order : OrderArgs} (hown : own ∈ tx.inputs)
    (hw : WellFormed own.lock.args) (hd : Declares own.lock.args order) :
    programEntry { tx, script := own.lock } = 0 ↔ Cancels tx own order ∨ Settles tx own order := by
  have hcount := dexInputCount_eq { tx, script := own.lock }
  simp only [programEntry, exitCode_eq_zero, bind_eq_ok, mapError_eq_ok, Context.loadScript,
    Except.ok.injEq, exists_eq_left', hcount, parseOrderArgs_eq_ok.mpr ⟨hw, hd⟩]
  have hmaker : ((({ tx, script := own.lock : Context}).queryIter Cell.lockHash .input).any
      (fun lockHash => lockHash = order.makerLockHash)) = true ↔
      ∃ c ∈ tx.inputs, c.lockHash = order.makerLockHash := by
    simp [Context.queryIter, Context.cells]
  by_cases hauth : ∃ c ∈ tx.inputs, c.lockHash = order.makerLockHash
  · have hnot : ¬Settles tx own order := fun h => by
      obtain ⟨c, hc, he⟩ := hauth
      exact h.unauthorized c hc he
    rw [if_pos (hmaker.mpr hauth), or_iff_left hnot]
    simp only [bind_eq_ok, throwIf_eq_ok]
    simp only [exists_const, not_not]
    constructor
    · rintro ⟨hone, h⟩
      exact ⟨hauth, hone, (validateCancellation_eq_ok (groupInput_of_single hown hone)).mp h⟩
    · rintro ⟨-, hone, h⟩
      exact ⟨hone, (validateCancellation_eq_ok (groupInput_of_single hown hone)).mpr h⟩
  · have hnot : ¬Cancels tx own order := fun h => hauth h.authorized
    rw [if_neg (fun h => hauth (hmaker.mp h)), or_iff_right hnot]
    have hno : ∀ c ∈ tx.inputs, c.lockHash ≠ order.makerLockHash :=
      fun c hc he => hauth ⟨c, hc, he⟩
    simp only [bind_eq_ok, throwIf_eq_ok]
    simp only [exists_const, not_not]
    constructor
    · rintro ⟨htwo, h⟩
      obtain ⟨hpair, hb, hs⟩ := (settles_iff hown hw hd).mp ((validateSettlement_eq_ok htwo).mp h)
      exact ⟨hno, hpair, hb, hs⟩
    · rintro ⟨-, hpair, hb, hs⟩
      have htwo : (dexInputs tx own.lock).length = 2 := by
        obtain ⟨buy, sell, b, s, hp⟩ := hpair
        rcases hp.inputs with hin | hin <;> rw [hin] <;> rfl
      exact ⟨htwo, (validateSettlement_eq_ok htwo).mpr
        ((settles_iff hown hw hd).mpr ⟨hpair, hb, hs⟩)⟩

/-- Exact acceptance condition of the order lock. -/
theorem programEntry_eq_zero_iff {tx : Tx} {own : Cell} (hown : own ∈ tx.inputs) :
    programEntry { tx, script := own.lock } = 0 ↔
      WellFormed own.lock.args ∧ ∃ order, Declares own.lock.args order ∧
        (Cancels tx own order ∨ Settles tx own order) := by
  constructor
  · intro h
    obtain ⟨hw, order, hd⟩ := wellFormed_of_accepted h
    exact ⟨hw, order, hd, (accepted_iff hown hw hd).mp h⟩
  · rintro ⟨hw, order, hd, h⟩
    exact (accepted_iff hown hw hd).mpr h

def exampleHash (b : Byte) : Hash := ⟨List.replicate 32 b, List.length_replicate⟩

/-- An order of 100 tokens at 5000 shannons. -/
def exampleOrder (side : Byte) (maker : Hash) : OrderArgs :=
  ⟨side, maker, exampleHash 9, 100, 5000⟩

def exampleOrderCell (order : OrderArgs) (lockHash : Hash) (capacity : BitVec 64) : Cell where
  lock := ⟨exampleHash 7, .type, orderArgs order⟩
  lockHash := lockHash
  typeHash := if order.side = sideSell then some order.xudtTypeHash else none
  capacity := capacity
  data := if order.side = sideSell then toLe 16 order.tokenAmount.toNat else []

def exampleBuy : Cell := exampleOrderCell (exampleOrder sideBuy (exampleHash 1)) (exampleHash 3) 40000
def exampleSell : Cell := exampleOrderCell (exampleOrder sideSell (exampleHash 2)) (exampleHash 4) 20000

/-- The seller is paid 25000, the buyer receives the tokens with 34000. -/
def exampleSettlement : Tx where
  inputs := [exampleBuy, exampleSell]
  outputs := [
    ⟨⟨exampleHash 8, .type, []⟩, exampleHash 2, none, 25000, []⟩,
    ⟨⟨exampleHash 8, .type, []⟩, exampleHash 1, some (exampleHash 9), 34000, exampleSell.data⟩]

theorem programEntry_eq_zero_iff_settlement :
    WellFormed exampleSell.lock.args ∧ ∃ order, Declares exampleSell.lock.args order ∧
      (Cancels exampleSettlement exampleSell order ∨
        Settles exampleSettlement exampleSell order) := by
  have hown : exampleSell ∈ exampleSettlement.inputs := by simp [exampleSettlement]
  exact (programEntry_eq_zero_iff hown).mp (by decide)

end CkbDex.OrderLockRules
