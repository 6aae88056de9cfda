import CkbDex.Documents

/-!
# Cells on chain and the documents that mirror them

A cell output with its full scripts, the cell the contract sees of it, and the
facts that an indexed order document carries about its cell. The hash of a
script is a parameter: nothing is assumed about it.
-/
namespace CkbDex.ChainCells
open Bytes CellContext OrderLock Text Documents

structure CellOutput where
  capacity : ℕ
  lock : Script
  type : Option Script
  data : List Byte
  deriving DecidableEq

/-- The cell that the contract's loading functions see. -/
def CellOutput.toCell (hash : Script → Hash) (c : CellOutput) : Cell where
  lock := c.lock
  lockHash := hash c.lock
  typeHash := c.type.map hash
  capacity := BitVec.ofNat 64 c.capacity
  data := c.data

/-- What indexing admits: the document's texts denote the cell and the terms of
its lock args, a sell cell holds what it declares, a buy cell is untyped, and
the owner lock is the maker's. Cells on chain have a capacity of 64 bits that
pays at least for themselves. -/
structure Mirrors (hash : Script → Hash) (dex : Script) (doc : OrderDocument) (cell : CellOutput)
    (order : OrderArgs) : Prop where
  capacity_pos : 0 < cell.capacity
  capacity_lt : cell.capacity < 2 ^ 64
  identity : sameIdentity dex cell.lock = true
  lock : scriptFrom doc.lockScript = some cell.lock
  type : optionFrom scriptFrom doc.typeScript = some cell.type
  data : bytesFrom doc.cellData = some cell.data
  capacity : bigInt doc.capacity = some (cell.capacity : ℤ)
  terms : parseOrderArgs cell.lock.args = .ok order
  direction : doc.direction = directionOf order.side
  price : bigInt doc.pricePerToken = some (order.price.toNat : ℤ)
  amount : bigInt doc.remainingAmount = some (order.tokenAmount.toNat : ℤ)
  token : hashFrom doc.xudtTypeHash = some order.xudtTypeHash
  maker : hashFrom doc.ownerLockHash = some order.makerLockHash
  owner : ∃ owner, scriptFrom doc.ownerLock = some owner ∧ hash owner = order.makerLockHash
  asset : order.side = sideSell → cell.type.map hash = some order.xudtTypeHash ∧
    16 ≤ cell.data.length ∧ ofLe (slice cell.data 0 16) = order.tokenAmount.toNat
  plain : order.side = sideBuy → cell.type = none

section
variable {hash : Script → Hash} {dex : Script} {doc : OrderDocument} {cell : CellOutput}
  {order : OrderArgs}

theorem Mirrors.toNat_capacity (h : Mirrors hash dex doc cell order) :
    (cell.toCell hash).capacity.toNat = cell.capacity := by
  rw [CellOutput.toCell, BitVec.toNat_ofNat, Nat.mod_eq_of_lt h.capacity_lt]

theorem Mirrors.wellFormed (h : Mirrors hash dex doc cell order) :
    OrderLockRules.WellFormed cell.lock.args ∧
      OrderLockRules.Declares cell.lock.args order :=
  OrderLockRules.parseOrderArgs_eq_ok.mp h.terms

theorem Mirrors.side (h : Mirrors hash dex doc cell order) :
    order.side = sideBuy ∨ order.side = sideSell :=
  OrderLockRules.side_of_wellFormed h.wellFormed.1 h.wellFormed.2

theorem Mirrors.side_of_bid (h : Mirrors hash dex doc cell order) (hd : doc.direction = .bid) :
    order.side = sideBuy := by
  rcases h.side with hs | hs
  · exact hs
  · have hdir := h.direction
    rw [hd, directionOf, if_pos hs] at hdir
    cases hdir

theorem Mirrors.side_of_ask (h : Mirrors hash dex doc cell order) (hd : doc.direction = .ask) :
    order.side = sideSell := by
  rcases h.side with hs | hs
  · have hdir := h.direction
    have hne : order.side ≠ sideSell := by
      rw [hs]
      decide
    rw [hd, directionOf, if_neg hne] at hdir
    cases hdir
  · exact hs

end

/-- The document of an order cell whose creation in a block was confirmed. -/
def indexedDocument (outPoint : OutPoint) (cell : CellOutput) (owner : Script) (order : OrderArgs)
    (ownerAddress : String) (blockNumber : ℕ) (blockHash : Hex) (txIndex : ℕ) (eventId : String) :
    OrderDocument where
  id := outPoint.txHash ++ ":" ++ outPoint.index
  outPoint := outPoint
  lockScript := scriptText cell.lock
  typeScript := cell.type.map scriptText
  cellData := toHex cell.data
  capacity := toString cell.capacity
  ownerLock := scriptText owner
  ownerLockHash := (decodedOf order).makerLockHash
  ownerAddress := some ownerAddress
  direction := (decodedOf order).direction
  pricePerToken := toString (decodedOf order).pricePerToken
  remainingAmount := toString (decodedOf order).tokenAmount
  tokenPair := (decodedOf order).udtTypeHash ++ ":CKB"
  xudtTypeHash := (decodedOf order).udtTypeHash
  blockNumber := toString blockNumber
  txIndex := toString txIndex
  status := .live
  reservedUntil := none
  pendingTxHash := none
  settlementTxHash := none
  lastEventId := some eventId
  confirmedAtBlock := some (toString blockNumber)
  createdAtBlock := some (toString blockNumber)
  createdBlockHash := some blockHash
  spentAtBlock := none
  spentBlockHash := none

@[simp] theorem optionFrom_map_scriptText (type : Option Script) :
    optionFrom scriptFrom (type.map scriptText) = some type := by
  cases type <;> simp [optionFrom]

/-- The stored document mirrors the cell it was indexed from. -/
theorem indexedDocument_mirrors {hash : Script → Hash} {dex : Script} {outPoint : OutPoint}
    {cell : CellOutput} {owner : Script} {order : OrderArgs} {ownerAddress : String}
    {blockNumber : ℕ} {blockHash : Hex} {txIndex : ℕ} {eventId : String}
    (hpos : 0 < cell.capacity) (hlt : cell.capacity < 2 ^ 64)
    (hid : sameIdentity dex cell.lock = true) (hterms : parseOrderArgs cell.lock.args = .ok order)
    (howner : hash owner = order.makerLockHash)
    (hasset : order.side = sideSell → cell.type.map hash = some order.xudtTypeHash ∧
      16 ≤ cell.data.length ∧ ofLe (slice cell.data 0 16) = order.tokenAmount.toNat)
    (hplain : order.side = sideBuy → cell.type = none) :
    Mirrors hash dex (indexedDocument outPoint cell owner order ownerAddress blockNumber blockHash
      txIndex eventId) cell order where
  capacity_pos := hpos
  capacity_lt := hlt
  identity := hid
  lock := scriptFrom_scriptText _
  type := optionFrom_map_scriptText _
  data := bytesFrom_toHex _
  capacity := bigInt_toString _
  terms := hterms
  direction := rfl
  price := bigInt_toString _
  amount := bigInt_toString _
  token := hashFrom_hashText _
  maker := hashFrom_hashText _
  owner := ⟨owner, scriptFrom_scriptText _, howner⟩
  asset := hasset
  plain := hplain

end CkbDex.ChainCells
