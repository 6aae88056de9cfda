import CkbDex.Operations
import CkbDex.OrderLockRules
import Mathlib.Data.List.Chain

/-!
# Chains and the nodes that follow them

Hashes commit to transactions and to blocks, so these never change; a chain is
the list of its block hashes, and a reorganization replaces one chain by
another. A node that is in step with a chain answers every query from it.
-/
namespace CkbDex.Chains
open Bytes CellContext OrderLock OrderLockRules ChainCells Operations Documents

/-- The transactions that hashes commit to. -/
abbrev Content := Hash → Option RawTx

def cellAt (content : Content) (ref : CellRef) : Option CellOutput :=
  (content ref.txHash).bind fun tx => tx.outputs[ref.index.toNat]?

structure Block where
  parent : Hash
  txs : List Hash
  deriving DecidableEq

/-- What hashes commit to. -/
structure World where
  content : Content
  block : Hash → Option Block

/-- Where a chain has a transaction. -/
structure Position where
  blockNumber : ℕ
  blockHash : Hash
  txIndex : ℕ
  txHash : Hash
  deriving DecidableEq

/-- What a node answers about a transaction at a position. -/
def Position.response (p : Position) (transaction : RawTx) : TxResponse where
  status := "committed"
  blockNumber := some p.blockNumber
  blockHash := some p.blockHash
  txIndex := some p.txIndex
  transaction := transaction

/-- The transactions of the blocks with these hashes, in order. -/
def positions (w : World) (hashes : List Hash) : List Position :=
  hashes.zipIdx.flatMap fun (hash, n) =>
    ((w.block hash).elim [] Block.txs).zipIdx.map fun (tx, i) => ⟨n, hash, i, tx⟩

def inputsOf (content : Content) (txHash : Hash) : List CellRef := (content txHash).elim [] RawTx.inputs

/-- Block hashes from genesis on. Each block names the one before it, no
transaction is included twice and no cell is spent twice. -/
structure Chain (w : World) where
  hashes : List Hash
  linked : hashes.IsChain fun parent child => (w.block child).map Block.parent = some parent
  once : ((positions w hashes).map Position.txHash).Nodup
  spentOnce : ((positions w hashes).flatMap fun p => inputsOf w.content p.txHash).Nodup

section
variable {w : World}

theorem Chain.parent_of_getElem? (c : Chain w) {n : ℕ} {hash : Hash}
    (h : c.hashes[n + 1]? = some hash) : ∃ parent, c.hashes[n]? = some parent ∧
      (w.block hash).map Block.parent = some parent := by
  obtain ⟨hlt, rfl⟩ := List.getElem?_eq_some_iff.mp h
  exact ⟨_, List.getElem?_eq_getElem (by omega), List.isChain_iff_getElem.mp c.linked n hlt⟩

/-- Two chains that share a block share everything below it. -/
theorem Chain.agree_below {c d : Chain w} {n : ℕ} {hash : Hash} (hc : c.hashes[n]? = some hash)
    (hd : d.hashes[n]? = some hash) {m : ℕ} (hm : m ≤ n) : c.hashes[m]? = d.hashes[m]? := by
  induction n generalizing hash with
  | zero =>
      obtain rfl : m = 0 := by omega
      exact hc.trans hd.symm
  | succ n ih =>
      rcases Nat.lt_or_ge n m with hlt | hle
      · obtain rfl : m = n + 1 := by omega
        exact hc.trans hd.symm
      · obtain ⟨parent, hparent, hblock⟩ := c.parent_of_getElem? hc
        obtain ⟨parent', hparent', hblock'⟩ := d.parent_of_getElem? hd
        obtain rfl : parent = parent' := Option.some_inj.mp (hblock.symm.trans hblock')
        exact ih hparent hparent' hle

/-- A cell is spent by one transaction of a chain at most. -/
theorem Chain.spender_unique (c : Chain w) {p q : Position} {ref : CellRef}
    (hp : p ∈ positions w c.hashes) (hq : q ∈ positions w c.hashes)
    (hpr : ref ∈ inputsOf w.content p.txHash) (hqr : ref ∈ inputsOf w.content q.txHash) : p = q := by
  have hdisjoint := (List.nodup_flatMap.mp c.spentOnce).2
  have : Std.Symm (Function.onFun List.Disjoint fun p : Position => inputsOf w.content p.txHash) :=
    ⟨fun _ _ h a ha hb => h hb ha⟩
  by_contra hne
  exact hdisjoint.forall hp hq hne hpr hqr

theorem mem_inputsOf {content : Content} {txHash : Hash} {ref : CellRef} :
    ref ∈ inputsOf content txHash ↔ ∃ tx, content txHash = some tx ∧ ref ∈ tx.inputs := by
  unfold inputsOf
  cases content txHash <;> simp

namespace Chain
variable (c : Chain w)

def positionOf (txHash : Hash) : Option Position :=
  (positions w c.hashes).find? fun p => p.txHash = txHash

def response (txHash : Hash) : Option TxResponse := do
  let p ← c.positionOf txHash
  let transaction ← w.content txHash
  return p.response transaction

def tip : ℕ := c.hashes.length - 1

def spent : List CellRef := (positions w c.hashes).flatMap fun p => inputsOf w.content p.txHash

/-- A cell that the chain has created and not spent. -/
def isLive (ref : CellRef) : Bool :=
  (c.positionOf ref.txHash).isSome && (cellAt w.content ref).isSome && ref ∉ c.spent

def outputRefs (txHash : Hash) : List CellRef :=
  (List.range ((w.content txHash).elim 0 fun tx => tx.outputs.length)).map fun i =>
    ⟨txHash, BitVec.ofNat 32 i⟩

/-- The cells of a list of references, as the indexer lists them. -/
def cellsAt (refs : List CellRef) : List IndexedCell :=
  refs.filterMap fun ref => (cellAt w.content ref).map fun cell => ⟨ref, cell⟩

def liveCells (dex : Script) (first last : ℕ) : List IndexedCell :=
  (cellsAt (w := w) (((positions w c.hashes).filter fun p =>
    first ≤ p.blockNumber && p.blockNumber ≤ last).flatMap fun p =>
      outputRefs (w := w) p.txHash)).filter fun cell =>
        c.isLive cell.outPoint && sameIdentity dex cell.cell.lock

/-- One record for each input and output under a lock. -/
def records (lock : Script) : List TxRecord :=
  (positions w c.hashes).flatMap fun p =>
    ((cellsAt (w := w) (inputsOf w.content p.txHash)).filter fun cell => cell.cell.lock = lock).map
      (fun _ => ⟨p.txHash, true⟩) ++
    ((cellsAt (w := w) (outputRefs (w := w) p.txHash)).filter fun cell => cell.cell.lock = lock).map
      fun _ => ⟨p.txHash, false⟩

/-- A node in step with a chain, at a moment. -/
def node (dex : Script) (now : ℕ) : Node where
  getTip := if c.hashes = [] then .error (.other "no chain") else .ok c.tip
  getHeaderHash n := if 0 ≤ n then .ok c.hashes[n.toNat]? else .error (.other "invalid number")
  getTransaction txHash := .ok (c.response txHash)
  getTransactionNoCache txHash := .ok (c.response txHash)
  getCell ref := .ok (cellAt w.content ref)
  getCellLive ref := .ok (c.isLive ref)
  findCells first last := .ok (c.liveCells dex first last)
  findTransactionsByLock lock := .ok (c.records lock)
  sendTransaction _ := .error (.other "PoolRejected")
  now := now

end Chain

end

/-- A node answers with transactions and cells as the hashes commit to them. -/
structure Truthful (content : Content) (node : Node) : Prop where
  transaction : ∀ hash response, node.getTransactionNoCache hash = .ok (some response) →
    content hash = some response.transaction
  cell : ∀ ref cell, node.getCell ref = .ok (some cell) → cellAt content ref = some cell

theorem Chain.response_eq_some {w : World} {c : Chain w} {txHash : Hash} {response : TxResponse} :
    c.response txHash = some response ↔ ∃ p tx, c.positionOf txHash = some p ∧
      w.content txHash = some tx ∧ response = p.response tx := by
  simp only [Chain.response, bind, Option.bind_eq_some_iff, pure, Option.some_inj]
  constructor
  · rintro ⟨p, hp, tx, htx, rfl⟩
    exact ⟨p, tx, hp, htx, rfl⟩
  · rintro ⟨p, tx, hp, htx, rfl⟩
    exact ⟨p, hp, tx, htx, rfl⟩

theorem mem_positions {w : World} {hashes : List Hash} {p : Position} :
    p ∈ positions w hashes ↔ hashes[p.blockNumber]? = some p.blockHash ∧
      ∃ block, w.block p.blockHash = some block ∧ block.txs[p.txIndex]? = some p.txHash := by
  simp only [positions, List.mem_flatMap, List.mem_map, Prod.exists, List.mem_zipIdx_iff_getElem?]
  constructor
  · rintro ⟨hash, n, hhash, tx, i, htx, rfl⟩
    cases hblock : w.block hash with
    | none =>
        rw [hblock] at htx
        cases htx
    | some block =>
        rw [hblock] at htx
        exact ⟨hhash, block, rfl, htx⟩
  · rintro ⟨hhash, block, hblock, htx⟩
    refine ⟨p.blockHash, p.blockNumber, hhash, p.txHash, p.txIndex, ?_, rfl⟩
    rw [hblock]
    exact htx

theorem Chain.positionOf_eq_some {w : World} {c : Chain w} {txHash : Hash} {p : Position} :
    c.positionOf txHash = some p ↔ p ∈ positions w c.hashes ∧ p.txHash = txHash := by
  constructor
  · intro h
    exact ⟨List.mem_of_find?_eq_some h, by simpa using List.find?_some h⟩
  · rintro ⟨hmem, rfl⟩
    obtain ⟨q, hq⟩ : ∃ q, c.positionOf p.txHash = some q := by
      rw [← Option.isSome_iff_exists, Chain.positionOf, List.find?_isSome]
      exact ⟨p, hmem, by simp⟩
    have hsame : q.txHash = p.txHash := by simpa using List.find?_some hq
    rw [hq, List.inj_on_of_nodup_map c.once (List.mem_of_find?_eq_some hq) hmem hsame]

theorem Chain.truthful_node {w : World} (c : Chain w) (dex : Script) (now : ℕ) :
    Truthful w.content (c.node dex now) where
  transaction := by
    intro txHash response h
    obtain ⟨p, tx, -, htx, rfl⟩ := Chain.response_eq_some.mp (Except.ok.inj h)
    exact htx
  cell := fun _ _ h => Except.ok.inj h

end CkbDex.Chains
