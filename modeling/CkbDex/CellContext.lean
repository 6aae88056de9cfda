import CkbDex.Checked
import CkbDex.Bytes

/-!
# Cells, transactions and what a running script can load

A transaction is its resolved inputs and its outputs. A lock script runs once
for each script group, that is for all inputs that share one lock script; the
loading functions read a cell of the transaction by its index in a source and
fail beyond the last one. The virtual machine's cycle and memory limits are
not part of the model.
-/
namespace CkbDex.CellContext
open Bytes

inductive HashType where
  | data | type | data1 | data2
  deriving DecidableEq, Repr

structure Script where
  codeHash : Hash
  hashType : HashType
  args : List Byte
  deriving DecidableEq

/-- A cell with the hashes of its scripts. No relation between a script and
its hash is assumed: results about the contract hold for every assignment. -/
structure Cell where
  lock : Script
  lockHash : Hash
  typeHash : Option Hash
  capacity : BitVec 64
  data : List Byte
  deriving DecidableEq

structure Tx where
  inputs : List Cell
  outputs : List Cell

/-- The transaction and the lock script being run on it. -/
structure Context where
  tx : Tx
  script : Script

inductive Source where
  | input | output | groupInput

inductive SysError where
  | indexOutOfBound

def Context.cells (ctx : Context) : Source → List Cell
  | .input => ctx.tx.inputs
  | .output => ctx.tx.outputs
  | .groupInput => ctx.tx.inputs.filter (fun c => c.lock = ctx.script)

section
variable {α : Type} (ctx : Context)

def Context.load (field : Cell → α) (index : ℕ) (source : Source) : Except SysError α :=
  match (ctx.cells source)[index]? with
  | some cell => .ok (field cell)
  | none => .error .indexOutOfBound

def Context.loadScript : Except SysError Script := .ok ctx.script
def Context.loadCellCapacity := ctx.load Cell.capacity
def Context.loadCellData := ctx.load Cell.data
def Context.loadCellTypeHash := ctx.load Cell.typeHash

/-- `QueryIter`: the successive results of a loading function, up to the first
index out of bounds. -/
def Context.queryIter (field : Cell → α) (source : Source) : List α :=
  (ctx.cells source).map field

end

@[simp] theorem load_eq_ok {α : Type} {ctx : Context} {field : Cell → α} {index : ℕ}
    {source : Source} {a : α} :
    ctx.load field index source = .ok a ↔
      ∃ cell, (ctx.cells source)[index]? = some cell ∧ field cell = a := by
  unfold Context.load
  cases (ctx.cells source)[index]? <;> simp

theorem load_of_getElem? {α : Type} {ctx : Context} (field : Cell → α) {index : ℕ}
    {source : Source} {cell : Cell} (h : (ctx.cells source)[index]? = some cell) :
    ctx.load field index source = .ok (field cell) :=
  load_eq_ok.mpr ⟨cell, h, rfl⟩

/-- A loop over `enumerate` that reads other fields of the cell it is at, by
its index, is a loop over the cells themselves. -/
theorem foldlM_enumerate {α β ε : Type} {ctx : Context} {source : Source} {field : Cell → α}
    {body : β → α × ℕ → Except ε β} {step : β → Cell → Except ε β}
    (h : ∀ acc cell index, (ctx.cells source)[index]? = some cell →
      body acc (field cell, index) = step acc cell) (acc : β) :
    (ctx.queryIter field source).zipIdx.foldlM body acc =
      (ctx.cells source).foldlM step acc := by
  have general : ∀ (done rest : List Cell) (a : β), ctx.cells source = done ++ rest →
      ((rest.map field).zipIdx done.length).foldlM body a = rest.foldlM step a := by
    intro done rest
    induction rest generalizing done with
    | nil => intro a _; rfl
    | cons cell rest ih =>
        intro a hs
        have hc : (ctx.cells source)[done.length]? = some cell := by simp [hs]
        simp only [List.map_cons, List.zipIdx_cons, List.foldlM_cons, h a cell _ hc]
        refine congrArg _ (funext fun b => ?_)
        have hnext := ih (done ++ [cell]) b (by simp [hs])
        rwa [List.length_append, List.length_singleton] at hnext
  exact general [] _ acc rfl

end CkbDex.CellContext
