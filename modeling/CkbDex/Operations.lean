import CkbDex.Programs
import CkbDex.Projection
import CkbDex.SettlementBuilder
import Mathlib.Data.List.Sort

/-!
# Operations of the backend

Everything that the ingestion service and the bot ask of the node and of the
database, one operation for each call, and what an operation does to the
database. A node is what the endpoint answers at one moment; any call to it
may fail.
-/
namespace CkbDex.Operations
open Bytes CellContext Text Documents BotEvents ChainCells Collections Projection Programs
open SettlementBuilder (Settlement)

structure CellRef where
  txHash : Hash
  index : BitVec 32
  deriving DecidableEq

structure RawTx where
  inputs : List CellRef
  outputs : List CellOutput
  deriving DecidableEq

structure TxResponse where
  status : String
  blockNumber : Option ℕ
  blockHash : Option Hash
  txIndex : Option ℕ
  transaction : RawTx
  deriving DecidableEq

structure IndexedCell where
  outPoint : CellRef
  cell : CellOutput
  deriving DecidableEq

structure TxRecord where
  txHash : Hash
  isInput : Bool
  deriving DecidableEq

abbrev Answer (α : Type) := Except Failure α

/-- The answers of the node and its indexer at one moment, and the clock. -/
structure Node where
  getTip : Answer ℕ
  getHeaderHash : ℤ → Answer (Option Hash)
  getTransaction : Hash → Answer (Option TxResponse)
  getTransactionNoCache : Hash → Answer (Option TxResponse)
  getCell : CellRef → Answer (Option CellOutput)
  getCellLive : CellRef → Answer Bool
  /-- Live cells under the DEX lock, created from the first to the last block. -/
  findCells : ℕ → ℕ → Answer (List IndexedCell)
  findTransactionsByLock : Script → Answer (List TxRecord)
  sendTransaction : Settlement → Answer Hash
  now : ℕ

inductive Op where
  | getTip
  | getHeaderHash (blockNumber : ℤ)
  | getTransaction (txHash : Hash)
  | getTransactionNoCache (txHash : Hash)
  | getCell (outPoint : CellRef)
  | getCellLive (outPoint : CellRef)
  | findCells (first last : ℕ)
  | findTransactionsByLock (lock : Script)
  | sendTransaction (settlement : Settlement)
  | now
  | processed (eventId : String)
  | transact (event : BotEvent)
  | recordFailed (eventId message : String)
  | findOrders (ids : List String)
  | findOrderById (id : String)
  | findOrdersByStatus (statuses : List OrderStatus)
  | findCounterpart (pendingTxHash : Option Hex) (id : String)
  | latestOrder
  | reserve (id : String) (reservedUntil : ℕ)
  | revertToLive (id : String)
  | extendReservation (id : String) (reservedUntil : ℕ)
  | trackPending (ids : List String) (txHash : Hex)
  | newestCheckpoints (limit : ℕ)
  | upsertCheckpoint (checkpoint : Checkpoint)
  | trimCheckpoints (below : ℤ)
  | deleteCheckpointsAbove (blockNumber : ℤ)

abbrev Res : Op → Type
  | .getTip => ℕ
  | .getHeaderHash _ => Option Hash
  | .getTransaction _ => Option TxResponse
  | .getTransactionNoCache _ => Option TxResponse
  | .getCell _ => Option CellOutput
  | .getCellLive _ => Bool
  | .findCells _ _ => List IndexedCell
  | .findTransactionsByLock _ => List TxRecord
  | .sendTransaction _ => Hash
  | .now => ℕ
  | .processed _ => Bool
  | .transact _ => Outcome
  | .recordFailed _ _ => Unit
  | .findOrders _ => List OrderDocument
  | .findOrderById _ => Option OrderDocument
  | .findOrdersByStatus _ => List OrderDocument
  | .findCounterpart _ _ => Option OrderDocument
  | .latestOrder => Option OrderDocument
  | .reserve _ _ => Option OrderDocument
  | .revertToLive _ => Unit
  | .extendReservation _ _ => Unit
  | .trackPending _ _ => Unit
  | .newestCheckpoints _ => List Checkpoint
  | .upsertCheckpoint _ => Unit
  | .trimCheckpoints _ => Unit
  | .deleteCheckpointsAbove _ => Unit

/-- A procedure of the backend. -/
abbrev Proc (α : Type) := Action Op Res Failure α

def request (op : Op) : Proc (Res op) := perform op

def Db.updateOrder (db : Db) (id : String) (update : OrderDocument → OrderDocument) : Db :=
  match db.orders.find? id with
  | some order => db.putOrder (update order)
  | none => db

def reservedDocument (reservedUntil : ℕ) (order : OrderDocument) : OrderDocument :=
  { order with status := .reserved, reservedUntil := some reservedUntil }

def releasedDocument (order : OrderDocument) : OrderDocument :=
  { order with status := .live, reservedUntil := none, pendingTxHash := none }

def extendedDocument (reservedUntil : ℕ) (order : OrderDocument) : OrderDocument :=
  { order with reservedUntil := some reservedUntil }

def trackedDocument (txHash : Hex) (order : OrderDocument) : OrderDocument :=
  { order with
    status := .pending
    pendingTxHash := some txHash
    settlementTxHash := some txHash }

/-- `findOneAndUpdate({ _id, status: "LIVE" }, ..)` -/
def Db.reserve (db : Db) (id : String) (reservedUntil : ℕ) : Option OrderDocument × Db :=
  match db.orders.find? id with
  | some order =>
      if order.status = .live then
        (some (reservedDocument reservedUntil order),
          db.putOrder (reservedDocument reservedUntil order))
      else (none, db)
  | none => (none, db)

def Db.revertToLive (db : Db) (id : String) : Db := Db.updateOrder db id releasedDocument

def Db.extendReservation (db : Db) (id : String) (reservedUntil : ℕ) : Db :=
  Db.updateOrder db id (extendedDocument reservedUntil)

/-- The unconditional `updateMany` of a settlement that was submitted but not
recorded. -/
def Db.trackPending (db : Db) (ids : List String) (txHash : Hex) : Db :=
  db.saveOrders ids (trackedDocument txHash) fun _ => rfl

def Db.newestCheckpoints (db : Db) (limit : ℕ) : List Checkpoint :=
  (db.checkpoints.docs.insertionSort fun a b => b.blockNumber ≤ a.blockNumber).take limit

def Db.latestOrder (db : Db) : Option OrderDocument :=
  (db.orders.docs.insertionSort fun a b => b.blockNumber ≤ a.blockNumber).head?

/-- What an operation answers, and the database after it. -/
def handle (drivers : Drivers) (node : Node) : (op : Op) → Db → Answer (Res op) × Db
  | .getTip, db => (node.getTip, db)
  | .getHeaderHash n, db => (node.getHeaderHash n, db)
  | .getTransaction h, db => (node.getTransaction h, db)
  | .getTransactionNoCache h, db => (node.getTransactionNoCache h, db)
  | .getCell ref, db => (node.getCell ref, db)
  | .getCellLive ref, db => (node.getCellLive ref, db)
  | .findCells first last, db => (node.findCells first last, db)
  | .findTransactionsByLock lock, db => (node.findTransactionsByLock lock, db)
  | .sendTransaction s, db => (node.sendTransaction s, db)
  | .now, db => (.ok node.now, db)
  | .processed id, db => (.ok (db.processed id), db)
  | .transact event, db => (.ok (transact drivers event db).1, (transact drivers event db).2)
  | .recordFailed id message, db => (.ok (), recordFailed id message db)
  | .findOrders ids, db => (.ok (db.findOrders ids), db)
  | .findOrderById id, db => (.ok (db.orders.find? id), db)
  | .findOrdersByStatus statuses, db =>
      (.ok (db.orders.filter fun order => order.status ∈ statuses), db)
  | .findCounterpart pendingTxHash id, db =>
      (.ok (db.orders.filter fun order =>
        order.pendingTxHash = pendingTxHash && order.id ≠ id).head?, db)
  | .latestOrder, db => (.ok (Db.latestOrder db), db)
  | .reserve id t, db => (.ok (Db.reserve db id t).1, (Db.reserve db id t).2)
  | .revertToLive id, db => (.ok (), Db.revertToLive db id)
  | .extendReservation id t, db => (.ok (), Db.extendReservation db id t)
  | .trackPending ids txHash, db => (.ok (), Db.trackPending db ids txHash)
  | .newestCheckpoints limit, db => (.ok (Db.newestCheckpoints db limit), db)
  | .upsertCheckpoint c, db => (.ok (), { db with checkpoints := db.checkpoints.put c })
  | .trimCheckpoints below, db => (.ok (), { db with
      checkpoints := db.checkpoints.deleteWhere fun c => (c.blockNumber : ℤ) < below })
  | .deleteCheckpointsAbove n, db => (.ok (), { db with
      checkpoints := db.checkpoints.deleteWhere fun c => n < (c.blockNumber : ℤ) })

end CkbDex.Operations
