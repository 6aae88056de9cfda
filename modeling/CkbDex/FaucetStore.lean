import CkbDex.Collections
import CkbDex.Decimals
import CkbDex.Documents
import CkbDex.Sessions

/-!
# The faucet

The claim store and the claim procedure of the faucet: the documents, one
operation for each database call, and the procedures `reserve`, `commit`,
`release` and `claim` over them. Each operation on a document is atomic. The
client library's reading of an address is a parameter.
-/
namespace CkbDex.Faucet
open Checked Collections Decimals Documents Programs
open Text (utf16Length)

inductive ClaimStatus where
  | reserved | sent
  deriving DecidableEq, Repr

structure ClaimDocument where
  /-- The recipient's lock hash. -/
  id : String
  address : String
  status : Option ClaimStatus
  reservedAt : Option ℤ
  reservationId : Option ℕ
  lastClaimedAt : Option ℤ
  claimCount : ℕ
  lastTxHash : Option Hex

structure BudgetDocument where
  day : ℤ
  claims : ℤ
  tokens : Decimal128

structure ClaimLimits where
  cooldownMs : ℤ
  reservationTimeoutMs : ℤ
  dripAmount : ℤ
  dailyMaxClaims : ℤ
  dailyMaxTokens : ℤ

structure Reservation where
  lockHash : String
  reservationId : ℕ
  day : ℤ
  hadPrevious : Bool
  previousStatus : Option ClaimStatus

/-- A mint transaction that was broadcast. The reservation is noted for
reference only. -/
structure Mint where
  lockHash : String
  reservationId : ℕ
  time : ℤ

structure State where
  claims : Collection String ClaimDocument ClaimDocument.id
  budgets : Collection ℤ BudgetDocument BudgetDocument.day
  /-- How many random ids have been drawn; the next one is new. -/
  issued : ℕ
  /-- The tasks of the send lock, the running one first. -/
  queue : List ℕ
  tickets : ℕ
  minted : List Mint
  clock : ℤ

def State.empty : State := ⟨.empty, .empty, 0, [], 0, [], 0⟩

/-- The UTC day of a time in milliseconds, as a number. -/
def dayKey (now : ℤ) : ℤ := now / 86400000

/-- What an upsert with a filter did. -/
inductive Upsert (α : Type) where
  | inserted
  | updated (before : α)
  /-- The document exists and does not match. -/
  | duplicateKey

inductive Op where
  | now
  | randomUUID
  | reserveClaim (lockHash address : String) (now cutoff stale : ℤ) (reservationId : ℕ)
  | findClaim (lockHash : String)
  | takeBudget (day dailyMaxClaims : ℤ) (room drip : Decimal128)
  | commitClaim (lockHash : String) (reservationId : ℕ) (txHash : Hex) (now : ℤ)
  | deleteClaim (lockHash : String) (reservationId : ℕ)
  | restoreClaim (lockHash : String) (reservationId : ℕ) (status : ClaimStatus)
  | returnBudget (day : ℤ) (drip : Decimal128)
  | joinQueue
  | enter (ticket : ℕ)
  | leave (ticket : ℕ)
  | send (lockHash : String) (reservationId : ℕ)

abbrev Res : Op → Type
  | .now => ℤ
  | .randomUUID => ℕ
  | .reserveClaim .. => Upsert ClaimDocument
  | .findClaim _ => Option ClaimDocument
  | .takeBudget .. => Upsert BudgetDocument
  | .commitClaim .. => Unit
  | .deleteClaim .. => Unit
  | .restoreClaim .. => Unit
  | .returnBudget .. => Unit
  | .joinQueue => ℕ
  | .enter _ => Unit
  | .leave _ => Unit
  | .send .. => Hex

abbrev Answer (α : Type) := Except Failure α

abbrev Proc (α : Type) := Action Op Res Failure α

def request (op : Op) : Proc (Res op) := perform op

/-- The filter of `reserve`: a claim that has cooled down, or an abandoned
reservation. -/
def free (cutoff stale : ℤ) (doc : ClaimDocument) : Bool :=
  (doc.status ≠ some .reserved && !doc.lastClaimedAt.any fun time => cutoff < time) ||
    (doc.status = some .reserved && doc.reservedAt.any fun time => time ≤ stale)

def reservedClaim (address : String) (now : ℤ) (reservationId : ℕ) (doc : ClaimDocument) :
    ClaimDocument :=
  { doc with
    address
    status := some .reserved
    reservedAt := some now
    reservationId := some reservationId }

/-- What the upsert inserts, defaults included. -/
def newClaim (lockHash address : String) (now : ℤ) (reservationId : ℕ) : ClaimDocument where
  id := lockHash
  address := address
  status := some .reserved
  reservedAt := some now
  reservationId := some reservationId
  lastClaimedAt := none
  claimCount := 0
  lastTxHash := none

def sentClaim (txHash : Hex) (now : ℤ) (doc : ClaimDocument) : ClaimDocument :=
  { doc with
    status := some .sent
    lastClaimedAt := some now
    lastTxHash := some txHash
    reservedAt := none
    reservationId := none
    claimCount := doc.claimCount + 1 }

def restoredClaim (status : ClaimStatus) (doc : ClaimDocument) : ClaimDocument :=
  { doc with status := some status, reservedAt := none, reservationId := none }

/-- `{ _id: lockHash, reservationId }` -/
def State.mine (s : State) (lockHash : String) (reservationId : ℕ) : Option ClaimDocument :=
  (s.claims.find? lockHash).filter fun doc => doc.reservationId = some reservationId

/-- `updateOne` of a reservation's own document. -/
def State.updateMine (s : State) (lockHash : String) (reservationId : ℕ)
    (update : ClaimDocument → ClaimDocument) : State :=
  match s.mine lockHash reservationId with
  | some doc => { s with claims := s.claims.put (update doc) }
  | none => s

def State.reserveClaim (s : State) (lockHash address : String) (now cutoff stale : ℤ)
    (reservationId : ℕ) : Upsert ClaimDocument × State :=
  match s.claims.find? lockHash with
  | none => (.inserted, { s with claims := s.claims.put (newClaim lockHash address now reservationId) })
  | some doc =>
      if free cutoff stale doc then
        (.updated doc, { s with claims := s.claims.put (reservedClaim address now reservationId doc) })
      else (.duplicateKey, s)

def State.takeBudget (s : State) (day dailyMaxClaims : ℤ) (room drip : Decimal128) :
    Upsert BudgetDocument × State :=
  match s.budgets.find? day with
  | none => (.inserted, { s with budgets := s.budgets.put ⟨day, 1, drip⟩ })
  | some doc =>
      if doc.claims < dailyMaxClaims && doc.tokens.atMost room then
        (.updated doc, { s with
          budgets := s.budgets.put { doc with claims := doc.claims + 1, tokens := doc.tokens.add drip } })
      else (.duplicateKey, s)

def State.returnBudget (s : State) (day : ℤ) (drip : Decimal128) : State :=
  match s.budgets.find? day with
  | none => s
  | some doc => { s with
      budgets := s.budgets.put { doc with claims := doc.claims - 1, tokens := doc.tokens.add drip } }

/-- What an operation answers, and the state after it; a broadcast is answered
with the transaction's hash. -/
def handle (txHash : Hex) : (op : Op) → State → Answer (Res op) × State
  | .now, s => (.ok s.clock, s)
  | .randomUUID, s => (.ok s.issued, { s with issued := s.issued + 1 })
  | .reserveClaim lockHash address now cutoff stale id, s =>
      (.ok (s.reserveClaim lockHash address now cutoff stale id).1,
        (s.reserveClaim lockHash address now cutoff stale id).2)
  | .findClaim lockHash, s => (.ok (s.claims.find? lockHash), s)
  | .takeBudget day dailyMaxClaims room drip, s =>
      (.ok (s.takeBudget day dailyMaxClaims room drip).1,
        (s.takeBudget day dailyMaxClaims room drip).2)
  | .commitClaim lockHash id txHash now, s => (.ok (), s.updateMine lockHash id (sentClaim txHash now))
  | .deleteClaim lockHash id, s => (.ok (), { s with
      claims := s.claims.deleteWhere fun doc => doc.id = lockHash && doc.reservationId = some id })
  | .restoreClaim lockHash id status, s => (.ok (), s.updateMine lockHash id (restoredClaim status))
  | .returnBudget day drip, s => (.ok (), s.returnBudget day drip)
  | .joinQueue, s => (.ok s.tickets, { s with queue := s.queue ++ [s.tickets], tickets := s.tickets + 1 })
  | .enter _, s => (.ok (), s)
  | .leave ticket, s => (.ok (), { s with queue := s.queue.erase ticket })
  | .send lockHash id, s => (.ok txHash, { s with minted := ⟨lockHash, id, s.clock⟩ :: s.minted })

/-- `decimal(value)` -/
def decimal (value : ℤ) : Except Failure Decimal128 :=
  okOr (Decimal128.ofInt value) (.other "inexact rounding")

def inProgress : Failure := appError 409 "A claim for this address is already in progress"

def rejection (limits : ClaimLimits) (lockHash : String) (now : ℤ) : Proc Failure := do
  let existing : Option ClaimDocument ← request (.findClaim lockHash)
  if existing.any fun doc => doc.status = some .reserved then return inProgress
  else
    let claimedAt := (existing.bind ClaimDocument.lastClaimedAt).getD now
    -- `Math.ceil`
    let seconds := -(-(claimedAt + limits.cooldownMs - now) / 1000)
    let retryAfterSeconds := max 1 seconds
    return appError 429 s!"This address already claimed - try again in {retryAfterSeconds}s"

def takeBudget (limits : ClaimLimits) (day : ℤ) : Proc Unit := do
  let room ← require (decimal (limits.dailyMaxTokens - limits.dripAmount))
  let drip ← require (decimal limits.dripAmount)
  let taken : Upsert BudgetDocument ← request (.takeBudget day limits.dailyMaxClaims room drip)
  match taken with
  | .duplicateKey => throw (appError 503
      "The faucet has reached its daily limit - please try again tomorrow")
  | _ => return ()

def restoreClaim (reservation : Reservation) : Proc Unit :=
  if reservation.hadPrevious = false then
    request (.deleteClaim reservation.lockHash reservation.reservationId)
  else
    request (.restoreClaim reservation.lockHash reservation.reservationId
      (reservation.previousStatus.getD .sent))

def reservationOf (lockHash : String) (reservationId : ℕ) (now : ℤ) (previous : Option ClaimDocument) :
    Reservation where
  lockHash := lockHash
  reservationId := reservationId
  day := dayKey now
  hadPrevious := previous.isSome
  previousStatus := previous.bind ClaimDocument.status

/-- The budget's share of a claim that has been marked as reserved. -/
def takeShare (limits : ClaimLimits) (reservation : Reservation) : Proc Reservation := do
  tryCatch (takeBudget limits reservation.day) fun error => do
    restoreClaim reservation
    throw error
  return reservation

def reserve (limits : ClaimLimits) (lockHash address : String) (now : ℤ) : Proc Reservation := do
  let reservationId : ℕ ← request .randomUUID
  let marked : Upsert ClaimDocument ← request (.reserveClaim lockHash address now
    (now - limits.cooldownMs) (now - limits.reservationTimeoutMs) reservationId)
  match marked with
  | .duplicateKey => do
      let error ← rejection limits lockHash now
      throw error
  | .inserted => takeShare limits (reservationOf lockHash reservationId now none)
  | .updated previous => takeShare limits (reservationOf lockHash reservationId now (some previous))

def commit (reservation : Reservation) (txHash : Hex) (now : ℤ) : Proc Unit :=
  request (.commitClaim reservation.lockHash reservation.reservationId txHash now)

def release (limits : ClaimLimits) (reservation : Reservation) : Proc Unit := do
  restoreClaim reservation
  let drip ← require (decimal (-limits.dripAmount))
  request (.returnBudget reservation.day drip)

/-- `Mutex.run`: the task runs once those before it have ended. -/
def withLock {α : Type} (task : Proc α) : Proc α := do
  let ticket : ℕ ← request .joinQueue
  let _ : Unit ← request (.enter ticket)
  let result ← tryCatch
    (do
      let a ← task
      return .ok a)
    fun error => return .error error
  let _ : Unit ← request (.leave ticket)
  require result

/-- Attempts to write the commit; the last failure is only logged. -/
def recordSent (reservation : Reservation) (txHash : Hex) : ℕ → Proc Unit
  | 0 => return ()
  | attempts + 1 =>
      tryCatch
        (do
          let now : ℤ ← request .now
          commit reservation txHash now)
        fun _ => recordSent reservation txHash attempts

def maxAddressLength : ℕ := 256

structure Config where
  limits : ClaimLimits
  /-- The lock hash of an address, when the client library can read it. -/
  recipient : String → Option String

def claim (config : Config) (addressLike : String) : Proc Hex := do
  require (throwIf (maxAddressLength < utf16Length addressLike) (appError 400 "Invalid address"))
  let lockHash ← require (okOr (config.recipient addressLike)
    (appError 400 "Invalid address for this network"))
  let now : ℤ ← request .now
  let reservation ← reserve config.limits lockHash addressLike now
  let txHash ← tryCatch
    (withLock (request (.send reservation.lockHash reservation.reservationId)))
    fun error => do
      tryCatch (release config.limits reservation) fun _ => return ()
      throw error
  recordSent reservation txHash 3
  return txHash

/-- What a caller of the claim store does with a reservation. -/
inductive Decision where
  | commit (txHash : Hex) (now : ℤ)
  | release

/-- A caller of the claim store, at any time of its own. -/
def useReservation (limits : ClaimLimits) (lockHash address : String) (now : ℤ)
    (decision : Decision) : Proc Unit := do
  let reservation ← reserve limits lockHash address now
  match decision with
  | .commit txHash later => commit reservation txHash later
  | .release => release limits reservation

/-- Time passes, and a restart of the process empties the queue. -/
structure Later (s t : State) : Prop where
  same : t = { s with clock := t.clock, queue := t.queue }
  clock : s.clock ≤ t.clock
  queue : t.queue = s.queue ∨ t.queue = []

/-- A task holds the lock once it is the first. -/
def enabled (s : State) : Op → Prop
  | .enter ticket => s.queue.head? = some ticket
  | _ => True

/-- A call that is permitted is carried out at some later time, or fails. -/
def Performs (permitted : State → Op → Prop) (op : Op) (s : State) (answer : Answer (Res op))
    (t : State) : Prop :=
  ∃ present, Later s present ∧ permitted present op ∧ enabled present op ∧
    ((∃ txHash, handle txHash op present = (answer, t)) ∨ t = present ∧ ∃ error, answer = .error error)

theorem Later.refl (s : State) : Later s s := ⟨rfl, le_rfl, Or.inl rfl⟩

end CkbDex.Faucet
