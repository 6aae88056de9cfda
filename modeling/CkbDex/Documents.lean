import CkbDex.OrderLockRules
import CkbDex.Text

/-!
# Documents of the backend

The order and trade documents as the database stores them: integers as text,
byte strings as hexadecimal text, scripts as three texts. The fields that no
modelled function reads are left out. What a text denotes on chain is read
with the conversions of the client library.
-/
namespace CkbDex.Documents
open Bytes Checked CellContext OrderLock Text

abbrev Hex := String

/-- What the backend throws: an `AppError` with its HTTP status and code, or
any other error. -/
inductive Failure where
  | app (statusCode : ℕ) (message : String) (code : Option String)
  | other (message : String)
  deriving DecidableEq, Repr

def appError (statusCode : ℕ) (message : String) : Failure := .app statusCode message none

structure OutPoint where
  txHash : Hex
  index : String
  deriving DecidableEq, Repr

structure ScriptDocument where
  codeHash : Hex
  hashType : String
  args : Hex
  deriving DecidableEq, Repr

inductive Direction where
  | ask | bid
  deriving DecidableEq, Repr

inductive OrderStatus where
  | discovered | live | reserved | pending | filled | canceled | invalid | orphaned
  | settlementSubmitted | cancelled
  deriving DecidableEq, Repr

structure OrderDocument where
  id : String
  outPoint : OutPoint
  lockScript : ScriptDocument
  typeScript : Option ScriptDocument
  cellData : Hex
  capacity : String
  ownerLock : ScriptDocument
  ownerLockHash : Hex
  ownerAddress : Option String
  direction : Direction
  pricePerToken : String
  remainingAmount : String
  tokenPair : String
  xudtTypeHash : Hex
  blockNumber : String
  txIndex : String
  status : OrderStatus
  reservedUntil : Option ℕ
  pendingTxHash : Option Hex
  settlementTxHash : Option Hex
  lastEventId : Option String
  confirmedAtBlock : Option String
  createdAtBlock : Option String
  createdBlockHash : Option Hex
  spentAtBlock : Option String
  spentBlockHash : Option Hex
  deriving DecidableEq, Repr

def hashTypeFrom (s : String) : Option HashType :=
  if s = "data" then some .data
  else if s = "type" then some .type
  else if s = "data1" then some .data1
  else if s = "data2" then some .data2
  else none

def hashTypeText : HashType → String
  | .data => "data"
  | .type => "type"
  | .data1 => "data1"
  | .data2 => "data2"

def hashFrom (s : Hex) : Option Hash := (bytesFrom s).bind (tryInto 32)

/-- `ccc.Script.from`. -/
def scriptFrom (s : ScriptDocument) : Option Script := do
  let codeHash ← hashFrom s.codeHash
  let hashType ← hashTypeFrom s.hashType
  let args ← bytesFrom s.args
  return { codeHash, hashType, args }

def optionFrom {α β : Type} (f : α → Option β) : Option α → Option (Option β)
  | none => some none
  | some a => (f a).map some

def hashText (h : Hash) : Hex := toHex h.toList

def scriptText (s : Script) : ScriptDocument :=
  { codeHash := hashText s.codeHash, hashType := hashTypeText s.hashType, args := toHex s.args }

@[simp] theorem hashTypeFrom_hashTypeText (t : HashType) : hashTypeFrom (hashTypeText t) = some t := by
  cases t <;> decide

@[simp] theorem hashFrom_hashText (h : Hash) : hashFrom (hashText h) = some h := by
  rw [hashFrom, hashText, bytesFrom_toHex, Option.bind_some, tryInto_eq_some]

@[simp] theorem scriptFrom_scriptText (s : Script) : scriptFrom (scriptText s) = some s := by
  simp [scriptFrom, scriptText]

theorem hashText_injective {a b : Hash} (h : hashText a = hashText b) : a = b :=
  FixedBytes.ext (toHex_injective h)

structure DecodedDexOrderArgs where
  makerLockHash : Hex
  direction : Direction
  udtTypeHash : Hex
  tokenAmount : ℕ
  pricePerToken : ℕ
  deriving DecidableEq, Repr

def toBuffer (hex : Hex) : Except Failure (List Byte) :=
  okOr (hexBytes hex) (appError 400 s!"not a valid 0x-prefixed even-length hex string: {hex}")

def decodeDexOrderArgs (args : Hex) : Except Failure DecodedDexOrderArgs := do
  let buf ← toBuffer args
  let got := buf.length
  throwIf (got ≠ 90) (appError 400 s!"dex order args must be 90 bytes, got {got}")
  let version := (buf.getD 0 0).toNat
  throwIf (version ≠ 1) (appError 400 s!"unsupported dex order args version {version}")
  let side := (buf.getD 1 0).toNat
  throwIf (side ≠ 0 ∧ side ≠ 1) (appError 400 s!"unknown order side byte {side}")
  return {
    makerLockHash := toHex (slice buf 2 34)
    direction := if side = 1 then .ask else .bid
    udtTypeHash := toHex (slice buf 34 66)
    tokenAmount := ofLe (slice buf 66 82)
    pricePerToken := ofLe (slice buf 82 90) }

def directionOf (side : Byte) : Direction := if side = sideSell then .ask else .bid

/-- The contract's terms as the backend decodes them. -/
def decodedOf (order : OrderArgs) : DecodedDexOrderArgs where
  makerLockHash := hashText order.makerLockHash
  direction := directionOf order.side
  udtTypeHash := hashText order.xudtTypeHash
  tokenAmount := order.tokenAmount.toNat
  pricePerToken := order.price.toNat

theorem parseOrderArgs_ok_or_error (args : List Byte) :
    (∃ order, parseOrderArgs args = .ok order) ∨ ∃ e, parseOrderArgs args = .error e := by
  cases parseOrderArgs args with
  | ok order => exact Or.inl ⟨order, rfl⟩
  | error e => exact Or.inr ⟨e, rfl⟩

theorem directionOf_byte (b : Byte) : (if b.toNat = 1 then Direction.ask else .bid) = directionOf b := by
  have hbyte : b.toNat = 1 ↔ b = sideSell := by
    rw [← BitVec.toNat_inj]
    rfl
  simp only [hbyte, directionOf]

/-- The backend decodes exactly the args that the contract parses, and reads
the same terms. -/
theorem decodeDexOrderArgs_eq_ok {args : Hex} {decoded : DecodedDexOrderArgs} :
    decodeDexOrderArgs args = .ok decoded ↔
      ∃ bytes order, hexBytes args = some bytes ∧ parseOrderArgs bytes = .ok order ∧
        decoded = decodedOf order := by
  simp only [decodeDexOrderArgs, toBuffer, bind_eq_ok, okOr_eq_ok, throwIf_eq_ok]
  simp only [exists_const, not_not]
  have hread : ∀ {bytes : List Byte} {order : OrderArgs}, OrderLockRules.Declares bytes order →
      DecodedDexOrderArgs.mk (toHex (slice bytes 2 34))
        (if (bytes.getD 1 0).toNat = 1 then .ask else .bid) (toHex (slice bytes 34 66))
        (ofLe (slice bytes 66 82)) (ofLe (slice bytes 82 90)) = decodedOf order := by
    intro bytes order hd
    simp only [decodedOf, directionOf_byte, hd.side_byte, hd.maker, hd.token, hd.amount, hd.price,
      hashText]
  constructor
  · rintro ⟨bytes, hb, hlen, hver, hside, hd⟩
    have hw := OrderLockRules.wellFormed_iff.mpr ⟨hlen, hver, hside⟩
    obtain ⟨order, ho⟩ := OrderLockRules.exists_declares hlen
    exact ⟨bytes, order, hb, OrderLockRules.parseOrderArgs_eq_ok.mpr ⟨hw, ho⟩,
      (Except.ok.inj hd).symm.trans (hread ho)⟩
  · rintro ⟨bytes, order, hb, hparse, rfl⟩
    obtain ⟨hw, hd⟩ := OrderLockRules.parseOrderArgs_eq_ok.mp hparse
    obtain ⟨hlen, hver, hside⟩ := OrderLockRules.wellFormed_iff.mp hw
    exact ⟨bytes, hb, hlen, hver, hside, congrArg Except.ok (hread hd)⟩

end CkbDex.Documents
