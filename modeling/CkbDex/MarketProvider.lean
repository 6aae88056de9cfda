import CkbDex.Acceptance
import CkbDex.ClosedOrders
import CkbDex.PendingOrders

/-!
# The provider of the market view

The order book that the user interface shows. The backend drops an order from
its book when a settlement is sent, and records a fill when the settlement is
confirmed, so an order that leaves the book is held until it is known to be
closed. The wallet's own orders are shown from their submission on.
-/
namespace CkbDex.MarketView
open Documents Collections Projection ClosedOrders PendingOrders

/-- What is known of an order that left the book. -/
inductive Phase where
  | checking | settling
  deriving DecidableEq, Repr

structure HeldOrder where
  key : String
  doc : OrderDocument
  phase : Phase
  since : ℕ
  deriving DecidableEq

/-- The LIVE orders of the last snapshot by their keys. -/
abbrev LiveOrders := Collection String (String × OrderDocument) Prod.fst

abbrev HeldOrders := Collection String HeldOrder HeldOrder.key

structure Market where
  closed : Closed
  /-- The submitted orders of the wallet. -/
  pending : List PendingRow
  /-- The type hash of the token. -/
  token : String
  book : List OrderDocument
  prevLive : LiveOrders
  held : HeldOrders
  /-- The orders that the backend is being asked about. -/
  checks : List (String × OrderDocument)

/-- The provider as it is mounted, with the stores of the page. -/
def mounted (closed : Closed) (pending : List PendingRow) (token : String) : Market :=
  ⟨closed, pending, token, [], .empty, .empty, []⟩

/-- The statuses of an order that is being settled. -/
def inFlight (status : OrderStatus) : Bool := status ∈ [OrderStatus.reserved, .pending, .settlementSubmitted]

/-- In milliseconds. -/
def heldMaxAge : ℕ := 30 * 60 * 1000

def enterLive (live : LiveOrders) (doc : OrderDocument) : LiveOrders :=
  (outPointKey doc.outPoint).elim live fun key => if doc.status = .live then live.put (key, doc) else live

def liveOf (items : List OrderDocument) : LiveOrders := items.foldl enterLive .empty

/-- An order that left the book is held, unless it is already or is known to be
closed. -/
def holdLeft (closed : Closed) (now : ℕ) (held : HeldOrders) (entry : String × OrderDocument) : HeldOrders :=
  if (held.find? entry.1).isSome ∨ (closedStatus closed entry.2.outPoint).isSome then held
  else held.put ⟨entry.1, entry.2, .checking, now⟩

/-- The orders of the last snapshot that are not in this one. -/
def leftBook (live : LiveOrders) (s : Market) : List (String × OrderDocument) :=
  s.prevLive.docs.filter fun entry => (live.find? entry.1).isNone

def applyBook (now : ℕ) (items : List OrderDocument) (s : Market) : Market :=
  let live := liveOf items
  let left := leftBook live s
  let kept := s.held.deleteWhere fun entry => (live.find? entry.key).isSome
  { s with
    book := items
    prevLive := live
    held := left.foldl (holdLeft s.closed now) kept
    checks := s.checks ++ left.filter fun entry => (closedStatus s.closed entry.2.outPoint).isNone }

def applyTrades (items : List TradeDocument) (s : Market) : Market :=
  { s with closed := markTradesFilled items s.closed }

/-- An order that was being settled when the page loaded. -/
def holdInFlight (closed : Closed) (now : ℕ) (held : HeldOrders) (doc : OrderDocument) : HeldOrders :=
  (outPointKey doc.outPoint).elim held fun key =>
    if (closedStatus closed doc.outPoint).isSome then held else held.put ⟨key, doc, .settling, now⟩

/-- The first load: the book, the trades, and the orders in flight. -/
def applyLoad (now : ℕ) (items : List OrderDocument) (trades : List TradeDocument)
    (flying : List OrderDocument) (s : Market) : Market :=
  let loaded := applyBook now items (applyTrades trades s)
  { loaded with held := flying.foldl (holdInFlight loaded.closed now) loaded.held }

def dropHeld (key : String) (s : Market) : Market :=
  { s with held := s.held.deleteWhere fun entry => entry.key = key }

def settleEntry (key : String) (entry : HeldOrder) : HeldOrder :=
  if entry.key = key then { entry with phase := .settling } else entry

theorem key_settleEntry (key : String) (entry : HeldOrder) : (settleEntry key entry).key = entry.key := by
  unfold settleEntry
  split_ifs <;> rfl

/-- The status that is recorded for an order that is not LIVE and not in
flight. -/
def closedAs (status : OrderStatus) : ClosedStatus := if status = .filled then .filled else .canceled

/-- `checkHeld`, when the backend has answered. -/
def checkHeld (key : String) (doc : OrderDocument) (order : Option OrderDocument) (s : Market) : Market :=
  if order.any fun found => inFlight found.status then
    { s with held := s.held.map (settleEntry key) (key_settleEntry key) }
  else
    let closed := order.elim s.closed fun found =>
      if found.status = .live then s.closed
      else markClosed [(doc.outPoint, closedAs found.status)] s.closed
    dropHeld key { s with closed }

def isStale (now : ℕ) (entry : HeldOrder) : Bool := entry.since + heldMaxAge < now

/-- The timer that asks about every held order again, and gives up on old ones. -/
def recheckHeld (now : ℕ) (s : Market) : Market :=
  { s with
    held := s.held.deleteWhere (isStale now)
    checks := s.checks ++ ((s.held.docs.filter fun entry => !isStale now entry).map fun entry =>
      (entry.key, entry.doc)) }

def liveRows (s : Market) : List OrderDocument :=
  s.book.filter fun doc => doc.status = .live && (closedStatus s.closed doc.outPoint).isNone

def heldRows (s : Market) : List HeldOrder :=
  s.held.docs.filter fun entry => (closedStatus s.closed entry.doc.outPoint).isNone

/-- The submitted orders of the token, unless an order of their transaction is
LIVE in the book. -/
def ownPending (s : Market) : List PendingRow :=
  let indexed := (liveRows s).map fun doc => doc.outPoint.txHash
  s.pending.filter fun row => row.xudtTypeHash = some s.token && row.txHash ∉ indexed

/-- A row is about a document, or about a submitted order that has none. -/
inductive Row where
  | listed (doc : OrderDocument)
  | submitted (row : PendingRow)

/-- The key of a listed order. -/
def Row.key : Row → Option String
  | .listed doc => outPointKey doc.outPoint
  | .submitted _ => none

/-- The rows of both sides of the book, before they are sorted. -/
def rows (s : Market) : List Row :=
  (liveRows s).map Row.listed ++ ((heldRows s).map HeldOrder.doc).map Row.listed ++
    (ownPending s).map Row.submitted

/-- What happens to the provider: messages and answers of the backend, its
timers, and what other parts of the page record: orders that closed, were
submitted, or are pending no longer. -/
inductive Event where
  | load (book : List OrderDocument) (trades : List TradeDocument) (flying : List OrderDocument)
  | book (items : List OrderDocument)
  | trades (items : List TradeDocument)
  | answer (key : String) (doc : OrderDocument) (order : Option OrderDocument)
  | failure (key : String) (doc : OrderDocument)
  | recheck
  | closed (entries : List (OutPoint × ClosedStatus))
  | submitted (row : PendingRow)
  | indexed (txHashes : List String)

/-- An answer is one to a request. -/
def Event.Possible (s : Market) : Event → Prop
  | .answer key doc _ => (key, doc) ∈ s.checks
  | .failure key doc => (key, doc) ∈ s.checks
  | _ => True

def next (now : ℕ) (s : Market) : Event → Market
  | .load book trades flying => applyLoad now book trades flying s
  | .book items => applyBook now items s
  | .trades items => applyTrades items s
  | .answer key doc order => checkHeld key doc order { s with checks := s.checks.erase (key, doc) }
  | .failure key doc => { s with checks := s.checks.erase (key, doc) }
  | .recheck => recheckHeld now s
  | .closed entries => { s with closed := markClosed entries s.closed }
  | .submitted row => { s with pending := addPending row s.pending }
  | .indexed txHashes => { s with pending := removePending txHashes s.pending }

/-- A step in which an event happens at a time. -/
inductive Step (allows : Event → Prop) : Market → Market → Prop
  | event (now : ℕ) (s : Market) (e : Event) (possible : e.Possible s) (allowed : allows e) :
      Step allows s (next now s e)

abbrev Runs (allows : Event → Prop) : Market → Market → Prop := Relation.ReflTransGen (Step allows)

def anyEvent : Event → Prop := fun _ => True

/-- Each order has one document in the list. -/
def Single (items : List OrderDocument) : Prop :=
  (items.filterMap fun doc => outPointKey doc.outPoint).Nodup

/-- A snapshot lists no order twice, and what is loaded as in flight is not LIVE in
the book that is loaded with it. -/
def Event.Apart : Event → Prop
  | .load items _ flying => Single items ∧ ∀ doc ∈ flying, ∀ key, outPointKey doc.outPoint = some key →
      (liveOf items).find? key = none
  | .book items => Single items
  | _ => True

/-- The keys of the listed orders that are shown. -/
def shownKeys (s : Market) : List String := (rows s).filterMap Row.key

/-- An order that is not known to be closed vanishes: the backend does not know
it, or has it LIVE outside of the book, or it was held for too long. -/
inductive Drops (now : ℕ) (s : Market) (key : String) : Event → Prop
  | unknown (doc : OrderDocument) : Drops now s key (.answer key doc none)
  | reopened (doc order : OrderDocument) (live : order.status = .live) :
      Drops now s key (.answer key doc (some order))
  | expired (entry : HeldOrder) (mem : entry ∈ s.held.docs) (same : entry.key = key)
      (old : entry.since + heldMaxAge < now) : Drops now s key .recheck

/-- A submitted order is pending no longer, or is submitted anew. -/
inductive Clears (txHash : String) : Event → Prop
  | indexed (txHashes : List String) (mem : txHash ∈ txHashes) : Clears txHash (.indexed txHashes)
  | again (row : PendingRow) (same : row.txHash = txHash) : Clears txHash (.submitted row)

/-- Something happened on the way. -/
def Passed (reason : ℕ → Market → Event → Prop) (s t : Market) : Prop :=
  ∃ now u e, Runs anyEvent s u ∧ e.Possible u ∧ reason now u e ∧ Runs anyEvent (next now u e) t

def Dropped (s t : Market) (key : String) : Prop := Passed (fun now u e => Drops now u key e) s t

def Cleared (s t : Market) (txHash : String) : Prop := Passed (fun _ _ e => Clears txHash e) s t

section
variable {live : LiveOrders} {items : List OrderDocument} {doc : OrderDocument} {key : String}
  {entry : String × OrderDocument}

theorem mem_enterLive (h : entry ∈ (enterLive live doc).docs) : entry ∈ live.docs ∨
    entry.2 = doc ∧ doc.status = .live ∧ outPointKey doc.outPoint = some entry.1 := by
  unfold enterLive at h
  cases hkey : outPointKey doc.outPoint with
  | none =>
      rw [hkey] at h
      exact Or.inl h
  | some key =>
      rw [hkey, Option.elim_some] at h
      split_ifs at h with hlive
      · rcases Collection.mem_docs_put.mp h with rfl | ⟨hmem, -⟩
        · exact Or.inr ⟨rfl, hlive, rfl⟩
        · exact Or.inl hmem
      · exact Or.inl h

theorem find?_enterLive (hlive : doc.status = .live) (hkey : outPointKey doc.outPoint = some key) :
    ((enterLive live doc).find? key).isSome := by
  rw [enterLive, hkey, Option.elim_some, if_pos hlive, Collection.find?_put, if_pos rfl]
  rfl

theorem find?_enterLive_kept (h : (live.find? key).isSome) : ((enterLive live doc).find? key).isSome := by
  unfold enterLive
  cases outPointKey doc.outPoint with
  | none => exact h
  | some other =>
      rw [Option.elim_some]
      split_ifs
      · rw [Collection.find?_put]
        split_ifs
        · rfl
        · exact h
      · exact h

theorem mem_foldl_enterLive (h : entry ∈ (items.foldl enterLive live).docs) : entry ∈ live.docs ∨
    entry.2 ∈ items ∧ entry.2.status = .live ∧ outPointKey entry.2.outPoint = some entry.1 := by
  induction items generalizing live with
  | nil => exact Or.inl h
  | cons doc items ih =>
      rcases ih h with hmem | ⟨hmem, hrest⟩
      · rcases mem_enterLive hmem with hold | ⟨rfl, hnew⟩
        · exact Or.inl hold
        · exact Or.inr ⟨List.mem_cons_self, hnew⟩
      · exact Or.inr ⟨List.mem_cons_of_mem _ hmem, hrest⟩

theorem find?_foldl_enterLive_kept (h : (live.find? key).isSome) :
    ((items.foldl enterLive live).find? key).isSome := by
  induction items generalizing live with
  | nil => exact h
  | cons doc items ih => exact ih (find?_enterLive_kept h)

theorem find?_foldl_enterLive (hmem : doc ∈ items) (hlive : doc.status = .live)
    (hkey : outPointKey doc.outPoint = some key) : ((items.foldl enterLive live).find? key).isSome := by
  induction items generalizing live with
  | nil => cases hmem
  | cons first items ih =>
      rcases List.mem_cons.mp hmem with rfl | hmem
      · rw [List.foldl_cons]
        exact find?_foldl_enterLive_kept (find?_enterLive hlive hkey)
      · exact ih hmem

theorem mem_liveOf (h : entry ∈ (liveOf items).docs) :
    entry.2 ∈ items ∧ entry.2.status = .live ∧ outPointKey entry.2.outPoint = some entry.1 :=
  (mem_foldl_enterLive h).resolve_left List.not_mem_nil

/-- The LIVE orders of a snapshot that have a key are kept under it. -/
theorem find?_liveOf : ((liveOf items).find? key).isSome ↔
    ∃ doc ∈ items, doc.status = .live ∧ outPointKey doc.outPoint = some key := by
  constructor
  · intro h
    obtain ⟨entry, hentry⟩ := Option.isSome_iff_exists.mp h
    obtain ⟨hmem, rfl⟩ := Collection.find?_eq_some.mp hentry
    obtain ⟨hitem, hlive, hkey⟩ := mem_liveOf hmem
    exact ⟨entry.2, hitem, hlive, hkey⟩
  · rintro ⟨doc, hmem, hlive, hkey⟩
    exact find?_foldl_enterLive hmem hlive hkey

end

section
variable {closed : Closed} {now : ℕ} {held : HeldOrders} {left : List (String × OrderDocument)}
  {flying : List OrderDocument} {doc : OrderDocument} {entry : HeldOrder} {key : String}
  {gone : String × OrderDocument}

/-- The entry of an order is under the order's key. -/
def Keyed (held : HeldOrders) : Prop := ∀ entry ∈ held.docs, outPointKey entry.doc.outPoint = some entry.key

theorem find?_put_isSome (h : (held.find? key).isSome) : ((held.put entry).find? key).isSome := by
  rw [Collection.find?_put]
  split_ifs
  · rfl
  · exact h

theorem Keyed.put (h : Keyed held) (hentry : outPointKey entry.doc.outPoint = some entry.key) :
    Keyed (held.put entry) := by
  intro other hother
  rcases Collection.mem_docs_put.mp hother with rfl | ⟨hmem, -⟩
  · exact hentry
  · exact h other hmem

theorem Keyed.deleteWhere (h : Keyed held) (p : HeldOrder → Bool) : Keyed (held.deleteWhere p) :=
  fun entry hentry => h entry (Collection.mem_docs_deleteWhere.mp hentry).1

theorem Keyed.holdLeft (h : Keyed held) (hgone : outPointKey gone.2.outPoint = some gone.1) :
    Keyed (holdLeft closed now held gone) := by
  unfold MarketView.holdLeft
  split_ifs
  · exact h
  · exact h.put hgone

theorem Keyed.foldl_holdLeft (h : Keyed held)
    (hleft : ∀ gone ∈ left, outPointKey gone.2.outPoint = some gone.1) :
    Keyed (left.foldl (MarketView.holdLeft closed now) held) := by
  induction left generalizing held with
  | nil => exact h
  | cons gone left ih =>
      exact ih (h.holdLeft (hleft gone List.mem_cons_self)) fun other hother =>
        hleft other (List.mem_cons_of_mem _ hother)

theorem find?_holdLeft_kept (h : (held.find? key).isSome) :
    ((holdLeft closed now held gone).find? key).isSome := by
  unfold holdLeft
  split_ifs
  · exact h
  · exact find?_put_isSome h

theorem find?_foldl_holdLeft_kept (h : (held.find? key).isSome) :
    ((left.foldl (holdLeft closed now) held).find? key).isSome := by
  induction left generalizing held with
  | nil => exact h
  | cons gone left ih => exact ih (find?_holdLeft_kept h)

/-- An order that left the book is held, or known to be closed. -/
theorem find?_foldl_holdLeft (hmem : gone ∈ left)
    (hopen : (closedStatus closed gone.2.outPoint).isSome = false) :
    ((left.foldl (holdLeft closed now) held).find? gone.1).isSome := by
  induction left generalizing held with
  | nil => cases hmem
  | cons first left ih =>
      rcases List.mem_cons.mp hmem with rfl | hmem
      · rw [List.foldl_cons]
        refine find?_foldl_holdLeft_kept ?_
        by_cases hheld : (held.find? gone.1).isSome
        · exact find?_holdLeft_kept hheld
        · rw [holdLeft, if_neg (by simp [hheld, hopen]), Collection.find?_put, if_pos rfl]
          rfl
      · exact ih hmem

theorem Keyed.holdInFlight (h : Keyed held) : Keyed (holdInFlight closed now held doc) := by
  unfold MarketView.holdInFlight
  cases hkey : outPointKey doc.outPoint with
  | none => exact h
  | some key =>
      rw [Option.elim_some]
      split_ifs
      · exact h
      · exact h.put hkey

theorem Keyed.foldl_holdInFlight (h : Keyed held) :
    Keyed (flying.foldl (MarketView.holdInFlight closed now) held) := by
  induction flying generalizing held with
  | nil => exact h
  | cons doc flying ih => exact ih h.holdInFlight

theorem find?_holdInFlight_kept (h : (held.find? key).isSome) :
    ((holdInFlight closed now held doc).find? key).isSome := by
  unfold holdInFlight
  cases outPointKey doc.outPoint with
  | none => exact h
  | some other =>
      rw [Option.elim_some]
      split_ifs
      · exact h
      · exact find?_put_isSome h

theorem find?_foldl_holdInFlight_kept (h : (held.find? key).isSome) :
    ((flying.foldl (holdInFlight closed now) held).find? key).isSome := by
  induction flying generalizing held with
  | nil => exact h
  | cons doc flying ih => exact ih (find?_holdInFlight_kept h)

end

end CkbDex.MarketView
