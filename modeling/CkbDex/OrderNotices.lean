import CkbDex.MarketView

/-!
# The notices of a maker

The user interface shows a maker's orders with what the page knows of them, and
tells the maker when one of them closes. The order book, the open orders and the
notices read one store, so they agree. A submitted order is shown with them until
the documents list its transaction.
-/
namespace CkbDex.OrderNotices
open Documents BotEvents Collections Projection GroundedDocuments ClosedOrders PendingOrders MarketView

/-- The statuses of the tab with the open orders. -/
def openStatuses : List OrderStatus := [.discovered, .live, .reserved, .pending, .settlementSubmitted]

def isOpen (status : OrderStatus) : Bool := status ∈ openStatuses

/-- The statuses of which the user is told. -/
def notified (status : OrderStatus) : Bool :=
  status ∈ [OrderStatus.filled, .canceled, .cancelled, .invalid, .orphaned]

def statusOf : ClosedStatus → OrderStatus
  | .filled => .filled
  | .canceled => .canceled

/-- The page, with what the maker was told, the first notice first. -/
structure Page where
  market : Market
  docs : List OrderDocument
  /-- The transactions of all documents that have arrived. -/
  indexed : List String
  lastStatus : String → Option OrderStatus
  notices : List (String × OrderStatus)

def mountedPage (pending : List PendingRow) (token : String) : Page :=
  ⟨mounted (fun _ => none) pending token, [], [], fun _ => none, []⟩

/-- A document with the status that the store has for it. -/
def effective (closed : Closed) (doc : OrderDocument) : OrderDocument :=
  if isOpen doc.status then
    (closedStatus closed doc.outPoint).elim doc fun status => { doc with status := statusOf status }
  else doc

def effectiveDocs (p : Page) : List OrderDocument := p.docs.map (effective p.market.closed)

def setStatus (last : String → Option OrderStatus) (doc : OrderDocument) : String → Option OrderStatus :=
  Function.update last doc.id (some doc.status)

def statuses (docs : List OrderDocument) : String → Option OrderStatus := docs.foldl setStatus fun _ => none

/-- An order was open when it was last looked at, and is in another status. -/
def hasClosed (last : String → Option OrderStatus) (doc : OrderDocument) : Bool :=
  (last doc.id).any (fun before => before ≠ doc.status && isOpen before) && notified doc.status

def closings (last : String → Option OrderStatus) (docs : List OrderDocument) :
    List (String × OrderStatus) :=
  (docs.filter (hasClosed last)).map fun doc => (doc.id, doc.status)

/-- The effect that tells the user what has closed since it ran last. -/
def announce (p : Page) : Page :=
  { p with
    lastStatus := statuses (effectiveDocs p)
    notices := p.notices ++ closings p.lastStatus (effectiveDocs p) }

/-- The maker's own closed orders, for the store. -/
def ownEntries (docs : List OrderDocument) : List (OutPoint × ClosedStatus) :=
  (docs.filter fun doc => doc.status ≠ .live && !isOpen doc.status).map fun doc =>
    (doc.outPoint, closedAs doc.status)

def withClosed (p : Page) (closed : Closed) : Page := { p with market := { p.market with closed } }

def txHashes (docs : List OrderDocument) : List String := docs.map fun doc => doc.outPoint.txHash

/-- New documents take the place of the submitted orders that they list. -/
def takeDocs (docs : List OrderDocument) (p : Page) : Page :=
  { p with
    docs
    indexed := txHashes docs ++ p.indexed
    market := { p.market with pending := removePending (txHashes docs) p.market.pending } }

/-- New documents are shown and announced, and once more when the store has been
told of the closed ones. -/
def showDocs (docs : List OrderDocument) (p : Page) : Page :=
  announce (withClosed (announce (takeDocs docs p)) (markClosed (ownEntries docs) p.market.closed))

/-- A document is named by its out point, which has a key. -/
structure Named (doc : OrderDocument) : Prop where
  id : doc.id = toOrderId doc.outPoint
  valid : OutPoint.valid doc.outPoint = true
  key : (outPointKey doc.outPoint).isSome

/-- The documents of a maker, each of them once. -/
structure Listed (docs : List OrderDocument) : Prop where
  named : ∀ doc ∈ docs, Named doc
  once : (docs.map OrderDocument.id).Nodup

/-- What happens to the page: something to its market view, or the maker's
documents arrive. -/
inductive PageEvent where
  | market (e : Event)
  | docs (found : List OrderDocument)

def PageEvent.Possible (p : Page) : PageEvent → Prop
  | .market e => e.Possible p.market
  | .docs found => Listed found

def nextPage (now : ℕ) (p : Page) : PageEvent → Page
  | .market e => announce { p with market := next now p.market e }
  | .docs found => showDocs found p

inductive PageStep (allows : Page → PageEvent → Prop) : Page → Page → Prop
  | event (now : ℕ) (p : Page) (e : PageEvent) (possible : e.Possible p) (allowed : allows p e) :
      PageStep allows p (nextPage now p e)

abbrev PageRuns (allows : Page → PageEvent → Prop) : Page → Page → Prop :=
  Relation.ReflTransGen (PageStep allows)

/-- No order is recorded as submitted after its document has arrived. -/
def Timely (p : Page) : PageEvent → Prop
  | .market (.submitted row) => row.txHash ∉ p.indexed
  | _ => True

section
variable {closed c : Closed} {doc other : OrderDocument} {docs : List OrderDocument}
  {last : String → Option OrderStatus} {id : String} {status : OrderStatus}

theorem isOpen_statusOf (s : ClosedStatus) : isOpen (statusOf s) = false := by
  cases s <;> decide

theorem notified_of_not_open (h : isOpen status = false) : notified status = true := by
  cases status <;> first | rfl | cases h

theorem effective_id (closed : Closed) (doc : OrderDocument) : (effective closed doc).id = doc.id := by
  unfold effective
  split_ifs
  · cases closedStatus closed doc.outPoint <;> rfl
  · rfl

/-- A document is shown as open if it is and the store does not have it. -/
theorem isOpen_effective : isOpen (effective closed doc).status = true ↔
    isOpen doc.status = true ∧ closedStatus closed doc.outPoint = none := by
  unfold effective
  split_ifs with hopen
  · cases closedStatus closed doc.outPoint with
    | none => exact ⟨fun h => ⟨h, rfl⟩, fun h => h.1⟩
    | some s => simp [isOpen_statusOf s]
  · simp [hopen]

theorem Named.outPoint_eq (h : Named doc) (h' : Named other) (hid : doc.id = other.id) :
    doc.outPoint = other.outPoint :=
  toOrderId_injective h.valid h'.valid (h.id.symm.trans (hid.trans h'.id))

theorem foldl_setStatus (h : docs.foldl setStatus last id = some status) :
    last id = some status ∨ ∃ doc ∈ docs, doc.id = id ∧ doc.status = status := by
  induction docs generalizing last with
  | nil => exact Or.inl h
  | cons first docs ih =>
      rcases ih h with hlast | ⟨doc, hdoc, hrest⟩
      · by_cases hsame : id = first.id
        · subst hsame
          rw [setStatus, Function.update_self] at hlast
          exact Or.inr ⟨first, List.mem_cons_self, rfl, Option.some_inj.mp hlast⟩
        · rw [setStatus, Function.update_of_ne hsame] at hlast
          exact Or.inl hlast
      · exact Or.inr ⟨doc, List.mem_cons_of_mem _ hdoc, hrest⟩

theorem foldl_setStatus_of_not_mem (h : id ∉ docs.map OrderDocument.id) :
    docs.foldl setStatus last id = last id := by
  induction docs generalizing last with
  | nil => rfl
  | cons first docs ih =>
      rw [List.map_cons, List.mem_cons, not_or] at h
      rw [List.foldl_cons, ih h.2, setStatus, Function.update_of_ne h.1]

theorem foldl_setStatus_of_mem (hnodup : (docs.map OrderDocument.id).Nodup) (h : doc ∈ docs) :
    docs.foldl setStatus last doc.id = some doc.status := by
  induction docs generalizing last with
  | nil => cases h
  | cons first docs ih =>
      rw [List.map_cons, List.nodup_cons] at hnodup
      rcases List.mem_cons.mp h with rfl | h
      · rw [List.foldl_cons, foldl_setStatus_of_not_mem hnodup.1, setStatus, Function.update_self]
      · exact ih hnodup.2 h

theorem statuses_eq_some (h : statuses docs id = some status) :
    ∃ doc ∈ docs, doc.id = id ∧ doc.status = status := by
  refine (foldl_setStatus h).resolve_left fun hnone => ?_
  cases hnone

theorem nodup_effective (h : Listed docs) (closed : Closed) :
    ((docs.map (effective closed)).map OrderDocument.id).Nodup := by
  have hids : (docs.map (effective closed)).map OrderDocument.id = docs.map OrderDocument.id := by
    rw [List.map_map]
    exact List.map_congr_left fun doc _ => effective_id closed doc
  rw [hids]
  exact h.once

/-- An order that was last seen open was not in the store. -/
theorem exists_of_open (h : statuses (docs.map (effective closed)) id = some status)
    (hopen : isOpen status = true) : ∃ doc ∈ docs, doc.id = id ∧ closedStatus closed doc.outPoint = none := by
  obtain ⟨shown, hshown, rfl, rfl⟩ := statuses_eq_some h
  obtain ⟨doc, hdoc, rfl⟩ := List.mem_map.mp hshown
  exact ⟨doc, hdoc, (effective_id closed doc).symm, (isOpen_effective.mp hopen).2⟩

end

section
variable {closed c : Closed} {doc : OrderDocument} {docs : List OrderDocument}
  {last : String → Option OrderStatus} {notices : List (String × OrderStatus)} {id : String}
  {status : OrderStatus} {notice : String × OrderStatus}

/-- The store has every order that the user was told of. -/
def ToldBy (closed : Closed) (notices : List (String × OrderStatus)) : Prop :=
  ∀ notice ∈ notices, ∀ doc, Named doc → doc.id = notice.1 → (closedStatus closed doc.outPoint).isSome

/-- No order that the user was told of is one that was last seen open. -/
def Settled (last : String → Option OrderStatus) (notices : List (String × OrderStatus)) : Prop :=
  ∀ notice ∈ notices, ∀ status, last notice.1 = some status → isOpen status = false

theorem closedStatus_extends (h : Extends closed c) (hsome : (closedStatus closed doc.outPoint).isSome) :
    (closedStatus c doc.outPoint).isSome := by
  unfold closedStatus at *
  cases hkey : outPointKey doc.outPoint with
  | none =>
      rw [hkey] at hsome
      cases hsome
  | some key =>
      rw [hkey, Option.bind_some] at hsome
      exact h.isSome hsome

theorem ToldBy.mono (h : ToldBy closed notices) (hextends : Extends closed c) : ToldBy c notices :=
  fun notice hnotice doc hdoc hid => closedStatus_extends hextends (h notice hnotice doc hdoc hid)

theorem mem_closings : notice ∈ closings last docs ↔
    ∃ doc ∈ docs, hasClosed last doc = true ∧ (doc.id, doc.status) = notice := by
  simp only [closings, List.mem_map, List.mem_filter, and_assoc]

theorem hasClosed_iff : hasClosed last doc = true ↔
    (∃ before, last doc.id = some before ∧ isOpen before = true) ∧ isOpen doc.status = false := by
  have hnotified : notified doc.status = true ↔ isOpen doc.status = false := by
    refine ⟨fun h => ?_, notified_of_not_open⟩
    cases hstatus : doc.status <;> rw [hstatus] at h <;> first | rfl | cases h
  simp only [hasClosed, Bool.and_eq_true, hnotified, Option.any_eq_true, decide_eq_true_eq]
  constructor
  · rintro ⟨⟨before, hlast, -, hbefore⟩, hclosed⟩
    exact ⟨⟨before, hlast, hbefore⟩, hclosed⟩
  · rintro ⟨⟨before, hlast, hbefore⟩, hclosed⟩
    refine ⟨⟨before, hlast, ?_, hbefore⟩, hclosed⟩
    rintro rfl
    rw [hclosed] at hbefore
    cases hbefore

/-- Every order that has closed is in the store, if its document is marked
there. -/
theorem toldBy_closings (hdocs : Listed docs) (hextends : Extends closed c)
    (hmarked : ∀ doc ∈ docs, isOpen doc.status = false → (closedStatus c doc.outPoint).isSome) :
    ToldBy c (closings last (docs.map (effective closed))) := by
  intro notice hnotice other hother hid
  obtain ⟨shown, hshown, hclosed, rfl⟩ := mem_closings.mp hnotice
  obtain ⟨doc, hdoc, rfl⟩ := List.mem_map.mp hshown
  have hsame : other.outPoint = doc.outPoint :=
    hother.outPoint_eq (hdocs.named doc hdoc) (hid.trans (effective_id closed doc))
  have hnot := (hasClosed_iff.mp hclosed).2
  rw [closedStatus, hsame]
  cases hstatus : isOpen doc.status with
  | false => exact hmarked doc hdoc hstatus
  | true =>
      refine closedStatus_extends hextends ?_
      rw [← Option.ne_none_iff_isSome]
      intro hnone
      rw [isOpen_effective.mpr ⟨hstatus, hnone⟩] at hnot
      cases hnot

/-- Nobody is told twice. -/
theorem nodup_append_closings (hnotices : (notices.map Prod.fst).Nodup)
    (hdocs : (docs.map OrderDocument.id).Nodup)
    (hsettled : Settled last notices) : ((notices ++ closings last docs).map Prod.fst).Nodup := by
  rw [List.map_append]
  refine hnotices.append ?_ ?_
  · have hids : (closings last docs).map Prod.fst = (docs.filter (hasClosed last)).map OrderDocument.id := by
      rw [closings, List.map_map]
      rfl
    rw [hids]
    exact hdocs.sublist (List.filter_sublist.map OrderDocument.id)
  · intro id hold hnew
    obtain ⟨notice, hnotice, rfl⟩ := List.mem_map.mp hold
    obtain ⟨closing, hclosing, hsame⟩ := List.mem_map.mp hnew
    obtain ⟨doc, -, hclosed, rfl⟩ := mem_closings.mp hclosing
    obtain ⟨⟨before, hlast, hopen⟩, -⟩ := hasClosed_iff.mp hclosed
    have hid : doc.id = notice.1 := hsame
    rw [hid] at hlast
    rw [hsettled notice hnotice before hlast] at hopen
    cases hopen

/-- An order that the store has is not last seen as open. -/
theorem settled_of_toldBy (hdocs : Listed docs) (htold : ToldBy closed notices) :
    Settled (statuses (docs.map (effective closed))) notices := by
  intro notice hnotice status hlast
  rw [← Bool.not_eq_true]
  intro hopen
  obtain ⟨doc, hdoc, hid, hnone⟩ := exists_of_open hlast hopen
  have hsome := htold notice hnotice doc (hdocs.named doc hdoc) hid
  rw [hnone] at hsome
  cases hsome

/-- What was just announced is not seen as open. -/
theorem settled_closings (hdocs : (docs.map OrderDocument.id).Nodup) :
    Settled (statuses docs) (closings last docs) := by
  intro notice hnotice status hlast
  obtain ⟨doc, hdoc, hclosed, rfl⟩ := mem_closings.mp hnotice
  have hsame : statuses docs doc.id = some doc.status := foldl_setStatus_of_mem hdocs hdoc
  rw [hsame] at hlast
  obtain rfl := Option.some_inj.mp hlast
  exact (hasClosed_iff.mp hclosed).2

theorem Settled.append {more : List (String × OrderStatus)} (h : Settled last notices)
    (hmore : Settled last more) : Settled last (notices ++ more) := by
  intro notice hnotice
  rcases List.mem_append.mp hnotice with hold | hnew
  · exact h notice hold
  · exact hmore notice hnew

theorem ToldBy.append {more : List (String × OrderStatus)} (h : ToldBy closed notices)
    (hmore : ToldBy closed more) : ToldBy closed (notices ++ more) := by
  intro notice hnotice
  rcases List.mem_append.mp hnotice with hold | hnew
  · exact h notice hold
  · exact hmore notice hnew

end

section
variable {p q : Page} {now : ℕ} {e : PageEvent} {docs : List OrderDocument} {doc later : OrderDocument}

/-- The notices agree with the store. -/
structure Agrees (p : Page) : Prop where
  kept : Kept p.market
  listed : Listed p.docs
  last : p.lastStatus = statuses (effectiveDocs p)
  marked : ∀ doc ∈ p.docs, isOpen doc.status = false → (closedStatus p.market.closed doc.outPoint).isSome
  told : ToldBy p.market.closed p.notices
  once : (p.notices.map Prod.fst).Nodup
  arrived : ∀ doc ∈ p.docs, doc.outPoint.txHash ∈ p.indexed
  noted : ∀ notice ∈ p.notices, ∀ doc, Named doc → doc.id = notice.1 → doc.outPoint.txHash ∈ p.indexed

/-- The document of an order that has closed has arrived. -/
theorem txHash_of_closings {closed : Closed} {last : String → Option OrderStatus} {indexed : List String}
    {notice : String × OrderStatus} (hdocs : Listed docs)
    (harrived : ∀ doc ∈ docs, doc.outPoint.txHash ∈ indexed)
    (hnotice : notice ∈ closings last (docs.map (effective closed))) (hdoc : Named doc)
    (hid : doc.id = notice.1) : doc.outPoint.txHash ∈ indexed := by
  obtain ⟨shown, hshown, -, rfl⟩ := mem_closings.mp hnotice
  obtain ⟨listed, hlisted, rfl⟩ := List.mem_map.mp hshown
  have hsame : doc.outPoint = listed.outPoint :=
    hdoc.outPoint_eq (hdocs.named listed hlisted) (hid.trans (effective_id closed listed))
  rw [hsame]
  exact harrived listed hlisted

theorem Agrees.settled (h : Agrees p) : Settled p.lastStatus p.notices := by
  rw [h.last]
  exact settled_of_toldBy h.listed h.told

/-- When the store has more, what has closed is announced. -/
theorem Agrees.announce_market {market : Market} (h : Agrees p) (hkept : Kept market)
    (hextends : Extends p.market.closed market.closed) : Agrees (announce { p with market }) where
  kept := hkept
  listed := h.listed
  last := rfl
  marked := fun doc hdoc hclosed => closedStatus_extends hextends (h.marked doc hdoc hclosed)
  told := (h.told.mono hextends).append (toldBy_closings h.listed (Extends.refl _)
    fun doc hdoc hclosed => closedStatus_extends hextends (h.marked doc hdoc hclosed))
  once := nodup_append_closings h.once (nodup_effective h.listed _) h.settled
  arrived := h.arrived
  noted := fun notice hnotice doc hdoc hid => by
    rcases List.mem_append.mp hnotice with hold | hnew
    · exact h.noted notice hold doc hdoc hid
    · exact txHash_of_closings h.listed h.arrived hnew hdoc hid

theorem closedStatus_ownEntries {closed : Closed} (hdoc : doc ∈ docs) (hnamed : Named doc)
    (hclosed : isOpen doc.status = false) :
    (closedStatus (markClosed (ownEntries docs) closed) doc.outPoint).isSome := by
  obtain ⟨key, hkey⟩ := Option.isSome_iff_exists.mp hnamed.key
  rw [closedStatus_of_key hkey]
  refine isSome_markClosed (List.mem_map_of_mem (List.mem_filter.mpr ⟨hdoc, ?_⟩)) hkey
  have hlive : doc.status ≠ .live := by
    intro hlive
    rw [hlive] at hclosed
    cases hclosed
  simp [hlive, hclosed]

theorem Agrees.showDocs (h : Agrees p) (hdocs : Listed docs) : Agrees (showDocs docs p) := by
  have hextends : Extends p.market.closed (markClosed (ownEntries docs) p.market.closed) :=
    extends_markClosed _ _
  have hmarked : ∀ doc ∈ docs, isOpen doc.status = false →
      (closedStatus (markClosed (ownEntries docs) p.market.closed) doc.outPoint).isSome :=
    fun doc hdoc => closedStatus_ownEntries hdoc (hdocs.named doc hdoc)
  have hfirst : ToldBy (markClosed (ownEntries docs) p.market.closed) (p.notices ++
      closings p.lastStatus (docs.map (effective p.market.closed))) :=
    (h.told.mono hextends).append (toldBy_closings hdocs hextends hmarked)
  have hsettled : Settled (statuses (docs.map (effective p.market.closed))) (p.notices ++
      closings p.lastStatus (docs.map (effective p.market.closed))) :=
    (settled_of_toldBy hdocs h.told).append (settled_closings (nodup_effective hdocs _))
  have harrived : ∀ doc ∈ docs, doc.outPoint.txHash ∈ txHashes docs ++ p.indexed :=
    fun doc hdoc => List.mem_append_left _ (List.mem_map_of_mem hdoc)
  exact {
    kept := ⟨h.kept.live, h.kept.held, h.kept.checks⟩
    listed := hdocs
    last := rfl
    marked := hmarked
    told := hfirst.append (toldBy_closings hdocs (Extends.refl _) hmarked)
    once := nodup_append_closings (nodup_append_closings h.once (nodup_effective hdocs _) h.settled)
      (nodup_effective hdocs _) hsettled
    arrived := harrived
    noted := fun notice hnotice doc hdoc hid => by
      rcases List.mem_append.mp hnotice with hearlier | hsecond
      · rcases List.mem_append.mp hearlier with hold | hnew
        · exact List.mem_append_right _ (h.noted notice hold doc hdoc hid)
        · exact txHash_of_closings hdocs harrived hnew hdoc hid
      · exact txHash_of_closings hdocs harrived hsecond hdoc hid }

theorem Agrees.next (h : Agrees p) (hpossible : e.Possible p) : Agrees (nextPage now p e) := by
  cases e with
  | market e => exact h.announce_market (h.kept.next now e) extends_next
  | docs found => exact h.showDocs hpossible

theorem Agrees.runs {allows : Page → PageEvent → Prop} (h : Agrees p) (hrun : PageRuns allows p q) :
    Agrees q := by
  induction hrun with
  | refl => exact h
  | tail _ hstep ih =>
      cases hstep with
      | event now _ e hpossible _ => exact ih.next hpossible

/-- No submitted order is one whose document has arrived. -/
def Unlisted (p : Page) : Prop := ∀ row ∈ p.market.pending, row.txHash ∉ p.indexed

theorem Unlisted.next (h : Unlisted p) (htimely : Timely p e) : Unlisted (nextPage now p e) := by
  intro row hrow
  cases e with
  | market e =>
      have hmem : row ∈ (MarketView.next now p.market e).pending := hrow
      cases e with
      | submitted other =>
          rcases mem_addPending.mp hmem with rfl | ⟨hold, -⟩
          · exact htimely
          · exact h row hold
      | indexed hashes => exact h row (mem_removePending.mp hmem).1
      | answer key doc order =>
          have hsame := (@checkHeld_pending key doc order
            { p.market with checks := p.market.checks.erase (key, doc) }).1
          exact h row (hsame ▸ hmem)
      | _ => exact h row hmem
  | docs found =>
      obtain ⟨hold, hnew⟩ := mem_removePending.mp hrow
      exact fun hlisted => (List.mem_append.mp hlisted).elim hnew (h row hold)

theorem Unlisted.runs (h : Unlisted p) (hrun : PageRuns Timely p q) : Unlisted q := by
  induction hrun with
  | refl => exact h
  | tail _ hstep ih =>
      cases hstep with
      | event now _ e _ htimely => exact ih.next htimely

end

section
open Acceptance

/-- The order was submitted from this page. -/
def exampleSubmitted : Page :=
  mountedPage [⟨exampleBuy.outPoint.txHash, some exampleBuy.xudtTypeHash⟩] exampleBuy.xudtTypeHash

end

end CkbDex.OrderNotices
