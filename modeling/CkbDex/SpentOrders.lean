import CkbDex.Observation
import CkbDex.PaidTrades

/-!
# Orders that the chain has spent

The open orders whose cells a chain has spent, and what it means that such a
spend is recorded: the orders that the transaction spends are closed, as the
contract has it, and all else stays. So the conditions under which a spend can
be recorded outlast the recording of another.
-/
namespace CkbDex.SpentOrders
open Bytes CellContext OrderLock OrderLockRules Text Documents BotEvents ChainCells Collections
open Projection Programs Operations Chains EventVerification IngestionSteps ProjectionSteps CkbDex.Bot
open GroundedDocuments Acceptance SpendClassification PaidTrades Observation

theorem length_hashText (hash : Hash) : (hashText hash).toList.length = 66 :=
  length_of_isHash (isHash_hashText hash)

/-- The id of the event that records what a transaction did to an order: a
cancellation is the only DEX input. -/
def spendId (dex : Script) (content : Content) (tx : RawTx) (p : Position) (id : String) : String :=
  if (dexRefs dex content tx).length = 1 then
    "order-cancelled:" ++ hashText p.txHash ++ ":" ++ hashText p.blockHash ++ ":" ++ id
  else "trade-confirmed:" ++ hashText p.txHash ++ ":" ++ hashText p.blockHash

theorem spendId_eq {dex : Script} {content : Content} {tx tx' : RawTx} {p q : Position}
    {id id' : String} (h : spendId dex content tx p id = spendId dex content tx' q id') :
    p.txHash = q.txHash ∧ ((dexRefs dex content tx).length = 1 → id = id') := by
  have hlist := congrArg String.toList h
  have htx : (hashText p.txHash).toList.length = (hashText q.txHash).toList.length :=
    (length_hashText _).trans (length_hashText _).symm
  have hblock : (hashText p.blockHash).toList.length = (hashText q.blockHash).toList.length :=
    (length_hashText _).trans (length_hashText _).symm
  have hkind : "order-cancelled:".toList ≠ "trade-confirmed:".toList := by decide +kernel
  have hsize : "order-cancelled:".toList.length = "trade-confirmed:".toList.length := by decide +kernel
  by_cases hone : (dexRefs dex content tx).length = 1 <;>
    by_cases hone' : (dexRefs dex content tx').length = 1 <;>
    simp only [spendId, hone, hone', if_true, if_false, String.toList_append, List.append_assoc] at hlist
  · obtain ⟨hhash, hrest⟩ := List.append_inj (List.append_cancel_left hlist) htx
    obtain ⟨-, hid⟩ := List.append_inj (List.append_cancel_left hrest) hblock
    exact ⟨hashText_injective (String.toList_inj.mp hhash),
      fun _ => String.toList_inj.mp (List.append_cancel_left hid)⟩
  · exact (hkind (List.append_inj hlist hsize).1).elim
  · exact (hkind.symm (List.append_inj hlist hsize.symm).1).elim
  · obtain ⟨hhash, -⟩ := List.append_inj (List.append_cancel_left hlist) htx
    exact ⟨hashText_injective (String.toList_inj.mp hhash), fun h => (hone h).elim⟩

/-- An order that may still be filled or cancelled. -/
def Open (order : OrderDocument) : Prop :=
  order.status = .live ∨ order.status = .reserved ∨ order.status = .pending

theorem Open.canTransition {order : OrderDocument} (h : Open order) :
    canTransition order.status .filled = true ∧ canTransition order.status .canceled = true := by
  rcases h with h | h | h <;> rw [h] <;> exact ⟨rfl, rfl⟩

theorem Open.ne_terminal {order : OrderDocument} (h : Open order) :
    order.status ≠ .filled ∧ order.status ≠ .canceled := by
  rcases h with h | h | h <;> rw [h] <;> decide

/-- A transaction of the chain spends the cell of an order. -/
structure SpentAt {w : World} (c : Chain w) (order : OrderDocument) (ref : CellRef) (p : Position)
    (tx : RawTx) : Prop where
  outPoint : order.outPoint = outPointText ref
  found : p ∈ positions w c.hashes
  content : w.content p.txHash = some tx
  input : ref ∈ tx.inputs

/-- An order is among those that a transaction spends. -/
def SpentBy (dex : Script) (content : Content) (tx : RawTx) (order : OrderDocument) : Prop :=
  ∃ ref ∈ dexRefs dex content tx, order.outPoint = outPointText ref

section
variable {w : World} {c : Chain w} {dex : Script} {v : ChainVerification} {order other : OrderDocument}
  {ref ref' : CellRef} {p q : Position} {tx tx' : RawTx} {cell : CellOutput} {terms : OrderArgs}

theorem position_inj (hp : p ∈ positions w c.hashes) (hq : q ∈ positions w c.hashes)
    (h : p.txHash = q.txHash) : p = q :=
  List.inj_on_of_nodup_map c.once hp hq h

theorem SpentAt.congr (h : SpentAt c order ref p tx) (hout : other.outPoint = order.outPoint) :
    SpentAt c other ref p tx :=
  ⟨hout.trans h.outPoint, h.found, h.content, h.input⟩

theorem SpentAt.ref_eq (h : SpentAt c order ref p tx) (h' : SpentAt c order ref' q tx') : ref = ref' :=
  outPointText_injective (h.outPoint.symm.trans h'.outPoint)

/-- A chain spends an order once. -/
theorem SpentAt.unique (h : SpentAt c order ref p tx) (h' : SpentAt c order ref' q tx') : p = q ∧
    tx = tx' := by
  obtain rfl := h.ref_eq h'
  have hsame : p = q := c.spender_unique h.found h'.found (mem_inputsOf.mpr ⟨tx, h.content, h.input⟩)
    (mem_inputsOf.mpr ⟨tx', h'.content, h'.input⟩)
  subst hsame
  exact ⟨rfl, Option.some_inj.mp (h.content.symm.trans h'.content)⟩

theorem SpentBy.congr (h : SpentBy dex w.content tx order) (hout : other.outPoint = order.outPoint) :
    SpentBy dex w.content tx other := by
  obtain ⟨ref, href, hsame⟩ := h
  exact ⟨ref, href, hout.trans hsame⟩

theorem SpentBy.spentAt (h : SpentBy dex w.content tx order) (hp : p ∈ positions w c.hashes)
    (hcontent : w.content p.txHash = some tx) : ∃ ref, SpentAt c order ref p tx := by
  obtain ⟨ref, href, hout⟩ := h
  exact ⟨ref, hout, hp, hcontent, (List.mem_filter.mp href).1⟩

/-- The cell of a tracked order is a DEX input where it is spent. -/
theorem SpentAt.spentBy (h : SpentAt c order ref p tx) (hd : Deployed v dex)
    (hm : Mirrored v w.content order ref cell terms) : SpentBy dex w.content tx order :=
  ⟨ref, hm.mem_dexRefs hd h.input, h.outPoint⟩

end

/-- The spend of an order waits to be recorded: it is buried deep enough, the
other orders of its transaction are open too, and its event is new. -/
structure Awaits {w : World} (v : ChainVerification) (dex : Script) (c : Chain w) (db : Db)
    (order : OrderDocument) (p : Position) (tx : RawTx) : Prop where
  deep : v.confirmationDepth ≤ confirmationsOf c.tip p.blockNumber
  together : ∀ ref ∈ dexRefs dex w.content tx, ∃ other ∈ db.orders.docs,
    other.outPoint = outPointText ref ∧ Open other
  new : db.processed (spendId dex w.content tx p order.id) = false

/-- Both orders that a settlement spends wait for it, and no others. -/
structure Waiting (dex : Script) (content : Content) (db : Db) (p : Position) (tx : RawTx) : Prop where
  two : (dexRefs dex content tx).length = 2
  stored : ∀ ref ∈ dexRefs dex content tx, ∃ order ∈ db.orders.docs, order.outPoint = outPointText ref
  noted : ∀ order ∈ db.orders.docs,
    order.pendingTxHash = some (hashText p.txHash) ↔ SpentBy dex content tx order

def Noted (dex : Script) (content : Content) (db : Db) (p : Position) (tx : RawTx) : Prop :=
  (∀ order ∈ db.orders.docs, order.pendingTxHash ≠ some (hashText p.txHash)) ∨
    Waiting dex content db p tx

/-- A database whose orders mirror their cells and whose open orders can follow
the chain. -/
structure Tracked {w : World} (v : ChainVerification) (dex : Script) (c : Chain w) (db : Db) : Prop where
  mirrored : AllMirrored v w.content db
  awaits : ∀ order ∈ db.orders.docs, Open order → ∀ ref p tx, SpentAt c order ref p tx →
    Awaits v dex c db order p tx
  noted : ∀ p ∈ positions w c.hashes, ∀ tx, w.content p.txHash = some tx → Noted dex w.content db p tx
  hashes : ∀ order ∈ db.orders.docs, Open order → ∀ text, order.pendingTxHash = some text →
    ∃ hash, text = hashText hash
  pending : ∀ order ∈ db.orders.docs, order.status = .pending → order.pendingTxHash ≠ none

/-- An open order is closed in the way that the transaction spent it. -/
structure Closes (dex : Script) (content : Content) (p : Position) (tx : RawTx)
    (old order : OrderDocument) : Prop where
  wasOpen : Open old
  spent : SpentBy dex content tx old
  facts : factsOf order = factsOf old
  status : order.status = if (dexRefs dex content tx).length = 1 then .canceled else .filled
  settlement : order.settlementTxHash = some (hashText p.txHash)
  pending : order.pendingTxHash =
    if (dexRefs dex content tx).length = 1 then old.pendingTxHash else some (hashText p.txHash)

/-- What becomes of a document when a transaction is recorded. -/
def Becomes (dex : Script) (content : Content) (p : Position) (tx : RawTx)
    (old order : OrderDocument) : Prop :=
  (order = old ∧ ¬SpentBy dex content tx old) ∨ Closes dex content p tx old order

def HasTrade (db : Db) (p : Position) : Prop :=
  ∃ trade ∈ db.trades.docs, trade.id = hashText p.txHash ∧ trade.status = .confirmed

/-- A transaction of the chain is recorded. -/
structure Records {w : World} (dex : Script) (c : Chain w) (p : Position) (tx : RawTx) (db next : Db) :
    Prop where
  found : p ∈ positions w c.hashes
  content : w.content p.txHash = some tx
  count : (dexRefs dex w.content tx).length = 1 ∨ (dexRefs dex w.content tx).length = 2
  complete : ∀ ref ∈ dexRefs dex w.content tx, ∃ order ∈ db.orders.docs, order.outPoint = outPointText ref
  back : ∀ order ∈ next.orders.docs, ∃ old ∈ db.orders.docs, Becomes dex w.content p tx old order
  forth : ∀ old ∈ db.orders.docs, ∃ order ∈ next.orders.docs, Becomes dex w.content p tx old order
  grows : ∀ id, db.processed id = true → next.processed id = true
  events : ∀ id, next.processed id = true → db.processed id = true ∨
    ∃ order ∈ db.orders.docs, SpentBy dex w.content tx order ∧ id = spendId dex w.content tx p order.id
  done : ∀ order ∈ db.orders.docs, SpentBy dex w.content tx order →
    next.processed (spendId dex w.content tx p order.id) = true
  trades : ∀ q, HasTrade db q → HasTrade next q
  trade : (dexRefs dex w.content tx).length ≠ 1 → HasTrade next p

section
variable {w : World} {c : Chain w} {dex : Script} {v : ChainVerification} {db next : Db}
  {order old other : OrderDocument} {ref : CellRef} {p q : Position} {tx tx' : RawTx}

theorem Closes.closed (h : Closes dex w.content p tx old order) : ¬Open order := by
  have hstatus := h.status
  intro hopen
  split_ifs at hstatus
  · exact hopen.ne_terminal.2 hstatus
  · exact hopen.ne_terminal.1 hstatus

theorem Becomes.facts (h : Becomes dex w.content p tx old order) : factsOf order = factsOf old := by
  rcases h with ⟨rfl, -⟩ | h
  · rfl
  · exact h.facts

theorem id_of_facts (h : factsOf order = factsOf old) : order.id = old.id :=
  congrArg OrderFacts.id h

theorem outPoint_of_facts (h : factsOf order = factsOf old) : order.outPoint = old.outPoint :=
  congrArg OrderFacts.outPoint h

theorem Mirrored.congr {cell : CellOutput} {terms : OrderArgs}
    (h : Mirrored v w.content old ref cell terms) (hf : factsOf order = factsOf old) :
    Mirrored v w.content order ref cell terms where
  id := by rw [id_of_facts hf, outPoint_of_facts hf, h.id]
  outPoint := (outPoint_of_facts hf).trans h.outPoint
  found := h.found
  isOrder := h.isOrder
  lockScript := (congrArg OrderFacts.lockScript hf).trans h.lockScript
  ownerLockHash := (congrArg OrderFacts.ownerLockHash hf).trans h.ownerLockHash
  direction := (congrArg OrderFacts.direction hf).trans h.direction
  price := (congrArg OrderFacts.pricePerToken hf).trans h.price
  amount := (congrArg OrderFacts.remainingAmount hf).trans h.amount

/-- An order that is open afterwards was open and is as it was. -/
theorem Records.of_open (h : Records dex c p tx db next) (horder : order ∈ next.orders.docs)
    (hopen : Open order) : order ∈ db.orders.docs ∧ ¬SpentBy dex w.content tx order := by
  obtain ⟨old, hold, ⟨rfl, hnot⟩ | hcloses⟩ := h.back order horder
  · exact ⟨hold, hnot⟩
  · exact (hcloses.closed hopen).elim

theorem Records.kept (h : Records dex c p tx db next) (hold : old ∈ db.orders.docs)
    (hnot : ¬SpentBy dex w.content tx old) : old ∈ next.orders.docs := by
  obtain ⟨order, horder, ⟨rfl, -⟩ | hcloses⟩ := h.forth old hold
  · exact horder
  · exact (hnot hcloses.spent).elim

/-- Two transactions of the chain that spend a cell are one. -/
theorem SpentBy.unique (h : SpentBy dex w.content tx order) (h' : SpentBy dex w.content tx' order)
    (hp : p ∈ positions w c.hashes) (hq : q ∈ positions w c.hashes)
    (hcontent : w.content p.txHash = some tx) (hcontent' : w.content q.txHash = some tx') :
    p = q ∧ tx = tx' := by
  obtain ⟨ref, href⟩ := h.spentAt hp hcontent
  obtain ⟨ref', href'⟩ := h'.spentAt hq hcontent'
  exact href.unique href'

theorem Records.awaits (h : Records dex c p tx db next) (hd : Deployed v dex) (ht : Tracked v dex c db)
    (horder : order ∈ next.orders.docs) (hopen : Open order) (hspent : SpentAt c order ref q tx') :
    Awaits v dex c next order q tx' := by
  obtain ⟨hold, hnot⟩ := h.of_open horder hopen
  have hawaits := ht.awaits order hold hopen ref q tx' hspent
  obtain ⟨ref', cell, terms, hm⟩ := ht.mirrored order hold
  obtain rfl : ref' = ref := outPointText_injective (hm.outPoint.symm.trans hspent.outPoint)
  have hby := hspent.spentBy hd hm
  have hother : p.txHash ≠ q.txHash := by
    intro hsame
    obtain rfl := position_inj h.found hspent.found hsame
    obtain rfl := Option.some_inj.mp (h.content.symm.trans hspent.content)
    exact hnot hby
  refine ⟨hawaits.deep, fun r hr => ?_, ?_⟩
  · obtain ⟨other, hmem, hout, hotherOpen⟩ := hawaits.together r hr
    have hkept : ¬SpentBy dex w.content tx other := by
      rintro hspends
      have hsame := hspends.unique ⟨r, hr, hout⟩ h.found hspent.found h.content hspent.content
      exact hother (congrArg Position.txHash hsame.1)
    exact ⟨other, h.kept hmem hkept, hout, hotherOpen⟩
  · rw [← Bool.not_eq_true]
    intro hprocessed
    rcases h.events _ hprocessed with hbefore | ⟨other, -, -, hid⟩
    · rw [hawaits.new] at hbefore
      cases hbefore
    · exact hother (spendId_eq hid).1.symm

theorem hashText_ne (hp : p ∈ positions w c.hashes) (hq : q ∈ positions w c.hashes) (hne : p ≠ q) :
    hashText p.txHash ≠ hashText q.txHash :=
  fun h => hne (position_inj hp hq (hashText_injective h))

/-- A closed order keeps its note, or has one for the transaction that closed
it. -/
theorem Closes.pending_of (h : Closes dex w.content p tx old order) (hp : p ∈ positions w c.hashes)
    (hq : q ∈ positions w c.hashes) (hne : p ≠ q)
    (htext : order.pendingTxHash = some (hashText q.txHash)) :
    old.pendingTxHash = some (hashText q.txHash) := by
  rw [h.pending] at htext
  split_ifs at htext
  · exact htext
  · exact (hashText_ne hp hq hne (Option.some_inj.mp htext)).elim

theorem Records.stored (h : Records dex c p tx db next) (hold : old ∈ db.orders.docs) :
    ∃ order ∈ next.orders.docs, factsOf order = factsOf old := by
  obtain ⟨order, horder, hbecomes⟩ := h.forth old hold
  exact ⟨order, horder, hbecomes.facts⟩

/-- Recording a transaction does not touch who waits for a settlement. -/
theorem Records.waiting (h : Records dex c p tx db next) (hq : q ∈ positions w c.hashes)
    (hcontent : w.content q.txHash = some tx') (hw : Waiting dex w.content db q tx') :
    Waiting dex w.content next q tx' where
  two := hw.two
  stored := by
    intro ref href
    obtain ⟨old, hold, hout⟩ := hw.stored ref href
    obtain ⟨order, horder, hfacts⟩ := h.stored hold
    exact ⟨order, horder, (outPoint_of_facts hfacts).trans hout⟩
  noted := by
    intro order horder
    obtain ⟨old, hold, ⟨rfl, -⟩ | hcloses⟩ := h.back order horder
    · exact hw.noted order hold
    by_cases hne : p = q
    · subst hne
      obtain rfl := Option.some_inj.mp (h.content.symm.trans hcontent)
      rw [hcloses.pending, hw.two, if_neg (by decide)]
      exact iff_of_true rfl (hcloses.spent.congr (outPoint_of_facts hcloses.facts))
    · have hnot : ¬SpentBy dex w.content tx' old := by
        intro hspends
        exact hne (hcloses.spent.unique hspends h.found hq h.content hcontent).1
      refine iff_of_false (fun htext => hnot ?_) fun hspends => hnot ?_
      · exact (hw.noted old hold).mp (hcloses.pending_of h.found hq hne htext)
      · exact hspends.congr (outPoint_of_facts hcloses.facts).symm

/-- A transaction is waited for by both orders that it settles, once it is
recorded. -/
theorem Records.waiting_self (h : Records dex c p tx db next)
    (hone : (dexRefs dex w.content tx).length ≠ 1)
    (hnone : ∀ order ∈ db.orders.docs, order.pendingTxHash ≠ some (hashText p.txHash)) :
    Waiting dex w.content next p tx where
  two := h.count.resolve_left hone
  stored := by
    intro ref href
    obtain ⟨old, hold, hout⟩ := h.complete ref href
    obtain ⟨order, horder, hfacts⟩ := h.stored hold
    exact ⟨order, horder, (outPoint_of_facts hfacts).trans hout⟩
  noted := by
    intro order horder
    obtain ⟨old, hold, ⟨rfl, hnot⟩ | hcloses⟩ := h.back order horder
    · exact iff_of_false (hnone order hold) hnot
    · rw [hcloses.pending, if_neg hone]
      exact iff_of_true rfl (hcloses.spent.congr (outPoint_of_facts hcloses.facts))

theorem Records.noted (h : Records dex c p tx db next) (hq : q ∈ positions w c.hashes)
    (hcontent : w.content q.txHash = some tx') (hnoted : Noted dex w.content db q tx') :
    Noted dex w.content next q tx' := by
  rcases hnoted with hnone | hw
  · by_cases hself : p = q ∧ (dexRefs dex w.content tx).length ≠ 1
    · obtain ⟨rfl, hone⟩ := hself
      obtain rfl := Option.some_inj.mp (h.content.symm.trans hcontent)
      exact Or.inr (h.waiting_self hone hnone)
    · refine Or.inl fun order horder htext => ?_
      obtain ⟨old, hold, ⟨rfl, -⟩ | hcloses⟩ := h.back order horder
      · exact hnone order hold htext
      by_cases hne : p = q
      · have hone : (dexRefs dex w.content tx).length = 1 := by
          by_contra hcontra
          exact hself ⟨hne, hcontra⟩
        rw [hcloses.pending, if_pos hone] at htext
        exact hnone old hold htext
      · exact hnone old hold (hcloses.pending_of h.found hq hne htext)
  · exact Or.inr (h.waiting hq hcontent hw)

theorem Records.tracked (h : Records dex c p tx db next) (hd : Deployed v dex) (ht : Tracked v dex c db) :
    Tracked v dex c next where
  mirrored := by
    intro order horder
    obtain ⟨old, hold, hbecomes⟩ := h.back order horder
    obtain ⟨ref, cell, terms, hm⟩ := ht.mirrored old hold
    exact ⟨ref, cell, terms, Mirrored.congr hm hbecomes.facts⟩
  awaits := fun _ horder hopen _ _ _ hspent => h.awaits hd ht horder hopen hspent
  noted := fun q hq tx' hcontent => h.noted hq hcontent (ht.noted q hq tx' hcontent)
  hashes := fun order horder hopen => ht.hashes order (h.of_open horder hopen).1 hopen
  pending := by
    intro order horder hpending
    have hopen : Open order := Or.inr (Or.inr hpending)
    exact ht.pending order (h.of_open horder hopen).1 hpending

/-- An open order that the chain has not spent is put back to LIVE. -/
structure Releases {w : World} (c : Chain w) (order : OrderDocument) (db next : Db) : Prop where
  stored : order ∈ db.orders.docs
  wasOpen : Open order
  unspent : ∀ ref p tx, ¬SpentAt c order ref p tx
  next_eq : next = Db.revertToLive db order.id

theorem Releases.mem (h : Releases c order db next) : other ∈ next.orders.docs ↔
    other = releasedDocument order ∨ other ∈ db.orders.docs ∧ other ≠ order := by
  have hfind := Collection.find?_of_mem h.stored
  rw [h.next_eq, Db.revertToLive, Db.updateOrder, hfind]
  simp only [Db.putOrder, Collection.mem_docs_put]
  refine or_congr_right (and_congr_right fun hmem => ?_)
  refine ⟨fun hid hsame => hid (hsame ▸ rfl), fun hne hid => hne ?_⟩
  exact List.inj_on_of_nodup_map db.orders.nodup hmem h.stored hid

theorem Releases.of_next (h : Releases c order db next) (hother : other ∈ next.orders.docs) :
    ∃ old ∈ db.orders.docs, factsOf other = factsOf old ∧ (Open other ↔ Open old) ∧
      (other = old ∨ other.status = .live ∧ other.pendingTxHash = none ∧
        ∀ ref p tx, ¬SpentAt c other ref p tx) := by
  rcases h.mem.mp hother with rfl | ⟨hmem, -⟩
  · refine ⟨order, h.stored, rfl, iff_of_true (Or.inl rfl) h.wasOpen, Or.inr ⟨rfl, rfl, ?_⟩⟩
    exact fun ref p tx hspent => h.unspent ref p tx (hspent.congr rfl)
  · exact ⟨other, hmem, rfl, Iff.rfl, Or.inl rfl⟩

theorem Releases.processed (h : Releases c order db next) (id : String) :
    next.processed id = db.processed id := by
  rw [h.next_eq, Db.revertToLive, Db.updateOrder, Collection.find?_of_mem h.stored]
  rfl

theorem Releases.kept (h : Releases c order db next) (hother : other ∈ db.orders.docs) :
    ∃ current ∈ next.orders.docs, factsOf current = factsOf other ∧ (Open current ↔ Open other) := by
  by_cases hsame : other = order
  · subst hsame
    exact ⟨_, h.mem.mpr (Or.inl rfl), rfl, iff_of_true (Or.inl rfl) h.wasOpen⟩
  · exact ⟨other, h.mem.mpr (Or.inr ⟨hother, hsame⟩), rfl, Iff.rfl⟩

theorem Releases.waiting (h : Releases c order db next) (hp : p ∈ positions w c.hashes)
    (hcontent : w.content p.txHash = some tx) (hw : Waiting dex w.content db p tx) :
    Waiting dex w.content next p tx where
  two := hw.two
  stored := by
    intro ref href
    obtain ⟨old, hold, hout⟩ := hw.stored ref href
    obtain ⟨current, hcurrent, hfacts, -⟩ := h.kept hold
    exact ⟨current, hcurrent, (outPoint_of_facts hfacts).trans hout⟩
  noted := by
    intro other hother
    obtain ⟨old, hold, -, -, rfl | ⟨-, hpending, hunspent⟩⟩ := h.of_next hother
    · exact hw.noted other hold
    · rw [hpending]
      refine iff_of_false (Option.some_ne_none _).symm fun hspends => ?_
      obtain ⟨ref, hspent⟩ := hspends.spentAt hp hcontent
      exact hunspent ref p tx hspent

theorem Releases.tracked (h : Releases c order db next) (ht : Tracked v dex c db) :
    Tracked v dex c next where
  mirrored := by
    intro other hother
    obtain ⟨old, hold, hfacts, -⟩ := h.of_next hother
    obtain ⟨ref, cell, terms, hm⟩ := ht.mirrored old hold
    exact ⟨ref, cell, terms, Mirrored.congr hm hfacts⟩
  awaits := by
    intro other hother hopen ref p tx hspent
    obtain ⟨old, hold, -, hopens, rfl | ⟨-, -, hunspent⟩⟩ := h.of_next hother
    · have hawaits := ht.awaits other hold hopen ref p tx hspent
      refine ⟨hawaits.deep, fun r hr => ?_, (h.processed _).trans hawaits.new⟩
      obtain ⟨leg, hleg, hout, hlegOpen⟩ := hawaits.together r hr
      have hne : leg ≠ order := by
        rintro rfl
        exact h.unspent r p tx ⟨hout, hspent.found, hspent.content, (List.mem_filter.mp hr).1⟩
      exact ⟨leg, h.mem.mpr (Or.inr ⟨hleg, hne⟩), hout, hlegOpen⟩
    · exact (hunspent ref p tx hspent).elim
  noted := by
    intro p hp tx hcontent
    rcases ht.noted p hp tx hcontent with hnone | hw
    · refine Or.inl fun other hother => ?_
      obtain ⟨old, hold, -, -, rfl | ⟨-, hpending, -⟩⟩ := h.of_next hother
      · exact hnone other hold
      · rw [hpending]
        exact (Option.some_ne_none _).symm
    · exact Or.inr (h.waiting hp hcontent hw)
  hashes := by
    intro other hother hopen text htext
    obtain ⟨old, hold, -, -, rfl | ⟨-, hpending, -⟩⟩ := h.of_next hother
    · exact ht.hashes other hold hopen text htext
    · rw [hpending] at htext
      cases htext
  pending := by
    intro other hother hstatus
    obtain ⟨old, hold, -, -, rfl | ⟨hlive, -, -⟩⟩ := h.of_next hother
    · exact ht.pending other hold hstatus
    · rw [hlive] at hstatus
      cases hstatus

/-- The database moves by the record of a spend or by a release. -/
inductive Step (dex : Script) (c : Chain w) (db next : Db) : Prop
  | record (p : Position) (tx : RawTx) (h : Records dex c p tx db next) : Step dex c db next
  | release (order : OrderDocument) (h : Releases c order db next) : Step dex c db next

abbrev Steps (dex : Script) (c : Chain w) : Db → Db → Prop := Relation.ReflTransGen (Step dex c)

/-- The spend of an order is recorded as the chain has it. -/
structure Told (dex : Script) (c : Chain w) (db : Db) (order current : OrderDocument) (p : Position)
    (tx : RawTx) : Prop where
  spent : ∃ ref, SpentAt c order ref p tx
  facts : factsOf current = factsOf order
  status : current.status = if (dexRefs dex w.content tx).length = 1 then .canceled else .filled
  settlement : current.settlementTxHash = some (hashText p.txHash)
  known : db.processed (spendId dex w.content tx p order.id) = true
  trade : (dexRefs dex w.content tx).length ≠ 1 → HasTrade db p

/-- What has become of an order that was open: it is open still, or its spend
is recorded. -/
def Follows (dex : Script) (c : Chain w) (db : Db) (order : OrderDocument) : Prop :=
  ∃ current ∈ db.orders.docs, (factsOf current = factsOf order ∧ Open current) ∨
    ∃ p tx, Told dex c db order current p tx

/-- The order under an id is not open, or it is unspent. -/
def Quiet (c : Chain w) (db : Db) (id : String) : Prop :=
  ∀ order ∈ db.orders.docs, order.id = id → Open order → ∀ ref p tx, ¬SpentAt c order ref p tx

theorem follows_refl (horder : order ∈ db.orders.docs) (hopen : Open order) : Follows dex c db order :=
  ⟨order, horder, Or.inl ⟨rfl, hopen⟩⟩

theorem Told.closed {current : OrderDocument} (h : Told dex c db order current p tx) : ¬Open current := by
  have hstatus := h.status
  intro hopen
  split_ifs at hstatus
  · exact hopen.ne_terminal.2 hstatus
  · exact hopen.ne_terminal.1 hstatus

theorem Releases.trades (h : Releases c order db next) (hq : HasTrade db q) : HasTrade next q := by
  rw [h.next_eq, Db.revertToLive, Db.updateOrder, Collection.find?_of_mem h.stored]
  exact hq

theorem Follows.step (hf : Follows dex c db order) (hs : Step dex c db next) : Follows dex c next order := by
  obtain ⟨current, hcurrent, hfate⟩ := hf
  cases hs with
  | record p tx h =>
      obtain ⟨after, hafter, ⟨rfl, -⟩ | hcloses⟩ := h.forth current hcurrent
      · refine ⟨after, hafter, hfate.imp_right ?_⟩
        rintro ⟨q, raw, ht⟩
        exact ⟨q, raw, { ht with
          known := h.grows _ ht.known
          trade := fun hone => h.trades q (ht.trade hone) }⟩
      · rcases hfate with ⟨hfacts, -⟩ | ⟨q, raw, ht⟩
        · obtain ⟨ref, hspent⟩ := hcloses.spent.spentAt h.found h.content
          refine ⟨after, hafter, Or.inr ⟨p, tx, ?_⟩⟩
          exact {
            spent := ⟨ref, hspent.congr (outPoint_of_facts hfacts).symm⟩
            facts := hcloses.facts.trans hfacts
            status := hcloses.status
            settlement := hcloses.settlement
            known := id_of_facts hfacts ▸ h.done current hcurrent hcloses.spent
            trade := h.trade }
        · exact (ht.closed hcloses.wasOpen).elim
  | release released h =>
      obtain ⟨after, hafter, hfacts, hopen⟩ := h.kept hcurrent
      rcases hfate with ⟨hsame, hcurrentOpen⟩ | ⟨q, raw, ht⟩
      · exact ⟨after, hafter, Or.inl ⟨hfacts.trans hsame, hopen.mpr hcurrentOpen⟩⟩
      · have hne : current ≠ released := by
          rintro rfl
          exact ht.closed h.wasOpen
        refine ⟨current, h.mem.mpr (Or.inr ⟨hcurrent, hne⟩), Or.inr ⟨q, raw, ?_⟩⟩
        exact { ht with
          known := (h.processed _).trans ht.known
          trade := fun hone => h.trades (ht.trade hone) }

theorem Follows.steps (hf : Follows dex c db order) (hs : Steps dex c db next) :
    Follows dex c next order := by
  induction hs with
  | refl => exact hf
  | tail _ hstep ih => exact ih.step hstep

theorem Quiet.step {id : String} (hq : Quiet c db id) (hs : Step dex c db next) : Quiet c next id := by
  intro order horder hid hopen
  cases hs with
  | record p tx h => exact hq order (h.of_open horder hopen).1 hid hopen
  | release released h =>
      obtain ⟨old, hold, hfacts, hopens, -⟩ := h.of_next horder
      have hunspent := hq old hold ((id_of_facts hfacts).symm.trans hid) (hopens.mp hopen)
      exact fun ref p tx hspent => hunspent ref p tx (hspent.congr (outPoint_of_facts hfacts).symm)

theorem Quiet.steps {id : String} (hq : Quiet c db id) (hs : Steps dex c db next) : Quiet c next id := by
  induction hs with
  | refl => exact hq
  | tail _ hstep ih => exact ih.step hstep

theorem Tracked.steps (ht : Tracked v dex c db) (hd : Deployed v dex) (hs : Steps dex c db next) :
    Tracked v dex c next := by
  induction hs with
  | refl => exact ht
  | tail _ hstep ih =>
      cases hstep with
      | record p tx h => exact h.tracked hd ih
      | release released h => exact h.tracked ih

theorem Waiting.steps (hw : Waiting dex w.content db p tx) (hp : p ∈ positions w c.hashes)
    (hcontent : w.content p.txHash = some tx) (hs : Steps dex c db next) :
    Waiting dex w.content next p tx := by
  induction hs with
  | refl => exact hw
  | tail _ hstep ih =>
      cases hstep with
      | record q raw h => exact h.waiting hp hcontent ih
      | release released h => exact h.waiting hp hcontent ih

/-- An order that is open afterwards was open before, and is as it was or
unspent. -/
theorem open_of_steps (hs : Steps dex c db next) (horder : order ∈ next.orders.docs)
    (hopen : Open order) : ∃ old ∈ db.orders.docs, factsOf order = factsOf old ∧ Open old ∧
      (order = old ∨ ∀ ref p tx, ¬SpentAt c order ref p tx) := by
  induction hs generalizing order with
  | refl => exact ⟨order, horder, rfl, hopen, Or.inl rfl⟩
  | tail _ hstep ih =>
      cases hstep with
      | record p tx h => exact ih (h.of_open horder hopen).1 hopen
      | release released h =>
          obtain ⟨old, hold, hfacts, hopens, hcase⟩ := h.of_next horder
          obtain ⟨first, hfirst, hsame, hfirstOpen, hkept⟩ := ih hold (hopens.mp hopen)
          refine ⟨first, hfirst, hfacts.trans hsame, hfirstOpen, ?_⟩
          rcases hcase with rfl | ⟨-, -, hunspent⟩
          · exact hkept
          · exact Or.inr hunspent

/-- A document that is not of an open order stays as it is. -/
theorem kept_of_steps (hs : Steps dex c db next) (horder : order ∈ db.orders.docs)
    (hclosed : ¬Open order) : order ∈ next.orders.docs := by
  induction hs with
  | refl => exact horder
  | tail _ hstep ih =>
      cases hstep with
      | record p tx h =>
          obtain ⟨after, hafter, ⟨rfl, -⟩ | hcloses⟩ := h.forth order ih
          · exact hafter
          · exact (hclosed hcloses.wasOpen).elim
      | release released h =>
          have hne : order ≠ released := by
            rintro rfl
            exact hclosed h.wasOpen
          exact h.mem.mpr (Or.inr ⟨ih, hne⟩)

end

end CkbDex.SpentOrders
