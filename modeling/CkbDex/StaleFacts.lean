import CkbDex.StaleBlocks
import Mathlib.Data.Finset.Max

/-!
# Facts off the chain

The bot at work while the chain grows and reorganizes, at any point between two of
its steps. A checkpoint vouches for the facts up to its block: a chain that has the
one has the other. What was read above all checkpoints, nothing vouches for.
-/
namespace CkbDex.StaleFacts
open Acceptance CkbDex.Bot BotEvents Bytes CellContext Chains Collections Documents EventVerification
open IngestionSteps Operations OrderWrites Programs Projection ProjectionSteps StaleBlocks Text

/-- The chain, the database, and what the bot has checked against the chain and not
stored yet. -/
structure State (w : World) where
  chain : Chain w
  db : Db
  verified : List BotEvent
  pinned : List (ℕ × Hash)

inductive Act (w : World) where
  /-- The chain grows, or another one takes its place. -/
  | reorganize (chain : Chain w)
  | verify (event : BotEvent)
  | commit (event : BotEvent)
  /-- The end block of a scan still has the hash it had before the scan. -/
  | pin (blockNumber : ℕ) (blockHash : Hash)
  | save (blockNumber : ℕ) (blockHash : Hash)
  /-- Reservations, settlements in flight, and audit records. -/
  | write (op : Op)
  | detect

/-- Events as the bot writes them, with the block that they were read from. -/
def ByBot : BotEvent → Prop
  | .orderConfirmed e => ∃ (n : ℕ) (hash : Hash), e.blockNumber = some (toString n) ∧
      e.blockHash = some (hashText hash) ∧ e.order.blockNumber = toString n
  | .orderCancelled e => ∃ (n : ℕ) (hash : Hash), e.blockNumber = some (toString n) ∧
      e.blockHash = some (hashText hash)
  | .tradeConfirmed e => ∃ (n : ℕ) (hash : Hash), e.blockNumber = some (toString n) ∧
      e.blockHash = some (hashText hash) ∧ e.trade.confirmedAtBlock = toString n
  | .settlementSubmitted _ => True
  | .chainReorg _ => False

def isBookkeeping : Op → Bool
  | .transact _ | .upsertCheckpoint _ | .trimCheckpoints _ | .deleteCheckpointsAbove _ => false
  | _ => true

section
variable {w : World} (drivers : Drivers) (v : ChainVerification) (dex : Script) (now : ℕ)

def perform : Act w → State w → State w
  | .reorganize chain, s => { s with chain := chain }
  | .verify event, s => { s with verified := event :: s.verified }
  | .commit event, s => { s with db := (transact drivers event s.db).2 }
  | .pin n hash, s => { s with pinned := (n, hash) :: s.pinned }
  | .save n hash, s => { s with
      db := (run drivers (s.chain.node dex now) (saveCheckpoint n hash) s.db).2 }
  | .write op, s => { s with db := (handle drivers (s.chain.node dex now) op s.db).2 }
  | .detect, s => { s with db := (run drivers (s.chain.node dex now) (detectReorg v) s.db).2 }

/-- Events are committed after they were verified, checkpoints saved after their
block was pinned; the chain may change in between. -/
def Allowed : Act w → State w → Prop
  | .verify event, s => ByBot event ∧
      run drivers (s.chain.node dex now) (verifyEvent v event) s.db = (.ok (), s.db)
  | .commit event, s => event ∈ s.verified
  | .pin n hash, s => s.chain.hashes[n]? = some hash ∧ n + v.confirmationDepth ≤ s.chain.tip
  | .save n hash, s => (n, hash) ∈ s.pinned
  | .write op, _ => isBookkeeping op = true
  | .reorganize _, _ | .detect, _ => True

end

/-- The block that an event's facts are stamped with. -/
def readFrom : BotEvent → Option Stamp
  | .orderConfirmed e => some ⟨e.blockNumber, e.blockHash⟩
  | .orderCancelled e => some ⟨e.blockNumber, e.blockHash⟩
  | .tradeConfirmed e => some ⟨e.blockNumber, e.blockHash⟩
  | _ => none

/-- The orders that an event spends. -/
def spentIds : BotEvent → List String
  | .orderCancelled e => [toOrderId e.outPoint]
  | .tradeConfirmed e => tradeIds e
  | _ => []

/-- The orders that the bot gives a status whatever they have. -/
def overwrites : Op → List String
  | .revertToLive id => [id]
  | .trackPending ids _ => ids
  | _ => []

section
variable {w : World}

def Newest (db : Db) (checkpoint : Checkpoint) : Prop :=
  checkpoint ∈ db.checkpoints.docs ∧
    ∀ other ∈ db.checkpoints.docs, other.blockNumber ≤ checkpoint.blockNumber

/-- The block is off the chain, and facts were read from it. -/
def Stale (c : Chain w) (db : Db) (n : ℕ) (hash : Hash) : Prop :=
  Stamped db (stampOf n hash) ∧ c.hashes[n]? ≠ some hash

/-- Facts are stored while their block and the checkpoints from it on are on the
chain, and not on top of an orphaned order; a checkpoint is saved while its block and
the facts up to it are on the chain. The chain may reorganize in any way and at any
time. -/
def Meets : Act w → State w → Prop
  | .reorganize c, _ => c.hashes.length ≤ 2 ^ 53
  | .commit event, s =>
      (∀ n hash, readFrom event = some (stampOf n hash) → s.chain.hashes[n]? = some hash ∧
        ∀ checkpoint ∈ s.db.checkpoints.docs, n ≤ checkpoint.blockNumber → Canonical s.chain checkpoint) ∧
      ∀ order ∈ s.db.orders.docs, order.id ∈ spentIds event → order.status ≠ .orphaned
  | .save n hash, s => s.chain.hashes[n]? = some hash ∧ ∀ m other, Stale s.chain s.db m other → n < m
  | .write op, s => ∀ order ∈ s.db.orders.docs, order.id ∈ overwrites op → order.status ≠ .orphaned
  | _, _ => True

/-- What holds in every state of a run that avoids the defects. -/
structure Tracked (s : State w) : Prop where
  short : s.chain.hashes.length ≤ 2 ^ 53
  spelled : Spelled s.db
  checkpoints : ∀ checkpoint ∈ s.db.checkpoints.docs, checkpoint.blockNumber < 2 ^ 53 ∧
    ∃ hash, checkpoint.blockHash = hashText hash
  byBot : ∀ event ∈ s.verified, ByBot event
  /-- A chain with a checkpoint has the blocks of the facts up to it. -/
  below : ∀ n hash, Stamped s.db (stampOf n hash) → ∀ checkpoint ∈ s.db.checkpoints.docs,
    n ≤ checkpoint.blockNumber → ∀ d : Chain w, Canonical d checkpoint → d.hashes[n]? = some hash

end

section
variable {w : World} {drivers : Drivers} {node : Node} {db : Db} {stamp : Stamp} {event : BotEvent}

theorem created_stamped {order : OrderDocument} (hmem : order ∈ db.orders.docs)
    (hnot : order.status ≠ .orphaned) : Stamped db ⟨some order.blockNumber, order.createdBlockHash⟩ :=
  Or.inl ⟨order, hmem, mem_orderStamps.mpr ⟨hnot, Or.inl rfl⟩⟩

theorem mem_trades_of_applyEvent {result : IngestionResult} {next : Db} {trade : TradeDocument}
    (happly : applyEvent drivers event db = .ok (result, next)) (hmem : trade ∈ next.trades.docs)
    (hreorg : ∀ e, event ≠ .chainReorg e) :
    trade ∈ db.trades.docs ∨ ∃ e, event = .tradeConfirmed e ∧
      trade = confirmedTrade (db.trades.find? e.trade.settlementTxHash) e := by
  cases event with
  | orderConfirmed e =>
      rcases applyOrderConfirmed_eq_ok.mp happly with ⟨-, -, rfl⟩ | ⟨-, -, -, -, -, rfl⟩ <;> exact Or.inl hmem
  | orderCancelled e =>
      rcases applyOrderCancelled_eq_ok.mp happly with ⟨-, -, rfl⟩ | ⟨order, -, -, -, rfl⟩ <;>
        exact Or.inl hmem
  | settlementSubmitted e =>
      rcases applySettlementSubmitted_eq_ok happly with ⟨-, rfl⟩ | ⟨-, -, rfl⟩ <;> exact Or.inl hmem
  | tradeConfirmed e =>
      rcases applyTradeConfirmed_eq_ok happly with ⟨-, rfl⟩ | ⟨-, -, rfl⟩
      · exact Or.inl hmem
      · rcases Collection.mem_docs_put.mp hmem with rfl | ⟨hold, -⟩
        · exact Or.inr ⟨e, rfl, rfl⟩
        · exact Or.inl hold
  | chainReorg e => exact absurd rfl (hreorg e)

theorem pending_ne_orphaned {status : OrderStatus} (h : canTransition status .pending = true) :
    status ≠ .orphaned := by
  rintro rfl
  cases h

/-- A document that keeps its status keeps its stamps. -/
theorem mem_orderStamps_live {order : OrderDocument} (hlive : order.status ∉ spentStatuses)
    (h : stamp ∈ orderStamps order) : stamp = ⟨some order.blockNumber, order.createdBlockHash⟩ := by
  rcases (mem_orderStamps.mp h).2 with hcreated | ⟨hspent, -⟩
  · exact hcreated
  · exact absurd hspent hlive

/-- An event of the bot stamps facts with its own block only. -/
theorem stamped_of_written {order : OrderDocument} (hbot : ByBot event)
    (hopen : ∀ order ∈ db.orders.docs, order.id ∈ spentIds event → order.status ≠ .orphaned)
    (hwritten : Written drivers db (.transact event) order) (hstamp : stamp ∈ orderStamps order) :
    Stamped db stamp ∨ readFrom event = some stamp := by
  have hlive : OrderStatus.live ∉ spentStatuses := by decide
  have hpending : OrderStatus.pending ∉ spentStatuses := by decide
  cases hwritten with
  | confirmed e _ =>
      obtain ⟨n, hash, hnumber, hblock, horder⟩ := hbot
      right
      rw [mem_orderStamps_live hlive hstamp]
      simp [readFrom, confirmedDocument, hnumber, hblock, horder]
  | cancelled e old hfound _ =>
      obtain ⟨hmem, hid⟩ := Collection.find?_eq_some.mp hfound
      have hold := created_stamped hmem (hopen old hmem (List.mem_singleton.mpr hid))
      rcases (mem_orderStamps.mp hstamp).2 with rfl | ⟨-, rfl⟩
      · exact Or.inl hold
      · exact Or.inr rfl
  | submitted e old hmem hnamed hready =>
      have hold := created_stamped hmem (pending_ne_orphaned (hready.allowed old hmem hnamed))
      rw [mem_orderStamps_live hpending hstamp]
      exact Or.inl hold
  | filled e old hmem hnamed _ =>
      obtain ⟨n, hash, hnumber, hblock, htrade⟩ := hbot
      have hold := created_stamped hmem (hopen old hmem hnamed)
      rcases (mem_orderStamps.mp hstamp).2 with rfl | ⟨-, rfl⟩
      · exact Or.inl hold
      · right
        simp [readFrom, filledDocument, hnumber, htrade]
  | rolledBack => exact hbot.elim

theorem stamped_transact (hbot : ByBot event)
    (hopen : ∀ order ∈ db.orders.docs, order.id ∈ spentIds event → order.status ≠ .orphaned)
    (h : Stamped (transact drivers event db).2 stamp) : Stamped db stamp ∨ readFrom event = some stamp := by
  rcases transact_cases drivers event db with ⟨result, next, happly, -, hsame⟩ | ⟨hsame, -⟩
  · rcases h with ⟨order, hmem, hstamp⟩ | ⟨trade, hmem, hstamp⟩
    · rw [hsame.orders] at hmem
      rcases written_of_applyEvent happly hmem with hold | hwritten
      · exact Or.inl (Or.inl ⟨order, hold, hstamp⟩)
      · exact stamped_of_written hbot hopen hwritten hstamp
    · rw [hsame.trades] at hmem
      have hreorg : ∀ e, event ≠ .chainReorg e := by
        rintro e rfl
        exact hbot
      rcases mem_trades_of_applyEvent happly hmem hreorg with hold | ⟨e, rfl, rfl⟩
      · exact Or.inl (Or.inr ⟨trade, hold, hstamp⟩)
      · obtain ⟨n, hash, hnumber, hblock, -⟩ := hbot
        right
        rw [(mem_tradeStamps.mp hstamp).2]
        simp [readFrom, confirmedTrade, hnumber, hblock]
  · rw [hsame] at h
    exact Or.inl h

/-- Bookkeeping stamps nothing. -/
theorem stamped_write {op : Op} (hop : isBookkeeping op = true)
    (hopen : ∀ order ∈ db.orders.docs, order.id ∈ overwrites op → order.status ≠ .orphaned)
    (h : Stamped (handle drivers node op db).2 stamp) : Stamped db stamp := by
  have hlive : OrderStatus.live ∉ spentStatuses := by decide
  have hpending : OrderStatus.pending ∉ spentStatuses := by decide
  have hreserved : OrderStatus.reserved ∉ spentStatuses := by decide
  rcases h with ⟨order, hmem, hstamp⟩ | ⟨trade, hmem, hstamp⟩
  · rcases written_of_handle hmem with hold | hwritten
    · exact Or.inl ⟨order, hold, hstamp⟩
    · cases hwritten with
      | reserved id t old hfound hstatus =>
          have hnot : old.status ≠ .orphaned := by
            rw [hstatus]
            decide
          have hold := created_stamped (Collection.find?_eq_some.mp hfound).1 hnot
          rw [mem_orderStamps_live hreserved hstamp]
          exact hold
      | released id old hfound =>
          obtain ⟨hmem, hid⟩ := Collection.find?_eq_some.mp hfound
          have hold := created_stamped hmem (hopen old hmem (List.mem_singleton.mpr hid))
          rw [mem_orderStamps_live hlive hstamp]
          exact hold
      | extended id t old hfound => exact Or.inl ⟨old, (Collection.find?_eq_some.mp hfound).1, hstamp⟩
      | tracked ids txHash old hold hnamed =>
          have hcreated := created_stamped hold (hopen old hold hnamed)
          rw [mem_orderStamps_live hpending hstamp]
          exact hcreated
      | _ => cases hop
  · have hdirect : isTransact op = false := by
      cases op <;> first | rfl | cases hop
    rw [trades_of_write hdirect] at hmem
    exact Or.inr ⟨trade, hmem, hstamp⟩

theorem checkpoints_transact : (transact drivers event db).2.checkpoints = db.checkpoints := by
  rcases transact_cases drivers event db with ⟨result, next, happly, -, hsame⟩ | ⟨hsame, -⟩
  · exact hsame.checkpoints.trans (events_of_applyEvent happly).2
  · rw [hsame]

theorem checkpoints_write {op : Op} (hop : isBookkeeping op = true) :
    (handle drivers node op db).2.checkpoints = db.checkpoints := by
  cases op with
  | transact | upsertCheckpoint | trimCheckpoints | deleteCheckpointsAbove => cases hop
  | recordFailed id message => exact (sameProjection_recordFailed id message db).checkpoints
  | reserve id t =>
      simp only [handle, Db.reserve]
      split
      · split_ifs <;> rfl
      · rfl
  | revertToLive id =>
      simp only [handle, Db.revertToLive, Db.updateOrder]
      split <;> rfl
  | extendReservation id t =>
      simp only [handle, Db.extendReservation, Db.updateOrder]
      split <;> rfl
  | _ => rfl

end

section
variable {w : World} {c d : Chain w} {db : Db}

/-- The checkpoint that `detectReorg` compares first. -/
theorem newest_of_window {first : Checkpoint} {rest : List Checkpoint}
    (h : window db = first :: rest) : Newest db first := by
  have hsorted : (window db).Pairwise fun a b => b.blockNumber < a.blockNumber := pairwise_newestCheckpoints
  have hfirst : first ∈ window db := by simp [h]
  refine ⟨mem_of_mem_newestCheckpoints hfirst, fun other hother => ?_⟩
  by_cases hin : other ∈ window db
  · rw [h] at hsorted hin
    rcases List.mem_cons.mp hin with rfl | hrest
    · exact le_rfl
    · exact ((List.pairwise_cons.mp hsorted).1 other hrest).le
  · exact (lt_of_not_mem_newestCheckpoints hother hin hfirst).le

theorem Newest.unique {a b : Checkpoint} (ha : Newest db a) (hb : Newest db b) : a = b :=
  List.inj_on_of_nodup_map db.checkpoints.nodup ha.1 hb.1 (le_antisymm (hb.2 a ha.1) (ha.2 b hb.1))

theorem window_ne_nil {checkpoint : Checkpoint} (h : checkpoint ∈ db.checkpoints.docs) :
    window db ≠ [] := by
  have hlength : (window db).length = min checkpointWindow db.checkpoints.docs.length := by
    rw [window, Db.newestCheckpoints, List.length_take, List.length_insertionSort]
  have hpositive := List.length_pos_of_mem h
  have hwindowed : 0 < checkpointWindow := by decide
  apply List.ne_nil_of_length_pos
  omega

/-- No mismatch is found exactly when the chain has the newest checkpoint. -/
theorem quiet_iff {newest : Checkpoint} (h : Newest db newest) : Quiet c db ↔ Canonical c newest := by
  obtain ⟨first, rest, hwindow⟩ := List.exists_cons_of_ne_nil (window_ne_nil h.1)
  obtain rfl := h.unique (newest_of_window hwindow)
  rw [Quiet, hwindow, forkOf]
  split_ifs with hcanonical
  · exact iff_of_true rfl hcanonical
  · refine iff_of_false ?_ hcanonical
    obtain ⟨lost, kept, -, -, -, hfork⟩ := forkOf_eq c rest (some newest)
    rw [hfork]
    cases lost.getLast? <;> simp

theorem run_saveCheckpoint {drivers : Drivers} {node : Node} {n : ℕ} {hash : Hash} :
    (run drivers node (saveCheckpoint n hash) db).2 = { db with
      checkpoints := (db.checkpoints.put ⟨n, hashText hash⟩).deleteWhere fun checkpoint =>
        (checkpoint.blockNumber : ℤ) < (n : ℤ) - checkpointRetention } := rfl

/-- An event of the bot names the block that its facts are stamped with. -/
theorem stampOf_readFrom {event : BotEvent} {stamp : Stamp} (hbot : ByBot event)
    (h : readFrom event = some stamp) : ∃ n hash, stamp = stampOf n hash := by
  cases event with
  | orderConfirmed e =>
      obtain ⟨n, hash, hnumber, hhash, -⟩ := hbot
      exact ⟨n, hash, by simpa [readFrom, hnumber, hhash, stampOf] using h.symm⟩
  | orderCancelled e =>
      obtain ⟨n, hash, hnumber, hhash⟩ := hbot
      exact ⟨n, hash, by simpa [readFrom, hnumber, hhash, stampOf] using h.symm⟩
  | tradeConfirmed e =>
      obtain ⟨n, hash, hnumber, hhash, -⟩ := hbot
      exact ⟨n, hash, by simpa [readFrom, hnumber, hhash, stampOf] using h.symm⟩
  | settlementSubmitted e => cases h
  | chainReorg e => cases h

end

section
variable {w : World} {drivers : Drivers} {v : ChainVerification} {dex : Script} {now : ℕ} {s : State w}

theorem Tracked.reorganize (h : Tracked s) {c : Chain w} (hshort : c.hashes.length ≤ 2 ^ 53) :
    Tracked { s with chain := c } :=
  ⟨hshort, h.spelled, h.checkpoints, h.byBot, h.below⟩

/-- New facts of blocks on the chain, below checkpoints on the chain only. -/
theorem Tracked.stored (h : Tracked s) {db : Db} (hcheckpoints : db.checkpoints = s.db.checkpoints)
    (hstamped : ∀ stamp, Stamped db stamp → Stamped s.db stamp ∨ ∃ n hash, stamp = stampOf n hash ∧
      s.chain.hashes[n]? = some hash ∧
        ∀ checkpoint ∈ s.db.checkpoints.docs, n ≤ checkpoint.blockNumber → Canonical s.chain checkpoint) :
    Tracked { s with db := db } := by
  refine ⟨h.short, ?_, ?_, h.byBot, ?_⟩
  · intro stamp hstamp
    rcases hstamped stamp hstamp with hold | ⟨n, hash, rfl, hhash, -⟩
    · exact h.spelled stamp hold
    · obtain ⟨hlt, -⟩ := List.getElem?_eq_some_iff.mp hhash
      exact ⟨n, hash, rfl, lt_of_lt_of_le hlt h.short⟩
  · change ∀ checkpoint ∈ db.checkpoints.docs, _
    rw [hcheckpoints]
    exact h.checkpoints
  · intro n hash hstamp checkpoint hmem hn d hd
    change checkpoint ∈ db.checkpoints.docs at hmem
    rw [hcheckpoints] at hmem
    rcases hstamped _ hstamp with hold | ⟨m, other, hsame, hhash, hcanonical⟩
    · exact h.below n hash hold checkpoint hmem hn d hd
    · obtain ⟨rfl, rfl⟩ := stampOf_inj hsame
      exact ((hcanonical checkpoint hmem hn).agree_below hd hn).symm.trans hhash

theorem Tracked.commit (h : Tracked s) {event : BotEvent} (hverified : event ∈ s.verified)
    (hmeets : Meets (.commit event) s) : Tracked { s with db := (transact drivers event s.db).2 } := by
  have hbot := h.byBot event hverified
  apply h.stored checkpoints_transact
  intro stamp hstamp
  rcases stamped_transact hbot hmeets.2 hstamp with hold | hread
  · exact Or.inl hold
  · obtain ⟨n, hash, rfl⟩ := stampOf_readFrom hbot hread
    exact Or.inr ⟨n, hash, rfl, hmeets.1 n hash hread⟩

theorem Tracked.write (h : Tracked s) {op : Op} (hop : isBookkeeping op = true)
    (hmeets : Meets (.write op) s) :
    Tracked { s with db := (handle drivers (s.chain.node dex now) op s.db).2 } := by
  apply h.stored (checkpoints_write hop)
  intro stamp hstamp
  exact Or.inl (stamped_write hop hmeets hstamp)

theorem Tracked.save (h : Tracked s) {n : ℕ} {hash : Hash} (hmeets : Meets (.save n hash) s) :
    Tracked { s with db := (run drivers (s.chain.node dex now) (saveCheckpoint n hash) s.db).2 } := by
  obtain ⟨hhash, hfacts⟩ := hmeets
  rw [run_saveCheckpoint]
  have hsaved : ∀ {checkpoint : Checkpoint},
      checkpoint ∈ ((s.db.checkpoints.put ⟨n, hashText hash⟩).deleteWhere
      fun checkpoint => (checkpoint.blockNumber : ℤ) < (n : ℤ) - checkpointRetention).docs →
      checkpoint = ⟨n, hashText hash⟩ ∨ checkpoint ∈ s.db.checkpoints.docs := by
    intro checkpoint hmem
    rcases Collection.mem_docs_put.mp (Collection.mem_docs_deleteWhere.mp hmem).1 with hnew | ⟨hold, -⟩
    · exact Or.inl hnew
    · exact Or.inr hold
  refine ⟨h.short, h.spelled, ?_, h.byBot, ?_⟩
  · intro checkpoint hmem
    rcases hsaved hmem with rfl | hold
    · obtain ⟨hlt, -⟩ := List.getElem?_eq_some_iff.mp hhash
      exact ⟨lt_of_lt_of_le hlt h.short, hash, rfl⟩
    · exact h.checkpoints checkpoint hold
  · intro m other hstamp checkpoint hmem hm d hd
    rcases hsaved hmem with rfl | hold
    · have hcanonical : Canonical s.chain ⟨n, hashText hash⟩ := by
        rw [Canonical, hhash]
        rfl
      rw [← hcanonical.agree_below hd hm]
      by_contra hlost
      exact absurd (hfacts m other ⟨hstamp, hlost⟩) (not_lt.mpr hm)
    · exact h.below m other hstamp checkpoint hold hm d hd

/-- A rollback that is found deletes the checkpoints above the fork; a new one leaves
no fact above it. -/
theorem Tracked.rewinds (h : Tracked s) (hreads : Reads drivers) (v : ChainVerification) (dex : Script)
    (now : ℕ) {found : Option ℕ} {evidence : Checkpoint}
    (hfork : forkOf s.chain (window s.db) none = (found, some evidence)) :
    ∃ next, (run drivers (s.chain.node dex now) (detectReorg v) s.db).2 =
        rewound next (ancestorBlockOf (window s.db) found) ∧
      next.checkpoints = s.db.checkpoints ∧
      (∀ stamp, Stamped next stamp → Stamped s.db stamp) ∧
      (s.db.processed (chainReorgEvent evidence (ancestorBlockOf (window s.db) found)).eventId = false →
        ∀ n hash, Stamped next (stampOf n hash) → (n : ℤ) ≤ ancestorBlockOf (window s.db) found) := by
  have hknown := fork_of_forkOf hfork
  obtain ⟨hexact, hspelled⟩ := h.checkpoints evidence hknown.mem
  obtain ⟨ancestor, hancestor⟩ : ∃ ancestor, ancestorBlockOf (window s.db) found = ancestor := ⟨_, rfl⟩
  obtain ⟨next, hrun, hnext⟩ := run_detectReorg_fork hfork hspelled
  rw [hancestor] at hknown hrun hnext ⊢
  refine ⟨next, congrArg Prod.snd hrun, ?_⟩
  rcases hnext with ⟨hold, rfl⟩ | ⟨hnew, hsame⟩
  · refine ⟨rfl, fun _ hstamp => hstamp, fun hnew => ?_⟩
    rw [hold] at hnew
    cases hnew
  · have hkept : ∀ stamp, Stamped next stamp →
        Stamped s.db stamp ∧ ∀ n hash, stamp = stampOf n hash → (n : ℤ) ≤ ancestor := by
      intro stamp hstamp
      have habove := hknown.above
      rw [Stamped, hsame.orders, hsame.trades] at hstamp
      exact stamped_rollBack hreads h.spelled rfl hknown.low (by omega) hstamp
    exact ⟨hsame.checkpoints, fun stamp hstamp => (hkept stamp hstamp).1,
      fun _ n hash hstamp => (hkept _ hstamp).2 n hash rfl⟩

/-- Fewer facts below fewer checkpoints. -/
theorem Tracked.detect (h : Tracked s) (hreads : Reads drivers) :
    Tracked { s with db := (run drivers (s.chain.node dex now) (detectReorg v) s.db).2 } := by
  rcases hfork : forkOf s.chain (window s.db) none with ⟨found, _ | evidence⟩
  · have hquiet : Quiet s.chain s.db := by rw [Quiet, hfork]
    rw [run_detectReorg_quiet hquiet]
    exact h
  · obtain ⟨next, hrun, hcheckpoints, hstamps, -⟩ :=
      h.rewinds hreads v dex now hfork
    rw [hrun]
    have hdocs : ∀ checkpoint ∈ (rewound next (ancestorBlockOf (window s.db) found)).checkpoints.docs,
        checkpoint ∈ s.db.checkpoints.docs := by
      intro checkpoint hmem
      rw [← hcheckpoints]
      exact (mem_rewound.mp hmem).1
    refine ⟨h.short, ?_, ?_, h.byBot, ?_⟩
    · intro stamp hstamp
      exact h.spelled stamp (hstamps stamp hstamp)
    · intro checkpoint hmem
      exact h.checkpoints checkpoint (hdocs checkpoint hmem)
    · intro n hash hstamp checkpoint hmem
      exact h.below n hash (hstamps _ hstamp) checkpoint (hdocs checkpoint hmem)

end

section
variable {w : World} (drivers : Drivers) (v : ChainVerification) (dex : Script)

def Step (s t : State w) : Prop :=
  ∃ (act : Act w) (now : ℕ), Allowed drivers v dex now act s ∧ Meets act s ∧
      t = perform drivers v dex now act s

/-- The bot starts with an empty database. -/
def Starts (s : State w) : Prop :=
  s.chain.hashes.length ≤ 2 ^ 53 ∧ s.db = Db.empty ∧ s.verified = [] ∧ s.pinned = []

def Runs (s : State w) : Prop := ∃ start, Starts start ∧ Relation.ReflTransGen (Step drivers v dex) start s

/-- The state after `detectReorg` was called again and again. -/
def detections (now : ℕ) (s : State w) : ℕ → State w
  | 0 => s
  | k + 1 => perform drivers v dex now .detect (detections now s k)

end

section
variable {w : World} {drivers : Drivers} {v : ChainVerification} {dex : Script} {now : ℕ} {s t : State w}

theorem Starts.tracked (h : Starts s) : Tracked s := by
  obtain ⟨hshort, hdb, hverified, -⟩ := h
  have hnone : ∀ stamp, ¬Stamped s.db stamp := by
    intro stamp hstamp
    rw [hdb] at hstamp
    rcases hstamp with ⟨order, hmem, -⟩ | ⟨trade, hmem, -⟩
    · exact List.not_mem_nil hmem
    · exact List.not_mem_nil hmem
  refine ⟨hshort, fun stamp hstamp => absurd hstamp (hnone stamp), ?_, ?_, ?_⟩
  · intro checkpoint hmem
    rw [hdb] at hmem
    exact absurd hmem List.not_mem_nil
  · intro event hmem
    rw [hverified] at hmem
    exact absurd hmem List.not_mem_nil
  · intro n hash hstamp
    exact absurd hstamp (hnone _)

theorem Tracked.performed (h : Tracked s) (hreads : Reads drivers) {act : Act w}
    (hallowed : Allowed drivers v dex now act s) (hmeets : Meets act s) :
    Tracked (perform drivers v dex now act s) := by
  cases act with
  | reorganize c => exact h.reorganize hmeets
  | verify event =>
      refine ⟨h.short, h.spelled, h.checkpoints, ?_, h.below⟩
      intro other hmem
      rcases List.mem_cons.mp hmem with rfl | hmem
      · exact hallowed.1
      · exact h.byBot other hmem
  | commit event => exact h.commit hallowed hmeets
  | pin n hash => exact ⟨h.short, h.spelled, h.checkpoints, h.byBot, h.below⟩
  | save n hash => exact h.save hmeets
  | write op => exact h.write hallowed hmeets
  | detect => exact h.detect hreads

theorem Runs.tracked (hreads : Reads drivers) (h : Runs drivers v dex s) : Tracked s := by
  obtain ⟨start, hstart, hrun⟩ := h
  induction hrun with
  | refl => exact hstart.tracked
  | tail _ hstep ih =>
      obtain ⟨act, now, hallowed, hmeets, rfl⟩ := hstep
      exact ih.performed hreads hallowed hmeets

/-- A mismatch that is found takes a checkpoint away. -/
theorem Tracked.fewer (h : Tracked s) (hreads : Reads drivers) (hquiet : ¬Quiet s.chain s.db) :
    (perform drivers v dex now .detect s).db.checkpoints.docs.length <
      s.db.checkpoints.docs.length := by
  rcases hfork : forkOf s.chain (window s.db) none with ⟨found, _ | evidence⟩
  · exact absurd (by rw [Quiet, hfork]) hquiet
  · have hknown := fork_of_forkOf hfork
    obtain ⟨next, hrun, hcheckpoints, -, -⟩ :=
      h.rewinds hreads v dex now hfork
    rw [perform, hrun, ← hcheckpoints]
    apply List.length_filter_lt_length_iff_exists.mpr
    refine ⟨evidence, hcheckpoints ▸ hknown.mem, ?_⟩
    simpa using hknown.above

/-- Where the fork is among the checkpoints compared and the rollback is new, one call
takes back every fact off the chain. -/
theorem Tracked.settled (h : Tracked s) (hreads : Reads drivers) {found : Option ℕ}
    {evidence : Checkpoint} (hfork : forkOf s.chain (window s.db) none = (found, some evidence))
    (hkept : ∃ checkpoint ∈ window s.db, Canonical s.chain checkpoint)
    (hnew : s.db.processed (chainReorgEvent evidence (ancestorBlockOf (window s.db) found)).eventId =
      false) :
    Quiet s.chain (perform drivers v dex now .detect s).db ∧
      ∀ stamp, Stamped (perform drivers v dex now .detect s).db stamp → OnChain s.chain stamp := by
  obtain ⟨next, hrun, hcheckpoints, hstamps, hbelow⟩ :=
    h.rewinds hreads v dex now hfork
  obtain ⟨kept, hwindow, hcanonical, hat⟩ := (fork_of_forkOf hfork).kept.resolve_right
    fun hall => hkept.elim fun checkpoint hcheckpoint => hall.1 checkpoint hcheckpoint.1 hcheckpoint.2
  have hmem := mem_of_mem_newestCheckpoints hwindow
  rw [perform, hrun]
  constructor
  · have hnewest : Newest (rewound next (ancestorBlockOf (window s.db) found)) kept := by
      refine ⟨mem_rewound.mpr ⟨hcheckpoints ▸ hmem, hat.le⟩, fun other hother => ?_⟩
      have hle := (mem_rewound.mp hother).2
      omega
    exact (quiet_iff hnewest).mpr hcanonical
  · intro stamp hstamp
    obtain ⟨n, hash, rfl, -⟩ := h.spelled stamp (hstamps stamp hstamp)
    have hle := hbelow hnew n hash hstamp
    rw [← hat] at hle
    exact onChain_stampOf.mpr
      (h.below n hash (hstamps _ hstamp) kept hmem (by omega) s.chain hcanonical)

theorem detections_succ (k : ℕ) : detections drivers v dex now s (k + 1) =
    detections drivers v dex now (perform drivers v dex now .detect s) k := by
  induction k with
  | zero => rfl
  | succ k ih => rw [detections, ih, ← detections]

theorem Tracked.settles (hreads : Reads drivers) {n : ℕ} (h : Tracked s)
    (hn : s.db.checkpoints.docs.length ≤ n) :
    ∃ k ≤ s.db.checkpoints.docs.length, Tracked (detections drivers v dex now s k) ∧
      Quiet (detections drivers v dex now s k).chain (detections drivers v dex now s k).db := by
  induction n generalizing s with
  | zero =>
      have hwindow : window s.db = [] := by
        apply List.eq_nil_iff_forall_not_mem.mpr
        intro checkpoint hmem
        have := List.length_pos_of_mem (mem_of_mem_newestCheckpoints hmem)
        omega
      refine ⟨0, Nat.zero_le _, h, ?_⟩
      change (forkOf s.chain (window s.db) none).2 = none
      rw [hwindow]
      rfl
  | succ n ih =>
      by_cases hquiet : Quiet s.chain s.db
      · exact ⟨0, Nat.zero_le _, h, hquiet⟩
      · have hfewer : (perform drivers v dex now .detect s).db.checkpoints.docs.length <
            s.db.checkpoints.docs.length := h.fewer hreads hquiet
        have hnext : Tracked (perform drivers v dex now .detect s) := h.detect hreads
        obtain ⟨k, hk, hdone⟩ := ih hnext (by omega)
        rw [← detections_succ] at hdone
        exact ⟨k + 1, by omega, hdone⟩

end

open GroundedDocuments OrderLock SettlementBuilder
open OrderLockRules (exampleHash exampleOrder)

end CkbDex.StaleFacts
