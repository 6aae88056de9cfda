import CkbDex.Acceptance
import CkbDex.OrderWrites

/-!
# Stale blocks

What `detectReorg` finds and rolls back when the node is in step with a chain.
Stored facts are stamped with the block that they were read from; a rollback
leaves no stamp of a block above the ancestor.
-/
namespace CkbDex.StaleBlocks
open Acceptance CkbDex.Bot BotEvents Bytes CellContext Chains Checked Collections Documents
open EventVerification IngestionSteps Number Operations Programs Projection ProjectionSteps Text

section
variable {w : World}

/-- The chain has the block of a checkpoint. -/
def Canonical (c : Chain w) (checkpoint : Checkpoint) : Prop :=
  (c.hashes[checkpoint.blockNumber]?).map hashText = some checkpoint.blockHash

instance (c : Chain w) (checkpoint : Checkpoint) : Decidable (Canonical c checkpoint) :=
  inferInstanceAs (Decidable (_ = _))

theorem Canonical.getElem? {c : Chain w} {checkpoint : Checkpoint} (h : Canonical c checkpoint) :
    ∃ hash, c.hashes[checkpoint.blockNumber]? = some hash ∧ hashText hash = checkpoint.blockHash :=
  Option.map_eq_some_iff.mp h

/-- Two chains with the block of a checkpoint share what is below it. -/
theorem Canonical.agree_below {c d : Chain w} {checkpoint : Checkpoint} (hc : Canonical c checkpoint)
    (hd : Canonical d checkpoint) {n : ℕ} (hn : n ≤ checkpoint.blockNumber) : c.hashes[n]? =
        d.hashes[n]? := by
  obtain ⟨hash, hhash, htext⟩ := hc.getElem?
  obtain ⟨other, hother, hsame⟩ := hd.getElem?
  obtain rfl := hashText_injective (htext.trans hsame.symm)
  exact Chain.agree_below hhash hother hn

end

/-- The block that a document names for a fact. -/
structure Stamp where
  blockNumber : Option String
  blockHash : Option Hex
  deriving DecidableEq

/-- A stamp as the bot writes it. -/
def stampOf (n : ℕ) (hash : Hash) : Stamp := ⟨some (toString n), some (hashText hash)⟩

/-- Statuses of an order that was spent. -/
def spentStatuses : List OrderStatus := [.filled, .canceled, .cancelled]

/-- The blocks in which an order was created and spent. -/
def orderStamps (order : OrderDocument) : List Stamp :=
  if order.status = .orphaned then []
  else ⟨some order.blockNumber, order.createdBlockHash⟩ ::
    if order.status ∈ spentStatuses then [⟨order.spentAtBlock, order.spentBlockHash⟩] else []

def tradeStamps (trade : TradeDocument) : List Stamp :=
  if trade.status = .confirmed then [⟨some trade.blockNumber, some trade.blockHash⟩] else []

/-- Some fact of the projection was read from the block. -/
def Stamped (db : Db) (stamp : Stamp) : Prop :=
  (∃ order ∈ db.orders.docs, stamp ∈ orderStamps order) ∨ ∃ trade ∈ db.trades.docs, stamp ∈ tradeStamps trade

/-- The chain has the block that a stamp names. -/
def OnChain {w : World} (c : Chain w) (stamp : Stamp) : Prop :=
  ∃ n hash text, stamp.blockNumber.bind bigInt = some ((n : ℕ) : ℤ) ∧ stamp.blockHash = some text ∧
    lower text = hashText hash ∧ c.hashes[n]? = some hash

theorem onChain_stampOf {w : World} {c : Chain w} {n : ℕ} {hash : Hash} :
    OnChain c (stampOf n hash) ↔ c.hashes[n]? = some hash := by
  constructor
  · rintro ⟨m, other, text, hnumber, htext, hsame, hhash⟩
    have hm : m = n := by
      rw [stampOf, Option.bind_some, bigInt_toString, Option.some_inj, Nat.cast_inj] at hnumber
      exact hnumber.symm
    have hother : other = hash := by
      obtain rfl := Option.some_inj.mp htext
      rw [hashText, lower_toHex] at hsame
      exact (hashText_injective hsame).symm
    rwa [← hm, ← hother]
  · intro hhash
    exact ⟨n, hash, hashText hash, bigInt_toString n, rfl, lower_toHex _, hhash⟩

theorem stampOf_inj {m n : ℕ} {a b : Hash} (h : stampOf m a = stampOf n b) : m = n ∧ a = b := by
  obtain ⟨hnumber, hhash⟩ := Stamp.mk.inj h
  exact ⟨toString_injective (Option.some_inj.mp hnumber), hashText_injective (Option.some_inj.mp hhash)⟩

section
variable {w : World} {drivers : Drivers} {v : ChainVerification} {dex : Script} {now : ℕ} {c : Chain w}
  {db : Db}

/-- The newest checkpoint that the chain has, and the one checked before it. -/
def forkOf (c : Chain w) : List Checkpoint → Option Checkpoint → Option ℕ × Option Checkpoint
  | [], evidence => (none, evidence)
  | checkpoint :: checkpoints, evidence =>
      if Canonical c checkpoint then (some checkpoint.blockNumber, evidence)
      else forkOf c checkpoints (some checkpoint)

theorem run_findFork (checkpoints : List Checkpoint) (evidence : Option Checkpoint) :
    run drivers (c.node dex now) (findFork checkpoints evidence) db =
      (.ok (forkOf c checkpoints evidence), db) := by
  induction checkpoints generalizing evidence with
  | nil => rfl
  | cons checkpoint checkpoints ih =>
      have hheader : eval (handle drivers (c.node dex now))
          (request (.getHeaderHash checkpoint.blockNumber)) db =
          (.ok c.hashes[checkpoint.blockNumber]?, db) := by
        change ((c.node dex now).getHeaderHash checkpoint.blockNumber, db) = _
        simp only [Chain.node, Int.natCast_nonneg, if_true, Int.toNat_natCast]
      rw [findFork, run, eval_bind, hheader, forkOf]
      by_cases hcanonical : Canonical c checkpoint
      · have htext : (c.hashes[checkpoint.blockNumber]?).map hashText = some
          checkpoint.blockHash := hcanonical
        simp only [htext, if_true, if_pos hcanonical, eval_pure]
      · have htext : ¬(c.hashes[checkpoint.blockNumber]?).map hashText = some checkpoint.blockHash :=
          hcanonical
        simp only [if_neg htext, if_neg hcanonical]
        exact ih (some checkpoint)

/-- What is found of the fork: checkpoints that the chain lost, up to the first it has. -/
theorem forkOf_eq (c : Chain w) (checkpoints : List Checkpoint) (evidence : Option Checkpoint) :
    ∃ lost kept, checkpoints = lost ++ kept ∧ (∀ checkpoint ∈ lost, ¬Canonical c checkpoint) ∧
      (∀ checkpoint, kept.head? = some checkpoint → Canonical c checkpoint) ∧
      forkOf c checkpoints evidence =
          (kept.head?.map Checkpoint.blockNumber, lost.getLast? <|> evidence) := by
  induction checkpoints generalizing evidence with
  | nil => exact ⟨[], [], rfl, by simp, by simp, rfl⟩
  | cons checkpoint checkpoints ih =>
      rw [forkOf]
      split_ifs with hcanonical
      · refine ⟨[], checkpoint :: checkpoints, rfl, by simp, ?_, rfl⟩
        intro first hfirst
        rwa [← Option.some_inj.mp hfirst]
      · obtain ⟨lost, kept, rfl, hlost, hkept, hfork⟩ := ih (some checkpoint)
        refine ⟨checkpoint :: lost, kept, rfl, ?_, hkept, ?_⟩
        · intro other hother
          rcases List.mem_cons.mp hother with rfl | hother
          · exact hcanonical
          · exact hlost other hother
        · rw [hfork]
          cases hlast : lost.getLast? <;> simp [List.getLast?_cons, hlast]

end

/-- The texts of integers down to -1 are read back. -/
theorem bigInt_toString_int {n : ℤ} (h : -1 ≤ n) : bigInt (toString n) = some n := by
  rcases Int.le_iff_lt_or_eq.mp h with hlt | rfl
  · obtain ⟨m, rfl⟩ := Int.eq_ofNat_of_zero_le (by omega : 0 ≤ n)
    exact bigInt_toString m
  · decide

theorem number_toString_int {n : ℤ} (h : -1 ≤ n) (hlt : n + 1 < 2 ^ 53) :
    (number (toString n)).succ = .finite ((n + 1 : ℤ) : ℚ) := by
  rcases Int.le_iff_lt_or_eq.mp h with hneg | rfl
  · obtain ⟨m, rfl⟩ := Int.eq_ofNat_of_zero_le (by omega : 0 ≤ n)
    have hnumber : number (toString (m : ℤ)) = .finite m :=
      number_of_bigInt_exact (bigInt_toString m) (by omega)
    have hsucc : binary64 ((m + 1 : ℕ) : ℚ) = .finite ((m + 1 : ℕ) : ℚ) := binary64_natCast (by omega)
    rw [hnumber, JsNumber.succ]
    push_cast at hsucc ⊢
    exact hsucc
  · have hone : binary64 (-1) = .finite (-1) := by
      have hlast : lastExponent (-1) = -52 := by
        have hlog : Int.log 2 |(-1 : ℚ)| = 0 := by simp
        rw [lastExponent, hlog]
        rfl
      apply binary64_of_multiple (-(2 ^ 52))
      · rw [hlast]
        norm_num
      · rw [abs_neg, abs_one]
        exact one_lt_pow₀ (by norm_num) (by norm_num)
    have hnumber : number (toString (-1 : ℤ)) = .finite (-1) := by
      have htrim : trim (toString (-1 : ℤ)).toList = ['-', '1'] := by decide
      have hprefix : radixPrefix ['-', '1'] = none := by decide
      have hread : number (toString (-1 : ℤ)) = unsignedNumber true ['1'] := by
        simp only [number, htrim, hprefix]
        rfl
      rw [hread, unsignedNumber_of_digits (n := 1) (by decide)]
      norm_num
      exact hone
    rw [hnumber, JsNumber.succ]
    have hzero := binary64_natCast (n := 0) (by norm_num)
    norm_num at hzero ⊢
    exact hzero

/-- The blocks that a rollback takes back. -/
theorem atOrAfter_iff {drivers : Drivers} (hreads : Reads drivers) {event : ChainReorgEvent} {ancestor : ℤ}
    {n : ℕ} (hancestor : event.ancestorBlockNumber = some (toString ancestor)) (hlow : -1 ≤ ancestor)
    (hhigh : ancestor + 1 < 2 ^ 53) (hn : n < 2 ^ 53) :
    atOrAfter drivers (rollbackFrom event) (some (toString n)) = true ↔ ancestor < n := by
  have hfrom : rollbackFrom event = .finite ((ancestor + 1 : ℤ) : ℚ) := by
    rw [rollbackFrom, hancestor]
    exact number_toString_int hlow hhigh
  have hread : drivers.toLong (toString n) = some (n : ℤ) := hreads.toLong n (by omega)
  rw [atOrAfter, Option.bind_some, hread, hfrom]
  simp only [JsNumber.atMost, decide_eq_true_eq, Int.cast_le]
  omega

/-- The stamps were written by the bot, for blocks with exact numbers. -/
def Spelled (db : Db) : Prop := ∀ stamp, Stamped db stamp → ∃ n hash, stamp = stampOf n hash ∧ n < 2 ^ 53

theorem spentStatuses_ne_orphaned {status : OrderStatus} (h : status ∈ spentStatuses) :
    status ≠ .orphaned := by
  rintro rfl
  exact absurd h (by decide)

theorem mem_orderStamps {order : OrderDocument} {stamp : Stamp} : stamp ∈ orderStamps order ↔
    order.status ≠ .orphaned ∧ (stamp = ⟨some order.blockNumber, order.createdBlockHash⟩ ∨
      order.status ∈ spentStatuses ∧ stamp = ⟨order.spentAtBlock, order.spentBlockHash⟩) := by
  unfold orderStamps
  split_ifs with horphaned hspent <;> simp [*]

theorem mem_tradeStamps {trade : TradeDocument} {stamp : Stamp} : stamp ∈ tradeStamps trade ↔
    trade.status = .confirmed ∧ stamp = ⟨some trade.blockNumber, some trade.blockHash⟩ := by
  unfold tradeStamps
  split_ifs with hconfirmed <;> simp [hconfirmed]

section
variable {drivers : Drivers} {db : Db} {event : ChainReorgEvent} {ancestor : ℤ} {stamp : Stamp}

/-- A rollback keeps stamps from before, of blocks up to the ancestor. -/
theorem stamped_rollBack (hreads : Reads drivers) (hspelled : Spelled db)
    (hancestor : event.ancestorBlockNumber = some (toString ancestor)) (hlow : -1 ≤ ancestor)
    (hhigh : ancestor + 1 < 2 ^ 53) (h : Stamped (rollBack drivers event db) stamp) :
    Stamped db stamp ∧ ∀ n hash, stamp = stampOf n hash → (n : ℤ) ≤ ancestor := by
  have hkept : Stamped db stamp → atOrAfter drivers (rollbackFrom event) stamp.blockNumber = false →
      Stamped db stamp ∧ ∀ n hash, stamp = stampOf n hash → (n : ℤ) ≤ ancestor := by
    intro hstamped hbefore
    refine ⟨hstamped, ?_⟩
    rintro n hash rfl
    obtain ⟨m, other, hsame, hm⟩ := hspelled _ hstamped
    obtain ⟨rfl, -⟩ := stampOf_inj hsame
    exact not_lt.mp fun hlt => Bool.false_ne_true
      (hbefore.symm.trans ((atOrAfter_iff hreads hancestor hlow hhigh hm).mpr hlt))
  rcases h with ⟨order, hmem, hstamp⟩ | ⟨trade, hmem, hstamp⟩
  · simp only [rollBack, Collection.mem_docs_map] at hmem
    obtain ⟨old, hold, rfl⟩ := hmem
    unfold rollBackOrder at hstamp
    split_ifs at hstamp with hcreated hspent
    · exact absurd rfl (mem_orderStamps.mp hstamp).1
    · -- the order is live again
      have hstatus : old.status ∈ spentStatuses := by
        simp only [spentReverted, Bool.and_eq_true, decide_eq_true_eq] at hspent
        exact hspent.1.2
      have hnot := spentStatuses_ne_orphaned hstatus
      rcases (mem_orderStamps.mp hstamp).2 with rfl | ⟨hlive, -⟩
      · apply hkept (Or.inl ⟨old, hold, mem_orderStamps.mpr ⟨hnot, Or.inl rfl⟩⟩)
        simpa [createdReverted, hnot] using hcreated
      · have hnone : OrderStatus.live ∉ spentStatuses := by decide
        exact absurd hlive hnone
    · obtain ⟨hnot, hstampis⟩ := mem_orderStamps.mp hstamp
      apply hkept (Or.inl ⟨old, hold, hstamp⟩)
      have hbefore : atOrAfter drivers (rollbackFrom event) (some old.blockNumber) = false := by
        simpa [createdReverted, hnot] using hcreated
      rcases hstampis with rfl | ⟨hstatus, rfl⟩
      · exact hbefore
      · have hstatus : old.status ∈ [OrderStatus.filled, .canceled, .cancelled] := hstatus
        simpa [spentReverted, createdReverted, hbefore, hstatus] using hspent
  · simp only [rollBack, Collection.mem_docs_map] at hmem
    obtain ⟨old, hold, rfl⟩ := hmem
    unfold rollBackTrade at hstamp
    split_ifs at hstamp with hreverted
    · have hnot : TradeStatus.reverted ≠ .confirmed := by decide
      exact absurd (mem_tradeStamps.mp hstamp).1 hnot
    · obtain ⟨hconfirmed, rfl⟩ := mem_tradeStamps.mp hstamp
      apply hkept (Or.inr ⟨old, hold, hstamp⟩)
      simpa [hconfirmed] using hreverted

end

section
variable {db : Db} {limit : ℕ} {checkpoint other : Checkpoint}

theorem pairwise_checkpoints : (db.checkpoints.docs.insertionSort fun a b =>
    b.blockNumber ≤ a.blockNumber).Pairwise fun a b => b.blockNumber < a.blockNumber := by
  have hsorted : (db.checkpoints.docs.insertionSort fun a b =>
      b.blockNumber ≤ a.blockNumber).Pairwise fun a b => b.blockNumber ≤ a.blockNumber :=
    List.pairwise_insertionSort (fun a b : Checkpoint => b.blockNumber ≤ a.blockNumber) _
  have hperm := List.perm_insertionSort (fun a b : Checkpoint => b.blockNumber ≤ a.blockNumber)
    db.checkpoints.docs
  have hnodup : (db.checkpoints.docs.insertionSort fun a b =>
      b.blockNumber ≤ a.blockNumber).Pairwise fun a b => a.blockNumber ≠ b.blockNumber :=
    List.pairwise_map.mp ((hperm.map Checkpoint.blockNumber).nodup_iff.mpr db.checkpoints.nodup)
  exact hsorted.imp₂ (fun a b hle hne => lt_of_le_of_ne hle (Ne.symm hne)) hnodup

theorem pairwise_newestCheckpoints :
    (Db.newestCheckpoints db limit).Pairwise fun a b => b.blockNumber < a.blockNumber :=
  pairwise_checkpoints.sublist (List.take_sublist _ _)

theorem mem_of_mem_newestCheckpoints (h : checkpoint ∈ Db.newestCheckpoints db limit) :
    checkpoint ∈ db.checkpoints.docs :=
  (List.perm_insertionSort _ _).mem_iff.mp (List.mem_of_mem_take h)

theorem lt_of_not_mem_newestCheckpoints (hmem : checkpoint ∈ db.checkpoints.docs)
    (hnot : checkpoint ∉ Db.newestCheckpoints db limit) (hother : other ∈ Db.newestCheckpoints db limit) :
    checkpoint.blockNumber < other.blockNumber := by
  have hsorted : (db.checkpoints.docs.insertionSort fun a b =>
      b.blockNumber ≤ a.blockNumber).Pairwise fun a b => b.blockNumber < a.blockNumber :=
    pairwise_checkpoints
  rw [← List.take_append_drop limit (List.insertionSort _ _)] at hsorted
  have hdrop : checkpoint ∈ (db.checkpoints.docs.insertionSort fun a b =>
      b.blockNumber ≤ a.blockNumber).drop limit := by
    have hall := (List.perm_insertionSort (fun a b : Checkpoint => b.blockNumber ≤ a.blockNumber)
      db.checkpoints.docs).mem_iff.mpr hmem
    rw [← List.take_append_drop limit (List.insertionSort _ _)] at hall
    exact (List.mem_append.mp hall).resolve_left hnot
  exact (List.pairwise_append.mp hsorted).2.2 other hother checkpoint hdrop

end

/-- The checkpoints that `detectReorg` compares. -/
abbrev window (db : Db) : List Checkpoint := Db.newestCheckpoints db checkpointWindow

/-- No mismatch is found. -/
def Quiet {w : World} (c : Chain w) (db : Db) : Prop := (forkOf c (window db) none).2 = none

/-- What is known of the fork when a mismatch is found. -/
structure Fork {w : World} (c : Chain w) (db : Db) (ancestor : ℤ) (evidence : Checkpoint) : Prop where
  mem : evidence ∈ db.checkpoints.docs
  lost : ¬Canonical c evidence
  above : ancestor < evidence.blockNumber
  low : -1 ≤ ancestor
  kept : (∃ checkpoint ∈ window db, Canonical c checkpoint ∧ (checkpoint.blockNumber : ℤ) = ancestor) ∨
    (∀ checkpoint ∈ window db, ¬Canonical c checkpoint) ∧ ∃ oldest ∈ window db,
      ancestor = (oldest.blockNumber : ℤ) - 1 ∧
        ∀ checkpoint ∈ window db, oldest.blockNumber ≤ checkpoint.blockNumber

/-- The state after the deletion of the checkpoints above a block. -/
def rewound (db : Db) (ancestor : ℤ) : Db :=
  { db with checkpoints := db.checkpoints.deleteWhere fun c => ancestor < (c.blockNumber : ℤ) }

theorem mem_rewound {db : Db} {ancestor : ℤ} {checkpoint : Checkpoint} :
    checkpoint ∈ (rewound db ancestor).checkpoints.docs ↔
      checkpoint ∈ db.checkpoints.docs ∧ (checkpoint.blockNumber : ℤ) ≤ ancestor := by
  refine Collection.mem_docs_deleteWhere.trans ?_
  rw [decide_eq_false_iff_not, not_lt]

section
variable {w : World} {drivers : Drivers} {v : ChainVerification} {dex : Script} {now : ℕ} {c : Chain w}
  {db : Db} {ancestor : Option ℕ} {evidence : Checkpoint}

theorem fork_of_forkOf (h : forkOf c (window db) none = (ancestor, some evidence)) :
    Fork c db (ancestorBlockOf (window db) ancestor) evidence := by
  obtain ⟨lost, kept, hwindow, hlost, hkept, hfork⟩ := forkOf_eq c (window db) none
  obtain ⟨rfl, hlast⟩ := Prod.mk.inj (hfork.symm.trans h)
  have hlast : lost.getLast? = some evidence := by simpa using hlast
  obtain ⟨before, rfl⟩ := List.getLast?_eq_some_iff.mp hlast
  have hsorted : (window db).Pairwise fun a b => b.blockNumber < a.blockNumber := pairwise_newestCheckpoints
  have hmem : evidence ∈ window db := by simp [hwindow]
  have hevidence : ¬Canonical c evidence := hlost evidence (by simp)
  cases kept with
  | nil =>
      rw [List.append_nil] at hwindow
      have hancestor : ancestorBlockOf (window db) none = (evidence.blockNumber : ℤ) - 1 := by
        rw [ancestorBlockOf, hwindow, List.getLast?_concat]
        rfl
      refine ⟨mem_of_mem_newestCheckpoints hmem, hevidence, ?_, ?_,
          Or.inr ⟨?_, evidence, hmem, hancestor, ?_⟩⟩
      · change ancestorBlockOf (window db) none < _
        omega
      · change -1 ≤ ancestorBlockOf (window db) none
        omega
      · rw [hwindow]
        exact hlost
      · intro checkpoint hcheckpoint
        rw [hwindow] at hcheckpoint hsorted
        rcases List.mem_append.mp hcheckpoint with hbefore | hself
        · exact ((List.pairwise_append.mp hsorted).2.2 checkpoint hbefore evidence
            List.mem_cons_self).le
        · rw [List.mem_singleton.mp hself]
  | cons first rest =>
      have hfirst : first ∈ window db := by simp [hwindow]
      have hcanonical : Canonical c first := hkept first rfl
      rw [hwindow] at hsorted
      have hlt := (List.pairwise_append.mp hsorted).2.2 evidence (by simp) first List.mem_cons_self
      refine ⟨mem_of_mem_newestCheckpoints hmem, hevidence, ?_, ?_, Or.inl ⟨first, hfirst, hcanonical, rfl⟩⟩
      · exact Int.ofNat_lt.mpr hlt
      · change -1 ≤ ((first.blockNumber : ℕ) : ℤ)
        omega

theorem run_detectReorg_quiet (h : Quiet c db) :
    run drivers (c.node dex now) (detectReorg v) db = (.ok (), db) := by
  have hload : eval (handle drivers (c.node dex now)) (request (.newestCheckpoints checkpointWindow)) db =
      (.ok (window db), db) := rfl
  have hfind : eval (handle drivers (c.node dex now)) (findFork (window db) none) db =
      (.ok (forkOf c (window db) none), db) := run_findFork _ _
  rw [detectReorg, run, eval_bind, hload]
  simp only [eval_bind, hfind]
  rw [show (forkOf c (window db) none).2 = none from h]
  rfl

/-- After the rollback was ingested, the checkpoints above the fork are deleted. -/
theorem run_detectReorg_ingested {result : IngestionResult} {next : Db}
    (h : forkOf c (window db) none = (ancestor, some evidence))
    (hingest : run drivers (c.node dex now)
      (ingest v (.chainReorg (chainReorgEvent evidence (ancestorBlockOf (window db) ancestor)))) db =
        (.ok result, next)) :
    run drivers (c.node dex now) (detectReorg v) db =
      (.ok (), rewound next (ancestorBlockOf (window db) ancestor)) := by
  have hload : eval (handle drivers (c.node dex now)) (request (.newestCheckpoints checkpointWindow)) db =
      (.ok (window db), db) := rfl
  have hfind : eval (handle drivers (c.node dex now)) (findFork (window db) none) db =
      (.ok (ancestor, some evidence), db) := (run_findFork _ _).trans (by rw [h])
  have hrun : eval (handle drivers (c.node dex now))
      (ingest v (.chainReorg (chainReorgEvent evidence (ancestorBlockOf (window db) ancestor)))) db =
        (.ok result, next) := hingest
  rw [detectReorg, run, eval_bind, hload]
  simp only [eval_bind, hfind, hrun]
  rfl

/-- A rollback that was not done before is ingested. -/
theorem run_ingest_rollback (h : forkOf c (window db) none = (ancestor, some evidence))
    (hspelled : ∃ hash, evidence.blockHash = hashText hash)
    (hnew : db.processed (chainReorgEvent evidence (ancestorBlockOf (window db) ancestor)).eventId = false) :
    ∃ result next, run drivers (c.node dex now)
        (ingest v (.chainReorg (chainReorgEvent evidence (ancestorBlockOf (window db) ancestor)))) db =
          (.ok result, next) ∧
      SameProjection
        (rollBack drivers (chainReorgEvent evidence (ancestorBlockOf (window db) ancestor)) db) next := by
  obtain ⟨-, hlost, habove, hlow, -⟩ := fork_of_forkOf h
  obtain ⟨block, hblock⟩ : ∃ block, ancestorBlockOf (window db) ancestor = block := ⟨_, rfl⟩
  rw [hblock] at habove hlow hnew ⊢
  have hverify : run drivers (c.node dex now)
      (verifyEvent v (.chainReorg (chainReorgEvent evidence block))) db = (.ok (), db) := by
    have hreverted : bigInt (chainReorgEvent evidence block).revertedBlockNumber =
        some (evidence.blockNumber : ℤ) := bigInt_toString _
    have hancestor : ∀ text, (chainReorgEvent evidence block).ancestorBlockNumber = some text →
        bigInt text = some block := by
      intro text htext
      rw [← Option.some_inj.mp htext]
      exact bigInt_toString_int hlow
    apply run_verifyChainReorg_chain hreverted hancestor
    · exact habove
    · omega
    · intro hash hhash hsame
      obtain ⟨other, hother⟩ := hspelled
      have hlower : lower evidence.blockHash = hashText hash := hsame
      rw [hother, hashText, lower_toHex] at hlower
      apply hlost
      rw [Canonical, ← Int.toNat_natCast evidence.blockNumber, hhash, hother, Option.map_some]
      exact congrArg some hlower.symm
  exact ⟨_, _, run_ingest_eq _ hnew hverify (applyChainReorg_eq_ok.mpr ⟨rfl, rfl⟩),
    sameProjection_recorded _ _ _⟩

/-- What a mismatch that is found leads to: the checkpoints above the fork are
deleted, and the facts above it taken back, if this was not done before. -/
theorem run_detectReorg_fork (h : forkOf c (window db) none = (ancestor, some evidence))
    (hspelled : ∃ hash, evidence.blockHash = hashText hash) :
    ∃ next, run drivers (c.node dex now) (detectReorg v) db =
        (.ok (), rewound next (ancestorBlockOf (window db) ancestor)) ∧
      ((db.processed (chainReorgEvent evidence (ancestorBlockOf (window db) ancestor)).eventId = true ∧
          next = db) ∨
        db.processed (chainReorgEvent evidence (ancestorBlockOf (window db) ancestor)).eventId = false ∧
          SameProjection
            (rollBack drivers (chainReorgEvent evidence (ancestorBlockOf (window db) ancestor)) db)
                next) := by
  cases hprocessed :
      db.processed (chainReorgEvent evidence (ancestorBlockOf (window db) ancestor)).eventId with
  | true =>
      have hignored : run drivers (c.node dex now) (ingest v (.chainReorg _)) db = (.ok _, db) :=
        run_ingest_processed _ hprocessed
      exact ⟨db, run_detectReorg_ingested h hignored, Or.inl ⟨rfl, rfl⟩⟩
  | false =>
      obtain ⟨result, next, hrun, hsame⟩ := run_ingest_rollback h hspelled hprocessed
      exact ⟨next, run_detectReorg_ingested h hrun, Or.inr ⟨rfl, hsame⟩⟩

end

end CkbDex.StaleBlocks
