import CkbDex.MarketProvider

/-!
# The market view

Every step of the provider keeps what it shows accounted for: an order leaves the
view when it is known to be closed, and no order is shown twice.
-/
namespace CkbDex.MarketView
open Documents Collections Projection ClosedOrders PendingOrders

section
variable {now : ℕ} {s t u : Market} {e : Event} {key : String} {doc : OrderDocument}
  {order : Option OrderDocument} {items flying : List OrderDocument} {trades : List TradeDocument}
  {entry : String × OrderDocument} {closed : Closed}

/-- The LIVE orders are those of the book, and everything is under its key. -/
structure Kept (s : Market) : Prop where
  live : s.prevLive = liveOf s.book
  held : Keyed s.held
  checks : ∀ check ∈ s.checks, outPointKey check.2.outPoint = some check.1

/-- An order is in the last snapshot or held. -/
def Known (s : Market) (key : String) : Prop := (s.prevLive.find? key).isSome ∨ (s.held.find? key).isSome

theorem kept_mounted (closed : Closed) (pending : List PendingRow) (token : String) :
    Kept (mounted closed pending token) where
  live := rfl
  held := fun _ h => (List.not_mem_nil h).elim
  checks := fun _ h => (List.not_mem_nil h).elim

theorem shownKeys_eq (s : Market) : shownKeys s =
    ((liveRows s).filterMap fun doc => outPointKey doc.outPoint) ++
      (heldRows s).filterMap fun entry => outPointKey entry.doc.outPoint := by
  have hsubmitted : ((ownPending s).map Row.submitted).filterMap Row.key = [] := by
    rw [List.filterMap_map]
    exact List.filterMap_eq_nil_iff.mpr fun _ _ => rfl
  rw [shownKeys, rows, List.filterMap_append, hsubmitted, List.append_nil, List.filterMap_append,
    List.filterMap_map, List.map_map, List.filterMap_map]
  rfl

theorem Kept.mem_heldKeys (h : Kept s) :
    (key ∈ (heldRows s).filterMap fun entry => outPointKey entry.doc.outPoint) ↔
      s.closed key = none ∧ (s.held.find? key).isSome := by
  rw [List.mem_filterMap]
  constructor
  · rintro ⟨entry, hentry, hkey⟩
    obtain ⟨hmem, hopen⟩ := List.mem_filter.mp hentry
    rw [Option.isNone_iff_eq_none, closedStatus_of_key hkey] at hopen
    refine ⟨hopen, ?_⟩
    obtain rfl := Option.some_inj.mp ((h.held entry hmem).symm.trans hkey)
    rw [Collection.find?_of_mem hmem]
    rfl
  · rintro ⟨hopen, hsome⟩
    obtain ⟨entry, hentry⟩ := Option.isSome_iff_exists.mp hsome
    obtain ⟨hmem, rfl⟩ := Collection.find?_eq_some.mp hentry
    refine ⟨entry, List.mem_filter.mpr ⟨hmem, ?_⟩, h.held entry hmem⟩
    rw [Option.isNone_iff_eq_none, closedStatus_of_key (h.held entry hmem)]
    exact hopen

theorem Kept.mem_liveKeys (h : Kept s) :
    (key ∈ (liveRows s).filterMap fun doc => outPointKey doc.outPoint) ↔
      s.closed key = none ∧ (s.prevLive.find? key).isSome := by
  rw [h.live, find?_liveOf, List.mem_filterMap]
  constructor
  · rintro ⟨doc, hmem, hkey⟩
    simp only [liveRows, List.mem_filter, Bool.and_eq_true, decide_eq_true_eq, Option.isNone_iff_eq_none,
      closedStatus_of_key hkey] at hmem
    exact ⟨hmem.2.2, doc, hmem.1, hmem.2.1, hkey⟩
  · rintro ⟨hopen, doc, hmem, hstatus, hkey⟩
    refine ⟨doc, ?_, hkey⟩
    simp only [liveRows, List.mem_filter, Bool.and_eq_true, decide_eq_true_eq, Option.isNone_iff_eq_none,
      closedStatus_of_key hkey]
    exact ⟨hmem, hstatus, hopen⟩

/-- What is shown is what is known and not closed. -/
theorem Kept.mem_shownKeys (h : Kept s) : key ∈ shownKeys s ↔ s.closed key = none ∧ Known s key := by
  rw [shownKeys_eq, List.mem_append, h.mem_liveKeys, h.mem_heldKeys, Known, and_or_left]

theorem Kept.mem_leftBook {live : LiveOrders} (h : Kept s) (hmem : entry ∈ leftBook live s) :
    entry ∈ s.prevLive.docs ∧ (live.find? entry.1).isNone ∧ outPointKey entry.2.outPoint = some entry.1 := by
  obtain ⟨hprev, hgone⟩ := List.mem_filter.mp hmem
  rw [h.live] at hprev
  exact ⟨h.live ▸ hprev, hgone, (mem_liveOf hprev).2.2⟩

theorem Kept.applyBook (h : Kept s) (now : ℕ) (items : List OrderDocument) :
    Kept (applyBook now items s) where
  live := rfl
  held := (h.held.deleteWhere _).foldl_holdLeft fun _ hgone => (h.mem_leftBook hgone).2.2
  checks := by
    intro check hcheck
    rcases List.mem_append.mp hcheck with hold | hnew
    · exact h.checks check hold
    · exact (h.mem_leftBook (List.mem_filter.mp hnew).1).2.2

/-- An order that was known stays so, or is closed. -/
theorem Kept.known_applyBook (h : Kept s) (hknown : Known s key) :
    (s.closed key).isSome ∨ Known (MarketView.applyBook now items s) key := by
  by_cases hlive : ((liveOf items).find? key).isSome
  · exact Or.inr (Or.inl hlive)
  have hgone : ((liveOf items).find? key).isNone := by
    rw [Option.isNone_iff_eq_none]
    exact Option.not_isSome_iff_eq_none.mp hlive
  rcases hknown with hprev | hheld
  · obtain ⟨entry, hentry⟩ := Option.isSome_iff_exists.mp hprev
    obtain ⟨hmem, rfl⟩ := Collection.find?_eq_some.mp hentry
    have hleft : entry ∈ leftBook (liveOf items) s := List.mem_filter.mpr ⟨hmem, hgone⟩
    have hkey := (h.mem_leftBook hleft).2.2
    by_cases hclosed : (s.closed entry.1).isSome
    · exact Or.inl hclosed
    · refine Or.inr (Or.inr (find?_foldl_holdLeft hleft ?_))
      rw [closedStatus_of_key hkey]
      exact Bool.eq_false_iff.mpr hclosed
  · obtain ⟨entry, hentry⟩ := Option.isSome_iff_exists.mp hheld
    refine Or.inr (Or.inr (find?_foldl_holdLeft_kept ?_))
    have hkey := Collection.key_of_find? hentry
    rw [Collection.find?_deleteWhere, hentry, Option.filter_some_pos]
    · rfl
    · rw [hkey, Bool.not_eq_true', Bool.eq_false_iff]
      exact hlive

theorem Kept.applyTrades (h : Kept s) (items : List TradeDocument) : Kept (applyTrades items s) :=
  ⟨h.live, h.held, h.checks⟩

theorem Kept.applyLoad (h : Kept s) (now : ℕ) (items : List OrderDocument) (trades : List TradeDocument)
    (flying : List OrderDocument) : Kept (applyLoad now items trades flying s) := by
  have hloaded := (h.applyTrades trades).applyBook now items
  exact ⟨rfl, hloaded.held.foldl_holdInFlight, hloaded.checks⟩

theorem Kept.known_applyLoad (h : Kept s) (hknown : Known s key) :
    (markTradesFilled trades s.closed key).isSome ∨
      Known (MarketView.applyLoad now items trades flying s) key := by
  have hloaded : (markTradesFilled trades s.closed key).isSome ∨
      Known (MarketView.applyBook now items (MarketView.applyTrades trades s)) key :=
    (h.applyTrades trades).known_applyBook hknown
  rcases hloaded with hclosed | hlive | hheld
  · exact Or.inl hclosed
  · exact Or.inr (Or.inl hlive)
  · exact Or.inr (Or.inr (find?_foldl_holdInFlight_kept hheld))

theorem Kept.checkHeld (h : Kept s) (key : String) (doc : OrderDocument) (order : Option OrderDocument) :
    Kept (checkHeld key doc order s) := by
  unfold MarketView.checkHeld
  split_ifs
  · refine ⟨h.live, fun entry hentry => ?_, h.checks⟩
    have hmapped : entry ∈ (s.held.map (settleEntry key) (key_settleEntry key)).docs := hentry
    obtain ⟨old, hold, rfl⟩ := Collection.mem_docs_map.mp hmapped
    have hsame : (settleEntry key old).doc = old.doc := by
      unfold settleEntry
      split_ifs <;> rfl
    rw [hsame, key_settleEntry]
    exact h.held old hold
  · exact ⟨h.live, h.held.deleteWhere _, h.checks⟩

theorem find?_dropHeld {other : String} (hne : key ≠ other) (h : (s.held.find? key).isSome) :
    ((dropHeld other s).held.find? key).isSome := by
  obtain ⟨entry, hentry⟩ := Option.isSome_iff_exists.mp h
  have hkey := Collection.key_of_find? hentry
  rw [dropHeld, Collection.find?_deleteWhere, hentry, Option.filter_some_pos]
  · rfl
  · rw [hkey, Bool.not_eq_true', decide_eq_false_iff_not]
    exact hne

/-- An answer drops the order that it is about, which is then closed, unknown to
the backend or LIVE. -/
theorem known_checkHeld {other : String} (hkey : outPointKey doc.outPoint = some other)
    (hknown : Known s key) : ((checkHeld other doc order s).closed key).isSome ∨
      Known (checkHeld other doc order s) key ∨ key = other ∧ ∀ found, order = some found →
        found.status = .live := by
  unfold checkHeld
  split_ifs with hflight
  · refine Or.inr (Or.inl (hknown.imp_right fun hheld => ?_))
    rw [Collection.find?_map, Option.isSome_map]
    exact hheld
  · rcases hknown with hlive | hheld
    · exact Or.inr (Or.inl (Or.inl hlive))
    by_cases hsame : key = other
    · subst hsame
      cases order with
      | none => exact Or.inr (Or.inr ⟨rfl, fun _ h => by cases h⟩)
      | some found =>
          by_cases hstatus : found.status = .live
          · refine Or.inr (Or.inr ⟨rfl, fun other h => ?_⟩)
            obtain rfl := Option.some_inj.mp h
            exact hstatus
          · refine Or.inl ?_
            simp only [dropHeld, Option.elim_some, if_neg hstatus]
            exact isSome_markClosed List.mem_cons_self hkey
    · exact Or.inr (Or.inl (Or.inr (find?_dropHeld hsame hheld)))

theorem Kept.recheckHeld (h : Kept s) (now : ℕ) : Kept (recheckHeld now s) where
  live := h.live
  held := h.held.deleteWhere _
  checks := by
    intro check hcheck
    rcases List.mem_append.mp hcheck with hold | hnew
    · exact h.checks check hold
    · obtain ⟨entry, hentry, rfl⟩ := List.mem_map.mp hnew
      exact h.held entry (List.mem_filter.mp hentry).1

theorem known_recheckHeld (hknown : Known s key) : Known (recheckHeld now s) key ∨
    ∃ entry ∈ s.held.docs, entry.key = key ∧ entry.since + heldMaxAge < now := by
  rcases hknown with hlive | hheld
  · exact Or.inl (Or.inl hlive)
  · obtain ⟨entry, hentry⟩ := Option.isSome_iff_exists.mp hheld
    by_cases hstale : entry.since + heldMaxAge < now
    · obtain ⟨hmem, hkey⟩ := Collection.find?_eq_some.mp hentry
      exact Or.inr ⟨entry, hmem, hkey, hstale⟩
    · refine Or.inl (Or.inr ?_)
      rw [recheckHeld, Collection.find?_deleteWhere, hentry, Option.filter_some_pos]
      · rfl
      · rw [isStale, decide_eq_false hstale]
        rfl

theorem recheckHeld_recent {entry : HeldOrder} (h : entry ∈ (recheckHeld now s).held.docs) :
    now ≤ entry.since + heldMaxAge := by
  have hrecent := (Collection.mem_docs_deleteWhere.mp h).2
  rw [isStale, decide_eq_false_iff_not] at hrecent
  exact not_lt.mp hrecent

theorem Kept.next (h : Kept s) (now : ℕ) (e : Event) : Kept (next now s e) := by
  have herased : ∀ check, Kept { s with checks := s.checks.erase check } := fun check =>
    ⟨h.live, h.held, fun other hother => h.checks other (List.mem_of_mem_erase hother)⟩
  cases e with
  | load items trades flying => exact h.applyLoad now items trades flying
  | book items => exact h.applyBook now items
  | trades items => exact h.applyTrades items
  | answer key doc order => exact (herased (key, doc)).checkHeld key doc order
  | failure key doc => exact herased (key, doc)
  | recheck => exact h.recheckHeld now
  | closed entries => exact ⟨h.live, h.held, h.checks⟩
  | submitted row => exact ⟨h.live, h.held, h.checks⟩
  | indexed txHashes => exact ⟨h.live, h.held, h.checks⟩

theorem extends_checkHeld (s : Market) : Extends s.closed (checkHeld key doc order s).closed := by
  unfold checkHeld
  split_ifs
  · exact Extends.refl s.closed
  · cases order with
    | none => exact Extends.refl s.closed
    | some found =>
        simp only [dropHeld, Option.elim_some]
        split_ifs
        · exact Extends.refl s.closed
        · exact extends_markClosed _ s.closed

theorem extends_next : Extends s.closed (next now s e).closed := by
  cases e with
  | load items trades flying => exact extends_markClosed _ s.closed
  | book items => exact Extends.refl s.closed
  | trades items => exact extends_markClosed _ s.closed
  | answer key doc order => exact extends_checkHeld { s with checks := s.checks.erase (key, doc) }
  | failure key doc => exact Extends.refl s.closed
  | recheck => exact Extends.refl s.closed
  | closed entries => exact extends_markClosed _ s.closed
  | submitted row => exact Extends.refl s.closed
  | indexed txHashes => exact Extends.refl s.closed

/-- What is known stays known, is closed, or is dropped for a reason. -/
theorem Kept.known_next (h : Kept s) (hpossible : e.Possible s) (hknown : Known s key) :
    ((MarketView.next now s e).closed key).isSome ∨ Known (MarketView.next now s e) key ∨
      Drops now s key e := by
  cases e with
  | load items trades flying => exact (h.known_applyLoad hknown).imp_right Or.inl
  | book items => exact (h.known_applyBook hknown).imp_right Or.inl
  | trades items => exact Or.inr (Or.inl hknown)
  | answer other doc order =>
      have hasked : Known { s with checks := s.checks.erase (other, doc) } key := hknown
      rcases known_checkHeld (h.checks _ hpossible) hasked with hclosed | hstays | ⟨rfl, hlive⟩
      · exact Or.inl hclosed
      · exact Or.inr (Or.inl hstays)
      · refine Or.inr (Or.inr ?_)
        cases order with
        | none => exact .unknown doc
        | some found => exact .reopened doc found (hlive found rfl)
  | failure other doc => exact Or.inr (Or.inl hknown)
  | recheck =>
      rcases known_recheckHeld hknown with hstays | ⟨entry, hmem, hsame, hold⟩
      · exact Or.inr (Or.inl hstays)
      · exact Or.inr (Or.inr (.expired entry hmem hsame hold))
  | closed entries => exact Or.inr (Or.inl hknown)
  | submitted row => exact Or.inr (Or.inl hknown)
  | indexed txHashes => exact Or.inr (Or.inl hknown)

theorem checkHeld_pending (s : Market) : (checkHeld key doc order s).pending = s.pending ∧
    (checkHeld key doc order s).token = s.token := by
  unfold checkHeld
  split_ifs <;> exact ⟨rfl, rfl⟩

theorem token_next : (next now s e).token = s.token := by
  cases e with
  | answer key doc order => exact (checkHeld_pending { s with checks := s.checks.erase (key, doc) }).2
  | _ => rfl

/-- A submitted order stays pending, or is cleared. -/
theorem pending_next {row : PendingRow} (hrow : row ∈ s.pending) :
    row ∈ (next now s e).pending ∨ Clears row.txHash e := by
  cases e with
  | answer key doc order =>
      have hsame := (@checkHeld_pending key doc order { s with checks := s.checks.erase (key, doc) }).1
      exact Or.inl (hsame.symm ▸ hrow)
  | submitted other =>
      by_cases hsame : other.txHash = row.txHash
      · exact Or.inr (.again other hsame)
      · exact Or.inl (mem_addPending.mpr (Or.inr ⟨hrow, Ne.symm hsame⟩))
  | indexed txHashes =>
      by_cases hmem : row.txHash ∈ txHashes
      · exact Or.inr (.indexed txHashes hmem)
      · exact Or.inl (mem_removePending.mpr ⟨hrow, hmem⟩)
  | _ => exact Or.inl hrow

theorem nodup_pending_next (h : (s.pending.map PendingRow.txHash).Nodup) :
    ((next now s e).pending.map PendingRow.txHash).Nodup := by
  cases e with
  | answer key doc order =>
      have hsame := (@checkHeld_pending key doc order { s with checks := s.checks.erase (key, doc) }).1
      exact hsame.symm ▸ h
  | submitted row => exact nodup_addPending h row
  | indexed txHashes => exact nodup_removePending h txHashes
  | _ => exact h

theorem mem_ownPending {row : PendingRow} : row ∈ ownPending s ↔ row ∈ s.pending ∧
    row.xudtTypeHash = some s.token ∧ ∀ doc ∈ liveRows s, doc.outPoint.txHash ≠ row.txHash := by
  simp [ownPending]

/-- No held order is in the last snapshot. -/
def Disjoint (s : Market) : Prop := ∀ entry ∈ s.held.docs, s.prevLive.find? entry.key = none

theorem mem_foldl_holdLeft {held : HeldOrders} {left : List (String × OrderDocument)} {entry : HeldOrder}
    (h : entry ∈ (left.foldl (holdLeft closed now) held).docs) :
    entry ∈ held.docs ∨ ∃ gone ∈ left, gone.1 = entry.key := by
  induction left generalizing held with
  | nil => exact Or.inl h
  | cons gone left ih =>
      rcases ih h with hmem | ⟨other, hother, hkey⟩
      · unfold holdLeft at hmem
        split_ifs at hmem
        · exact Or.inl hmem
        · rcases Collection.mem_docs_put.mp hmem with rfl | ⟨hold, -⟩
          · exact Or.inr ⟨gone, List.mem_cons_self, rfl⟩
          · exact Or.inl hold
      · exact Or.inr ⟨other, List.mem_cons_of_mem _ hother, hkey⟩

theorem mem_foldl_holdInFlight {held : HeldOrders} {entry : HeldOrder}
    (h : entry ∈ (flying.foldl (holdInFlight closed now) held).docs) :
    entry ∈ held.docs ∨ ∃ doc ∈ flying, outPointKey doc.outPoint = some entry.key := by
  induction flying generalizing held with
  | nil => exact Or.inl h
  | cons doc flying ih =>
      rcases ih h with hmem | ⟨other, hother, hkey⟩
      · unfold holdInFlight at hmem
        cases hkey : outPointKey doc.outPoint with
        | none =>
            rw [hkey] at hmem
            exact Or.inl hmem
        | some key =>
            rw [hkey, Option.elim_some] at hmem
            split_ifs at hmem
            · exact Or.inl hmem
            · rcases Collection.mem_docs_put.mp hmem with rfl | ⟨hold, -⟩
              · exact Or.inr ⟨doc, List.mem_cons_self, hkey⟩
              · exact Or.inl hold
      · exact Or.inr ⟨other, List.mem_cons_of_mem _ hother, hkey⟩

/-- Whatever was held before, a snapshot parts the two. -/
theorem disjoint_applyBook (now : ℕ) (items : List OrderDocument) (s : Market) :
    Disjoint (applyBook now items s) := by
  intro entry hentry
  rcases mem_foldl_holdLeft hentry with hkept | ⟨gone, hgone, hkey⟩
  · have hnot := (Collection.mem_docs_deleteWhere.mp hkept).2
    rw [← Option.not_isSome_iff_eq_none]
    exact Bool.eq_false_iff.mp hnot
  · rw [← hkey]
    exact Option.isNone_iff_eq_none.mp (List.mem_filter.mp hgone).2

theorem Disjoint.next (h : Disjoint s) (hapart : e.Apart) : Disjoint (next now s e) := by
  cases e with
  | load items trades flying =>
      intro entry hentry
      rcases mem_foldl_holdInFlight hentry with hkept | ⟨doc, hdoc, hkey⟩
      · exact disjoint_applyBook now items (applyTrades trades s) entry hkept
      · exact hapart.2 doc hdoc entry.key hkey
  | book items => exact disjoint_applyBook now items s
  | answer key doc order =>
      change Disjoint (checkHeld key doc order { s with checks := s.checks.erase (key, doc) })
      unfold checkHeld
      split_ifs
      · intro entry hentry
        have hmapped : entry ∈ (s.held.map (settleEntry key) (key_settleEntry key)).docs := hentry
        obtain ⟨old, hold, rfl⟩ := Collection.mem_docs_map.mp hmapped
        rw [key_settleEntry]
        exact h old hold
      · exact fun entry hentry => h entry (Collection.mem_docs_deleteWhere.mp hentry).1
  | recheck => exact fun entry hentry => h entry (Collection.mem_docs_deleteWhere.mp hentry).1
  | _ => exact h

theorem single_next (h : Single s.book) (hapart : e.Apart) : Single (next now s e).book := by
  cases e with
  | load items trades flying => exact hapart.1
  | book items => exact hapart
  | answer key doc order =>
      have hbook : (next now s (.answer key doc order)).book = s.book := by
        simp only [next, checkHeld]
        split_ifs <;> rfl
      rw [hbook]
      exact h
  | _ => exact h

theorem Kept.nodup_shownKeys (h : Kept s) (hdisjoint : Disjoint s) (hsingle : Single s.book) :
    (shownKeys s).Nodup := by
  rw [shownKeys_eq]
  refine List.Nodup.append ?_ ?_ ?_
  · exact hsingle.sublist (List.filter_sublist.filterMap _)
  · have hkeys : ((heldRows s).filterMap fun entry => outPointKey entry.doc.outPoint) =
        (heldRows s).map HeldOrder.key := by
      rw [← List.filterMap_eq_map]
      exact List.filterMap_congr fun entry hentry => h.held entry (List.mem_filter.mp hentry).1
    rw [hkeys]
    exact s.held.nodup.sublist (List.filter_sublist.map HeldOrder.key)
  · intro key hlive hheld
    obtain ⟨entry, hentry⟩ := Option.isSome_iff_exists.mp (h.mem_heldKeys.mp hheld).2
    obtain ⟨hmem, rfl⟩ := Collection.find?_eq_some.mp hentry
    have hsome := (h.mem_liveKeys.mp hlive).2
    rw [hdisjoint entry hmem] at hsome
    cases hsome

end

section
variable {allows : Event → Prop} {reason : ℕ → Market → Event → Prop} {s t u : Market} {key : String}

theorem Kept.runs (h : Kept s) (hrun : Runs allows s t) : Kept t := by
  induction hrun with
  | refl => exact h
  | tail _ hstep ih =>
      cases hstep with
      | event now _ e _ _ => exact ih.next now e

theorem extends_runs (hrun : Runs allows s t) : Extends s.closed t.closed := by
  induction hrun with
  | refl => exact Extends.refl s.closed
  | tail _ hstep ih =>
      cases hstep with
      | event now _ e _ _ => exact ih.trans extends_next

theorem nodup_pending_runs (h : (s.pending.map PendingRow.txHash).Nodup) (hrun : Runs allows s t) :
    (t.pending.map PendingRow.txHash).Nodup := by
  induction hrun with
  | refl => exact h
  | tail _ hstep ih =>
      cases hstep with
      | event now _ e _ _ => exact nodup_pending_next ih

theorem apart_runs (hdisjoint : Disjoint s) (hsingle : Single s.book) (hrun : Runs Event.Apart s t) :
    Disjoint t ∧ Single t.book := by
  induction hrun with
  | refl => exact ⟨hdisjoint, hsingle⟩
  | tail _ hstep ih =>
      cases hstep with
      | event now _ e _ hapart => exact ⟨ih.1.next hapart, single_next ih.2 hapart⟩

theorem Passed.step (h : Passed reason s t) (hstep : Step anyEvent t u) : Passed reason s u := by
  obtain ⟨now, v, e, hbefore, hpossible, hreason, hafter⟩ := h
  exact ⟨now, v, e, hbefore, hpossible, hreason, hafter.tail hstep⟩

/-- What each event keeps but for a reason is kept over a run, or there was such a
reason on the way. -/
theorem kept_or_passed {holds : Market → Prop} (hrun : Runs anyEvent s t) (h : holds s)
    (hnext : ∀ now u e, Runs anyEvent s u → e.Possible u → holds u → holds (next now u e) ∨ reason now u e) :
    holds t ∨ Passed reason s t := by
  induction hrun with
  | refl => exact Or.inl h
  | tail hbefore hstep ih =>
      rcases ih with hkept | hpassed
      · cases hstep with
        | event now _ e hpossible hallowed =>
            refine (hnext now _ e hbefore hpossible hkept).imp_right fun hreason => ?_
            exact ⟨now, _, e, hbefore, hpossible, hreason, .refl⟩
      · exact Or.inr (hpassed.step hstep)

theorem Kept.known_runs (h : Kept s) (hrun : Runs anyEvent s t) (hknown : Known s key) :
    ((t.closed key).isSome ∨ Known t key) ∨ Dropped s t key := by
  apply kept_or_passed hrun (Or.inr hknown)
  intro now u e hbefore hpossible hkept
  rcases hkept with hclosed | hstays
  · exact Or.inl (Or.inl (extends_next.isSome hclosed))
  · exact or_assoc.mpr ((h.runs hbefore).known_next hpossible hstays)

theorem pending_runs {row : PendingRow} (hrun : Runs anyEvent s t) (hrow : row ∈ s.pending) :
    (row ∈ t.pending ∧ t.token = s.token) ∨ Cleared s t row.txHash := by
  apply kept_or_passed hrun ⟨hrow, rfl⟩
  intro now u e _ _ hkept
  exact (pending_next hkept.1).imp_left fun hstays => ⟨hstays, token_next.trans hkept.2⟩

end

/-- **No order vanishes without a reason.** Over every run, a listed order that is
shown is shown until it is known to be closed, or vanishes for one of three
reasons. What is closed stays closed in the same way, and is not listed. A recheck
leaves no order held for more than half an hour. No listed order is shown twice, if
no snapshot lists one twice and what is loaded in flight is never LIVE in the book
loaded with it. A submitted order is shown until it is cleared or a LIVE order of
its transaction is, once and never beside such an order. -/
theorem shown_orders_accounted (closed : Closed) (pending : List PendingRow) (token : String) {s t : Market}
    (h : Runs anyEvent (mounted closed pending token) s) (hrun : Runs anyEvent s t) :
    (∀ key ∈ shownKeys s, key ∈ shownKeys t ∨ (t.closed key).isSome ∨ Dropped s t key) ∧
    (∀ key status, s.closed key = some status → t.closed key = some status ∧ key ∉ shownKeys t) ∧
    (∀ now, ∀ entry ∈ (next now t .recheck).held.docs, now ≤ entry.since + heldMaxAge) ∧
    (Runs Event.Apart (mounted closed pending token) t → (shownKeys t).Nodup) ∧
    (∀ row ∈ ownPending s, row ∈ ownPending t ∨
      (∃ doc ∈ liveRows t, doc.outPoint.txHash = row.txHash) ∨ Cleared s t row.txHash) ∧
    ((pending.map PendingRow.txHash).Nodup → ((ownPending t).map PendingRow.txHash).Nodup) ∧
    ∀ row ∈ ownPending t, ∀ doc ∈ liveRows t, doc.outPoint.txHash ≠ row.txHash := by
  have hs : Kept s := (kept_mounted closed pending token).runs h
  have ht : Kept t := hs.runs hrun
  refine ⟨fun key hshown => ?_, fun key status hstatus => ?_, fun now entry => recheckHeld_recent,
    fun hapart => ?_, fun row hrow => ?_, fun hnodup => ?_, fun row hrow => (mem_ownPending.mp hrow).2.2⟩
  · obtain ⟨hopen, hknown⟩ := hs.mem_shownKeys.mp hshown
    rcases hs.known_runs hrun hknown with (hclosed | hstays) | hdropped
    · exact Or.inr (Or.inl hclosed)
    · by_cases hclosed : (t.closed key).isSome
      · exact Or.inr (Or.inl hclosed)
      · exact Or.inl (ht.mem_shownKeys.mpr ⟨Option.not_isSome_iff_eq_none.mp hclosed, hstays⟩)
    · exact Or.inr (Or.inr hdropped)
  · have hlater := extends_runs hrun key status hstatus
    refine ⟨hlater, fun hshown => ?_⟩
    rw [(ht.mem_shownKeys.mp hshown).1] at hlater
    cases hlater
  · have hempty : Disjoint (mounted closed pending token) := fun _ h => (List.not_mem_nil h).elim
    have hsingle : Single (mounted closed pending token).book := List.nodup_nil
    obtain ⟨hdisjoint, honce⟩ := apart_runs hempty hsingle hapart
    exact ht.nodup_shownKeys hdisjoint honce
  · obtain ⟨hmem, htoken, -⟩ := mem_ownPending.mp hrow
    rcases pending_runs hrun hmem with ⟨hstays, hsame⟩ | hcleared
    · by_cases hlive : ∃ doc ∈ liveRows t, doc.outPoint.txHash = row.txHash
      · exact Or.inr (Or.inl hlive)
      · refine Or.inl (mem_ownPending.mpr ⟨hstays, htoken.trans (by rw [hsame]), fun doc hdoc hhash => ?_⟩)
        exact hlive ⟨doc, hdoc, hhash⟩
    · exact Or.inr (Or.inr hcleared)
  · have hstore := nodup_pending_runs (nodup_pending_runs hnodup h) hrun
    exact hstore.sublist (List.filter_sublist.map PendingRow.txHash)

section
open Acceptance

/-- An order that the wallet has submitted. -/
def exampleRow : PendingRow := ⟨"0xsubmitted", some "0xtoken"⟩

def exampleMounted : Market := mounted (fun _ => none) [exampleRow] "0xtoken"

def exampleShown : Market := next 0 exampleMounted (.book [exampleBuy, exampleSell])

/-- The two orders have left the book. -/
def exampleLeft : Market := next 5000 exampleShown (.book [])

theorem exampleBook_apart : (Event.book [exampleBuy, exampleSell]).Apart := by
  unfold Event.Apart Single
  decide +kernel

theorem exampleShown_runs {allows : Event → Prop} (h : allows (.book [exampleBuy, exampleSell])) :
    Runs allows exampleMounted exampleShown :=
  .single (.event 0 _ _ trivial h)

theorem exampleLeft_runs {allows : Event → Prop} (h : allows (.book [])) :
    Runs allows exampleShown exampleLeft :=
  .single (.event 5000 _ _ trivial h)

/-- The orders that left are held, and the submitted one is still shown. -/
theorem shown_orders_accounted_example : ∃ key, outPointKey exampleBuy.outPoint = some key ∧
    (key ∈ shownKeys exampleLeft ∨ (exampleLeft.closed key).isSome ∨ Dropped exampleShown exampleLeft key) ∧
    (shownKeys exampleLeft).Nodup ∧
    (exampleRow ∈ ownPending exampleLeft ∨
      (∃ doc ∈ liveRows exampleLeft, doc.outPoint.txHash = exampleRow.txHash) ∨
        Cleared exampleShown exampleLeft exampleRow.txHash) := by
  obtain ⟨key, hkey⟩ := Option.isSome_iff_exists.mp
    (show (outPointKey exampleBuy.outPoint).isSome = true by decide +kernel)
  have hshown : key ∈ shownKeys exampleShown := by
    rw [shownKeys_eq]
    refine List.mem_append_left _ (List.mem_filterMap.mpr ⟨exampleBuy, List.mem_filter.mpr
      ⟨List.mem_cons_self, ?_⟩, hkey⟩)
    rw [closedStatus_of_key hkey]
    rfl
  obtain ⟨hkept, -, -, honce, hpending, -⟩ := shown_orders_accounted (fun _ => none) [exampleRow] "0xtoken"
    (exampleShown_runs trivial) (exampleLeft_runs trivial)
  refine ⟨key, hkey, hkept key hshown, honce ?_, hpending exampleRow ?_⟩
  · exact (exampleShown_runs exampleBook_apart).trans (exampleLeft_runs List.nodup_nil)
  · refine mem_ownPending.mpr ⟨List.mem_singleton_self _, rfl, fun doc hdoc => ?_⟩
    have hlisted : ∀ other ∈ [exampleBuy, exampleSell], other.outPoint.txHash ≠ exampleRow.txHash := by
      decide +kernel
    exact hlisted doc (List.mem_filter.mp hdoc).1

end

end CkbDex.MarketView
