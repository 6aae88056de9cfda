import CkbDex.ChainEvents

/-!
# One delivery

An event about the chain passes verification on every node of that chain. What
its delivery does to the projection depends on the events delivered before only.
-/
namespace CkbDex.Convergence
open BotEvents Bytes CellContext Checked Collections Documents EventVerification IngestionSteps
open Operations Programs Projection ProjectionSteps

/-- A node that knows no transaction. -/
def blankNode : Node where
  getTip := .ok 0
  getHeaderHash := fun _ => .ok none
  getTransaction := fun _ => .ok none
  getTransactionNoCache := fun _ => .ok none
  getCell := fun _ => .ok none
  getCellLive := fun _ => .ok false
  findCells := fun _ _ => .ok []
  findTransactionsByLock := fun _ => .ok []
  sendTransaction := fun _ => .error (.other "unknown transaction")
  now := 0

section
variable {drivers : Drivers} {node : Node} {v : ChainVerification} {events es : List BotEvent}
  {x : BotEvent} {db : Db}

theorem not_found_blankNode {hash : Script → Hash} {txHash : Hex} {response : TxResponse}
    {tx : ChainTransaction} : ¬Found hash blankNode txHash response tx := by
  intro hfound
  obtain ⟨key, -, hanswer⟩ := hfound.key
  cases hanswer

/-- A search that cannot find all orders of a fill or a cancellation ends its
verification. -/
theorem ChainEvents.unchecked_of_incomplete (h : ChainEvents drivers node v events) (hx : x ∈ events)
    (hdb : Projects es db) (hspend : isSpend x = true) (hincomplete : ¬Complete es x) :
    Unchecked drivers v x db := by
  intro node
  have hmissing := mt hdb.complete_iff.mpr hincomplete
  cases x with
  | orderCancelled e =>
      have hnone : db.orders.find? (toOrderId e.outPoint) = none := by
        simpa [namedIds] using hmissing
      exact run_verifyOrderCancelled_unstored hnone
  | tradeConfirmed e =>
      have hlen : (db.findOrders (tradeIds e)).length ≠ 2 := fun hlen =>
        hmissing ((length_findOrders_iff (h.distinct _ hx)).mp hlen)
      exact run_verifyTradeConfirmed_unstored (h.traded e hx).1 hlen
  | orderConfirmed => cases hspend
  | settlementSubmitted => cases hspend
  | chainReorg => cases hspend

/-- Nothing else passes whatever the chain says. -/
theorem ChainEvents.unchecked_iff (h : ChainEvents drivers node v events) (hx : x ∈ events)
    (hdb : Projects es db) : Unchecked drivers v x db ↔ isSpend x = true ∧ ¬Complete es x := by
  constructor
  · intro hunchecked
    have hverify := hunchecked blankNode
    cases x with
    | orderConfirmed e =>
        obtain ⟨response, tx, cell, terms, hverified⟩ := run_verifyOrderConfirmed hverify
        exact absurd hverified.confirmed.toFound not_found_blankNode
    | orderCancelled e =>
        refine ⟨rfl, fun hcomplete => ?_⟩
        obtain ⟨order, horder⟩ := Option.ne_none_iff_exists'.mp
          (hdb.complete_iff.mp hcomplete (toOrderId e.outPoint) List.mem_cons_self)
        obtain ⟨response, tx, hverified⟩ := run_verifyOrderCancelled hverify horder
        exact not_found_blankNode hverified.confirmed.toFound
    | settlementSubmitted e =>
        simp only [verifyEvent, verifySettlementSubmitted, run, eval_bind_eq_ok, eval_require,
          Prod.mk.injEq, bind_eq_ok, okOr_eq_ok] at hverify
        obtain ⟨read, next, hread, ⟨tx, rfl, -⟩, -⟩ := hverify
        obtain ⟨response, hfound⟩ := run_readTransaction hread
        exact absurd hfound not_found_blankNode
    | tradeConfirmed e =>
        refine ⟨rfl, fun hcomplete => ?_⟩
        have htwo : (db.findOrders (tradeIds e)).length = 2 :=
          (length_findOrders_iff (h.distinct _ hx)).mpr (hdb.complete_iff.mp hcomplete)
        obtain ⟨-, buy, sell, response, tx, -, -, hverified⟩ := run_verifyTradeConfirmed hverify htwo
        exact not_found_blankNode hverified.confirmed.toFound
    | chainReorg e => exact absurd hx (h.noReorg e)
  · rintro ⟨hspend, hincomplete⟩
    exact h.unchecked_of_incomplete hx hdb hspend hincomplete

/-- Verification passes, or has nothing to compare with. -/
theorem ChainEvents.run_verify (h : ChainEvents drivers node v events)
    (hsub : ∀ event ∈ es, event ∈ events) (hx : x ∈ events) (hdb : Projects es db) :
    run drivers node (verifyEvent v x) db = (.ok (), db) := by
  by_cases hspend : isSpend x = true
  · by_cases hcomplete : Complete es x
    · apply h.verified x hx db
      intro _ id hid
      obtain ⟨order, horder⟩ := Option.ne_none_iff_exists'.mp (hdb.complete_iff.mp hcomplete id hid)
      obtain ⟨created, decisive, hmem, hcreated, -, rfl⟩ := hdb.present id order horder
      exact ⟨created, _, hsub _ hmem, hcreated, horder, factsOf_finalDocument created decisive⟩
    · exact h.unchecked_of_incomplete hx hdb hspend hcomplete node
  · exact h.verified x hx db fun hspent => absurd hspent hspend

end

section
variable {drivers : Drivers} {node : Node} {v : ChainVerification} {events es : List BotEvent}
  {x : BotEvent} {db : Db}

theorem settlementSubmitted_of_named {id : String} (hid : id ∈ namedIds x) (hspend : ¬isSpend x = true) :
    ∃ e, x = .settlementSubmitted e := by
  cases x with
  | settlementSubmitted e => exact ⟨e, rfl⟩
  | orderCancelled => exact absurd rfl hspend
  | tradeConfirmed => exact absurd rfl hspend
  | orderConfirmed => exact absurd hid List.not_mem_nil
  | chainReorg => exact absurd hid List.not_mem_nil

/-- Two spends of one order, or two submissions, are the same event. -/
theorem ChainEvents.eq_of_share (h : ChainEvents drivers node v events) {a b : BotEvent} {id : String}
    (ha : a ∈ events) (hb : b ∈ events) (hida : id ∈ namedIds a) (hidb : id ∈ namedIds b)
    (hkind : isSpend a = true ↔ isSpend b = true) : a = b := by
  by_cases hspend : isSpend a = true
  · exact h.spentOnce a ha b hb hspend (hkind.mp hspend) ⟨id, hida, hidb⟩
  · obtain ⟨s, rfl⟩ := settlementSubmitted_of_named hida hspend
    obtain ⟨t, rfl⟩ := settlementSubmitted_of_named hidb (mt hkind.mpr hspend)
    exact congrArg _ (h.submittedOnce s t ha hb ⟨id, hida, hidb⟩)

/-- An order is spent by no other event. -/
theorem ChainEvents.decisive_of_spend (h : ChainEvents drivers node v events)
    (hsub : ∀ event ∈ es, event ∈ events) (hx : x ∈ events) (hnew : x ∉ es) (hspend : isSpend x = true)
    {id : String} (hid : id ∈ namedIds x) {decisive : Option BotEvent} (hd : Decides es id decisive) :
    decisive = none ∨ ∃ e, decisive = some (.settlementSubmitted e) := by
  rcases decisive with _ | event
  · exact Or.inl rfl
  · obtain ⟨hinTime, hnamed, -⟩ := hd
    by_cases hspent : isSpend event = true
    · have hsame := h.spentOnce x hx event (hsub event hinTime.mem) hspend hspent ⟨id, hid, hnamed⟩
      exact absurd hinTime.mem (hsame ▸ hnew)
    · obtain ⟨e, rfl⟩ := settlementSubmitted_of_named hnamed hspent
      exact Or.inr ⟨e, rfl⟩

/-- An event is applied to the projection of those before it. -/
def Applies (drivers : Drivers) (es : List BotEvent) (x : BotEvent) (db : Db) : Prop :=
  ∃ result next, applyEvent drivers x db = .ok (result, next) ∧ Projects (es ++ [x]) next

theorem ChainEvents.applies_orderConfirmed (h : ChainEvents drivers node v events)
    (hsub : ∀ event ∈ es, event ∈ events) (hdb : Projects es db) {e : OrderConfirmedEvent}
    (hx : .orderConfirmed e ∈ events) (hnew : .orderConfirmed e ∉ es) :
    Applies drivers es (.orderConfirmed e) db := by
  have hnone : db.orders.find? (toOrderId e.outPoint) = none := by
    by_contra hfound
    obtain ⟨created, hmem, hcreated⟩ := hdb.found_iff.mp hfound
    have hsame := h.createdOnce _ hx created (hsub created hmem) hcreated.symm (by simp [createdId])
    exact hnew (hsame ▸ hmem)
  obtain ⟨hprice, hblock, hindex⟩ := h.created e hx
  have happly : applyOrderConfirmed drivers e db =
      .ok (applied e.eventId, db.putOrder (confirmedDocument none e)) := by
    apply applyOrderConfirmed_eq_ok.mpr
    rw [hnone]
    exact Or.inr ⟨rfl, hprice, hblock, hindex, rfl, rfl⟩
  have hfind : ∀ id, (db.putOrder (confirmedDocument none e)).orders.find? id =
      if toOrderId e.outPoint = id then some (confirmedDocument none e) else db.orders.find? id := by
    intro id
    exact Collection.find?_put
  refine ⟨_, _, happly, ?_, ?_, hdb.trades_concat (by simp)⟩
  · intro id hid created hmem
    rw [hfind] at hid
    split_ifs at hid with hsame
    rcases List.mem_append.mp hmem with hmem | hmem
    · exact hdb.absent id hid created hmem
    · rw [List.mem_singleton.mp hmem]
      exact fun hcreated => hsame (Option.some_inj.mp hcreated)
  · intro id order hid
    rw [hfind] at hid
    split_ifs at hid with hsame
    · refine ⟨e, none, by simp, hsame, ?_, (Option.some_inj.mp hid).symm⟩
      intro event hinTime hnamed
      rcases inTime_concat.mp hinTime with hold | ⟨rfl, -⟩
      · exact hdb.found_iff.mpr (hold.complete id hnamed) (hsame ▸ hnone)
      · exact absurd hnamed List.not_mem_nil
    · obtain ⟨created, decisive, hmem, hcreated, hd, horder⟩ := hdb.present id order hid
      exact ⟨created, decisive, List.mem_append_left _ hmem, hcreated, hd.concat List.not_mem_nil, horder⟩

theorem ChainEvents.applies_orderCancelled (h : ChainEvents drivers node v events)
    (hsub : ∀ event ∈ es, event ∈ events) (hdb : Projects es db) {e : OrderCancelledEvent}
    (hx : .orderCancelled e ∈ events) (hnew : .orderCancelled e ∉ es) :
    Applies drivers es (.orderCancelled e) db := by
  by_cases hcomplete : Complete es (.orderCancelled e)
  · obtain ⟨order, horder⟩ :=
      Option.ne_none_iff_exists'.mp (hdb.complete_iff.mp hcomplete _ List.mem_cons_self)
    have hnone : ∀ {decisive}, Decides es (toOrderId e.outPoint) decisive → decisive = none := by
      intro decisive hd
      apply (h.decisive_of_spend hsub hx hnew rfl List.mem_cons_self hd).resolve_right
      rintro ⟨s, rfl⟩
      exact h.notCancelled s e (hsub _ hd.1.mem) hx ⟨_, hd.2.1, List.mem_cons_self⟩
    obtain ⟨created, decisive, -, hid, hd, rfl⟩ := hdb.present _ order horder
    obtain rfl := hnone hd
    have happly : applyOrderCancelled e db = .ok (applied e.eventId,
        db.putOrder (cancelledDocument e (confirmedDocument none created))) :=
      applyOrderCancelled_eq_ok.mpr (Or.inr ⟨_, horder, rfl, rfl, rfl⟩)
    refine ⟨_, _, happly, hdb.update (cancelledDocument e) rfl ?_ ?_ (hdb.trades_concat (by simp))⟩
    · intro id
      have hput : (db.putOrder (cancelledDocument e (confirmedDocument none created))).orders.find? id =
          if toOrderId created.outPoint = id
          then some (cancelledDocument e (confirmedDocument none created)) else db.orders.find? id :=
        Collection.find?_put
      rw [hput]
      split_ifs with hsame
      · rw [← hsame, hid, horder, Option.map_some, if_pos]
        · rfl
        · exact List.mem_singleton.mpr hid
      · cases hfind : db.orders.find? id with
        | none => rfl
        | some old =>
            rw [Option.map_some, if_neg]
            rw [Collection.key_of_find? hfind, namedIds, List.mem_singleton, ← hid]
            exact fun heq => hsame heq.symm
    · intro id hnamed other decisive hd
      obtain rfl := List.mem_singleton.mp hnamed
      obtain rfl := hnone hd
      exact ⟨_, decides_spend hcomplete rfl hnamed, rfl⟩
  · have hnone : db.orders.find? (toOrderId e.outPoint) = none := by
      simpa [namedIds] using mt hdb.complete_iff.mpr hcomplete
    exact ⟨_, db, applyOrderCancelled_eq_ok.mpr (Or.inl ⟨hnone, rfl, rfl⟩), hdb.incomplete rfl hcomplete⟩

/-- The orders of an event may all turn to a status when those of them that are
stored may. -/
theorem Projects.ready {ids : List String} {status : OrderStatus} (hdb : Projects es db)
    (hids : namedIds x = ids) (hnodup : ids.Nodup) (hcomplete : Complete es x)
    (hallowed : ∀ id ∈ namedIds x, ∀ created decisive, Decides es id decisive →
      canTransition (finalDocument created decisive).status status = true) : Ready db ids status where
  found := by
    apply (length_findOrders_iff hnodup).mpr
    exact hids ▸ hdb.complete_iff.mp hcomplete
  allowed := by
    intro order hmem hid
    obtain ⟨created, decisive, -, -, hd, rfl⟩ := hdb.present _ order (Collection.find?_of_mem hmem)
    exact hallowed _ (hids ▸ hid) created decisive hd

theorem ChainEvents.applies_settlementSubmitted (h : ChainEvents drivers node v events)
    (hsub : ∀ event ∈ es, event ∈ events) (hdb : Projects es db) {e : SettlementSubmittedEvent}
    (hx : .settlementSubmitted e ∈ events) (hnew : .settlementSubmitted e ∉ es) :
    Applies drivers es (.settlementSubmitted e) db := by
  have htrades := hdb.trades_concat (x := .settlementSubmitted e) (by simp)
  by_cases hcomplete : Complete es (.settlementSubmitted e)
  · by_cases hfilled : ∃ fill, InTime es (.tradeConfirmed fill) ∧
        Share (.settlementSubmitted e) (.tradeConfirmed fill)
    · -- the orders are filled already, and stay so
      obtain ⟨fill, hinTime, hshare⟩ := hfilled
      have hids := h.settled e fill hx (hsub _ hinTime.mem) hshare
      have hfill : ∀ {id decisive}, id ∈ namedIds (.settlementSubmitted e) → Decides es id decisive →
          decisive = some (.tradeConfirmed fill) := by
        intro id decisive hid hd
        cases decisive with
        | none => exact absurd ((hids id).mp hid) (hd _ hinTime)
        | some event =>
            obtain ⟨hmem, hnamed, hlast⟩ := hd
            have hspend := hlast.resolve_right fun hnone => hnone _ hinTime rfl ((hids id).mp hid)
            exact congrArg some (h.spentOnce event (hsub _ hmem.mem) _ (hsub _ hinTime.mem) hspend rfl
              ⟨id, hnamed, (hids id).mp hid⟩)
      have hnot : ¬Ready db (e.orderOutPoints.map toOrderId) .pending := by
        intro hready
        obtain ⟨id, hid, -⟩ := hshare
        obtain ⟨order, horder⟩ := Option.ne_none_iff_exists'.mp (hdb.complete_iff.mp hcomplete id hid)
        obtain ⟨created, decisive, -, -, hd, rfl⟩ := hdb.present id order horder
        obtain ⟨hmem, hkey⟩ := Collection.find?_eq_some.mp horder
        have hallowed := hready.allowed _ hmem (hkey.symm ▸ hid)
        rw [hfill hid hd] at hallowed
        have hblocked : canTransition .filled .pending = false := by decide
        exact Bool.eq_false_iff.mp hblocked hallowed
      obtain ⟨result, happly⟩ := applySettlementSubmitted_of_not_ready hnot
      refine ⟨result, db, happly, hdb.update id rfl (fun id => by simp) ?_ htrades⟩
      intro id hid created decisive hd
      obtain rfl := hfill hid hd
      refine ⟨some (.tradeConfirmed fill), ⟨?_, (hids id).mp hid, Or.inl rfl⟩, rfl⟩
      exact inTime_concat.mpr (Or.inl hinTime)
    · -- nothing has happened to the orders
      have hspent : ∀ id ∈ namedIds (.settlementSubmitted e), ∀ spend, InTime es spend →
          isSpend spend = true → id ∉ namedIds spend := by
        intro id hid spend hinTime hspend hnamed
        cases spend with
        | tradeConfirmed fill => exact hfilled ⟨fill, hinTime, id, hid, hnamed⟩
        | orderCancelled c => exact h.notCancelled e c hx (hsub _ hinTime.mem) ⟨id, hid, hnamed⟩
        | orderConfirmed => cases hspend
        | settlementSubmitted => cases hspend
        | chainReorg => cases hspend
      have hnone : ∀ {id decisive}, id ∈ namedIds (.settlementSubmitted e) → Decides es id decisive →
          decisive = none := by
        intro id decisive hid hd
        rcases decisive with _ | event
        · rfl
        · obtain ⟨hinTime, hnamed, -⟩ := hd
          by_cases hspend : isSpend event = true
          · exact absurd hnamed (hspent id hid event hinTime hspend)
          · obtain ⟨other, rfl⟩ := settlementSubmitted_of_named hnamed hspend
            have hsame := h.submittedOnce e other hx (hsub _ hinTime.mem) ⟨id, hid, hnamed⟩
            exact absurd hinTime.mem (hsame ▸ hnew)
      have hready : Ready db (e.orderOutPoints.map toOrderId) .pending := by
        apply hdb.ready rfl (h.distinct _ hx) hcomplete
        intro id hid created decisive hd
        rw [hnone hid hd]
        rfl
      refine ⟨_, _, applySettlementSubmitted_of_ready hready,
        hdb.update (pendingDocument e) rfl (fun id => find?_saveOrders _ _ _) ?_ htrades⟩
      intro id hid created decisive hd
      obtain rfl := hnone hid hd
      refine ⟨some (.settlementSubmitted e), ⟨?_, hid, Or.inr ?_⟩, rfl⟩
      · exact inTime_concat.mpr (Or.inr ⟨rfl, hcomplete⟩)
      · intro spend hinTime hspend
        rcases inTime_concat.mp hinTime with hold | ⟨rfl, -⟩
        · exact hspent id hid spend hold hspend
        · cases hspend
  · have hnot : ¬Ready db (e.orderOutPoints.map toOrderId) .pending := fun hready =>
      hcomplete (hdb.complete_iff.mpr ((length_findOrders_iff (h.distinct _ hx)).mp hready.found))
    obtain ⟨result, happly⟩ := applySettlementSubmitted_of_not_ready hnot
    exact ⟨result, db, happly, hdb.incomplete rfl hcomplete⟩

theorem ChainEvents.applies_tradeConfirmed (h : ChainEvents drivers node v events)
    (hsub : ∀ event ∈ es, event ∈ events) (hdb : Projects es db) {e : TradeConfirmedEvent}
    (hx : .tradeConfirmed e ∈ events) (hnew : .tradeConfirmed e ∉ es) :
    Applies drivers es (.tradeConfirmed e) db := by
  by_cases hcomplete : Complete es (.tradeConfirmed e)
  · obtain ⟨hblock, hnumber⟩ := h.traded e hx
    have hopen : ∀ {id decisive}, id ∈ namedIds (.tradeConfirmed e) → Decides es id decisive →
        decisive = none ∨ ∃ s, decisive = some (.settlementSubmitted s) := by
      intro id decisive hid hd
      exact h.decisive_of_spend hsub hx hnew rfl hid hd
    have hready : Ready db (tradeIds e) .filled := by
      apply hdb.ready rfl (h.distinct _ hx) hcomplete
      intro id hid created decisive hd
      rcases hopen hid hd with rfl | ⟨s, rfl⟩ <;> rfl
    have hnone : db.trades.find? e.trade.settlementTxHash = none := by
      apply Option.eq_none_iff_forall_ne_some.mpr
      intro trade htrade
      obtain ⟨fill, hinTime, hhash, -⟩ := (hdb.trades _ trade).mp htrade
      have hsame := h.oneTrade fill e (hsub _ hinTime.mem) hx hhash
      exact hnew (hsame ▸ hinTime.mem)
    have happly := applyTradeConfirmed_of_ready hready (by rwa [hblock])
    rw [hnone] at happly
    refine ⟨_, _, happly, hdb.update (filledDocument e) rfl ?_ ?_ ?_⟩
    · intro id
      exact find?_saveOrders (tradeIds e) (filledDocument e) fun _ => rfl
    · intro id hid created decisive hd
      refine ⟨some (.tradeConfirmed e), decides_spend hcomplete rfl hid, ?_⟩
      rcases hopen hid hd with rfl | ⟨s, rfl⟩ <;> rfl
    · intro id trade
      have hput : (db.trades.put (confirmedTrade none e)).find? id =
          if e.trade.settlementTxHash = id then some (confirmedTrade none e) else db.trades.find? id :=
        Collection.find?_put
      refine Iff.trans (by rw [hput]) ?_
      split_ifs with hsame
      · constructor
        · rintro ⟨⟩
          exact ⟨e, inTime_concat.mpr (Or.inr ⟨rfl, hcomplete⟩), hsame, rfl⟩
        · rintro ⟨fill, hinTime, hhash, rfl⟩
          rcases inTime_concat.mp hinTime with hold | ⟨heq, -⟩
          · have hfound := (hdb.trades id _).mpr ⟨fill, hold, hhash, rfl⟩
            rw [← hsame, hnone] at hfound
            cases hfound
          · cases heq
            rfl
      · apply (hdb.trades id trade).trans
        refine exists_congr fun fill => and_congr_left fun hfill => ?_
        refine (inTime_concat_of_ne ?_).symm
        rintro ⟨⟩
        exact hsame hfill.1
  · have hlen : (db.findOrders (tradeIds e)).length ≠ 2 := fun hlen =>
      hcomplete (hdb.complete_iff.mpr ((length_findOrders_iff (h.distinct _ hx)).mp hlen))
    exact ⟨_, db, applyTradeConfirmed_of_missing hlen, hdb.incomplete rfl hcomplete⟩

theorem ChainEvents.applies (h : ChainEvents drivers node v events)
    (hsub : ∀ event ∈ es, event ∈ events) (hdb : Projects es db) (hx : x ∈ events) (hnew : x ∉ es) :
    Applies drivers es x db := by
  cases x with
  | orderConfirmed e => exact h.applies_orderConfirmed hsub hdb hx hnew
  | orderCancelled e => exact h.applies_orderCancelled hsub hdb hx hnew
  | settlementSubmitted e => exact h.applies_settlementSubmitted hsub hdb hx hnew
  | tradeConfirmed e => exact h.applies_tradeConfirmed hsub hdb hx hnew
  | chainReorg e => exact absurd hx (h.noReorg e)

end

end CkbDex.Convergence
