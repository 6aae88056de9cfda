import CkbDex.TradeSessions

/-!
# Reservations

The ticks and trades of any number of bots reserve different orders, however
they interleave with each other and with deliveries: what a trade has reserved
is reserved by no other one, a settlement spends nothing else, and what is not
settled is given back. This holds as long as nobody else gives back what a trade
has reserved, which the sweep of expired reservations can do.
-/
namespace CkbDex.Reservations
open CkbDex.Bot BotEvents Collections Documents EventVerification IngestionSteps Observation
open Operations Programs Projection ProjectionSteps Sessions

/-- An order of the status is not reserved, and not indexed again. -/
abbrev Shut (status : OrderStatus) : Prop := status ≠ .live ∧ status ≠ .orphaned

theorem shut_reserved : Shut .reserved := by decide
theorem shut_pending : Shut .pending := by decide
theorem shut_filled : Shut .filled := by decide
theorem shut_canceled : Shut .canceled := by decide

def Locked (db : Db) (id : String) : Prop :=
  ∃ order, db.orders.find? id = some order ∧ Shut order.status

section
variable {drivers : Drivers} {node : Node} {db next : Db} {id : String}

theorem Locked.of_same (h : Locked db id) (hsame : next.orders = db.orders) : Locked next id := by
  obtain ⟨order, horder, hstatus⟩ := h
  exact ⟨order, hsame ▸ horder, hstatus⟩

theorem Locked.putOrder (h : Locked db id) {doc : OrderDocument}
    (hdoc : doc.id = id → Shut doc.status) : Locked (db.putOrder doc) id := by
  obtain ⟨order, horder, hstatus⟩ := h
  by_cases hid : doc.id = id
  · exact ⟨doc, Collection.find?_put.trans (if_pos hid), hdoc hid⟩
  · exact ⟨order, Collection.find?_put.trans ((if_neg hid).trans horder), hstatus⟩

theorem Locked.saveOrders (h : Locked db id) (ids : List String) (update : OrderDocument → OrderDocument)
    (hid : ∀ order, (update order).id = order.id)
    (hupdate : ∀ order, Shut (update order).status) :
    Locked (db.saveOrders ids update hid) id := by
  obtain ⟨order, horder, hstatus⟩ := h
  refine ⟨_, (find?_saveOrders ids update hid).trans (congrArg _ horder), ?_⟩
  beta_reduce
  split_ifs
  · exact hupdate order
  · exact hstatus

theorem Locked.of_find? (h : Locked db id) {order : OrderDocument}
    (horder : db.orders.find? id = some order) :
    Shut order.status := by
  obtain ⟨found, hfound, hstatus⟩ := h
  obtain rfl := Option.some_inj.mp (hfound.symm.trans horder)
  exact hstatus

theorem Locked.applyEvent (h : Locked db id) {event : BotEvent} {result : IngestionResult}
    (happly : applyEvent drivers event db = .ok (result, next))
    (hkeep : ¬Disrupts db (.transact event)) : Locked next id := by
  cases event with
  | orderConfirmed e =>
      rcases applyOrderConfirmed_eq_ok.mp happly with ⟨-, -, rfl⟩ | ⟨hopen, -, -, -, -, rfl⟩
      · exact h
      · apply h.putOrder
        intro hid
        have hid : toOrderId e.outPoint = id := hid
        subst hid
        obtain ⟨order, horder, hstatus⟩ := h
        rw [horder] at hopen
        exact absurd ⟨order, horder, hstatus.2, hopen⟩ hkeep
  | orderCancelled e =>
      rcases applyOrderCancelled_eq_ok.mp happly with ⟨-, -, rfl⟩ | ⟨order, -, -, -, rfl⟩
      · exact h
      · exact h.putOrder fun _ => shut_canceled
  | settlementSubmitted e =>
      rcases applySettlementSubmitted_eq_ok happly with ⟨-, rfl⟩ | ⟨-, -, rfl⟩
      · exact h
      · exact h.saveOrders _ _ _ fun _ => shut_pending
  | tradeConfirmed e =>
      rcases applyTradeConfirmed_eq_ok happly with ⟨-, rfl⟩ | ⟨-, -, rfl⟩
      · exact h
      · exact (h.saveOrders (tradeIds e) (filledDocument e) (fun _ => rfl) fun _ => shut_filled).of_same rfl
  | chainReorg e => exact absurd trivial hkeep

/-- Only a release, a rollback or another block opens a reserved order. -/
theorem Locked.handle (h : Locked db id) {op : Op} (hkeep : ¬Disrupts db op)
    (hrelease : op ≠ .revertToLive id) : Locked (handle drivers node op db).2 id := by
  cases op with
  | transact event =>
      rcases transact_cases drivers event db with ⟨result, next, happly, -, hsame⟩ | ⟨hsame, -⟩
      · exact (h.applyEvent happly hkeep).of_same hsame.orders
      · exact h.of_same (congrArg Db.orders hsame)
  | recordFailed eventId message => exact h.of_same (sameProjection_recordFailed eventId message db).orders
  | reserve other t =>
      simp only [Operations.handle, Db.reserve]
      cases horder : db.orders.find? other with
      | none => exact h
      | some order =>
          simp only
          split_ifs with hlive
          · exact h.putOrder fun _ => shut_reserved
          · exact h
  | revertToLive other =>
      have hne : other ≠ id := fun hsame => hrelease (by rw [hsame])
      simp only [Operations.handle, Db.revertToLive, Db.updateOrder]
      cases horder : db.orders.find? other with
      | none => exact h
      | some order =>
          apply h.putOrder
          intro hid
          exact absurd ((Collection.key_of_find? horder).symm.trans hid) hne
  | extendReservation other t =>
      simp only [Operations.handle, Db.extendReservation, Db.updateOrder]
      cases horder : db.orders.find? other with
      | none => exact h
      | some order =>
          apply h.putOrder
          intro hid
          have hsame : other = id := (Collection.key_of_find? horder).symm.trans hid
          subst hsame
          have hshut := h.of_find? horder
          exact hshut
  | trackPending ids txHash =>
      exact h.saveOrders ids (trackedDocument txHash) (fun _ => rfl) fun _ => shut_pending
  | _ => exact h

end

theorem settled_of_held {note : Note} (hheld : note.held = []) : note.Settled := by
  intro _ _
  rw [hheld]
  exact List.nil_subset _

/-- What a tick does before its trades. -/
theorem follows_before {note : Note} {α : Type} {x : Proc α} {f : α → Proc Unit} (hx : Only spares x)
    (hheld : note.held = [])
    (hrest : ∀ a note', note'.held = [] → Follows record allowed (fun note' _ => note'.Settled) note' (f a)) :
    Follows record allowed (fun note' _ => note'.Settled) note (x >>= f) := by
  refine follows_bind.mpr ((follows_spares hx hheld).mono fun note' r hheld' => ?_)
  cases r with
  | error error => exact settled_of_held hheld'
  | ok a => exact hrest a note' hheld'

theorem keeps_of_starts {config : Config} {note : Note}
    {p : Prog Op (fun op => Answer (Res op)) (Answer Unit)} (h : Starts config note p) :
    Keeps record allowed (fun note' _ => note'.Settled) note p := by
  have hheld : idle.held = [] := rfl
  have hidle : idle.Settled := settled_of_held hheld
  cases h with
  | tick schedule findMatches drawn =>
      apply follows_before spares_detectReorg hheld
      intro reorgs note hheld
      apply follows_before spares_scanForPendingOrders hheld
      intro scanned note hheld
      apply follows_before spares_sweepTrackedOrders hheld
      intro swept note hheld
      apply follows_before spares_retryFailSwaps hheld
      intro retried note hheld
      refine follows_bind.mpr (follows_perform.mpr ⟨trivial, fun answer => ?_⟩)
      cases answer with
      | error error => exact settled_of_held hheld
      | ok live =>
          refine follows_matchPendingOrders schedule (findMatches live) (settled_of_held hheld) ?_
          intro pair hmem
          obtain ⟨hbuy, hsell⟩ := drawn live pair hmem
          exact ⟨List.mem_append_left _ hbuy, List.mem_append_left _ hsell⟩
  | trade schedule buy sell hbuy hsell =>
      refine follows_bind.mpr ((follows_executeTrade schedule hidle (fun _ => hbuy) fun _ => hsell).mono ?_)
      rintro note' r ⟨hsettled, -⟩
      cases r <;> exact hsettled
  | delivery event =>
      exact follows_idles (only_bind (idles_ingest event) fun _ => only_pure _) (fun _ _ h => h.later) hidle
  | observation order =>
      have hwatched : Only idles (checkOrderLiveness config.verification order) :=
        (watches_checkOrderLiveness order).mono fun _ => idles_of_watches
      exact follows_idles (only_bind hwatched fun _ => only_pure _) (fun _ _ h => h.later) hidle
  | release id =>
      refine follows_perform.mpr ⟨fun _ => Or.inl rfl, fun answer => ?_⟩
      cases answer with
      | ok done => exact hidle
      | error error => exact hidle.later (later_stuck _)

/-- Orders are held by one session each, and they are locked. -/
structure Exclusive (db : Db) (notes : List Note) : Prop where
  located : SettlementTracking.Identified db
  sound : ∀ note ∈ notes, note.Sound
  distinct : (notes.flatMap Note.held).Nodup
  locked : ∀ id ∈ notes.flatMap Note.held, Locked db id

section
variable {drivers : Drivers} {nodes : Node → Prop} {db next : Db} {node : Node} {note other : Note}
  {before after : List Note} {op : Op} {answer : Answer (Res op)}

theorem mem_held {id : String} : id ∈ (before ++ note :: after).flatMap Note.held ↔
    id ∈ note.held ∨ id ∈ (before ++ after).flatMap Note.held := by
  simp only [List.flatMap_append, List.flatMap_cons, List.mem_append]
  tauto

theorem nodup_held : ((before ++ note :: after).flatMap Note.held).Nodup ↔
    (note.held ++ (before ++ after).flatMap Note.held).Nodup := by
  have hperm : (before ++ note :: after).Perm (note :: (before ++ after)) := List.perm_middle
  exact (hperm.flatMap_right Note.held).nodup_iff

theorem Exclusive.replace (h : Exclusive db (before ++ note :: after))
    (hlocated : SettlementTracking.Identified next) (hsound : other.Sound)
    (hdistinct : ((before ++ other :: after).flatMap Note.held).Nodup)
    (hlocked : ∀ id ∈ (before ++ other :: after).flatMap Note.held, Locked next id) :
    Exclusive next (before ++ other :: after) := by
  refine ⟨hlocated, ?_, hdistinct, hlocked⟩
  intro one hmem
  rcases List.mem_append.mp hmem with hbefore | hrest
  · exact h.sound one (List.mem_append_left _ hbefore)
  · rcases List.mem_cons.mp hrest with rfl | hafter
    · exact hsound
    · exact h.sound one (List.mem_append_right _ (List.mem_cons_of_mem _ hafter))

/-- A call that neither reserves nor gives back. -/
theorem Exclusive.same (h : Exclusive db (before ++ note :: after)) (hheld : other.held = note.held)
    (hsound : other.Sound) (hlocated : SettlementTracking.Identified next)
    (hlocked : ∀ id, Locked db id → Locked next id) : Exclusive next (before ++ other :: after) := by
  have hsame : (before ++ other :: after).flatMap Note.held =
      (before ++ note :: after).flatMap Note.held := by
    simp [hheld]
  apply h.replace hlocated hsound
  · rw [hsame]
    exact h.distinct
  · rw [hsame]
    exact fun id hmem => hlocked id (h.locked id hmem)

theorem Exclusive.caller (h : Exclusive db (before ++ note :: after)) : note.Sound :=
  h.sound note (by simp)

/-- A live order is held by nobody. -/
theorem Exclusive.reserve (h : Exclusive db (before ++ note :: after)) {id : String} {order : OrderDocument}
    {t : ℕ} (hfound : db.orders.find? id = some order) (hlive : order.status = .live) :
    Exclusive (db.putOrder (reservedDocument t order))
        (before ++ note.add id (reservedDocument t order) :: after) := by
  have hid : order.id = id := Collection.key_of_find? hfound
  have hfree : id ∉ (before ++ note :: after).flatMap Note.held := by
    intro hmem
    exact ((h.locked id hmem).of_find? hfound).1 hlive
  obtain ⟨hgot, hread⟩ := h.caller
  refine h.replace ?_ ⟨?_, hread⟩ ?_ ?_
  · intro other hmem
    rcases Collection.mem_docs_put.mp hmem with rfl | ⟨hold, -⟩
    · exact h.located order (Collection.find?_eq_some.mp hfound).1
    · exact h.located other hold
  · change order.id :: note.got = id :: note.asked
    rw [hid, hgot]
  · have hdistinct := nodup_held.mp h.distinct
    rw [nodup_held]
    change (order.id :: (note.held ++ (before ++ after).flatMap Note.held)).Nodup
    rw [hid]
    exact List.nodup_cons.mpr ⟨fun hmem => hfree (mem_held.mpr (List.mem_append.mp hmem)), hdistinct⟩
  · intro other hmem
    by_cases hother : other = id
    · refine ⟨reservedDocument t order, Collection.find?_put.trans (if_pos ?_), shut_reserved⟩
      exact hid.trans hother.symm
    · have hold : other ∈ (before ++ note :: after).flatMap Note.held := by
        rcases mem_held.mp hmem with hnew | hrest
        · rcases List.mem_cons.mp hnew with hself | hmine
          · exact absurd (hself.trans hid) hother
          · exact mem_held.mpr (Or.inl hmine)
        · exact mem_held.mpr (Or.inr hrest)
      exact (h.locked other hold).putOrder fun _ => shut_reserved

theorem Exclusive.reserved (h : Exclusive db (before ++ note :: after)) (id : String) (t : ℕ) :
    Exclusive (Db.reserve db id t).2
        (before ++ record note (.reserve id t) (.ok (Db.reserve db id t).1) :: after) := by
  cases hfound : db.orders.find? id with
  | none =>
      have hnone : Db.reserve db id t = (none, db) := by
        simp [Db.reserve, hfound]
      rw [hnone]
      exact h
  | some order =>
      by_cases hlive : order.status = .live
      · have hsome : Db.reserve db id t =
            (some (reservedDocument t order), db.putOrder (reservedDocument t order)) := by
          simp [Db.reserve, hfound, hlive]
        rw [hsome]
        exact h.reserve hfound hlive
      · have hnone : Db.reserve db id t = (none, db) := by
          simp [Db.reserve, hfound, hlive]
        rw [hnone]
        exact h

/-- Nobody else holds what a session gives back. -/
theorem Exclusive.release (h : Exclusive db (before ++ note :: after)) {id : String}
    (hothers : id ∉ (before ++ after).flatMap Note.held) :
    Exclusive (handle drivers node (.revertToLive id) db).2 (before ++ note.release id :: after) := by
  have hdistinct := nodup_held.mp h.distinct
  have hsub : (note.held.erase id ++ (before ++ after).flatMap Note.held).Sublist
      (note.held ++ (before ++ after).flatMap Note.held) :=
    List.erase_sublist.append (List.Sublist.refl _)
  apply h.replace (h.located.handle _)
  · exact h.caller
  · exact nodup_held.mpr (hdistinct.sublist hsub)
  · intro other hmem
    have hmem : other ∈ note.held.erase id ++ (before ++ after).flatMap Note.held :=
      List.mem_append.mpr (mem_held.mp hmem)
    refine (h.locked other (mem_held.mpr (List.mem_append.mp (hsub.subset hmem)))).handle (fun hre => hre) ?_
    intro hsame
    obtain rfl := Op.revertToLive.inj hsame
    rcases List.mem_append.mp hmem with hmine | hrest
    · exact (List.Nodup.of_append_left hdistinct).not_mem_erase hmine
    · exact hothers hrest

theorem Exclusive.given (h : Exclusive db (before ++ note :: after)) {id : String}
    (hallowed : allowed note (.revertToLive id))
    (hyields : yields note (before ++ after) (.revertToLive id)) :
    id ∉ (before ++ after).flatMap Note.held := by
  rcases hallowed h.caller with hnone | hheld
  · intro hmem
    obtain ⟨other, hother, hid⟩ := List.mem_flatMap.mp hmem
    exact hyields id rfl hnone other hother hid
  · exact fun hmem => (List.nodup_append.mp (nodup_held.mp h.distinct)).2.2 id hheld id hmem rfl

theorem read_record (hop : ∀ statuses, op ≠ .findOrdersByStatus statuses) :
    (record note op answer).read = note.read := by
  cases op with
  | findOrdersByStatus statuses => exact absurd rfl (hop statuses)
  | sendTransaction settlement =>
      change (note.submit settlement answer).read = note.read
      unfold Note.submit
      split_ifs <;> rfl
  | reserve id t => rcases answer with error | _ | order <;> rfl
  | revertToLive id => cases answer <;> rfl
  | now => cases answer <;> rfl
  | _ => rfl

/-- A call that fails reserves nothing and gives nothing back. -/
theorem later_error (error : Failure) : note.Later (record note op (.error error)) := by
  by_cases hidle : idles op
  · exact later_of_idles hidle _
  · cases op with
    | reserve id t => exact later_stuck note
    | revertToLive id => exact later_stuck note
    | sendTransaction settlement => exact later_submit note settlement _
    | _ => exact absurd trivial hidle

theorem read_error (error : Failure) : (record note op (.error error)).read = note.read := by
  cases op with
  | sendTransaction settlement => exact read_record (by simp)
  | _ => rfl

theorem Note.Later.sound_of_read (h : note.Later other) (hread : other.read = note.read)
    (hsound : note.Sound) :
    other.Sound := by
  obtain ⟨hgot, hlocated⟩ := hsound
  refine ⟨h.got.trans (hgot.trans h.asked.symm), ?_⟩
  rw [hread]
  exact hlocated

theorem Exclusive.ordinary (h : Exclusive db (before ++ note :: after)) (hkeep : ¬Disrupts db op)
    (hreserve : ∀ id t, op ≠ .reserve id t) (hrelease : ∀ id, op ≠ .revertToLive id)
    (hread : ∀ statuses, op ≠ .findOrdersByStatus statuses) :
    Exclusive (handle drivers node op db).2
        (before ++ record note op (handle drivers node op db).1 :: after) := by
  have hlater : note.Later (record note op (handle drivers node op db).1) := later_record hreserve hrelease _
  exact h.same hlater.held (hlater.sound_of_read (read_record hread) h.caller)
    (h.located.handle _) fun id hlocked => hlocked.handle hkeep (hrelease id)

theorem Exclusive.handled (h : Exclusive db (before ++ note :: after)) (hallowed : allowed note op)
    (hkeep : ¬Disrupts db op) (hyields : yields note (before ++ after) op) :
    Exclusive (handle drivers node op db).2
        (before ++ record note op (handle drivers node op db).1 :: after) := by
  cases op with
  | reserve id t => exact h.reserved id t
  | revertToLive id => exact h.release (h.given hallowed hyields)
  | findOrdersByStatus statuses =>
      obtain ⟨hgot, hread⟩ := h.caller
      refine h.same rfl ⟨hgot, ?_⟩ h.located fun id hlocked => hlocked
      intro order hmem
      rcases List.mem_append.mp hmem with hnew | hold
      · exact h.located order (List.mem_filter.mp hnew).1
      · exact hread order hold
  | _ => exact h.ordinary hkeep (by simp) (by simp) (by simp)

/-- One call keeps orders with their holders. -/
theorem Exclusive.call (h : Exclusive db (before ++ note :: after)) (hallowed : allowed note op)
    (hperformed : Performs drivers nodes op db answer next) (hyields : yields note (before ++ after) op) :
    Exclusive next (before ++ record note op answer :: after) := by
  obtain ⟨hkeep, ⟨node, -, hhandle⟩ | ⟨rfl, error, rfl⟩⟩ := hperformed
  · have hhandled : Exclusive (handle drivers node op db).2
        (before ++ record note op (handle drivers node op db).1 :: after) := h.handled hallowed hkeep hyields
    rw [hhandle] at hhandled
    exact hhandled
  · have hlater : note.Later (record note op (.error error)) := later_error error
    exact h.same hlater.held (hlater.sound_of_read (read_error error) h.caller) h.located
      fun id hlocked => hlocked

theorem Exclusive.start {config : Config} {notes : List Note}
    {p : Prog Op (fun op => Answer (Res op)) (Answer Unit)} (h : Exclusive db notes)
    (hstart : Starts config note p) :
    Exclusive db (note :: notes) := by
  have hidle : note = idle := by
    cases hstart <;> rfl
  subst hidle
  refine ⟨h.located, ?_, h.distinct, h.locked⟩
  intro note hmem
  rcases List.mem_cons.mp hmem with rfl | hmem
  · exact ⟨rfl, by simp [idle]⟩
  · exact h.sound note hmem

end

/-- Over every interleaving in which nobody gives back what another one has
reserved and no order is rolled back: no order is reserved by two trades, what
is reserved is neither live nor orphaned, a trade spends only orders that it has
reserved and, having reserved any, gives back only those; what a tick or a trade
has reserved when it ends without a failed reservation or release is in a
settlement that is in the pool. -/
theorem reservations_exclusive (drivers : Drivers) (config : Config) (nodes : Node → Prop) (db : Db)
    (hdb : SettlementTracking.Identified db)
    (room : Room Op (fun op => Answer (Res op)) Note Db (Answer Unit))
    (hrun : RunWhen (Starts config) record (Performs drivers nodes) yields ⟨db, []⟩ room) :
    (room.notes.flatMap Note.held).Nodup ∧
    (∀ id ∈ room.notes.flatMap Note.held, Locked room.state id) ∧
    ∀ session ∈ room.sessions,
      (∀ settlement next, session.program = .call (.sendTransaction settlement) next →
        ∀ outPoint ∈ settlement.inputs, toOrderId outPoint ∈ session.note.held) ∧
      (∀ id next, session.program = .call (.revertToLive id) next → session.note.held ≠ [] →
        id ∈ session.note.held) ∧
      ∀ r, session.program = .pure r → session.note.stuck = false →
        session.note.held ⊆ session.note.sent := by
  have hempty : Keeping record allowed (fun note' (_ : Answer Unit) => note'.Settled)
      (⟨db, []⟩ : Room Op (fun op => Answer (Res op)) Note Db (Answer Unit)) := by
    intro session hmem
    cases hmem
  have hfirst : Exclusive db [] := ⟨hdb, by simp, List.nodup_nil, by simp⟩
  obtain ⟨hkeeping, hexclusive⟩ := runWhen_invariant (I := Exclusive) (fun _ _ => keeps_of_starts)
    (fun _ _ _ _ hstart h => h.start hstart) (fun _ _ _ _ _ _ _ hallowed hperformed hyields h =>
      h.call hallowed hperformed hyields) hrun hempty hfirst
  refine ⟨hexclusive.distinct, hexclusive.locked, fun session hmem => ?_⟩
  have hsound : session.note.Sound := hexclusive.sound _ (List.mem_map_of_mem hmem)
  have hkeeps := hkeeping session hmem
  refine ⟨fun settlement next hprogram => ?_, fun id next hprogram hheld => ?_, fun r hprogram hstuck => ?_⟩
  · rw [hprogram] at hkeeps
    exact hkeeps.1 hsound
  · rw [hprogram] at hkeeps
    exact (hkeeps.1 hsound).resolve_left hheld
  · rw [hprogram] at hkeeps
    exact hkeeps hsound hstuck

section
open TerminalStatuses Acceptance SettlementTracking GroundedDocuments ProjectionSteps

theorem exampleOpen_located : SettlementTracking.Identified exampleOpen := by
  intro order hmem
  rcases exampleOpen_docs.mp hmem with rfl | rfl <;> rfl

theorem performs_now (db : Db) : Performs exampleDrivers exampleNodes .now db (.ok (0 : ℕ)) db :=
  performs_handle exampleEarly_node fun h => h

theorem performs_reserved {db : Db} {id : String} {order : OrderDocument}
    (hfound : db.orders.find? id = some order) (hlive : order.status = .live) (t : ℕ) :
    Performs exampleDrivers exampleNodes (.reserve id t) db (.ok (some (reservedDocument t order)))
      (db.putOrder (reservedDocument t order)) := by
  refine ⟨fun h => h, Or.inl ⟨_, exampleEarly_node, ?_⟩⟩
  simp [handle, Db.reserve, hfound, hlive]

theorem performs_taken {db : Db} {id : String} {order : OrderDocument}
    (hfound : db.orders.find? id = some order) (htaken : order.status ≠ .live) (t : ℕ) :
    Performs exampleDrivers exampleNodes (.reserve id t) db (.ok none) db := by
  refine ⟨fun h => h, Or.inl ⟨_, exampleEarly_node, ?_⟩⟩
  simp [handle, Db.reserve, hfound, htaken]

/-- The first trade has reserved both orders, and the second one finds the buy
order taken. -/
theorem reservations_exclusive_example : ∃ room : Room Op (fun op => Answer (Res op)) Note Db (Answer Unit),
    RunWhen (Starts exampleConfig) record (Performs exampleDrivers exampleNodes) yields
        ⟨exampleOpen, []⟩ room ∧
    room.notes.map Note.held = [[], [exampleSell.id, exampleBuy.id]] ∧ Locked room.state exampleBuy.id := by
  obtain ⟨settlement, hbuild⟩ := exampleTrade_builds
  have hstart : ∀ db sessions, StepWhen (Starts exampleConfig) record
      (Performs exampleDrivers exampleNodes) yields
      ⟨db, sessions⟩ ⟨db, ⟨idle, _⟩ :: sessions⟩ := fun db sessions =>
    StepWhen.start db sessions idle _ (Starts.trade [] exampleBuy exampleSell rfl rfl)
  unfold executeTrade at hstart
  rw [hbuild] at hstart
  have hyields : ∀ note others id t, yields note others (.reserve id t) := fun _ _ _ _ _ h => by cases h
  have hnow : ∀ note others, yields note others .now := fun _ _ _ h => by cases h
  have hsell : ∀ t, (exampleOpen.putOrder (reservedDocument t exampleBuy)).orders.find? exampleSell.id =
      some exampleSell := fun t =>
    Collection.find?_put.trans ((if_neg exampleBuy_id_ne).trans exampleOpen_sell)
  have htaken : ∀ t t', ((exampleOpen.putOrder (reservedDocument t exampleBuy)).putOrder
      (reservedDocument t' exampleSell)).orders.find? exampleBuy.id = some (reservedDocument t exampleBuy) :=
    fun t t' => Collection.find?_put.trans
      ((if_neg exampleBuy_id_ne.symm).trans (Collection.find?_put.trans (if_pos rfl)))
  -- the first trade reserves both orders
  have h1 := (Relation.ReflTransGen.single (hstart exampleOpen [])).tail
    (stepWhen_first (performs_now _) (hnow _ _))
  have h2 := h1.tail (stepWhen_first (performs_reserved exampleOpen_buy rfl _) (hyields _ _ _ _))
  have h3 := h2.tail (stepWhen_first (performs_now _) (hnow _ _))
  have h4 := h3.tail (stepWhen_first (performs_reserved (hsell _) rfl _) (hyields _ _ _ _))
  -- the second one is told that the buy order is not live
  have h5 := (h4.tail (hstart _ _)).tail (stepWhen_first (performs_now _) (hnow _ _))
  have h6 := h5.tail (stepWhen_first (performs_taken (htaken _ _) (by decide) _) (hyields _ _ _ _))
  obtain ⟨-, hlocked, -⟩ := reservations_exclusive exampleDrivers exampleConfig exampleNodes exampleOpen
    exampleOpen_located _ h6
  exact ⟨_, h6, rfl, hlocked exampleBuy.id (List.mem_cons_of_mem _ List.mem_cons_self)⟩

end

end CkbDex.Reservations
