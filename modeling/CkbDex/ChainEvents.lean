import CkbDex.Acceptance

/-!
# Events about one chain

Events that agree with one chain, each order named by one place. What has taken
effect is read off from the events delivered so far: an event counts when the
orders that it names were created before it.
-/
namespace CkbDex.Convergence
open BotEvents Documents EventVerification IngestionSteps Number Operations Projection
open ProjectionSteps

/-- The orders that an event finds in the projection. -/
def namedIds : BotEvent → List String
  | .orderCancelled e => [toOrderId e.outPoint]
  | .settlementSubmitted e => e.orderOutPoints.map toOrderId
  | .tradeConfirmed e => tradeIds e
  | _ => []

def createdId : BotEvent → Option String
  | .orderConfirmed e => some (toOrderId e.outPoint)
  | _ => none

/-- A fill or a cancellation. -/
def isSpend : BotEvent → Bool
  | .orderCancelled _ | .tradeConfirmed _ => true
  | _ => false

/-- An order is stored with the facts of its creation. -/
def Known (events : List BotEvent) (db : Db) (id : String) : Prop :=
  ∃ created order, .orderConfirmed created ∈ events ∧ toOrderId created.outPoint = id ∧
    db.orders.find? id = some order ∧ factsOf order = factsOf (confirmedDocument none created)

/-- Both events are about one order. -/
def Share (a b : BotEvent) : Prop := ∃ id ∈ namedIds a, id ∈ namedIds b

/-- Events that are valid on one chain, where an order is created once and spent
once, with ids of their own: a settlement is submitted and confirmed for the same
orders, and what it spends is not cancelled. -/
structure ChainEvents (drivers : Drivers) (node : Node) (v : ChainVerification)
    (events : List BotEvent) : Prop where
  ids : ∀ a ∈ events, ∀ b ∈ events, a.eventId = b.eventId → a = b
  noReorg : ∀ e, .chainReorg e ∉ events
  verified : ∀ event ∈ events, ∀ db, (isSpend event = true → ∀ id ∈ namedIds event, Known events db id) →
    run drivers node (verifyEvent v event) db = (.ok (), db)
  created : ∀ e, .orderConfirmed e ∈ events → drivers.decimal128 e.order.pricePerToken = true ∧
    number e.order.blockNumber ≠ .nan ∧ number e.order.txIndex ≠ .nan
  traded : ∀ e, .tradeConfirmed e ∈ events → e.blockNumber = some e.trade.confirmedAtBlock ∧
    number e.trade.confirmedAtBlock ≠ .nan
  distinct : ∀ event ∈ events, (namedIds event).Nodup
  createdOnce : ∀ a ∈ events, ∀ b ∈ events, createdId a = createdId b → createdId a ≠ none → a = b
  spentOnce : ∀ a ∈ events, ∀ b ∈ events, isSpend a = true → isSpend b = true → Share a b → a = b
  submittedOnce : ∀ a b, .settlementSubmitted a ∈ events → .settlementSubmitted b ∈ events →
    Share (.settlementSubmitted a) (.settlementSubmitted b) → a = b
  settled : ∀ a b, .settlementSubmitted a ∈ events → .tradeConfirmed b ∈ events →
    Share (.settlementSubmitted a) (.tradeConfirmed b) →
    ∀ id, id ∈ namedIds (.settlementSubmitted a) ↔ id ∈ namedIds (.tradeConfirmed b)
  notCancelled : ∀ a b, .settlementSubmitted a ∈ events → .orderCancelled b ∈ events →
    ¬Share (.settlementSubmitted a) (.orderCancelled b)
  oneTrade : ∀ a b, .tradeConfirmed a ∈ events → .tradeConfirmed b ∈ events →
    a.trade.settlementTxHash = b.trade.settlementTxHash → a = b

/-- Verification of an event passes whatever the chain says. -/
def Unchecked (drivers : Drivers) (v : ChainVerification) (event : BotEvent) (db : Db) : Prop :=
  ∀ node, run drivers node (verifyEvent v event) db = (.ok (), db)

section
variable (drivers : Drivers) (node : Node) (v : ChainVerification)

def deliver (db : Db) (event : BotEvent) : Db := (run drivers node (ingest v event) db).2

/-- The projection after events were delivered in order, from an empty one. -/
def delivered (es : List BotEvent) : Db := es.foldl (deliver drivers node v) Db.empty

/-- The same orders and trades. -/
def SameFinal (a b : Db) : Prop :=
  (∀ id, a.orders.find? id = b.orders.find? id) ∧ ∀ id, a.trades.find? id = b.trades.find? id

/-- Whatever is delivered again until nothing changes, the projection is that of
one delivery in chain order. -/
def Converges (events first order : List BotEvent) : Prop :=
  ∀ again : List BotEvent, (∀ event ∈ again, event ∈ events) →
    (∀ event ∈ events, SameProjection (delivered drivers node v (first ++ again))
      (deliver drivers node v (delivered drivers node v (first ++ again)) event)) →
    SameFinal (delivered drivers node v (first ++ again)) (delivered drivers node v order)

/-- An event that was not checked when it was first delivered leaves its id unused. -/
def UncheckedIdsFree (first : List BotEvent) : Prop :=
  ∀ before event after, first = before ++ event :: after →
    Unchecked drivers v event (delivered drivers node v before) →
      (delivered drivers node v (before ++ [event])).processed event.eventId = false

end

/-- No event comes before the creation of an order that it names. -/
def ChainOrder (order : List BotEvent) : Prop :=
  order.Pairwise fun earlier later => ∀ id ∈ namedIds earlier, createdId later ≠ some id

/-- All orders that an event names are created by the events. -/
def Complete (events : List BotEvent) (event : BotEvent) : Prop :=
  ∀ id ∈ namedIds event, ∃ created ∈ events, createdId created = some id

/-- What an event does to its orders is not done by another one as well: a fill
covers the submission of its settlement. -/
def Lasting (events : List BotEvent) (event : BotEvent) : Prop :=
  isSpend event = true ∨ ∀ fill, .tradeConfirmed fill ∈ events → ¬Share event (.tradeConfirmed fill)

/-- Delivered after the creations of its orders. -/
def InTime (es : List BotEvent) (event : BotEvent) : Prop :=
  ∃ before after, es = before ++ event :: after ∧
    ∀ id ∈ namedIds event, ∃ created ∈ before, createdId created = some id

/-- An event that matters is first delivered after the creations of its orders. -/
def Timely (events first : List BotEvent) : Prop :=
  ∀ event ∈ first, Complete events event → Lasting events event → InTime first event

/-- The event that an order is left by, if any. -/
def Decides (es : List BotEvent) (id : String) : Option BotEvent → Prop
  | none => ∀ event, InTime es event → id ∉ namedIds event
  | some event => InTime es event ∧ id ∈ namedIds event ∧
      (isSpend event = true ∨ ∀ spend, InTime es spend → isSpend spend = true → id ∉ namedIds spend)

def finalDocument (created : OrderConfirmedEvent) : Option BotEvent → OrderDocument
  | some (.orderCancelled e) => cancelledDocument e (confirmedDocument none created)
  | some (.settlementSubmitted e) => pendingDocument e (confirmedDocument none created)
  | some (.tradeConfirmed e) => filledDocument e (confirmedDocument none created)
  | _ => confirmedDocument none created

/-- The projection is the one of the events that took effect. -/
structure Projects (es : List BotEvent) (db : Db) : Prop where
  absent : ∀ id, db.orders.find? id = none → ∀ created ∈ es, createdId created ≠ some id
  present : ∀ id order, db.orders.find? id = some order → ∃ created decisive,
    .orderConfirmed created ∈ es ∧ toOrderId created.outPoint = id ∧ Decides es id decisive ∧
      order = finalDocument created decisive
  trades : ∀ id trade, db.trades.find? id = some trade ↔ ∃ fill,
    InTime es (.tradeConfirmed fill) ∧ fill.trade.settlementTxHash = id ∧
      trade = confirmedTrade none fill

section
variable {es : List BotEvent} {x event : BotEvent} {id : String} {decisive : Option BotEvent} {db : Db}

theorem InTime.mem (h : InTime es event) : event ∈ es := by
  obtain ⟨before, after, rfl, -⟩ := h
  simp

theorem InTime.complete (h : InTime es event) : Complete es event := by
  obtain ⟨before, after, rfl, hnamed⟩ := h
  intro id hid
  obtain ⟨created, hmem, hcreated⟩ := hnamed id hid
  exact ⟨created, List.mem_append_left _ hmem, hcreated⟩

theorem inTime_concat : InTime (es ++ [x]) event ↔
    InTime es event ∨ event = x ∧ Complete es x := by
  constructor
  · rintro ⟨before, after, hsplit, hnamed⟩
    rcases List.eq_nil_or_concat' after with rfl | ⟨after, y, rfl⟩
    · obtain ⟨rfl, hlast⟩ := List.append_inj' hsplit rfl
      obtain rfl := (List.cons.inj hlast).1
      exact Or.inr ⟨rfl, hnamed⟩
    · have hcons : es ++ [x] = (before ++ event :: after) ++ [y] := by
        rw [hsplit, List.append_assoc, List.cons_append]
      obtain ⟨rfl, -⟩ := List.append_inj' hcons rfl
      exact Or.inl ⟨before, after, rfl, hnamed⟩
  · rintro (⟨before, after, rfl, hnamed⟩ | ⟨rfl, hcomplete⟩)
    · exact ⟨before, after ++ [x], by simp, hnamed⟩
    · exact ⟨es, [], rfl, hcomplete⟩

theorem Decides.concat (h : Decides es id decisive) (hnew : id ∉ namedIds x) :
    Decides (es ++ [x]) id decisive := by
  have hold : ∀ event, id ∈ namedIds event → InTime (es ++ [x]) event → InTime es event := by
    intro event hid hinTime
    apply (inTime_concat.mp hinTime).resolve_right
    rintro ⟨rfl, -⟩
    exact hnew hid
  cases decisive with
  | none => exact fun event hinTime hid => h event (hold event hid hinTime) hid
  | some event =>
      obtain ⟨hinTime, hid, hlast⟩ := h
      refine ⟨inTime_concat.mpr (Or.inl hinTime), hid, ?_⟩
      apply hlast.imp_right
      exact fun hnone spend hinTime hspend hid => hnone spend (hold spend hid hinTime) hspend hid

/-- A spend that takes effect decides. -/
theorem decides_spend (hcomplete : Complete es x) (hspend : isSpend x = true) (hid : id ∈ namedIds x) :
    Decides (es ++ [x]) id (some x) :=
  ⟨inTime_concat.mpr (Or.inr ⟨rfl, hcomplete⟩), hid, Or.inl hspend⟩

theorem inTime_concat_of_ne (h : event ≠ x) : InTime (es ++ [x]) event ↔ InTime es event := by
  rw [inTime_concat]
  exact or_iff_left fun hlast => h hlast.1

theorem inTime_concat_of_incomplete (h : ¬Complete es x) :
    InTime (es ++ [x]) event ↔ InTime es event := by
  rw [inTime_concat]
  exact or_iff_left fun hlast => h hlast.2

/-- Where an event is delivered once, the deliveries before it decide. -/
theorem inTime_iff_complete {before after : List BotEvent} (hnodup : (before ++ x :: after).Nodup) :
    InTime (before ++ x :: after) x ↔ Complete before x := by
  constructor
  · rintro ⟨before', after', hsplit, hnamed⟩
    have hnotBefore : x ∉ before := fun hmem =>
      (List.nodup_append.mp hnodup).2.2 x hmem x List.mem_cons_self rfl
    have hnotBefore' : x ∉ before' := fun hmem =>
      (List.nodup_append.mp (hsplit ▸ hnodup)).2.2 x hmem x List.mem_cons_self rfl
    rcases List.append_eq_append_iff.mp hsplit with ⟨middle, rfl, htail⟩ | ⟨middle, rfl, htail⟩
    · rcases List.cons_eq_append_iff.mp htail with ⟨rfl, -⟩ | ⟨rest, rfl, -⟩
      · rwa [List.append_nil] at hnamed
      · exact absurd (by simp) hnotBefore'
    · rcases List.cons_eq_append_iff.mp htail with ⟨rfl, -⟩ | ⟨rest, rfl, -⟩
      · rwa [List.append_nil]
      · exact absurd (by simp) hnotBefore
  · intro hcomplete
    exact ⟨before, after, rfl, hcomplete⟩

/-- What decided before still does after an event that takes no effect. -/
theorem Decides.concat_of_incomplete (h : Decides es id decisive) (hx : ¬Complete es x) :
    Decides (es ++ [x]) id decisive := by
  cases decisive with
  | none => exact fun event hinTime => h event ((inTime_concat_of_incomplete hx).mp hinTime)
  | some event =>
      obtain ⟨hinTime, hid, hlast⟩ := h
      refine ⟨inTime_concat.mpr (Or.inl hinTime), hid, hlast.imp_right ?_⟩
      exact fun hnone spend hspend => hnone spend ((inTime_concat_of_incomplete hx).mp hspend)

@[simp] theorem factsOf_finalDocument (created : OrderConfirmedEvent) (decisive : Option BotEvent) :
    factsOf (finalDocument created decisive) = factsOf (confirmedDocument none created) := by
  rcases decisive with _ | event
  · rfl
  · cases event <;> rfl

@[simp] theorem finalDocument_id (created : OrderConfirmedEvent) (decisive : Option BotEvent) :
    (finalDocument created decisive).id = toOrderId created.outPoint :=
  congrArg OrderFacts.id (factsOf_finalDocument created decisive)

/-- An event that updates the orders it names leaves the projection of the events
up to it. -/
theorem Projects.update {next : Db} (h : Projects es db) (update : OrderDocument → OrderDocument)
    (hcreates : createdId x = none)
    (hfind : ∀ id, next.orders.find? id = (db.orders.find? id).map fun order =>
      if order.id ∈ namedIds x then update order else order)
    (hnamed : ∀ id ∈ namedIds x, ∀ created decisive, Decides es id decisive →
      ∃ last, Decides (es ++ [x]) id last ∧
        update (finalDocument created decisive) = finalDocument created last)
    (htrades : ∀ id trade, next.trades.find? id = some trade ↔
      ∃ fill, InTime (es ++ [x]) (.tradeConfirmed fill) ∧ fill.trade.settlementTxHash = id ∧
        trade = confirmedTrade none fill) : Projects (es ++ [x]) next := by
  refine ⟨?_, ?_, htrades⟩
  · intro id hnone created hmem
    rw [hfind, Option.map_eq_none_iff] at hnone
    rcases List.mem_append.mp hmem with hmem | hmem
    · exact h.absent id hnone created hmem
    · rw [List.mem_singleton.mp hmem, hcreates]
      exact nofun
  · intro id order horder
    rw [hfind, Option.map_eq_some_iff] at horder
    obtain ⟨old, hold, rfl⟩ := horder
    obtain ⟨created, decisive, hmem, hid, hd, rfl⟩ := h.present id old hold
    rw [finalDocument_id, hid]
    by_cases hin : id ∈ namedIds x
    · obtain ⟨last, hlast, hupdate⟩ := hnamed id hin created decisive hd
      exact ⟨created, last, List.mem_append_left _ hmem, hid, hlast, (if_pos hin).trans hupdate⟩
    · exact ⟨created, decisive, List.mem_append_left _ hmem, hid, hd.concat hin, if_neg hin⟩

theorem Projects.trades_concat (h : Projects es db) (hx : ∀ fill, BotEvent.tradeConfirmed fill ≠ x) :
    ∀ id trade, db.trades.find? id = some trade ↔ ∃ fill,
      InTime (es ++ [x]) (.tradeConfirmed fill) ∧ fill.trade.settlementTxHash = id ∧
        trade = confirmedTrade none fill := by
  intro id trade
  apply (h.trades id trade).trans
  exact exists_congr fun fill => and_congr_left fun _ => (inTime_concat_of_ne (hx fill)).symm

/-- What takes no effect changes nothing. -/
theorem Projects.incomplete (h : Projects es db) (hcreates : createdId x = none)
    (hincomplete : ¬Complete es x) : Projects (es ++ [x]) db := by
  apply h.update id hcreates
  · intro id
    simp
  · intro id _ created decisive hd
    exact ⟨decisive, hd.concat_of_incomplete hincomplete, rfl⟩
  · intro id trade
    apply (h.trades id trade).trans
    exact exists_congr fun fill => and_congr_left fun _ => (inTime_concat_of_incomplete hincomplete).symm

end

section
variable {es : List BotEvent} {x : BotEvent} {db : Db} {ids : List String}

theorem Projects.found_iff (h : Projects es db) {id : String} :
    db.orders.find? id ≠ none ↔ ∃ created ∈ es, createdId created = some id := by
  constructor
  · intro hfound
    obtain ⟨order, horder⟩ := Option.ne_none_iff_exists'.mp hfound
    obtain ⟨created, -, hmem, hid, -, -⟩ := h.present id order horder
    exact ⟨_, hmem, congrArg some hid⟩
  · rintro ⟨created, hmem, hcreated⟩ hnone
    exact h.absent id hnone created hmem hcreated

theorem Projects.complete_iff (h : Projects es db) :
    Complete es x ↔ ∀ id ∈ namedIds x, db.orders.find? id ≠ none :=
  forall₂_congr fun _ _ => h.found_iff.symm

theorem applySettlementSubmitted_of_not_ready {event : SettlementSubmittedEvent}
    (h : ¬Ready db (event.orderOutPoints.map toOrderId) .pending) :
    ∃ result, applySettlementSubmitted event db = .ok (result, db) := by
  cases happly : applySettlementSubmitted event db with
  | ok applied =>
      obtain ⟨result, next⟩ := applied
      rcases applySettlementSubmitted_eq_ok happly with ⟨-, rfl⟩ | ⟨hready, -, -⟩
      · exact ⟨result, rfl⟩
      · exact absurd hready h
  | error error =>
      unfold applySettlementSubmitted at happly
      simp only at happly
      split_ifs at happly <;> cases happly

theorem applyTradeConfirmed_of_missing {event : TradeConfirmedEvent}
    (h : (db.findOrders (tradeIds event)).length ≠ 2) :
    applyTradeConfirmed event db = .ok (ignored event.eventId "order-not-found", db) := by
  unfold applyTradeConfirmed
  exact if_pos h

end

end CkbDex.Convergence
