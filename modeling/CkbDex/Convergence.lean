import CkbDex.Deliveries

/-!
# Deliveries in any order

Events about one chain, each delivered at least once. An event takes effect when
the orders it names were created before it; the projection that all of them leave
is given by the events that took effect.
-/
namespace CkbDex.Convergence
open Acceptance BotEvents Documents EventVerification IngestionSteps Number Operations Projection
open ProjectionSteps

section
variable {drivers : Drivers} {node : Node} {v : ChainVerification} {events es : List BotEvent}
  {x : BotEvent} {db : Db}

/-- The state after the deliveries: their projection, and their ids. -/
structure Describes (events es : List BotEvent) (db : Db) : Prop where
  projects : Projects es db
  processed : ∀ event ∈ events, db.processed event.eventId = true ↔ event ∈ es

theorem Projects.of_same {a b : Db} (h : Projects es a) (hsame : SameProjection a b) : Projects es b := by
  obtain ⟨horders, htrades, -⟩ := hsame
  constructor
  · rw [horders]
    exact h.absent
  · rw [horders]
    exact h.present
  · rw [htrades]
    exact h.trades

theorem describes_empty (events : List BotEvent) : Describes events [] Db.empty := by
  have hnone : ∀ event, ¬InTime [] event := fun event hinTime =>
    List.not_mem_nil hinTime.mem
  refine ⟨⟨fun id _ created hmem => absurd hmem List.not_mem_nil, ?_, ?_⟩, ?_⟩
  · intro id order hfind
    cases hfind
  · intro id trade
    constructor
    · intro hfind
      cases hfind
    · rintro ⟨fill, hinTime, -⟩
      exact absurd hinTime (hnone _)
  · intro event _
    apply iff_of_false _ List.not_mem_nil
    exact Bool.false_ne_true

/-- A first delivery. -/
theorem ChainEvents.describes_deliver (h : ChainEvents drivers node v events)
    (hsub : ∀ event ∈ es, event ∈ events) (hdb : Describes events es db) (hx : x ∈ events)
    (hnew : x ∉ es) : Describes events (es ++ [x]) (deliver drivers node v db x) := by
  obtain ⟨result, next, happly, hnext⟩ := h.applies hsub hdb.projects hx hnew
  have hverify := h.run_verify hsub hx hdb.projects
  have hprocessed : db.processed x.eventId = false :=
    Bool.eq_false_iff.mpr fun hdone => hnew ((hdb.processed x hx).mp hdone)
  have hdeliver : deliver drivers node v db x = recorded next result x.eventId :=
    congrArg Prod.snd (run_ingest_eq x hprocessed hverify happly)
  rw [hdeliver]
  refine ⟨hnext.of_same (sameProjection_recorded next result x.eventId), ?_⟩
  intro event hevent
  have hsame : next.processed event.eventId = db.processed event.eventId := by
    rw [Db.processed, (events_of_applyEvent happly).1, Db.processed]
  rw [processed_recorded, hsame, hdb.processed event hevent, List.mem_append, List.mem_singleton,
    or_comm]
  apply or_congr_right
  exact ⟨h.ids event hevent x hx, fun heq => heq ▸ rfl⟩

/-- A later delivery. -/
theorem Describes.deliver_again (hdb : Describes events es db) (hx : x ∈ events) (hold : x ∈ es) :
    deliver drivers node v db x = db :=
  congrArg Prod.snd (run_ingest_processed x ((hdb.processed x hx).mpr hold))

/-- The state after a run of first deliveries. -/
theorem ChainEvents.describes_delivered (h : ChainEvents drivers node v events)
    (hsub : ∀ event ∈ es, event ∈ events) (hnodup : es.Nodup) :
    Describes events es (delivered drivers node v es) := by
  induction es using List.reverseRecOn with
  | nil => exact describes_empty events
  | append_singleton es x ih =>
      have hmem : ∀ event ∈ es, event ∈ events := fun event hevent =>
        hsub event (List.mem_append_left _ hevent)
      obtain ⟨hes, -, hdisjoint⟩ := List.nodup_append.mp hnodup
      have hnew : x ∉ es := fun hold => hdisjoint x hold x List.mem_cons_self rfl
      rw [delivered, List.foldl_concat]
      exact h.describes_deliver hmem (ih hmem hes) (hsub x (by simp)) hnew

theorem delivered_append {first again : List BotEvent} :
    delivered drivers node v (first ++ again) =
      again.foldl (deliver drivers node v) (delivered drivers node v first) :=
  List.foldl_append

/-- Deliveries that are repeated change nothing. -/
theorem Describes.foldl_again {again : List BotEvent} (hdb : Describes events es db)
    (hall : ∀ event ∈ events, event ∈ es) (hagain : ∀ event ∈ again, event ∈ events) :
    again.foldl (deliver drivers node v) db = db := by
  induction again with
  | nil => rfl
  | cons x again ih =>
      have hx := hagain x List.mem_cons_self
      rw [List.foldl_cons, hdb.deliver_again hx (hall x hx)]
      exact ih fun event hevent => hagain event (List.mem_cons_of_mem x hevent)

/-- What redelivery converges to is left by the first deliveries. -/
theorem ChainEvents.converges_iff_sameFinal (h : ChainEvents drivers node v events)
    {first order : List BotEvent} (hfirst : first.Perm events) (hnodup : events.Nodup) :
    Converges drivers node v events first order ↔
      SameFinal (delivered drivers node v first) (delivered drivers node v order) := by
  have hdb := h.describes_delivered (fun event => hfirst.mem_iff.mp) (hfirst.nodup_iff.mpr hnodup)
  have hagain : ∀ again : List BotEvent, (∀ event ∈ again, event ∈ events) →
      delivered drivers node v (first ++ again) = delivered drivers node v first := by
    intro again hmem
    rw [delivered_append]
    exact hdb.foldl_again (fun event => hfirst.mem_iff.mpr) hmem
  constructor
  · intro hconverges
    have hnone := hconverges [] (by simp)
    rw [hagain [] (by simp)] at hnone
    apply hnone
    intro event hevent
    rw [hdb.deliver_again hevent (hfirst.mem_iff.mpr hevent)]
    exact SameProjection.refl _
  · intro hfinal again hmem _
    rwa [hagain again hmem]

/-- Unchecked ids stay free just when no fill or cancellation comes too early. -/
theorem ChainEvents.uncheckedIdsFree_iff (h : ChainEvents drivers node v events)
    (hsub : ∀ event ∈ es, event ∈ events) (hnodup : es.Nodup) :
    UncheckedIdsFree drivers node v es ↔ ∀ event ∈ es, isSpend event = true → InTime es event := by
  have hprefix : ∀ {before event after}, es = before ++ event :: after →
      Describes events before (delivered drivers node v before) ∧
        (delivered drivers node v (before ++ [event])).processed event.eventId = true := by
    rintro before event after rfl
    have hbefore := h.describes_delivered (fun e he => hsub e (List.mem_append_left _ he))
      (List.nodup_append.mp hnodup).1
    have hsplit : (before ++ [event]) ++ after = before ++ event :: after := by simp
    rw [← hsplit] at hsub hnodup
    have hafter := h.describes_delivered (fun e he => hsub e (List.mem_append_left _ he))
      (List.nodup_append.mp hnodup).1
    exact ⟨hbefore, (hafter.processed event (hsub event (by simp))).mpr (by simp)⟩
  constructor
  · intro hfree event hmem hspend
    obtain ⟨before, after, hsplit⟩ := List.append_of_mem hmem
    obtain ⟨hbefore, hdone⟩ := hprefix hsplit
    refine ⟨before, after, hsplit, ?_⟩
    by_contra hincomplete
    have hunchecked := h.unchecked_of_incomplete (hsub event hmem) hbefore.projects hspend hincomplete
    exact Bool.false_ne_true ((hfree before event after hsplit hunchecked).symm.trans hdone)
  · intro htime before event after hsplit hunchecked
    obtain ⟨hbefore, -⟩ := hprefix hsplit
    have hmem : event ∈ es := hsplit ▸ List.mem_append_right _ List.mem_cons_self
    obtain ⟨hspend, hincomplete⟩ := (h.unchecked_iff (hsub event hmem) hbefore.projects).mp hunchecked
    subst hsplit
    exact absurd ((inTime_iff_complete hnodup).mp (htime event hmem hspend)) hincomplete

end

section
variable {drivers : Drivers} {node : Node} {v : ChainVerification} {events es : List BotEvent}
  {x : BotEvent} {id : String}

/-- An order is left by one event. -/
theorem ChainEvents.decides_unique (h : ChainEvents drivers node v events)
    (hsub : ∀ event ∈ es, event ∈ events) {first second : Option BotEvent}
    (hfirst : Decides es id first) (hsecond : Decides es id second) : first = second := by
  rcases first with _ | a
  · rcases second with _ | b
    · rfl
    · exact absurd hsecond.2.1 (hfirst b hsecond.1)
  · obtain ⟨ha, hida, hlasta⟩ := hfirst
    rcases second with _ | b
    · exact absurd hida (hsecond a ha)
    · obtain ⟨hb, hidb, hlastb⟩ := hsecond
      apply congrArg some
      apply h.eq_of_share (hsub a ha.mem) (hsub b hb.mem) hida hidb
      constructor
      · exact fun hspend => hlastb.resolve_right fun hnone => hnone a ha hspend hida
      · exact fun hspend => hlasta.resolve_right fun hnone => hnone b hb hspend hidb

/-- A lasting event that takes effect decides. -/
theorem ChainEvents.decides_of_lasting (h : ChainEvents drivers node v events)
    (hsub : ∀ event ∈ es, event ∈ events) (hx : InTime es x) (hlasting : Lasting events x)
    (hid : id ∈ namedIds x) : Decides es id (some x) := by
  refine ⟨hx, hid, or_iff_not_imp_left.mpr fun hself spend hspend hspent hnamed => ?_⟩
  obtain ⟨s, rfl⟩ := settlementSubmitted_of_named hid hself
  have hmem := hsub spend hspend.mem
  cases spend with
  | tradeConfirmed fill => exact hlasting.resolve_left hself fill hmem ⟨id, hid, hnamed⟩
  | orderCancelled c => exact h.notCancelled s c (hsub _ hx.mem) hmem ⟨id, hid, hnamed⟩
  | orderConfirmed => cases hspent
  | settlementSubmitted => cases hspent
  | chainReorg => cases hspent

/-- An order has the status of the kind of event that it is left by. -/
theorem ChainEvents.inTime_of_status (h : ChainEvents drivers node v events)
    (hsub : ∀ event ∈ es, event ∈ events) (hx : x ∈ events) (hid : id ∈ namedIds x)
    {decisive : Option BotEvent} (hd : Decides es id decisive) {a b : OrderConfirmedEvent}
    (hstatus : (finalDocument a decisive).status = (finalDocument b (some x)).status) : InTime es x := by
  rcases decisive with _ | event
  · cases x with
    | orderConfirmed => exact absurd hid List.not_mem_nil
    | chainReorg => exact absurd hid List.not_mem_nil
    | orderCancelled => cases hstatus
    | settlementSubmitted => cases hstatus
    | tradeConfirmed => cases hstatus
  · obtain ⟨hinTime, hnamed, -⟩ := hd
    have hkind : isSpend event = true ↔ isSpend x = true := by
      cases event <;> cases x <;> first | exact Iff.rfl | cases hstatus
    exact h.eq_of_share (hsub event hinTime.mem) hx hnamed hid hkind ▸ hinTime

theorem Complete.of_perm {first second : List BotEvent} (h : Complete first x)
    (hperm : first.Perm second) : Complete second x := by
  intro id hid
  obtain ⟨created, hmem, hcreated⟩ := h id hid
  exact ⟨created, hperm.mem_iff.mp hmem, hcreated⟩

/-- In chain order, what names created orders takes effect. -/
theorem ChainOrder.inTime {order : List BotEvent} (hchain : ChainOrder order) (hx : x ∈ order)
    (hcomplete : Complete order x) : InTime order x := by
  obtain ⟨before, after, rfl⟩ := List.append_of_mem hx
  refine ⟨before, after, rfl, ?_⟩
  intro id hid
  obtain ⟨created, hmem, hcreated⟩ := hcomplete id hid
  rcases List.mem_append.mp hmem with hbefore | hafter
  · exact ⟨created, hbefore, hcreated⟩
  · exfalso
    rcases List.mem_cons.mp hafter with rfl | hafter
    · cases created with
      | orderConfirmed => exact List.not_mem_nil hid
      | orderCancelled => cases hcreated
      | settlementSubmitted => cases hcreated
      | tradeConfirmed => cases hcreated
      | chainReorg => cases hcreated
    · have hlater := (List.pairwise_append.mp hchain).2.1
      exact List.rel_of_pairwise_cons hlater hafter id hid hcreated

section
variable {first order : List BotEvent}

/-- A lasting event is given by the orders it names, or by its trade. -/
theorem ChainEvents.inTime_of_sameFinal (h : ChainEvents drivers node v events)
    (hfirst : first.Perm events) (horder : order.Perm events) (hnodup : events.Nodup)
    (hfinal : SameFinal (delivered drivers node v first) (delivered drivers node v order))
    (hlasting : Lasting events x) (hx : InTime order x) : InTime first x := by
  have hsubFirst : ∀ event ∈ first, event ∈ events := fun event => hfirst.mem_iff.mp
  have hsubOrder : ∀ event ∈ order, event ∈ events := fun event => horder.mem_iff.mp
  have hF := (h.describes_delivered hsubFirst (hfirst.nodup_iff.mpr hnodup)).projects
  have hO := (h.describes_delivered hsubOrder (horder.nodup_iff.mpr hnodup)).projects
  have hmem := hsubOrder x hx.mem
  rcases List.eq_nil_or_concat' (namedIds x) with hnil | ⟨ids, id, hids⟩
  · obtain ⟨before, after, hsplit⟩ := List.append_of_mem (hfirst.mem_iff.mpr hmem)
    refine ⟨before, after, hsplit, ?_⟩
    rw [hnil]
    simp
  · have hid : id ∈ namedIds x := by simp [hids]
    obtain ⟨stored, hstored⟩ := Option.ne_none_iff_exists'.mp (hO.complete_iff.mp hx.complete id hid)
    obtain ⟨b, last, -, -, hlast, rfl⟩ := hO.present id stored hstored
    obtain rfl := h.decides_unique hsubOrder hlast (h.decides_of_lasting hsubOrder hx hlasting hid)
    obtain ⟨a, decisive, -, -, hd, hsame⟩ := hF.present id _ ((hfinal.1 id).trans hstored)
    exact h.inTime_of_status hsubFirst hmem hid hd (congrArg OrderDocument.status hsame).symm

theorem inTime_order (horder : order.Perm events) (hfirst : first.Perm events)
    (hchain : ChainOrder order) (hx : InTime first x) : InTime order x := by
  have hperm := hfirst.trans horder.symm
  exact hchain.inTime (hperm.mem_iff.mp hx.mem) (hx.complete.of_perm hperm)

theorem Timely.inTime (htimely : Timely events first) (hfirst : first.Perm events)
    (horder : order.Perm events) (hx : InTime order x) (hlasting : Lasting events x) :
    InTime first x :=
  htimely x (hfirst.mem_iff.mpr (horder.mem_iff.mp hx.mem)) (hx.complete.of_perm horder) hlasting

/-- What a submission does is done by the fill of its settlement too. -/
theorem ChainEvents.exists_lasting (h : ChainEvents drivers node v events) (horder : order.Perm events)
    (hchain : ChainOrder order) (hx : InTime order x) (hid : id ∈ namedIds x) :
    ∃ event, InTime order event ∧ id ∈ namedIds event ∧ Lasting events event := by
  by_cases hlasting : Lasting events x
  · exact ⟨x, hx, hid, hlasting⟩
  · obtain ⟨hspend, hfilled⟩ := not_or.mp hlasting
    push Not at hfilled
    obtain ⟨fill, hfill, hshare⟩ := hfilled
    obtain ⟨s, rfl⟩ := settlementSubmitted_of_named hid hspend
    have hids := h.settled s fill (horder.mem_iff.mp hx.mem) hfill hshare
    have hcomplete : Complete order (.tradeConfirmed fill) := fun other hother =>
      hx.complete other ((hids other).mpr hother)
    exact ⟨_, hchain.inTime (horder.mem_iff.mpr hfill) hcomplete, (hids id).mp hid, Or.inl rfl⟩

/-- What decides after a timely run decides in chain order. -/
theorem ChainEvents.decides_order (h : ChainEvents drivers node v events)
    (hfirst : first.Perm events) (horder : order.Perm events) (hchain : ChainOrder order)
    (htimely : Timely events first) {decisive : Option BotEvent} (hd : Decides first id decisive) :
    Decides order id decisive := by
  cases decisive with
  | none =>
      intro event hinTime hid
      obtain ⟨lasting, hlast, hnamed, hlasting⟩ := h.exists_lasting horder hchain hinTime hid
      exact hd lasting (htimely.inTime hfirst horder hlast hlasting) hnamed
  | some event =>
      obtain ⟨hinTime, hid, hlast⟩ := hd
      refine ⟨inTime_order horder hfirst hchain hinTime, hid, hlast.imp_right ?_⟩
      intro hnone spend hspend hspent
      exact hnone spend (htimely.inTime hfirst horder hspend (Or.inl hspent)) hspent

/-- Orders and trades are those of a delivery in chain order just when all that
matters came after the creations it needs. -/
theorem ChainEvents.sameFinal_iff (h : ChainEvents drivers node v events)
    (hfirst : first.Perm events) (horder : order.Perm events) (hnodup : events.Nodup)
    (hchain : ChainOrder order) :
    SameFinal (delivered drivers node v first) (delivered drivers node v order) ↔ Timely events first := by
  have hsubFirst : ∀ event ∈ first, event ∈ events := fun event => hfirst.mem_iff.mp
  have hsubOrder : ∀ event ∈ order, event ∈ events := fun event => horder.mem_iff.mp
  constructor
  · intro hfinal event hmem hcomplete hlasting
    apply h.inTime_of_sameFinal hfirst horder hnodup hfinal hlasting
    exact hchain.inTime (horder.mem_iff.mpr (hsubFirst event hmem)) (hcomplete.of_perm horder.symm)
  · intro htimely
    have hF := (h.describes_delivered hsubFirst (hfirst.nodup_iff.mpr hnodup)).projects
    have hO := (h.describes_delivered hsubOrder (horder.nodup_iff.mpr hnodup)).projects
    constructor
    · intro id
      have hfound : (delivered drivers node v first).orders.find? id ≠ none ↔
          (delivered drivers node v order).orders.find? id ≠ none := by
        rw [hF.found_iff, hO.found_iff]
        apply exists_congr
        intro created
        rw [hfirst.mem_iff, horder.mem_iff]
      by_cases hnone : (delivered drivers node v first).orders.find? id = none
      · rw [hnone, not_ne_iff.mp fun hother => hfound.mpr hother hnone]
      · obtain ⟨stored, hstored⟩ := Option.ne_none_iff_exists'.mp hnone
        obtain ⟨other, hother⟩ := Option.ne_none_iff_exists'.mp (hfound.mp hnone)
        rw [hstored, hother]
        obtain ⟨a, decisive, ha, hida, hd, rfl⟩ := hF.present id stored hstored
        obtain ⟨b, last, hb, hidb, hlast, rfl⟩ := hO.present id other hother
        have hsame := h.createdOnce _ (hsubFirst _ ha) _ (hsubOrder _ hb)
          (congrArg some (hida.trans hidb.symm)) (by simp [createdId])
        obtain rfl := BotEvent.orderConfirmed.inj hsame
        rw [h.decides_unique hsubOrder hlast (h.decides_order hfirst horder hchain htimely hd)]
    · intro id
      apply Option.ext
      intro trade
      rw [hF.trades, hO.trades]
      apply exists_congr
      intro fill
      apply and_congr_left
      intro _
      constructor
      · exact inTime_order horder hfirst hchain
      · exact fun hinTime => htimely.inTime hfirst horder hinTime (Or.inl rfl)

/-- Redelivery converges to the orders and trades of a delivery in chain order just
when every event that matters first came after the creations of its orders; an event
that was not checked leaves its id unused just when no fill or cancellation came before
one of its orders. -/
theorem converges_iff (h : ChainEvents drivers node v events) (hnodup : events.Nodup)
    (hfirst : first.Perm events) (horder : order.Perm events) (hchain : ChainOrder order) :
    (Converges drivers node v events first order ↔ Timely events first) ∧
      (UncheckedIdsFree drivers node v first ↔
        ∀ event ∈ first, isSpend event = true → InTime first event) := by
  constructor
  · rw [h.converges_iff_sameFinal hfirst hnodup]
    exact h.sameFinal_iff hfirst horder hnodup hchain
  · exact h.uncheckedIdsFree_iff (fun event => hfirst.mem_iff.mp) (hfirst.nodup_iff.mpr hnodup)

end

end

open GroundedDocuments Text

def exampleEvents : List BotEvent :=
  [.orderConfirmed exampleConfirmed, .orderConfirmed exampleSellConfirmed,
    .tradeConfirmed exampleSettled]

theorem exampleConfirmed_id_ne : exampleConfirmed.eventId ≠ exampleSellConfirmed.eventId := by
  decide +kernel

theorem exampleConfirmed_settled_id_ne : exampleConfirmed.eventId ≠ exampleSettled.eventId := by
  decide +kernel

theorem exampleSellConfirmed_settled_id_ne : exampleSellConfirmed.eventId ≠ exampleSettled.eventId := by
  decide +kernel

theorem mem_exampleEvents {event : BotEvent} : event ∈ exampleEvents ↔
    event = .orderConfirmed exampleConfirmed ∨ event = .orderConfirmed exampleSellConfirmed ∨
      event = .tradeConfirmed exampleSettled := by
  simp [exampleEvents]

theorem exampleEvents_spend {event : BotEvent} (hmem : event ∈ exampleEvents) {id : String}
    (hid : id ∈ namedIds event) : event = .tradeConfirmed exampleSettled := by
  rcases mem_exampleEvents.mp hmem with rfl | rfl | rfl
  · exact absurd hid List.not_mem_nil
  · exact absurd hid List.not_mem_nil
  · rfl

/-- The order stored for one of the creations has its facts. -/
theorem Known.facts {db : Db} {id : String} (h : Known exampleEvents db id) {e : OrderConfirmedEvent}
    (he : .orderConfirmed e ∈ exampleEvents) (hid : toOrderId e.outPoint = id) :
    ∃ order, db.orders.find? id = some order ∧ factsOf order = factsOf (confirmedDocument none e) := by
  obtain ⟨created, order, hmem, hcreated, hfind, hfacts⟩ := h
  have hsame : created = e := by
    have hne : toOrderId exampleConfirmed.outPoint ≠ toOrderId exampleSellConfirmed.outPoint :=
      exampleBuy_id_ne
    simp only [mem_exampleEvents, BotEvent.orderConfirmed.injEq, reduceCtorEq, or_false] at he hmem
    rcases he with rfl | rfl <;> rcases hmem with rfl | rfl
    · rfl
    · exact absurd (hid.trans hcreated.symm) hne
    · exact absurd (hcreated.trans hid.symm) hne
    · rfl
  exact ⟨order, hfind, hsame ▸ hfacts⟩

theorem exampleSettled_verified_of_known {db : Db}
    (h : ∀ id ∈ namedIds (.tradeConfirmed exampleSettled), Known exampleEvents db id) :
    run exampleDrivers (exampleChain.node SettlementBuilder.exampleDex 0)
      (verifyEvent exampleVerification (.tradeConfirmed exampleSettled)) db = (.ok (), db) := by
  obtain ⟨buy, hbuy, hbuyFacts⟩ := (h exampleBuy.id (by decide)).facts
    (mem_exampleEvents.mpr (Or.inl rfl)) rfl
  obtain ⟨sell, hsell, hsellFacts⟩ := (h exampleSell.id (by decide)).facts
    (mem_exampleEvents.mpr (Or.inr (Or.inl rfl))) rfl
  have hmatches : Matches db exampleSettled buy sell := by
    constructor
    · exact hbuy
    · exact hsell
    · exact congrArg OrderFacts.direction hbuyFacts
    · exact congrArg OrderFacts.direction hsellFacts
    · exact congrArg lower (congrArg OrderFacts.ownerLockHash hbuyFacts).symm
    · exact congrArg lower (congrArg OrderFacts.ownerLockHash hsellFacts).symm
    · exact congrArg lower (congrArg OrderFacts.xudtTypeHash hsellFacts).symm
    · exact (congrArg OrderFacts.remainingAmount hsellFacts).symm
    · exact (congrArg OrderFacts.pricePerToken hsellFacts).symm
    · exact exampleSettled_matches.block
  exact run_verifyTradeConfirmed_chain exampleSettled_names hmatches (spends_outPointText (by decide))
    (spends_outPointText (by decide))

theorem exampleEvents_chain : ChainEvents exampleDrivers (exampleChain.node SettlementBuilder.exampleDex 0)
    exampleVerification exampleEvents where
  ids := by
    intro a ha b hb heq
    rcases mem_exampleEvents.mp ha with rfl | rfl | rfl <;>
      rcases mem_exampleEvents.mp hb with rfl | rfl | rfl
    · rfl
    · exact absurd heq exampleConfirmed_id_ne
    · exact absurd heq exampleConfirmed_settled_id_ne
    · exact absurd heq exampleConfirmed_id_ne.symm
    · rfl
    · exact absurd heq exampleSellConfirmed_settled_id_ne
    · exact absurd heq exampleConfirmed_settled_id_ne.symm
    · exact absurd heq exampleSellConfirmed_settled_id_ne.symm
    · rfl
  noReorg := by simp [exampleEvents]
  verified := by
    intro event hmem db hknown
    rcases mem_exampleEvents.mp hmem with rfl | rfl | rfl
    · exact exampleBuy_indexable.verified _
    · exact exampleSell_indexable.verified _
    · exact exampleSettled_verified_of_known (hknown rfl)
  created := by
    intro e he
    simp only [mem_exampleEvents, BotEvent.orderConfirmed.injEq, reduceCtorEq, or_false] at he
    have hprice := exampleDrivers_reads.decimal128 5000 (by decide)
    have hblock := number_ne_nan_of_bigInt (bigInt_toString 1)
    have hindex := number_ne_nan_of_bigInt (bigInt_toString 0)
    rcases he with rfl | rfl <;> exact ⟨hprice, hblock, hindex⟩
  traded := by
    intro e he
    simp only [mem_exampleEvents, BotEvent.tradeConfirmed.injEq, reduceCtorEq, false_or] at he
    subst he
    exact ⟨rfl, number_ne_nan_of_bigInt (bigInt_toString 2)⟩
  distinct := by
    intro event hmem
    rcases mem_exampleEvents.mp hmem with rfl | rfl | rfl
    · exact List.nodup_nil
    · exact List.nodup_nil
    · exact List.nodup_cons.mpr ⟨List.mem_singleton.not.mpr exampleBuy_id_ne, List.nodup_singleton _⟩
  createdOnce := by
    intro a ha b hb heq _
    have hid : createdId (.orderConfirmed exampleConfirmed) ≠
        createdId (.orderConfirmed exampleSellConfirmed) :=
      fun h => exampleBuy_id_ne (Option.some_inj.mp h)
    rcases mem_exampleEvents.mp ha with rfl | rfl | rfl <;>
      rcases mem_exampleEvents.mp hb with rfl | rfl | rfl <;>
      first | rfl | exact absurd heq hid | exact absurd heq hid.symm | cases heq
  spentOnce := by
    intro a ha b hb _ _ hshare
    obtain ⟨id, hida, hidb⟩ := hshare
    rw [exampleEvents_spend ha hida, exampleEvents_spend hb hidb]
  submittedOnce := by simp [exampleEvents]
  settled := by simp [exampleEvents]
  notCancelled := by simp [exampleEvents]
  oneTrade := by
    intro a b ha hb _
    simp only [mem_exampleEvents, BotEvent.tradeConfirmed.injEq, reduceCtorEq, false_or] at ha hb
    rw [ha, hb]

theorem exampleEvents_nodup : exampleEvents.Nodup := by
  simp only [exampleEvents, List.nodup_cons, List.mem_cons, BotEvent.orderConfirmed.injEq, reduceCtorEq,
    List.not_mem_nil, or_false, not_false_eq_true, List.nodup_nil, and_true]
  exact fun h => exampleConfirmed_id_ne (congrArg (fun e : OrderConfirmedEvent => e.eventId) h)

theorem exampleEvents_order : ChainOrder exampleEvents := by
  simp [ChainOrder, exampleEvents, createdId, namedIds]

/-- The settlement before the orders that it settles. -/
def settledFirst : List BotEvent :=
  [.tradeConfirmed exampleSettled, .orderConfirmed exampleConfirmed, .orderConfirmed exampleSellConfirmed]

theorem settledFirst_perm : settledFirst.Perm exampleEvents := by
  have hlast := List.perm_append_singleton (BotEvent.tradeConfirmed exampleSettled)
    [.orderConfirmed exampleConfirmed, .orderConfirmed exampleSellConfirmed]
  exact hlast.symm

theorem settledFirst_not_inTime : ¬InTime settledFirst (.tradeConfirmed exampleSettled) := by
  have hnodup : ([] ++ .tradeConfirmed exampleSettled :: [.orderConfirmed exampleConfirmed,
      .orderConfirmed exampleSellConfirmed] : List BotEvent).Nodup :=
    settledFirst_perm.nodup_iff.mpr exampleEvents_nodup
  intro hinTime
  obtain ⟨created, hmem, -⟩ := (inTime_iff_complete hnodup).mp hinTime exampleBuy.id (by decide)
  exact List.not_mem_nil hmem

theorem converges_iff_example :
    ((Converges exampleDrivers (exampleChain.node SettlementBuilder.exampleDex 0) exampleVerification
        exampleEvents settledFirst exampleEvents ↔ Timely exampleEvents settledFirst) ∧
      (UncheckedIdsFree exampleDrivers (exampleChain.node SettlementBuilder.exampleDex 0)
        exampleVerification settledFirst ↔
          ∀ event ∈ settledFirst, isSpend event = true → InTime settledFirst event)) :=
  converges_iff exampleEvents_chain exampleEvents_nodup settledFirst_perm (List.Perm.refl _)
    exampleEvents_order

/-- A settlement that is delivered before its orders uses up its id unchecked, and
never takes effect. -/
theorem settledFirst_diverges :
    ChainEvents exampleDrivers (exampleChain.node SettlementBuilder.exampleDex 0) exampleVerification
        exampleEvents ∧ exampleEvents.Nodup ∧ settledFirst.Perm exampleEvents ∧
      ChainOrder exampleEvents ∧
      ¬Converges exampleDrivers (exampleChain.node SettlementBuilder.exampleDex 0) exampleVerification
        exampleEvents settledFirst exampleEvents ∧
      ¬UncheckedIdsFree exampleDrivers (exampleChain.node SettlementBuilder.exampleDex 0)
        exampleVerification settledFirst := by
  refine ⟨exampleEvents_chain, exampleEvents_nodup, settledFirst_perm, exampleEvents_order, ?_, ?_⟩
  · intro hconverges
    have hfinal := (exampleEvents_chain.converges_iff_sameFinal settledFirst_perm exampleEvents_nodup).mp
      hconverges
    have htimely := (exampleEvents_chain.sameFinal_iff settledFirst_perm (List.Perm.refl _)
      exampleEvents_nodup exampleEvents_order).mp hfinal
    apply settledFirst_not_inTime
    apply htimely _ List.mem_cons_self _ (Or.inl rfl)
    intro id hid
    rcases List.mem_pair.mp hid with rfl | rfl
    · exact ⟨.orderConfirmed exampleConfirmed, mem_exampleEvents.mpr (Or.inl rfl), rfl⟩
    · exact ⟨.orderConfirmed exampleSellConfirmed, mem_exampleEvents.mpr (Or.inr (Or.inl rfl)), rfl⟩
  · intro hfree
    have htime := (exampleEvents_chain.uncheckedIdsFree_iff (fun event => settledFirst_perm.mem_iff.mp)
      (settledFirst_perm.nodup_iff.mpr exampleEvents_nodup)).mp hfree
    exact settledFirst_not_inTime (htime _ List.mem_cons_self rfl)

end CkbDex.Convergence
