import CkbDex.Acceptance
import CkbDex.Sessions

/-!
# Exactly-once ingestion

Deliveries that run at once, call by call. The transaction of a delivery takes
several steps: an attempt reads a snapshot of the database, other deliveries go
on, and the attempt commits, is re-run from its callback, or ends with an error.
Every other call may answer or fail.
-/
namespace CkbDex.ExactlyOnce
open Documents Collections Projection BotEvents Programs Operations EventVerification IngestionSteps
open ProjectionSteps Chains GroundedDocuments Acceptance Sessions

abbrev Running := Prog Op (fun op => Answer (Res op)) (Except Failure IngestionResult)

structure Delivery where
  event : BotEvent
  program : Running
  /-- What the running attempt of the transaction reads. -/
  snapshot : Option Db

structure Room where
  db : Db
  deliveries : List Delivery

/-- The transaction commits: no document that it changed was changed by another
one since its snapshot. -/
structure Commits (snapshot changed current after : Db) : Prop where
  orders : Collection.Merges snapshot.orders changed.orders current.orders after.orders
  trades : Collection.Merges snapshot.trades changed.trades current.trades after.trades
  events : Collection.Merges snapshot.events changed.events current.events after.events
  checkpoints : after.checkpoints = current.checkpoints

/-- The event whose effect on orders and trades is committed with a result. -/
def effectOf (event : BotEvent) (result : IngestionResult) : Option String :=
  if result.status = .applied then some event.eventId else none

/-- One step of a delivery, with the event id whose effect it commits. -/
inductive Acts (drivers : Drivers) : Option String → Db × Delivery → Db × Delivery → Prop
  | call (node : Node) (db : Db) (event : BotEvent) (op : Op) (next : Answer (Res op) → Running)
      (snapshot : Option Db) (single : ∀ e, op ≠ .transact e) :
      Acts drivers none (db, ⟨event, .call op next, snapshot⟩)
        ((handle drivers node op db).2, ⟨event, next (handle drivers node op db).1, none⟩)
  /-- The call was made, but its answer is lost. -/
  | lose (node : Node) (db : Db) (event : BotEvent) (op : Op) (next : Answer (Res op) → Running)
      (snapshot : Option Db) (error : Failure) (single : ∀ e, op ≠ .transact e) :
      Acts drivers none (db, ⟨event, .call op next, snapshot⟩)
        ((handle drivers node op db).2, ⟨event, next (.error error), none⟩)
  | fail (db : Db) (event : BotEvent) (op : Op) (next : Answer (Res op) → Running)
      (snapshot : Option Db) (error : Failure) :
      Acts drivers none (db, ⟨event, .call op next, snapshot⟩) (db, ⟨event, next (.error error), none⟩)
  /-- An attempt starts, the first one or, after a conflict, one more. -/
  | attempt (db : Db) (event e : BotEvent) (next : Answer Outcome → Running) (snapshot : Option Db) :
      Acts drivers none (db, ⟨event, .call (.transact e) next, snapshot⟩)
        (db, ⟨event, .call (.transact e) next, some db⟩)
  /-- The callback throws, or a write or the commit fails. -/
  | abort (db : Db) (event e : BotEvent) (next : Answer Outcome → Running) (snapshot : Db)
      (error : Failure) :
      Acts drivers none (db, ⟨event, .call (.transact e) next, some snapshot⟩)
        (db, ⟨event, next (.ok (.aborted error)), none⟩)
  /-- A unique index refuses a write. -/
  | refuse (db : Db) (event e : BotEvent) (next : Answer Outcome → Running) (snapshot : Db) :
      Acts drivers none (db, ⟨event, .call (.transact e) next, some snapshot⟩)
        (db, ⟨event, next (.ok .duplicateKey), none⟩)
  | commit (db : Db) (event e : BotEvent) (next : Answer Outcome → Running)
      (snapshot changed after : Db) (result : IngestionResult)
      (applied : transact drivers e snapshot = (.committed result, changed))
      (commits : Commits snapshot changed db after) :
      Acts drivers (effectOf e result) (db, ⟨event, .call (.transact e) next, some snapshot⟩)
        (after, ⟨event, next (.ok (.committed result)), none⟩)

/-- The delivery at an index makes a step. -/
def ActsAt (drivers : Drivers) (actor : ℕ) (effect : Option String) (room next : Room) : Prop :=
  ∃ before after, room.deliveries[actor]? = some before ∧
    Acts drivers effect (room.db, before) (next.db, after) ∧
    next.deliveries = room.deliveries.set actor after

/-- An event is delivered, or a delivery makes a step. One that was stopped
makes none. -/
inductive Step (drivers : Drivers) (v : ChainVerification) (room : Room) : Room → Prop
  | deliver (event : BotEvent) :
      Step drivers v room ⟨room.db, room.deliveries ++ [⟨event, (ingest v event).run, none⟩]⟩
  | act (actor : ℕ) (effect : Option String) (next : Room) (acts : ActsAt drivers actor effect room next) :
      Step drivers v room next

abbrev Runs (drivers : Drivers) (v : ChainVerification) : Room → Room → Prop :=
  Relation.ReflTransGen (Step drivers v)

/-- A delivery notes whether its transaction was committed. -/
def record (note : Bool) : (op : Op) → Answer (Res op) → Bool
  | .transact _, .ok (.committed _) => true
  | _, _ => note

/-- A delivery calls nothing after its commit. -/
def allowed (event : BotEvent) (note : Bool) (op : Op) : Prop :=
  note = false ∧ (isQuery op = true ∨ (∃ message, op = .recordFailed event.eventId message) ∨
    op = .transact event)

/-- A delivery that throws was not committed. -/
def ends (note : Bool) : Except Failure IngestionResult → Prop
  | .ok _ => True
  | .error _ => note = false

section
variable {v : ChainVerification} {event : BotEvent}

theorem follows_query {α : Type} {x : Proc α} (hx : Only (fun op => isQuery op = true) x) :
    Follows record (allowed event) (fun note _ => note = false) false x := by
  refine follows_of_only hx fun op hop => ⟨⟨rfl, Or.inl hop⟩, fun answer => ?_⟩
  cases op <;> first | rfl | cases hop

theorem follows_auditFailure (error : Failure) :
    Follows record (allowed event) (fun note _ => note = false) false (auditFailure event error) := by
  rw [auditFailure, follows_tryCatch]
  refine follows_perform.mpr ⟨⟨rfl, Or.inr (Or.inl ⟨_, rfl⟩)⟩, fun answer => ?_⟩
  cases answer <;> rfl

/-- Whatever fails is thrown after the audit. -/
theorem follows_audit_throw {α : Type} (error : Failure) :
    Follows record (allowed event) (fun note _ => note = false) false
      (do auditFailure event error; throw error : Proc α) := by
  refine follows_bind.mpr ((follows_auditFailure error).mono fun note r hnote => ?_)
  cases r <;> exact hnote

theorem follows_verify :
    Follows record (allowed event) (fun note _ => note = false) false (verify v event) := by
  rw [verify, follows_tryCatch]
  refine (follows_query (only_verifyEvent event)).mono fun note r hnote => ?_
  subst hnote
  cases r with
  | ok u => rfl
  | error error =>
      cases error with
      | app statusCode message code =>
          simp only [reportFailure]
          split_ifs
          · exact follows_audit_throw _
          · rfl
      | other message => rfl

theorem follows_reportOutcome (answer : Outcome) :
    Follows record (allowed event) ends (record false (.transact event) (.ok answer))
      (reportOutcome event answer) := by
  cases answer with
  | committed result => trivial
  | duplicateKey => trivial
  | aborted error =>
      refine (follows_audit_throw error).mono fun note r hnote => ?_
      cases r with
      | ok _ => trivial
      | error _ => exact hnote

theorem follows_ingest : Follows record (allowed event) ends false (ingest v event) := by
  rw [ingest, follows_bind]
  refine follows_perform.mpr ⟨⟨rfl, Or.inl rfl⟩, fun answer => ?_⟩
  rcases answer with error | _ | _
  · rfl
  · refine follows_bind.mpr (follows_verify.mono fun note r hnote => ?_)
    subst hnote
    cases r with
    | error error => rfl
    | ok u =>
        refine follows_bind.mpr (follows_perform.mpr ⟨⟨rfl, Or.inr (Or.inr rfl)⟩, fun answer => ?_⟩)
        cases answer with
        | error error => rfl
        | ok outcome => exact follows_reportOutcome outcome
  · trivial

end

/-- A delivery makes the calls of an ingestion. -/
def Fits (delivery : Delivery) : Prop :=
  ∃ note, Keeps record (allowed delivery.event) ends note delivery.program

section
variable {drivers : Drivers} {v : ChainVerification} {event : BotEvent} {db next : Db}
  {snapshot changed current after : Db} {result : IngestionResult} {effect : Option String}
  {delivery delivery' : Delivery}

/-- A call outside the transaction writes at most an audit record. -/
theorem handle_allowed {note : Bool} {op : Op} (node : Node) (h : allowed event note op)
    (single : ∀ e, op ≠ .transact e) : (handle drivers node op db).2 = db ∨
      ∃ message, (handle drivers node op db).2 = recordFailed event.eventId message db := by
  rcases h with ⟨-, hquery | ⟨message, rfl⟩ | rfl⟩
  · exact Or.inl (handle_query hquery db)
  · exact Or.inr ⟨message, rfl⟩
  · exact (single event rfl).elim

theorem ended_of_committed {program : Running} (h : Keeps record (allowed event) ends true program) :
    ∃ result, program = .pure (.ok result) := by
  cases program with
  | pure r =>
      cases r with
      | ok result => exact ⟨result, rfl⟩
      | error error => cases h
  | call op next => cases h.1.1

/-- A step writes at most an audit record, or commits the transaction and ends
the delivery. -/
theorem acts_cases (hfits : Fits delivery) (h : Acts drivers effect (db, delivery) (next, delivery')) :
    Fits delivery' ∧ ((effect = none ∧
        (next = db ∨ ∃ message, next = recordFailed delivery.event.eventId message db)) ∨
      ∃ snapshot changed result, transact drivers delivery.event snapshot = (.committed result, changed) ∧
        Commits snapshot changed db next ∧ effect = effectOf delivery.event result ∧
        ∃ reported, delivery'.program = .pure (.ok reported)) := by
  obtain ⟨note, hkeeps⟩ := hfits
  cases h with
  | call node db event op next snapshot single =>
      exact ⟨⟨_, hkeeps.2 _⟩, Or.inl ⟨rfl, handle_allowed node hkeeps.1 single⟩⟩
  | lose node db event op next snapshot error single =>
      exact ⟨⟨_, hkeeps.2 _⟩, Or.inl ⟨rfl, handle_allowed node hkeeps.1 single⟩⟩
  | fail db event op next snapshot error => exact ⟨⟨_, hkeeps.2 _⟩, Or.inl ⟨rfl, Or.inl rfl⟩⟩
  | attempt db event e next snapshot => exact ⟨⟨note, hkeeps⟩, Or.inl ⟨rfl, Or.inl rfl⟩⟩
  | abort db event e next snapshot error => exact ⟨⟨_, hkeeps.2 _⟩, Or.inl ⟨rfl, Or.inl rfl⟩⟩
  | refuse db event e next snapshot => exact ⟨⟨_, hkeeps.2 _⟩, Or.inl ⟨rfl, Or.inl rfl⟩⟩
  | commit db event e next snapshot changed after result applied commits =>
      have hafter := hkeeps.2 (.ok (.committed result))
      obtain rfl : e = event := by
        rcases hkeeps.1 with ⟨-, hquery | ⟨message, hop⟩ | hop⟩
        · cases hquery
        · cases hop
        · exact Op.transact.inj hop
      exact ⟨⟨_, hafter⟩, Or.inr ⟨snapshot, changed, result, applied, commits, rfl,
        ended_of_committed hafter⟩⟩

/-- Processed records stay as they are. -/
def KeepsProcessed (db next : Db) : Prop :=
  ∀ record ∈ db.events.docs, record.processingStatus ≠ .failed → record ∈ next.events.docs

/-- The record of an event id is APPLIED. -/
def AppliedIn (db : Db) (eventId : String) : Prop :=
  ∃ record ∈ db.events.docs, record.eventId = eventId ∧ record.processingStatus = .applied

/-- The documents that an event describes are the same. -/
structure SameDocuments (db next : Db) : Prop where
  orders : ∀ id, next.orders.find? id = db.orders.find? id
  trades : ∀ id, next.trades.find? id = db.trades.find? id

theorem appliedIn_iff {eventId : String} : AppliedIn db eventId ↔
    ∃ record, db.events.find? eventId = some record ∧ record.processingStatus = .applied := by
  constructor
  · rintro ⟨record, hmem, rfl, hstatus⟩
    exact ⟨record, Collection.find?_of_mem hmem, hstatus⟩
  · rintro ⟨record, hfind, hstatus⟩
    obtain ⟨hmem, hid⟩ := Collection.find?_eq_some.mp hfind
    exact ⟨record, hmem, hid, hstatus⟩

theorem processed_of_appliedIn {eventId : String} (h : AppliedIn db eventId) :
    db.processed eventId = true := by
  obtain ⟨record, hfind, hstatus⟩ := appliedIn_iff.mp h
  simp [Db.processed, hfind, Db.isFailed, hstatus]

theorem keepsProcessed_recordFailed (eventId message : String) :
    KeepsProcessed db (recordFailed eventId message db) := by
  intro record hmem hstatus
  unfold recordFailed
  split_ifs with hprocessed
  · exact hmem
  · refine Collection.mem_docs_put.mpr (Or.inr ⟨hmem, fun hid => hprocessed ?_⟩)
    have hfind := Collection.find?_of_mem hmem
    rw [hid] at hfind
    simp [Db.processed, hfind, Db.isFailed, hstatus]

theorem appliedIn_recordFailed {eventId message other : String} :
    AppliedIn (recordFailed eventId message db) other ↔ AppliedIn db other := by
  unfold recordFailed
  split_ifs with hprocessed
  · rfl
  · simp only [appliedIn_iff, Collection.find?_put]
    split_ifs with hid
    · subst hid
      constructor
      · rintro ⟨record, hfind, hstatus⟩
        obtain rfl := Option.some_inj.mp hfind
        cases hstatus
      · rintro ⟨record, hfind, hstatus⟩
        exact (hprocessed (processed_of_appliedIn (appliedIn_iff.mpr ⟨record, hfind, hstatus⟩))).elim
    · rfl

theorem find?_recorded {projected : Db} {eventId other : String} :
    (recorded projected result eventId).events.find? other =
      if eventId = other then some ⟨eventId, processingStatusOf result.status, result.reason⟩
      else projected.events.find? other := by
  simp only [recorded, Collection.find?_put, Collection.find?_deleteWhere]
  split_ifs with hid
  · rfl
  · cases hfind : projected.events.find? other with
    | none => rfl
    | some record =>
        have hne : ¬record.eventId = eventId := fun h =>
          hid (h.symm.trans (Collection.key_of_find? hfind))
        exact Option.filter_some_pos (by simp [hne])

/-- What a committed transaction read and wrote. -/
theorem transact_committed (h : transact drivers event db = (.committed result, next)) :
    db.processed event.eventId = false ∧ ∃ projected,
      applyEvent drivers event db = .ok (result, projected) ∧
      next = recorded projected result event.eventId := by
  rcases transact_cases drivers event db with ⟨result', projected, happly, hcommitted, -⟩ | ⟨-, hnot⟩
  · obtain rfl : result' = result := by
      rw [h] at hcommitted
      exact (Outcome.committed.inj hcommitted).symm
    cases hnew : db.processed event.eventId with
    | true => exact (transact_ne_committed hnew _ (congrArg Prod.fst h)).elim
    | false =>
        rw [transact_eq hnew happly] at h
        exact ⟨rfl, projected, happly, (Prod.mk.inj h).2.symm⟩
  · exact (hnot result (congrArg Prod.fst h)).elim

/-- What a commit does to the ledger and to the projection. -/
structure Committed (drivers : Drivers) (event : BotEvent) (result : IngestionResult) (db next : Db) :
    Prop where
  new : db.processed event.eventId = false
  recorded : next.events.find? event.eventId =
    some ⟨event.eventId, processingStatusOf result.status, result.reason⟩
  others : ∀ other ≠ event.eventId, next.events.find? other = db.events.find? other
  effect : ∃ snapshot projected, applyEvent drivers event snapshot = .ok (result, projected) ∧
    Collection.Merges snapshot.orders projected.orders db.orders next.orders ∧
    Collection.Merges snapshot.trades projected.trades db.trades next.trades

theorem Commits.committed (h : Commits snapshot changed db next)
    (happlied : transact drivers event snapshot = (.committed result, changed)) :
    Committed drivers event result db next := by
  obtain ⟨hnew, projected, happly, rfl⟩ := transact_committed happlied
  have hsame : projected.events = snapshot.events := (events_of_applyEvent happly).1
  have hown : (recorded projected result event.eventId).events.find? event.eventId =
      some ⟨event.eventId, processingStatusOf result.status, result.reason⟩ := by
    rw [find?_recorded, if_pos rfl]
  have hwritten : (recorded projected result event.eventId).events.find? event.eventId ≠
      snapshot.events.find? event.eventId := by
    intro heq
    rw [hown] at heq
    cases hstatus : result.status <;>
      simp [Db.processed, ← heq, Db.isFailed, hstatus, processingStatusOf] at hnew
  obtain ⟨hcurrent, hafter⟩ := h.events.written hwritten
  refine ⟨?_, hafter.trans hown, ?_, snapshot, projected, happly, h.orders, h.trades⟩
  · rw [Db.processed, hcurrent]
    exact hnew
  · intro other hne
    refine h.events.unwritten ?_
    rw [find?_recorded, if_neg (Ne.symm hne), hsame]

theorem Committed.keepsProcessed (h : Committed drivers event result db next) :
    KeepsProcessed db next := by
  intro record hmem hstatus
  have hfind := Collection.find?_of_mem hmem
  have hne : record.eventId ≠ event.eventId := by
    intro hid
    have hnew := h.new
    rw [hid] at hfind
    simp [Db.processed, hfind, Db.isFailed, hstatus] at hnew
  exact (Collection.find?_eq_some.mp ((h.others _ hne).trans hfind)).1

theorem Committed.appliedIn (h : Committed drivers event result db next) {other : String} :
    AppliedIn next other ↔
      AppliedIn db other ∨ other = event.eventId ∧ result.status = .applied := by
  simp only [appliedIn_iff]
  by_cases hid : other = event.eventId
  · subst hid
    have hnot : ¬∃ record, db.events.find? event.eventId = some record ∧
        record.processingStatus = .applied := by
      intro happlied
      have hprocessed := processed_of_appliedIn (appliedIn_iff.mpr happlied)
      rw [h.new] at hprocessed
      cases hprocessed
    rw [h.recorded]
    cases hstatus : result.status <;> simp [processingStatusOf, hnot]
  · rw [h.others other hid]
    simp [hid]

/-- The commit of an ignored event changes no order and no trade. -/
theorem Committed.sameDocuments (h : Committed drivers event result db next)
    (hignored : result.status = .ignored) : SameDocuments db next := by
  obtain ⟨snapshot, projected, happly, horders, htrades⟩ := h.effect
  obtain rfl := applyEvent_ignored happly hignored
  exact ⟨fun id => horders.unwritten rfl, fun id => htrades.unwritten rfl⟩

end

def AllFit (room : Room) : Prop := ∀ delivery ∈ room.deliveries, Fits delivery

/-- The step of a delivery commits the effect of its event id. -/
def CommitsEffect (drivers : Drivers) (room : Room) (actor : ℕ) (eventId : String) (next : Room) : Prop :=
  ∃ delivery result snapshot projected, room.deliveries[actor]? = some delivery ∧
    delivery.event.eventId = eventId ∧ result.status = .applied ∧
    applyEvent drivers delivery.event snapshot = .ok (result, projected) ∧
    Collection.Merges snapshot.orders projected.orders room.db.orders next.db.orders ∧
    Collection.Merges snapshot.trades projected.trades room.db.trades next.db.trades

section
variable {drivers : Drivers} {v : ChainVerification} {room next later : Room} {actor : ℕ}
  {effect : Option String}

theorem KeepsProcessed.trans {a b c : Db} (hab : KeepsProcessed a b) (hbc : KeepsProcessed b c) :
    KeepsProcessed a c :=
  fun record hmem hstatus => hbc record (hab record hmem hstatus) hstatus

theorem KeepsProcessed.appliedIn {a b : Db} (h : KeepsProcessed a b) {eventId : String}
    (happlied : AppliedIn a eventId) : AppliedIn b eventId := by
  obtain ⟨record, hmem, hid, hstatus⟩ := happlied
  exact ⟨record, h record hmem (by simp [hstatus]), hid, hstatus⟩

/-- A step without an effect writes at most an audit record or an IGNORED one,
a step with one commits the event of its delivery. -/
theorem ActsAt.cases (hfit : AllFit room) (h : ActsAt drivers actor effect room next) :
    AllFit next ∧ KeepsProcessed room.db next.db ∧
      ((effect = none ∧ SameDocuments room.db next.db ∧
          ∀ id, AppliedIn next.db id ↔ AppliedIn room.db id) ∨
        ∃ delivery result, room.deliveries[actor]? = some delivery ∧
          effect = some delivery.event.eventId ∧ result.status = .applied ∧
          Committed drivers delivery.event result room.db next.db ∧
          ∃ ended reported, next.deliveries[actor]? = some ended ∧ ended.program = .pure (.ok reported)) := by
  obtain ⟨before, after, hbefore, hacts, hset⟩ := h
  obtain ⟨hafter, hcases⟩ := acts_cases (hfit before (List.mem_of_getElem? hbefore)) hacts
  have hnext : AllFit next := by
    intro delivery hmem
    rw [hset] at hmem
    rcases List.mem_or_eq_of_mem_set hmem with hold | rfl
    · exact hfit delivery hold
    · exact hafter
  have hfirst : next.deliveries[actor]? = some after := by
    rw [hset, List.getElem?_set_self (List.getElem?_eq_some_iff.mp hbefore).1]
  refine ⟨hnext, ?_⟩
  rcases hcases with ⟨rfl, hsame | ⟨message, hwritten⟩⟩ |
    ⟨snapshot, changed, result, happlied, hcommits, rfl, reported, hended⟩
  · rw [hsame]
    exact ⟨fun _ hmem _ => hmem, Or.inl ⟨rfl, ⟨fun _ => rfl, fun _ => rfl⟩, fun _ => Iff.rfl⟩⟩
  · have hprojection := sameProjection_recordFailed before.event.eventId message room.db
    rw [hwritten]
    refine ⟨keepsProcessed_recordFailed _ _, Or.inl ⟨rfl, ⟨fun _ => ?_, fun _ => ?_⟩,
      fun _ => appliedIn_recordFailed⟩⟩
    · rw [hprojection.orders]
    · rw [hprojection.trades]
  · have hcommitted := hcommits.committed happlied
    refine ⟨hcommitted.keepsProcessed, ?_⟩
    cases hstatus : result.status with
    | applied =>
        exact Or.inr ⟨before, result, hbefore, by simp [effectOf, hstatus], hstatus, hcommitted, after,
          reported, hfirst, hended⟩
    | ignored =>
        refine Or.inl ⟨by simp [effectOf, hstatus], hcommitted.sameDocuments hstatus, fun id => ?_⟩
        rw [hcommitted.appliedIn]
        simp [hstatus]

theorem Step.keeps (hfit : AllFit room) (h : Step drivers v room next) :
    AllFit next ∧ KeepsProcessed room.db next.db := by
  cases h with
  | deliver event =>
      refine ⟨fun delivery hmem => ?_, fun _ hmem _ => hmem⟩
      rcases List.mem_append.mp hmem with hold | hnew
      · exact hfit delivery hold
      · obtain rfl := List.mem_singleton.mp hnew
        exact ⟨false, follows_ingest⟩
  | act actor effect next acts =>
      obtain ⟨hnext, hkeeps, -⟩ := acts.cases hfit
      exact ⟨hnext, hkeeps⟩

theorem Runs.keeps (hfit : AllFit room) (h : Runs drivers v room next) :
    AllFit next ∧ KeepsProcessed room.db next.db := by
  induction h with
  | refl => exact ⟨hfit, fun _ hmem _ => hmem⟩
  | tail _ hstep ih =>
      obtain ⟨hnext, hkeeps⟩ := hstep.keeps ih.1
      exact ⟨hnext, ih.2.trans hkeeps⟩

/-- A delivery that has ended makes no further step. -/
theorem Runs.ended {delivery : Delivery} {r : Except Failure IngestionResult}
    (h : Runs drivers v room next) (hdelivery : room.deliveries[actor]? = some delivery)
    (hended : delivery.program = .pure r) : next.deliveries[actor]? = some delivery := by
  induction h with
  | refl => exact hdelivery
  | tail _ hstep ih =>
      cases hstep with
      | deliver event =>
          have hlt := (List.getElem?_eq_some_iff.mp ih).1
          exact (List.getElem?_append_left hlt).trans ih
      | act other effect next acts =>
          obtain ⟨before, after, hbefore, hacts, hset⟩ := acts
          have hne : other ≠ actor := by
            rintro rfl
            obtain rfl := Option.some_inj.mp (hbefore.symm.trans ih)
            obtain ⟨event, program, snapshot⟩ := before
            subst hended
            cases hacts
          rw [hset, List.getElem?_set_ne hne]
          exact ih

end

/-- However deliveries interleave: the ledger holds at most one record for each
event id, and keeps it once it is APPLIED or IGNORED. A step commits the effect
of an event id on orders and trades exactly when the record of the id becomes
APPLIED, and no later step commits it again; every other step leaves orders and
trades alone. A delivery that changed one never throws. -/
theorem ingested_exactly_once (drivers : Drivers) (v : ChainVerification) {initial : Db} {room : Room}
    (h : Runs drivers v ⟨initial, []⟩ room) :
    (∀ a ∈ room.db.events.docs, ∀ b ∈ room.db.events.docs, a.eventId = b.eventId → a = b) ∧
    (∀ later, Runs drivers v room later → KeepsProcessed room.db later.db) ∧
    ∀ actor effect next, ActsAt drivers actor effect room next →
      (∀ id, effect = some id ↔ ¬AppliedIn room.db id ∧ AppliedIn next.db id) ∧
      (∀ id, effect = some id → CommitsEffect drivers room actor id next) ∧
      (effect = none → SameDocuments room.db next.db) ∧
      (∀ id, effect = some id → ∀ later, Runs drivers v next later →
        ∀ actor' last, ¬ActsAt drivers actor' (some id) later last) ∧
      (¬SameDocuments room.db next.db → ∀ later, Runs drivers v next later →
        ∀ delivery, later.deliveries[actor]? = some delivery →
          ∀ error, delivery.program ≠ .pure (.error error)) := by
  have hnone : AllFit (⟨initial, []⟩ : Room) := fun _ hmem => (List.not_mem_nil hmem).elim
  have hfit : AllFit room := (Runs.keeps hnone h).1
  refine ⟨?_, fun later hlater => (hlater.keeps hfit).2, ?_⟩
  · intro a ha b hb hid
    exact List.inj_on_of_nodup_map room.db.events.nodup ha hb hid
  · intro actor effect next hacts
    obtain ⟨hnext, hkeeps, ⟨rfl, hsame, happlied⟩ |
      ⟨delivery, result, hdelivery, rfl, hstatus, hcommitted, ended, reported, hended, hprogram⟩⟩ :=
      hacts.cases hfit
    · refine ⟨fun id => ?_, nofun, fun _ => hsame, nofun, fun hnot => (hnot hsame).elim⟩
      rw [happlied id]
      simp
    · obtain ⟨snapshot, projected, happly, horders, htrades⟩ := hcommitted.effect
      have hnot : ¬AppliedIn room.db delivery.event.eventId := by
        intro happlied
        have hprocessed := processed_of_appliedIn happlied
        rw [hcommitted.new] at hprocessed
        cases hprocessed
      have happlied : AppliedIn next.db delivery.event.eventId :=
        hcommitted.appliedIn.mpr (Or.inr ⟨rfl, hstatus⟩)
      refine ⟨fun id => ?_, ?_, nofun, ?_, ?_⟩
      · rw [Option.some_inj, hcommitted.appliedIn]
        constructor
        · rintro rfl
          exact ⟨hnot, Or.inr ⟨rfl, hstatus⟩⟩
        · rintro ⟨hold, hnew⟩
          exact (hnew.resolve_left hold).1.symm
      · rintro id hid
        exact ⟨delivery, result, snapshot, projected, hdelivery, Option.some_inj.mp hid, hstatus, happly,
          horders, htrades⟩
      · rintro id hid later hlater actor' last hagain
        obtain ⟨hfits, hlong⟩ := hlater.keeps hnext
        obtain ⟨-, -, ⟨hnone, -⟩ | ⟨again, _, -, hsame, -, hcommitted', -⟩⟩ := hagain.cases hfits
        · cases hnone
        · have hprocessed := processed_of_appliedIn (hlong.appliedIn happlied)
          have hnew := hcommitted'.new
          rw [← Option.some_inj.mp hsame, ← Option.some_inj.mp hid, hprocessed] at hnew
          cases hnew
      · intro _ later hlater other hother error herror
        rw [hlater.ended hended hprogram, Option.some_inj] at hother
        rw [← hother, hprogram] at herror
        cases herror

section
variable {drivers : Drivers} {v : ChainVerification} {event e : BotEvent} {db next : Db}
  {others : List Delivery}

theorem step_last {before after : Delivery} {effect : Option String}
    (h : Acts drivers effect (db, before) (next, after)) :
    Step drivers v ⟨db, others ++ [before]⟩ ⟨next, others ++ [after]⟩ := by
  refine .act others.length effect _ ⟨before, after, List.getElem?_concat_length, h, ?_⟩
  simp

/-- An attempt that nobody disturbs does the whole transaction. -/
theorem runs_transact (resume : Answer Outcome → Running) :
    Runs drivers v ⟨db, others ++ [⟨event, .call (.transact e) resume, none⟩]⟩
      ⟨(transact drivers e db).2, others ++ [⟨event, resume (.ok (transact drivers e db).1), none⟩]⟩ := by
  have hattempt : Step drivers v ⟨db, others ++ [⟨event, .call (.transact e) resume, none⟩]⟩
      ⟨db, others ++ [⟨event, .call (.transact e) resume, some db⟩]⟩ :=
    step_last (.attempt db event e resume none)
  refine (Relation.ReflTransGen.single hattempt).tail ?_
  rcases transact_cases drivers e db with ⟨result, projected, happly, hcommitted, hsame⟩ | ⟨hdb, hnot⟩
  · have hcheckpoints : (transact drivers e db).2.checkpoints = db.checkpoints :=
      hsame.checkpoints.trans (events_of_applyEvent happly).2
    rw [hcommitted]
    exact step_last (.commit db event e resume db _ _ result (by rw [← hcommitted])
      ⟨Collection.merges_alone _ _, Collection.merges_alone _ _, Collection.merges_alone _ _, hcheckpoints⟩)
  · rw [hdb]
    cases houtcome : (transact drivers e db).1 with
    | committed result => exact (hnot result houtcome).elim
    | duplicateKey => exact step_last (.refuse db event e resume db)
    | aborted error => exact step_last (.abort db event e resume db error)

/-- A delivery that runs alone does what its ingestion evaluates to. -/
theorem runs_alone (node : Node) (program : Running) :
    Runs drivers v ⟨db, others ++ [⟨event, program, none⟩]⟩
      ⟨(program.eval (handle drivers node) db).2,
        others ++ [⟨event, .pure (program.eval (handle drivers node) db).1, none⟩]⟩ := by
  induction program generalizing db with
  | pure r => exact .refl
  | call op resume ih =>
      by_cases htransact : ∃ e, op = .transact e
      · obtain ⟨e, rfl⟩ := htransact
        exact (runs_transact resume).trans (ih _)
      · have hcall : Step drivers v ⟨db, others ++ [⟨event, .call op resume, none⟩]⟩
            ⟨(handle drivers node op db).2,
                others ++ [⟨event, resume (handle drivers node op db).1, none⟩]⟩ :=
          step_last (.call node db event op resume none fun e he => htransact ⟨e, he⟩)
        exact (ih _).head hcall

/-- A run after which an event is applied has committed it. -/
theorem exists_commit {room last : Room} {id : String} (hfit : AllFit room) (hrun : Runs drivers v room last)
    (hnew : ¬AppliedIn room.db id) (happlied : AppliedIn last.db id) :
    ∃ actor before next, Runs drivers v room before ∧ ActsAt drivers actor (some id) before next ∧
      Runs drivers v next last := by
  induction hrun with
  | refl => exact (hnew happlied).elim
  | @tail before last hbefore hstep ih =>
      by_cases hold : AppliedIn before.db id
      · obtain ⟨actor, earlier, next, hfirst, hacts, hlater⟩ := ih hold
        exact ⟨actor, earlier, next, hfirst, hacts, hlater.tail hstep⟩
      · cases hstep with
        | deliver event => exact (hold happlied).elim
        | act actor effect next hacts =>
            obtain ⟨-, -, ⟨-, -, hsame⟩ | ⟨delivery, result, -, rfl, -, hcommitted, -⟩⟩ :=
              hacts.cases (Runs.keeps hfit hbefore).1
            · exact (hold ((hsame id).mp happlied)).elim
            · obtain rfl := ((hcommitted.appliedIn.mp happlied).resolve_left hold).1
              exact ⟨actor, before, last, hbefore, hacts, .refl⟩

/-- An event that is delivered when nothing else runs. -/
theorem runs_delivered (node : Node) (db : Db) (others : List Delivery) :
    Runs drivers v ⟨db, others⟩
      ⟨((ingest v event).run.eval (handle drivers node) db).2,
        others ++ [⟨event, .pure ((ingest v event).run.eval (handle drivers node) db).1, none⟩]⟩ :=
  (runs_alone node (ingest v event).run).head (.deliver event)

end

open SettlementBuilder in
/-- The creation of an order is delivered twice: one step commits it, and none does
after the second delivery. -/
theorem ingested_exactly_once_example : ∃ actor before next room,
    Runs exampleDrivers exampleVerification ⟨Db.empty, []⟩ before ∧
    ActsAt exampleDrivers actor (some exampleConfirmed.eventId) before next ∧
    Runs exampleDrivers exampleVerification next room ∧ room.deliveries.length = 2 ∧
    KeepsProcessed next.db room.db ∧
    ∀ actor' last, ¬ActsAt exampleDrivers actor' (some exampleConfirmed.eventId) room last := by
  have hdb : ((ingest exampleVerification (.orderConfirmed exampleConfirmed)).run.eval
      (handle exampleDrivers (exampleChain.node exampleDex 0)) Db.empty).2 = exampleIndexed :=
    congrArg Prod.snd exampleConfirmed_ingested
  have happlied : AppliedIn exampleIndexed exampleConfirmed.eventId :=
    appliedIn_iff.mpr ⟨_, find?_recorded.trans (if_pos rfl), rfl⟩
  have hnew : ¬AppliedIn Db.empty exampleConfirmed.eventId := by
    rw [appliedIn_iff]
    rintro ⟨record, hfind, -⟩
    cases hfind
  have hfit : AllFit (⟨Db.empty, []⟩ : Room) := fun _ hmem => (List.not_mem_nil hmem).elim
  obtain ⟨actor, before, next, hbefore, hacts, hafter⟩ := exists_commit hfit
    (@runs_delivered exampleDrivers exampleVerification (.orderConfirmed exampleConfirmed)
      (exampleChain.node exampleDex 0) Db.empty []) hnew (by rw [hdb]; exact happlied)
  have hagain := hafter.trans (@runs_delivered exampleDrivers exampleVerification
    (.orderConfirmed exampleConfirmed) (exampleChain.node exampleDex 0) _ _)
  obtain ⟨-, -, heffect⟩ := ingested_exactly_once exampleDrivers exampleVerification hbefore
  have hnext : Runs exampleDrivers exampleVerification ⟨Db.empty, []⟩ next :=
    hbefore.tail (.act actor _ next hacts)
  exact ⟨actor, before, next, _, hbefore, hacts, hagain, rfl,
    (ingested_exactly_once exampleDrivers exampleVerification hnext).2.1 _ hagain,
    (heffect actor _ next hacts).2.2.2.1 _ rfl _ hagain⟩

end CkbDex.ExactlyOnce
