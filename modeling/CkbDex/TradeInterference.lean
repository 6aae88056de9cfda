import CkbDex.Admission
import CkbDex.InFlightDeadlines

/-!
# A trade among other activity

A settlement that is submitted marks both of its orders PENDING with its hash, so
that later ticks follow it. Other activity may go on between the calls of the
trade, as long as it spares the two orders or marks them for the same settlement.
-/
namespace CkbDex.SettlementTracking
open Checked Bytes Documents Collections Projection Programs Operations EventVerification
open IngestionSteps CkbDex.Bot Acceptance Observation OrderWrites Interleaving SettlementBuilder
open Interference
open TerminalStatuses (Runs Performs System unlimited)

structure Tracks (txHash : Hex) (order : OrderDocument) : Prop where
  status : order.status = .pending ∨ order.status = .filled
  pending : order.pendingTxHash = some txHash
  settlement : order.settlementTxHash = some txHash

def BothTrack (db : Db) (buyId sellId : String) (txHash : Hex) : Prop :=
  ∃ buy sell, db.orders.find? buyId = some buy ∧ db.orders.find? sellId = some sell ∧
    Tracks txHash buy ∧ Tracks txHash sell

/-- The id of the event that records a submitted settlement. -/
def submissionId (txHash : Hash) : String := "settlement-submitted:" ++ hashText txHash

/-- The two orders are as they were and the settlement's event is not processed
in between, or both orders are marked for the settlement. -/
def Spares (buyId sellId : String) (txHash : Hash) (s t : Db) : Prop :=
  (t.orders.find? buyId = s.orders.find? buyId ∧ t.orders.find? sellId = s.orders.find? sellId ∧
    (t.processed (submissionId txHash) = true → s.processed (submissionId txHash) = true)) ∨
  BothTrack t buyId sellId (hashText txHash)

/-- The id of every order is that of its out point. -/
def Identified (db : Db) : Prop := ∀ order ∈ db.orders.docs, order.id = toOrderId order.outPoint

section
variable {drivers : Drivers} {node : Node} {db : Db}

theorem Identified.handle (h : Identified db) (op : Op) :
    Identified (handle drivers node op db).2 := by
  intro order hmem
  rcases written_of_handle hmem with hold | hwritten
  · exact h order hold
  · cases hwritten with
    | confirmed event isOpen => rfl
    | cancelled event old found allowed => exact h old (Collection.find?_eq_some.mp found).1
    | submitted event old found named ready => exact h old found
    | filled event old found named ready => exact h old found
    | rolledBack event old found =>
        unfold rollBackOrder
        split_ifs <;> exact h old found
    | reserved id t old found live => exact h old (Collection.find?_eq_some.mp found).1
    | released id old found => exact h old (Collection.find?_eq_some.mp found).1
    | extended id t old found => exact h old (Collection.find?_eq_some.mp found).1
    | tracked ids txHash old found named => exact h old found

theorem identified_of_runs {config : Config} {nodes : Node → Prop} {before : System}
    (h : Runs drivers config nodes unlimited ⟨Db.empty, []⟩ before) : Identified before.state := by
  refine run_keeps (P := Identified) ?_ h (fun order hmem => by cases hmem)
  rintro op db answer next ⟨-, ⟨node, -, hhandle⟩ | ⟨rfl, -⟩⟩ hidentified
  · have hnext : (handle drivers node op db).2 = next := congrArg Prod.snd hhandle
    rw [← hnext]
    exact hidentified.handle op
  · exact hidentified

theorem performs_query {nodes : Node → Prop} {op : Op} {answer : Answer (Res op)} {next : Db}
    (hop : isQuery op = true) (h : Performs drivers nodes unlimited op db answer next) : next = db := by
  obtain ⟨-, ⟨node, -, hhandle⟩ | ⟨rfl, -⟩⟩ := h
  · have hsame : (handle drivers node op db).2 = db := handle_query hop db
    rw [← hsame]
    exact (congrArg Prod.snd hhandle).symm
  · rfl

end

/-- The calls of a trade and what goes on between them: the two orders stay as
they are found and the ledger keeps a condition, or both are closed. -/
structure Supervised (S : Setting Op (fun op => Answer (Res op)) Db) (drivers : Drivers)
    (nodes : Node → Prop) (buyId sellId : String) (ledger closed : Db → Prop) : Prop where
  free : Free S
  performs : ∀ op db answer next, S.performs op db answer next →
    Performs drivers nodes unlimited op db answer next
  drifts : ∀ s t, S.drifts s t → (t.orders.find? buyId = s.orders.find? buyId ∧
    t.orders.find? sellId = s.orders.find? sellId ∧ (ledger s → ledger t)) ∨ closed t
  stays : ∀ s t, S.drifts s t → closed s → closed t
  notLive : ∀ t order, closed t →
    t.orders.find? buyId = some order ∨ t.orders.find? sellId = some order → order.status ≠ .live
  events : ∀ s t : Db, t.events = s.events → ledger s → ledger t

/-- The two orders are found so, or are closed. -/
def Held (ledger closed : Db → Prop) (buyId sellId : String) (buy sell : Option OrderDocument)
    (db : Db) : Prop :=
  (db.orders.find? buyId = buy ∧ db.orders.find? sellId = sell ∧ ledger db) ∨ closed db

section
variable {S : Setting Op (fun op => Answer (Res op)) Db} {drivers : Drivers} {nodes : Node → Prop}
  {buyId sellId : String} {ledger closed : Db → Prop} {buy sell : Option OrderDocument} {db : Db}

theorem Held.drift (hS : Supervised S drivers nodes buyId sellId ledger closed) (s t : Db)
    (hst : S.drifts s t) (h : Held ledger closed buyId sellId buy sell s) :
    Held ledger closed buyId sellId buy sell t := by
  rcases h with ⟨hbuy, hsell, hledger⟩ | hclosed
  · rcases hS.drifts s t hst with ⟨hb, hs, hl⟩ | hclosed
    · exact Or.inl ⟨hb.trans hbuy, hs.trans hsell, hl hledger⟩
    · exact Or.inr hclosed
  · exact Or.inr (hS.stays s t hst hclosed)

/-- A query answers from the state it finds, or fails. -/
theorem safe_query (hS : Supervised S drivers nodes buyId sellId ledger closed) {Q : Db → Prop}
    (hdrift : ∀ s t, S.drifts s t → Q s → Q t) {op : Op} (hop : isQuery op = true) (hdb : Q db) :
    Safe S (request op) (fun r u => Q u ∧ ((∃ node, nodes node ∧ r = (handle drivers node op u).1) ∨
      ∃ error, r = .error error)) db := by
  refine safe_perform.mpr fun t answer u hdrifted hperformed => ?_
  have hcall := hS.performs op t answer u hperformed
  obtain rfl := performs_query hop hcall
  refine ⟨hS.free _ _, hdrift _ _ hdrifted hdb, ?_⟩
  obtain ⟨-, ⟨node, hnode, hhandle⟩ | ⟨-, herror⟩⟩ := hcall
  · exact Or.inl ⟨node, hnode, (congrArg Prod.fst hhandle).symm⟩
  · exact Or.inr herror

/-- An order that is reserved was found LIVE just before. -/
theorem safe_reserve (hS : Supervised S drivers nodes buyId sellId ledger closed) (id : String)
    (hdb : Held ledger closed buyId sellId buy sell db) :
    Safe S (reserve id) (fun r u => ∀ order, r = .ok (some order) → ∃ t old reservedUntil,
      Held ledger closed buyId sellId buy sell t ∧ t.orders.find? id = some old ∧ old.status = .live ∧
        order = reservedDocument reservedUntil old ∧ u = t.putOrder order) db := by
  refine safe_bind.mpr (Safe.mono (safe_query hS (Held.drift hS) rfl hdb) ?_)
  rintro (error | now) u - ⟨hheld, -⟩
  · exact fun order h => by cases h
  · refine safe_perform.mpr fun t answer next hdrifted hperformed => ⟨hS.free _ _, ?_⟩
    rintro order rfl
    obtain ⟨-, ⟨node, -, hhandle⟩ | ⟨-, error, herror⟩⟩ := hS.performs _ _ _ _ hperformed
    · obtain ⟨hanswer, hnext⟩ := Prod.mk.inj hhandle
      have hfound : (Db.reserve t id (now + reservationTtl)).1 = some order := Except.ok.inj hanswer
      have hstored : (Db.reserve t id (now + reservationTtl)).2 = next := hnext
      cases hold : t.orders.find? id with
      | none => simp [Db.reserve, hold] at hfound
      | some old =>
          simp only [Db.reserve, hold] at hfound hstored
          split_ifs at hfound hstored with hlive
          · obtain rfl := Option.some_inj.mp hfound
            exact ⟨t, old, _, Held.drift hS _ _ hdrifted hheld, hold, hlive, rfl, hstored.symm⟩
    · cases herror

/-- What is left of a liveness check once the cell was looked at. -/
def afterLook (v : ChainVerification) (order : OrderDocument) (live : Bool) : Proc Bool :=
  if live then return true
  else do
    reconcileSpentOrder v order
    return false

theorem run_checkOrderLiveness {v : ChainVerification} {order : OrderDocument} {ref : CellRef}
    (href : refFrom order.outPoint = some ref) : (checkOrderLiveness v order).run =
      .call (.getCellLive ref) (ExceptT.bindCont (afterLook v order)) := by
  rw [checkOrderLiveness, href]
  rfl

/-- An order that is found live is only looked at. -/
theorem keeps_checkOrderLiveness (hS : Supervised S drivers nodes buyId sellId ledger closed)
    (Q : Db → Prop) (v : ChainVerification) (order : OrderDocument) :
    Keeps S Q (fun live => live = true) (checkOrderLiveness v order).run := by
  cases href : refFrom order.outPoint with
  | none =>
      have hrun : (checkOrderLiveness v order).run = .pure (.error (.other "invalid out point")) := by
        rw [checkOrderLiveness, href]
        rfl
      rw [hrun]
      exact .ended _
  | some ref =>
      rw [run_checkOrderLiveness href]
      refine .call _ _ (fun t answer u hperformed ht => ?_) fun answer => ?_
      · rw [performs_query rfl (hS.performs _ _ _ _ hperformed)]
        exact ht
      · rcases answer with error | _ | _
        · exact .ended _
        · refine .misses _ ((ends_bind (f := ExceptT.bindCont fun _ => pure false)).mpr
            (Ends.mono (ends_true (reconcileSpentOrder v order).run) fun r _ => ?_))
          cases r with
          | error error => exact fun a ha => by cases ha
          | ok result =>
              intro a ha
              obtain rfl := Except.ok.inj ha
              exact Bool.false_ne_true
        · exact .ended _

/-- The hash of a submitted settlement is that of its transaction. -/
def Hashes (config : Config) (nodes : Node → Prop) : Prop :=
  ∀ node, nodes node → ∀ settlement txHash, node.sendTransaction settlement = .ok txHash →
    txHash = config.settlementHash settlement

theorem Hashes.of_node {config : Config} (h : Hashes config nodes) {node : Node} (hnode : nodes node) :
    Hashes config fun other => other = node := by
  rintro _ rfl
  exact h _ hnode

theorem safe_submit (hS : Supervised S drivers nodes buyId sellId ledger closed) {config : Config}
    (hhash : Hashes config nodes) (settlement : Settlement) {Q : Db → Prop}
    (hdrift : ∀ s t, S.drifts s t → Q s → Q t) (hdb : Q db) :
    Safe S (submit config settlement) (fun r u => Q u ∧
      ∀ txHash, r = .ok txHash → txHash = config.settlementHash settlement) db := by
  refine safe_tryCatch.mpr (Safe.mono (safe_query hS hdrift rfl hdb) ?_)
  rintro (error | txHash) u - ⟨hq, hanswer⟩
  · simp only [translateRejection]
    split_ifs
    · exact ⟨hq, fun txHash h => (Except.ok.inj h).symm⟩
    all_goals exact ⟨hq, fun txHash h => by cases h⟩
  · rcases hanswer with ⟨node, hnode, hsent⟩ | ⟨error, herror⟩
    · refine ⟨hq, fun other h => ?_⟩
      obtain rfl := Except.ok.inj h
      exact hhash node hnode settlement _ hsent.symm
    · cases herror

/-- How a submitted settlement is recorded. -/
def recordSettlement (v : ChainVerification) (buyOrder sellOrder : OrderDocument) (txHash : Hash) :
    Proc Unit :=
  tryCatch
    (do
      let _ ← ingest v (.settlementSubmitted (settlementSubmittedEvent buyOrder sellOrder txHash))
      return ())
    fun _ => request (.trackPending [buyOrder.id, sellOrder.id] (hashText txHash))

theorem safe_settleReserved (hS : Supervised S drivers nodes buyId sellId ledger closed)
    {config : Config} (hhash : Hashes config nodes) (schedule : List Bool) (settlement : Settlement)
    (buyOrder sellOrder : OrderDocument) {Q R : Db → Prop} (hdrift : ∀ s t, S.drifts s t → Q s → Q t)
    (hrecord : ∀ s, Q s → Safe S (recordSettlement config.verification buyOrder sellOrder
      (config.settlementHash settlement)) (fun r u => r = .ok () → R u) s) (hdb : Q db) :
    Safe S (settleReserved config schedule settlement buyOrder sellOrder) (fun r u =>
      ∀ txHash, r = .ok txHash → txHash = config.settlementHash settlement ∧ R u) db := by
  have hlive := Keeps.beside hS.free hdrift
    (keeps_checkOrderLiveness hS Q config.verification buyOrder)
    (keeps_checkOrderLiveness hS Q config.verification sellOrder) schedule hdb
  refine safe_bind.mpr (SafeProg.mono hlive ?_)
  rintro (error | ⟨buyLive, sellLive⟩) u - hq
  · exact fun txHash h => by cases h
  · refine safe_bind.mpr (safe_require.mpr ?_)
    by_cases hspent : buyLive = false ∨ sellLive = false
    · rw [throwIf, if_pos hspent]
      exact fun txHash h => by cases h
    · rw [throwIf, if_neg hspent]
      rw [not_or, Bool.not_eq_false, Bool.not_eq_false] at hspent
      have hu : Q u := hq _ rfl hspent.1 hspent.2
      refine safe_bind.mpr (Safe.mono (safe_submit hS hhash settlement hdrift hu) ?_)
      rintro (error | txHash) w - ⟨hw, hsame⟩
      · exact fun txHash h => by cases h
      · obtain rfl := hsame _ rfl
        refine safe_bind.mpr (Safe.mono (hrecord w hw) ?_)
        rintro (error | result) x - hx
        · exact fun txHash h => by cases h
        · intro txHash h
          exact ⟨(Except.ok.inj h).symm, hx rfl⟩

/-- The state after the order of a LIVE document is reserved. -/
theorem Held.putOrder (hS : Supervised S drivers nodes buyId sellId ledger closed)
    (h : Held ledger closed buyId sellId buy sell db) {id : String} (hid : id = buyId ∨ id = sellId)
    {old : OrderDocument} (hfind : db.orders.find? id = some old) (hlive : old.status = .live) (t : ℕ) :
    (id = buyId → buy = some old) ∧ (id = sellId → sell = some old) ∧
      Held ledger closed buyId sellId (if id = buyId then some (reservedDocument t old) else buy)
        (if id = sellId then some (reservedDocument t old) else sell)
        (db.putOrder (reservedDocument t old)) := by
  rcases h with ⟨hbuy, hsell, hledger⟩ | hclosed
  · have hkey : old.id = id := Collection.key_of_find? hfind
    refine ⟨?_, ?_, Or.inl ⟨?_, ?_, hS.events db _ rfl hledger⟩⟩
    · rintro rfl
      exact hbuy.symm.trans hfind
    · rintro rfl
      exact hsell.symm.trans hfind
    · refine Collection.find?_put.trans ?_
      rw [hbuy]
      exact if_congr (by rw [← hkey]; rfl) rfl rfl
    · refine Collection.find?_put.trans ?_
      rw [hsell]
      exact if_congr (by rw [← hkey]; rfl) rfl rfl
  · have hfound : db.orders.find? buyId = some old ∨ db.orders.find? sellId = some old := by
      rcases hid with rfl | rfl
      · exact Or.inl hfind
      · exact Or.inr hfind
    exact absurd hlive (hS.notLive db old hclosed hfound)

theorem misses_bind {α β : Type} {P : β → Prop} (x : Proc α) {f : α → Proc β}
    (h : ∀ a, Misses P (f a).run) : Misses P (x >>= f).run := by
  refine (ends_bind (f := ExceptT.bindCont f)).mpr (Ends.mono (ends_true x.run) fun r _ => ?_)
  cases r with
  | ok a => exact h a
  | error error => exact fun b hb => by cases hb

theorem misses_throw {β : Type} {P : β → Prop} (error : Failure) :
    Misses P (throw error : Proc β).run :=
  fun _ h => by cases h

/-- What holds of a result holds when there is none. -/
theorem safe_of_misses (hS : Supervised S drivers nodes buyId sellId ledger closed) {β : Type}
    {x : Proc β} (h : Misses (fun _ => True) x.run) {post : β → Db → Prop} :
    Safe S x (fun r u => ∀ b, r = .ok b → post b u) db :=
  SafeProg.mono (safe_of_ends hS.free h db) fun _ _ _ hr b hb => absurd trivial (hr b hb)

/-- A trade that is submitted has recorded its settlement, from a state in which
both orders are reserved. -/
theorem safe_executeTrade (hS : Supervised S drivers nodes buyId sellId ledger closed)
    {config : Config} (hhash : Hashes config nodes) (schedule : List Bool) {settlement : Settlement}
    {buyOrder sellOrder : OrderDocument} (hbuyId : buyOrder.id = buyId) (hsellId : sellOrder.id = sellId)
    (hbuild : buildSettlement config.client config.verification.supportedAssetHashes buyOrder sellOrder =
      .ok settlement) {R : Db → Prop} (hledger : ledger db)
    (hrecord : ∀ foundBuy foundSell, db.orders.find? buyId = some foundBuy →
      db.orders.find? sellId = some foundSell → buyId ≠ sellId → ∀ t t' s,
      Held ledger closed buyId sellId (some (reservedDocument t foundBuy))
        (some (reservedDocument t' foundSell)) s →
      Safe S (recordSettlement config.verification (reservedDocument t foundBuy)
        (reservedDocument t' foundSell) (config.settlementHash settlement))
        (fun r u => r = .ok () → R u) s) :
    Safe S (executeTrade config schedule buyOrder sellOrder) (fun r u =>
      ∀ txHash, r = .ok txHash → txHash = config.settlementHash settlement ∧ R u) db := by
  subst hbuyId hsellId
  refine safe_bind.mpr (safe_require.mpr ?_)
  rw [hbuild]
  have hstart : Held ledger closed buyOrder.id sellOrder.id (db.orders.find? buyOrder.id)
      (db.orders.find? sellOrder.id) db := Or.inl ⟨rfl, rfl, hledger⟩
  refine safe_bind.mpr (Safe.mono (safe_reserve hS buyOrder.id hstart) ?_)
  rintro (error | _ | reservedBuy) u - hreserved
  · exact fun txHash h => by cases h
  · exact fun txHash h => by cases h
  obtain ⟨t, foundBuy, buyUntil, hheld, hfindBuy, hliveBuy, rfl, rfl⟩ := hreserved _ rfl
  obtain ⟨hbuy, -, hheld⟩ := hheld.putOrder hS (Or.inl rfl) hfindBuy hliveBuy buyUntil
  refine safe_bind.mpr (safe_require.mpr (safe_bind.mpr
    (Safe.mono (safe_reserve hS sellOrder.id hheld) ?_)))
  rintro (error | _ | reservedSell) u - hreserved
  · exact fun txHash h => by cases h
  · exact safe_of_misses hS (misses_bind _ fun _ => misses_throw _)
  obtain ⟨t', foundSell, sellUntil, hheld, hfindSell, hliveSell, rfl, rfl⟩ := hreserved _ rfl
  obtain ⟨-, hsell, hheld⟩ := hheld.putOrder hS (Or.inr rfl) hfindSell hliveSell sellUntil
  have hne : buyOrder.id ≠ sellOrder.id := by
    intro hsame
    have hfound := hsell rfl
    rw [if_pos hsame, Option.some_inj] at hfound
    rw [← hfound] at hliveSell
    cases hliveSell
  rw [if_neg hne] at hsell
  simp only [if_pos, if_neg hne.symm] at hheld
  refine safe_tryCatch.mpr (Safe.mono (safe_settleReserved hS hhash schedule settlement _ _
    (Held.drift hS) (hrecord foundBuy foundSell (hbuy rfl) (hsell rfl) hne buyUntil sellUntil)
    hheld) ?_)
  rintro (error | txHash) u - hdone
  · exact safe_of_misses hS (misses_bind _ fun _ => misses_throw _)
  · exact hdone

end

end CkbDex.SettlementTracking
