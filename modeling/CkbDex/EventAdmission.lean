import CkbDex.Admission
import CkbDex.ChainFacts

/-!
# Events and the rules of the scan

The event route and the scan admit orders by separate lists of checks. What the
route accepts the scan would index, but for a buy order whose capacity does not
exceed its price: the scan skips it and the route does not look.
-/
namespace CkbDex.EventAdmission
open OrderLockRules hiding exampleBuy exampleSell
open Checked Bytes CellContext OrderLock Text Number Documents BotEvents ChainCells
open Collections Projection Programs Operations Chains EventVerification IngestionSteps
open ProjectionSteps CkbDex.Bot GroundedDocuments Acceptance SpendClassification Admission

/-- A sell order, or a buy order whose capacity exceeds its price. -/
def Backed (order : ConfirmedOrder) : Prop :=
  order.direction = .ask ∨ ∃ price capacity, bigInt order.pricePerToken = some price ∧
    bigInt order.capacity = some capacity ∧ price < capacity

/-- Every order that is confirmed is backed. -/
def backed : Db → BotEvent → Prop := fun _ event =>
  ∀ e, event = .orderConfirmed e → Backed e.order

/-- The cell at the out point of an event. -/
structure CellAt (content : Content) (outPoint : OutPoint) (cell : IndexedCell) : Prop where
  txHash : hashFrom outPoint.txHash = some cell.outPoint.txHash
  index : (number outPoint.index).toIndex = some cell.outPoint.index.toNat
  output : cellAt content cell.outPoint = some cell.cell

/-- The maker's lock, as the scan finds it, has an address. -/
def MakerHasAddress (config : Config) (content : Content) (event : OrderConfirmedEvent)
    (cell : IndexedCell) : Prop :=
  ∀ tx owner, content cell.outPoint.txHash = some tx →
    firstLock config.verification.hash content (lower event.order.ownerLockHash) tx.inputs =
      some owner → ∃ address, config.address owner = .ok address

/-- What holds of an admitted order on chain: the rules of the scan for its cell,
and that its maker is among the inputs of the transaction that created it. -/
structure Ruled (v : ChainVerification) (content : Content) (outPoint : OutPoint) (cell : CellOutput)
    (terms : OrderArgs) (tx : RawTx) : Prop where
  found : cellOf content outPoint = some cell
  creation : ∃ key, hashFrom outPoint.txHash = some key ∧ content key = some tx
  admits : Admits v cell terms
  funded : ∃ ref ∈ tx.inputs, ∃ funding, cellAt content ref = some funding ∧
    v.hash funding.lock = terms.makerLockHash

section
variable {v : ChainVerification} {content : Content} {drivers : Drivers} {node : Node} {db next : Db}
  {event : OrderConfirmedEvent} {response : TxResponse} {tx : ChainTransaction} {cell : CellOutput}
  {terms : OrderArgs} {hashes : List Hex}

/-- A checked order satisfies all rules of the scan exactly when it is backed and
the DEX lock is written as the client library writes it. -/
theorem admits_iff (h : OrderChecked v event response hashes cell terms) :
    Admits v cell terms ↔ Backed event.order ∧ lower v.dexLock.codeHash = v.dexLock.codeHash := by
  have hdirection := h.direction
  constructor
  · intro hadmits
    refine ⟨?_, h.dexLock.1.trans hadmits.codeHash⟩
    by_cases hask : directionOf terms.side = .ask
    · exact Or.inl (hdirection.trans hask)
    · exact Or.inr ⟨_, _, h.price, h.capacity, by exact_mod_cast (hadmits.bid hask).2⟩
  · rintro ⟨hbacked, hlower⟩
    refine ⟨h.dexLock.1.symm.trans hlower, h.dexLock.2, h.decoded, h.supported, fun hask => ?_,
      fun hbid => ⟨h.plain hbid, ?_⟩⟩
    · have hholds := h.asset hask
      obtain ⟨type, htype, hhash⟩ := hholds.type
      exact ⟨type, htype, hhash, hholds.readable, hholds.amount⟩
    · rcases hbacked with hask | ⟨price, capacity, hprice, hcapacity, hlt⟩
      · exact absurd (hdirection.symm.trans hask) hbid
      · rw [h.price, Option.some_inj] at hprice
        rw [h.capacity, Option.some_inj] at hcapacity
        omega

/-- An order that an honest node lets pass is ruled if it is backed. -/
theorem ruled_of_verified (hhonest : Truthful content node)
    (h : OrderVerified v node event response tx cell terms) (hbacked : Backed event.order)
    (hlower : lower v.dexLock.codeHash = v.dexLock.codeHash) :
    Ruled v content event.outPoint cell terms response.transaction := by
  obtain ⟨key, hkey, hget⟩ := h.confirmed.key
  obtain ⟨i, hi, hout⟩ := h.checked.output
  have hcontent := hhonest.transaction key response hget
  refine ⟨?_, ⟨key, hkey, hcontent⟩, (admits_iff h.checked).mpr ⟨hbacked, hlower⟩, ?_⟩
  · simp only [cellOf, hkey, hi, hcontent, bind, Option.bind_some, hout]
  · obtain ⟨text, htext, hsame⟩ := h.checked.funded
    obtain ⟨ref, href, funding, hcell, rfl⟩ := (h.confirmed.lockHashes text).mp htext
    refine ⟨ref, href, funding, hhonest.cell ref funding hcell, hashText_injective ?_⟩
    rw [← hsame]
    exact (lower_toHex _).symm

/-- Every stored order is ruled. -/
def AllRuled (v : ChainVerification) (content : Content) (db : Db) : Prop :=
  ∀ order ∈ db.orders.docs, ∃ cell terms tx, Ruled v content order.outPoint cell terms tx

theorem allRuled_congr (h : AllRuled v content db)
    (hfacts : ∀ order ∈ next.orders.docs, ∃ old ∈ db.orders.docs, factsOf order = factsOf old) :
    AllRuled v content next := by
  intro order hmem
  obtain ⟨old, hold, hsame⟩ := hfacts order hmem
  have hout : order.outPoint = old.outPoint := congrArg OrderFacts.outPoint hsame
  rw [hout]
  exact h old hold

theorem AllRuled.applyEvent {event : BotEvent} {seen : Db} {result : IngestionResult}
    (h : AllRuled v content db) (hshown : Shown v content seen event)
    (hlower : lower v.dexLock.codeHash = v.dexLock.codeHash)
    (happly : applyEvent drivers event db = .ok (result, next))
    (hkept : result.status = .applied → backed db event) : AllRuled v content next := by
  intro order hmem
  rcases facts_of_applyEvent happly hmem with ⟨old, hold, hfacts⟩ | ⟨e, rfl, rfl⟩
  · have hout : order.outPoint = old.outPoint := congrArg OrderFacts.outPoint hfacts
    rw [hout]
    exact h old hold
  · obtain ⟨-, node, response, tx, cell, terms, hhonest, hverified⟩ := hshown
    rcases applyOrderConfirmed_eq_ok.mp happly with ⟨-, -, rfl⟩ | ⟨-, -, -, -, hresult, -⟩
    · exact h _ hmem
    · have hbacked := hkept (hresult ▸ rfl) e rfl
      exact ⟨cell, terms, _, ruled_of_verified hhonest hverified hbacked hlower⟩

theorem allRuled_advances {s t : Service} (h : AllRuled v content s.db) (hg : Reliable v content s)
    (hlower : lower v.dexLock.codeHash = v.dexLock.codeHash)
    (hstep : Advances drivers v content (onFound backed) s t) : AllRuled v content t.db := by
  cases hstep with
  | verify node event honest valid passed => exact h
  | commit checked mem kept =>
      rcases transact_cases drivers checked.event s.db with
        ⟨result, next, happly, hcommitted, hsame⟩ | ⟨hsame, -⟩
      · intro order hmem
        rw [hsame.orders] at hmem
        exact h.applyEvent (hg.shown checked mem) hlower happly (kept result hcommitted) order hmem
      · rw [hsame]
        exact h
  | write node op direct => exact allRuled_congr h fun order hmem => facts_of_write direct node hmem

/-- In every state that backed events lead to, every order is ruled. -/
theorem allRuled_of_leads {s : Service} (hlower : lower v.dexLock.codeHash = v.dexLock.codeHash)
    (h : Leads drivers v content (onFound backed) Service.empty s) : AllRuled v content s.db := by
  induction h with
  | refl => exact fun _ hmem => (List.not_mem_nil hmem).elim
  | tail hrun hstep ih => exact allRuled_advances ih (reliable_empty.leads hrun) hlower hstep

end

section
variable {w : World} {c : Chain w} {config : Config} {drivers : Drivers} {dex : Script} {now : ℕ}
  {event : OrderConfirmedEvent} {cell : IndexedCell} {db db' : Db}

/-- The verifier looks at the cell of the event's out point. -/
theorem created_of_verified (hcell : CellAt w.content event.outPoint cell)
    (hverify : run drivers (c.node dex now)
      (verifyEvent config.verification (.orderConfirmed event)) db = (.ok (), db)) :
    ∃ p tx terms response hashes, Created c cell p tx ∧
      OrderChecked config.verification event response hashes cell.cell terms ∧
      ∃ ref ∈ tx.inputs, ∃ funding, cellAt w.content ref = some funding ∧
        config.verification.hash funding.lock = terms.makerLockHash := by
  obtain ⟨response, tx, found, terms, hverified⟩ := run_verifyOrderConfirmed hverify
  obtain ⟨p, hmem, hkey, hcontent, -, -, -⟩ := position_of_confirmed hverified.confirmed
  obtain ⟨i, hi, hout⟩ := hverified.checked.output
  have htx : p.txHash = cell.outPoint.txHash := Option.some_inj.mp (hkey.symm.trans hcell.txHash)
  have hindex : i = cell.outPoint.index.toNat := Option.some_inj.mp (hi.symm.trans hcell.index)
  have houtput : response.transaction.outputs[cell.outPoint.index.toNat]? = some cell.cell := by
    have hat := hcell.output
    rw [cellAt, ← htx, hcontent, Option.bind_some] at hat
    exact hat
  rw [hindex, houtput, Option.some_inj] at hout
  subst hout
  exact ⟨p, response.transaction, terms, response, _, ⟨hmem, htx, hcontent, houtput⟩, hverified.checked,
    ChainFacts.funding_of_checked hverified⟩

/-- For an accepted event the scan emits one of its own, exactly when the order
is backed, the DEX lock is written as the client library writes it, and the
maker's lock has an address. -/
theorem emits_iff (hcell : CellAt w.content event.outPoint cell)
    (hverify : run drivers (c.node dex now)
      (verifyEvent config.verification (.orderConfirmed event)) db = (.ok (), db))
    (hnew : isKnown db' cell = false) :
    (∃ emitted, run drivers (c.node dex now) (orderEventOf config cell) db' =
      (.ok (some emitted), db')) ↔
      Backed event.order ∧
        lower config.verification.dexLock.codeHash = config.verification.dexLock.codeHash ∧
        MakerHasAddress config w.content event cell := by
  obtain ⟨p, tx, terms, response, hashes, hcreated, hchecked, ref, href, funding, hfunding, howner⟩ :=
    created_of_verified hcell hverify
  have hcontent : w.content cell.outPoint.txHash = some tx := hcreated.txHash ▸ hcreated.content
  have hmaker : lower event.order.ownerLockHash = hashText terms.makerLockHash := hchecked.maker
  rw [run_orderEventOf hcreated, hnew]
  simp only [Bool.false_eq_true, if_false]
  constructor
  · rintro ⟨emitted, hemitted⟩
    cases horder : orderOf config.verification w.content cell tx with
    | none => simp [horder] at hemitted
    | some order =>
        obtain ⟨decoded, owner⟩ := order
        obtain ⟨terms', hadmits, rfl, hfirst⟩ := orderOf_eq_some.mp horder
        obtain rfl : terms' = terms := Except.ok.inj (hadmits.parsed.symm.trans hchecked.decoded)
        obtain ⟨hbacked, hlower⟩ := (admits_iff hchecked).mp hadmits
        refine ⟨hbacked, hlower, fun tx' owner' htx' hfirst' => ?_⟩
        obtain rfl : tx = tx' := Option.some_inj.mp (hcontent.symm.trans htx')
        rw [hmaker, hfirst, Option.some_inj] at hfirst'
        subst hfirst'
        cases haddress : config.address owner with
        | ok address => exact ⟨address, rfl⟩
        | error error => simp [horder, haddress, Except.map] at hemitted
  · rintro ⟨hbacked, hlower, haddress⟩
    have hadmits := (admits_iff hchecked).mpr ⟨hbacked, hlower⟩
    have hsome : (firstLock config.verification.hash w.content (hashText terms.makerLockHash)
        tx.inputs).isSome = true :=
      firstLock_isSome.mpr ⟨ref, href, funding, hfunding, congrArg hashText howner⟩
    obtain ⟨owner, hfirst⟩ := Option.isSome_iff_exists.mp hsome
    obtain ⟨address, hok⟩ := haddress tx owner hcontent (by rw [hmaker, hfirst])
    have horder := orderOf_eq_some.mpr ⟨terms, hadmits, rfl, hfirst⟩
    simp only [horder, hok, Except.map]
    exact ⟨_, rfl⟩

end

/-- The scan would index what the event route accepts exactly when the order is
backed, up to the spelling of the configuration and the maker's address; where
every confirmed order is backed, every stored order keeps the scan's rules. -/
theorem accepted_is_admitted_iff_backed (drivers : Drivers) (config : Config) {w : World}
    (c : Chain w) (dex : Script) (now : ℕ) :
    (∀ event cell db db', CellAt w.content event.outPoint cell →
      run drivers (c.node dex now) (verifyEvent config.verification (.orderConfirmed event)) db =
        (.ok (), db) → isKnown db' cell = false →
      ((∃ emitted, run drivers (c.node dex now) (orderEventOf config cell) db' =
          (.ok (some emitted), db')) ↔
        Backed event.order ∧
          lower config.verification.dexLock.codeHash = config.verification.dexLock.codeHash ∧
          MakerHasAddress config w.content event cell)) ∧
    (lower config.verification.dexLock.codeHash = config.verification.dexLock.codeHash →
      ∀ s, Leads drivers config.verification w.content (onFound backed) Service.empty s →
        ∀ order ∈ s.db.orders.docs, ∃ cell terms tx,
          Ruled config.verification w.content order.outPoint cell terms tx) :=
  ⟨fun _ _ _ _ hcell hverify hnew => emits_iff hcell hverify hnew,
    fun hlower _ h => allRuled_of_leads hlower h⟩

section
open SettlementBuilder OrderLockRules
open TerminalStatuses (exampleConfig exampleLate)

theorem accepted_is_admitted_iff_backed_example : ∃ emitted,
    run exampleDrivers (exampleChain.node exampleDex 0)
      (orderEventOf exampleConfig exampleBuyIndexed) Db.empty = (.ok (some emitted), Db.empty) := by
  have hcell : CellAt exampleWorld.content exampleConfirmed.outPoint exampleBuyIndexed :=
    ⟨hashFrom_hashText _, by decide +kernel, by decide +kernel⟩
  have hverify : run exampleDrivers (exampleChain.node exampleDex 0)
      (verifyEvent exampleConfig.verification (.orderConfirmed exampleConfirmed)) Db.empty =
        (.ok (), Db.empty) := exampleBuy_indexable.verified _
  refine ((accepted_is_admitted_iff_backed exampleDrivers exampleConfig exampleChain exampleDex 0).1
    exampleConfirmed exampleBuyIndexed Db.empty Db.empty hcell hverify rfl).mpr
      ⟨Or.inr ⟨5000, 20000000000, ?_, ?_, by decide⟩, lower_toHex _, fun _ _ _ _ => ⟨"ckt1", rfl⟩⟩
  · exact bigInt_toString 5000
  · exact bigInt_toString 20000000000

/-- A buy order of 300 CKB in a cell of 200 CKB. -/
def thinOrder : OrderArgs := { exampleOrder sideBuy (exampleHash 1) with price := 30000000000 }

def thinCell : CellOutput :=
  { exampleBuyCell with lock := { exampleDex with args := orderArgs thinOrder } }

def thinCreation : RawTx := ⟨[⟨exampleHash 10, 0⟩], [thinCell]⟩

def thinTxs : List (Hash × RawTx) :=
  [(exampleHash 10, ⟨[], [⟨40000000000, exampleOwner 1, none, []⟩]⟩), (exampleHash 5, thinCreation)]

def thinWorld : World where
  content hash := (thinTxs.find? fun tx => tx.1 = hash).map Prod.snd
  block := exampleWorld.block

def thinChain : Chain thinWorld :=
  ⟨[exampleHash 20, exampleHash 21, exampleHash 22], by decide, by decide, by decide⟩

def thinIndexed : IndexedCell := ⟨⟨exampleHash 5, 0⟩, thinCell⟩

theorem thinCell_indexable : Indexable exampleVerification thinChain thinIndexed thinOrder
    (exampleOwner 1) ⟨1, exampleHash 21, 0, exampleHash 5⟩ thinCreation := by
  constructor <;> first | rfl | decide

def thinConfirmed : OrderConfirmedEvent :=
  indexedEvent (fun _ => "ckt1") thinIndexed thinOrder (exampleOwner 1)
    ⟨1, exampleHash 21, 0, exampleHash 5⟩ thinCreation

/-- The route stores the order as LIVE; the scan skips its cell. -/
theorem thin_order_accepted : (BotEvent.orderConfirmed thinConfirmed).valid = true ∧
    CellAt thinWorld.content thinConfirmed.outPoint thinIndexed ∧
    run exampleDrivers (thinChain.node exampleDex 0)
      (verifyEvent exampleVerification (.orderConfirmed thinConfirmed)) Db.empty =
        (.ok (), Db.empty) ∧
    run exampleDrivers (thinChain.node exampleDex 0) (orderEventOf exampleConfig thinIndexed) Db.empty =
      (.ok none, Db.empty) ∧
    ∃ order ∈ (run exampleDrivers (thinChain.node exampleDex 0)
        (ingest exampleVerification (.orderConfirmed thinConfirmed)) Db.empty).2.orders.docs,
      order.status = .live ∧ order.direction = .bid ∧ order.capacity = toString 20000000000 ∧
        order.pricePerToken = toString 30000000000 := by
  have hcreated : Created thinChain thinIndexed ⟨1, exampleHash 21, 0, exampleHash 5⟩ thinCreation :=
    ⟨thinCell_indexable.found, thinCell_indexable.txHash, thinCell_indexable.content,
      thinCell_indexable.output⟩
  have hskipped : orderOf exampleConfig.verification thinWorld.content thinIndexed thinCreation =
      none := by decide +kernel
  have hnew : isKnown Db.empty thinIndexed = false := rfl
  refine ⟨valid_indexedEvent _, ⟨hashFrom_hashText _, by decide +kernel, by decide +kernel⟩,
    thinCell_indexable.verified _, ?_, ?_⟩
  · rw [run_orderEventOf hcreated, hnew, hskipped]
    rfl
  · have hingested : run exampleDrivers (thinChain.node exampleDex 0)
        (ingest exampleVerification (.orderConfirmed thinConfirmed)) Db.empty = _ :=
      thinCell_indexable.ingested _ exampleDrivers_reads rfl rfl rfl
    rw [hingested]
    exact ⟨confirmedDocument none thinConfirmed, List.mem_singleton.mpr rfl, rfl, rfl, rfl, rfl⟩

end

end CkbDex.EventAdmission
