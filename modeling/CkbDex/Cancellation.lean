import CkbDex.Admission
import CkbDex.Observation

/-!
# Cancelling a listed order

The transaction that the wallet builds to cancel an order of the list. It
rebuilds the refund from the document, with the data of the cell for a sell
order and without data for a buy order; the contract wants the data of the cell
for both.
-/
namespace CkbDex.Cancellation
open OrderLockRules hiding exampleBuy exampleSell
open Checked Bytes CellContext OrderLock Text Documents BotEvents ChainCells
open Collections Projection Programs Operations Chains EventVerification IngestionSteps
open ProjectionSteps CkbDex.Bot GroundedDocuments Acceptance SpendClassification Admission
open SettlementBuilder (Client outputFrom toBigInt)

/-- A sell order is refunded with its token type. -/
def refundType (order : OrderDocument) : Except Failure (Option ScriptDocument) :=
  if order.direction = .ask then do
    let typeScript ← okOr order.typeScript (.other "Sell order is missing its token type script")
    return some typeScript
  else return none

/-- `buildCancelOrderTx` up to the completion of its inputs. -/
def buildCancelOrderTx (ccc : Client) (order : OrderDocument) : Except Failure RawTx := do
  let capacity ← toBigInt order.capacity
  let typeScript ← refundType order
  let previousOutput ← okOr (refFrom order.outPoint) (.other "invalid out point")
  let lock ← okOr (scriptFrom order.ownerLock) (.other "invalid owner lock")
  let type ← okOr (optionFrom scriptFrom typeScript) (.other "invalid type script")
  let cellData := if order.direction = .ask then order.cellData else "0x"
  let data ← okOr (bytesFrom cellData) (.other "invalid cell data")
  return { inputs := [previousOutput], outputs := [outputFrom ccc capacity lock type data] }

/-- Completion appends inputs under locks that are not the DEX lock, one of them
under the maker's lock, and outputs. -/
structure Completes (hash : Script → Hash) (content : Content) (dex : Script) (maker : Hash)
    (built completed : RawTx) : Prop where
  inputs : ∃ added, completed.inputs = built.inputs ++ added ∧
    (∀ ref ∈ added, ∃ funding, cellAt content ref = some funding ∧
      sameIdentity dex funding.lock = false) ∧
    ∃ ref ∈ added, ∃ funding, cellAt content ref = some funding ∧ hash funding.lock = maker
  outputs : built.outputs <+: completed.outputs

/-- The output that refunds an order cell to its maker. -/
def refundOf (ccc : Client) (cell : CellOutput) (owner : Script) (side : Byte) : CellOutput :=
  outputFrom ccc cell.capacity owner cell.type (if side = sideSell then cell.data else [])

section
variable {w : World} {v : ChainVerification} {hash : Script → Hash} {ccc : Client} {cell : IndexedCell}
  {terms : OrderArgs} {owner : Script} {p : Position} {tx completed : RawTx}

theorem side_iff : terms.side = sideSell ↔ directionOf terms.side = .ask := by
  unfold directionOf
  split_ifs with h <;> simp [h]

/-- The wallet's transaction for the document of an admitted cell. -/
theorem buildCancelOrderTx_eq (hadmits : Admits v cell.cell terms)
    (address : Script → String) (existing : Option OrderDocument) :
    buildCancelOrderTx ccc
        (confirmedDocument existing (indexedEvent address cell terms owner p tx)) =
      .ok ⟨[cell.outPoint], [refundOf ccc cell.cell owner terms.side]⟩ := by
  have hdirection : (confirmedDocument existing (indexedEvent address cell terms owner p tx)).direction =
      directionOf terms.side := rfl
  have hout : refFrom (confirmedDocument existing
      (indexedEvent address cell terms owner p tx)).outPoint = some cell.outPoint :=
    Observation.refFrom_outPointText _
  have htype : refundType (confirmedDocument existing (indexedEvent address cell terms owner p tx)) =
      .ok (cell.cell.type.map scriptText) := by
    unfold refundType
    rw [hdirection]
    split_ifs with hask
    · obtain ⟨type, htype, -⟩ := hadmits.ask hask
      rw [(repeats_confirmedDocument existing address cell terms owner p tx).type type htype, htype]
      rfl
    · rw [(hadmits.bid hask).1]
      rfl
  have hdata : bytesFrom (if directionOf terms.side = .ask then toHex cell.cell.data else "0x") =
      some (if terms.side = sideSell then cell.cell.data else []) := by
    have hempty : bytesFrom "0x" = some [] := by decide
    split_ifs with hask hside hside
    · exact bytesFrom_toHex _
    · exact absurd (side_iff.mpr hask) hside
    · exact absurd (side_iff.mp hside) hask
    · exact hempty
  simp only [buildCancelOrderTx, bind_eq_ok]
  refine ⟨_, toBigInt_eq_ok.mpr (bigInt_toString _), _, htype, _, okOr_eq_ok.mpr hout, owner,
    okOr_eq_ok.mpr (scriptFrom_scriptText _), _, okOr_eq_ok.mpr (optionFrom_map_scriptText _), _,
    okOr_eq_ok.mpr hdata, rfl⟩

theorem capacity_le_refund : (BitVec.ofNat 64 cell.cell.capacity).toNat ≤
    (BitVec.ofNat 64 (refundOf ccc cell.cell owner terms.side).capacity).toNat := by
  by_cases hzero : cell.cell.capacity = 0
  · rw [hzero]
    exact Nat.zero_le _
  · have hne : ((cell.cell.capacity : ℕ) : ℤ) ≠ 0 := by omega
    rw [refundOf, outputFrom, if_neg hne, Int.toNat_natCast]

/-- The order cell and its refund, as the contract sees the completed transaction. -/
theorem accepted_iff_refund (hcell : cellAt w.content cell.outPoint = some cell.cell)
    (hterms : parseOrderArgs cell.cell.lock.args = .ok terms) {outputs : List CellOutput}
    (h : Completes hash w.content cell.cell.lock terms.makerLockHash ⟨[cell.outPoint], outputs⟩
      completed) :
    programEntry { tx := resolvedTx hash w.content completed, script := cell.cell.lock } = 0 ↔
      ∃ out ∈ completed.outputs, hash out.lock = terms.makerLockHash ∧
        out.type.map hash = cell.cell.type.map hash ∧ out.data = cell.cell.data ∧
        (BitVec.ofNat 64 cell.cell.capacity).toNat ≤ (BitVec.ofNat 64 out.capacity).toNat := by
  obtain ⟨added, hinputs, hplain, ref, href, funding, hfunding, hmaker⟩ := h.inputs
  obtain ⟨hformed, hdeclares⟩ := parseOrderArgs_eq_ok.mp hterms
  have hown : cell.cell.toCell hash ∈ (resolvedTx hash w.content completed).inputs := by
    refine mem_resolvedInputs.mpr ⟨cell.outPoint, ?_, cell.cell, hcell, rfl⟩
    rw [hinputs]
    exact List.mem_append_left _ (List.mem_singleton.mpr rfl)
  have hauthorized : ∃ c ∈ (resolvedTx hash w.content completed).inputs,
      c.lockHash = terms.makerLockHash := by
    refine ⟨funding.toCell hash, mem_resolvedInputs.mpr ⟨ref, ?_, funding, hfunding, rfl⟩, hmaker⟩
    rw [hinputs]
    exact List.mem_append_right _ href
  have hsingle : (dexInputs (resolvedTx hash w.content completed) cell.cell.lock).length = 1 := by
    have hself : isDexRef cell.cell.lock w.content cell.outPoint = true := by
      simp [isDexRef, hcell, sameIdentity]
    have hnone : added.filter (isDexRef cell.cell.lock w.content) = [] := by
      refine List.filter_eq_nil_iff.mpr fun other hother => ?_
      obtain ⟨output, houtput, hother'⟩ := hplain other hother
      simp [isDexRef, houtput, hother']
    have hrefs : dexRefs cell.cell.lock w.content completed = [cell.outPoint] := by
      rw [dexRefs, hinputs, List.filter_append, hnone]
      simp [hself]
    rw [dexInputs_resolvedTx, hrefs]
    simp [resolvedInputs, hcell]
  have hnot : ¬Settles (resolvedTx hash w.content completed) (cell.cell.toCell hash) terms := fun hs => by
    obtain ⟨c, hc, hlock⟩ := hauthorized
    exact hs.unauthorized c hc hlock
  have hlock : (cell.cell.toCell hash).lock = cell.cell.lock := rfl
  have haccepted := accepted_iff hown (hlock ▸ hformed) (hlock ▸ hdeclares)
  rw [or_iff_left hnot] at haccepted
  refine haccepted.trans ⟨fun hc => ?_, fun hrefund => ⟨hauthorized, hsingle, ?_⟩⟩
  · obtain ⟨out, hout, hlock, htype, hdata, hcapacity⟩ := hc.refund
    obtain ⟨output, houtput, rfl⟩ := List.mem_map.mp hout
    exact ⟨output, houtput, hlock, htype, hdata, hcapacity⟩
  · obtain ⟨output, houtput, hlock, htype, hdata, hcapacity⟩ := hrefund
    exact ⟨_, List.mem_map.mpr ⟨output, houtput, rfl⟩, hlock, htype, hdata, hcapacity⟩

/-- The refund is the cell under its maker's lock if it keeps the data. -/
theorem refunded_of_data (hmaker : hash owner = terms.makerLockHash)
    (hdata : terms.side = sideSell ∨ cell.cell.data = [])
    (h : [refundOf ccc cell.cell owner terms.side] <+: completed.outputs) :
    ∃ out ∈ completed.outputs, hash out.lock = terms.makerLockHash ∧
      out.type.map hash = cell.cell.type.map hash ∧ out.data = cell.cell.data ∧
      (BitVec.ofNat 64 cell.cell.capacity).toNat ≤ (BitVec.ofNat 64 out.capacity).toNat := by
  refine ⟨_, h.subset (List.mem_singleton.mpr rfl), hmaker, rfl, ?_, capacity_le_refund⟩
  change (if terms.side = sideSell then cell.cell.data else []) = _
  split_ifs with hside
  · rfl
  · exact (hdata.resolve_left hside).symm

/-- Among outputs without data, a refund that keeps the data of a buy order
exists only if it has none. -/
theorem data_of_refunded (h : completed.outputs.tail.all (fun out => out.data = []) = true)
    (hbuilt : [refundOf ccc cell.cell owner terms.side] <+: completed.outputs)
    (hrefund : ∃ out ∈ completed.outputs, out.data = cell.cell.data) :
    terms.side = sideSell ∨ cell.cell.data = [] := by
  obtain ⟨rest, hrest⟩ := hbuilt
  obtain ⟨out, hout, hdata⟩ := hrefund
  rw [← hrest, List.singleton_append] at hout h
  rcases List.mem_cons.mp hout with rfl | hlater
  · by_cases hside : terms.side = sideSell
    · exact Or.inl hside
    · have hempty : (refundOf ccc cell.cell owner terms.side).data = [] := if_neg hside
      exact Or.inr (hdata.symm.trans hempty)
  · exact Or.inr (hdata.symm.trans (of_decide_eq_true (List.all_eq_true.mp h out hlater)))

end

/-- The wallet's cancellation of a listed order is accepted if the order is a
sell order or its cell carries no data, and otherwise only if an output that was
added repeats the data of the cell. -/
theorem cancellation_accepted_iff (drivers : Drivers) (config : Config) (ccc : Client) {w : World}
    (c : Chain w) (dex : Script) (now : ℕ) (cell : IndexedCell) (p : Position) (tx : RawTx)
    (hcreated : Created c cell p tx) (db next : Db) (event : OrderConfirmedEvent)
    (hemitted : run drivers (c.node dex now) (orderEventOf config cell) db = (.ok (some event), next))
    (existing : Option OrderDocument) :
    ∃ terms built, parseOrderArgs cell.cell.lock.args = .ok terms ∧
      buildCancelOrderTx ccc (confirmedDocument existing event) = .ok built ∧
      ∀ completed, Completes config.verification.hash w.content cell.cell.lock terms.makerLockHash
          built completed →
        (terms.side = sideSell ∨ cell.cell.data = [] → programEntry
          { tx := resolvedTx config.verification.hash w.content completed
            script := cell.cell.lock } = 0) ∧
        (completed.outputs.tail.all (fun out => out.data = []) = true →
          (programEntry
            { tx := resolvedTx config.verification.hash w.content completed
              script := cell.cell.lock } = 0 ↔ terms.side = sideSell ∨ cell.cell.data = [])) := by
  obtain ⟨terms, owner, address, hadmits, howner, rfl⟩ := emitted_of_run hcreated hemitted
  have hmaker := (firstLock_eq_some howner).1
  have hcell : cellAt w.content cell.outPoint = some cell.cell := by
    rw [cellAt, ← hcreated.txHash, hcreated.content]
    exact hcreated.output
  refine ⟨terms, _, hadmits.parsed, buildCancelOrderTx_eq hadmits _ existing,
    fun completed hcompletes => ?_⟩
  have haccepted := accepted_iff_refund hcell hadmits.parsed hcompletes
  have hsound : terms.side = sideSell ∨ cell.cell.data = [] → _ := fun hdata =>
    haccepted.mpr (refunded_of_data hmaker hdata hcompletes.outputs)
  refine ⟨hsound, fun hplain => ⟨fun hzero => ?_, hsound⟩⟩
  obtain ⟨out, hout, -, -, hdata, -⟩ := haccepted.mp hzero
  exact data_of_refunded hplain hcompletes.outputs ⟨out, hout, hdata⟩

section
open SettlementBuilder OrderLockRules
open TerminalStatuses (exampleConfig exampleLate)

theorem exampleSell_created : Created exampleLate exampleSellIndexed ⟨1, exampleHash 21, 0, exampleHash 5⟩
    exampleCreation := by
  constructor <;> first | rfl | decide

theorem exampleSell_admitted : Admits exampleConfig.verification exampleSellIndexed.cell
    (exampleOrder sideSell (exampleHash 2)) := by
  constructor <;> first | rfl | decide

theorem exampleSell_emitted : run exampleDrivers (exampleLate.node exampleDex 0)
    (orderEventOf exampleConfig exampleSellIndexed) Db.empty =
      (.ok (some exampleSellConfirmed), Db.empty) := by
  have hfirst : firstLock exampleConfig.verification.hash exampleWorld.content
      (hashText (exampleHash 2)) exampleCreation.inputs = some (exampleOwner 2) := by decide +kernel
  have hnew : isKnown Db.empty exampleSellIndexed = false := rfl
  rw [run_orderEventOf exampleSell_created, hnew, orderOf_eq_some.mpr ⟨_, exampleSell_admitted, rfl, hfirst⟩]
  rfl

/-- What the wallet builds, and its transaction with a token cell of the maker. -/
def exampleBuilt : RawTx :=
  ⟨[⟨exampleHash 5, 1⟩], [refundOf exampleClient exampleSellCell (exampleOwner 2) sideSell]⟩

def exampleCancellation : RawTx :=
  ⟨[⟨exampleHash 5, 1⟩, ⟨exampleHash 10, 1⟩],
    [refundOf exampleClient exampleSellCell (exampleOwner 2) sideSell,
      ⟨59999999000, exampleOwner 2, some exampleTokenType, exampleSellCell.data⟩]⟩

theorem exampleCancellation_completes : Completes exampleScriptHash exampleWorld.content exampleSellCell.lock
    (exampleHash 2) exampleBuilt exampleCancellation where
  inputs := by
    refine ⟨[⟨exampleHash 10, 1⟩], rfl, ?_, ⟨exampleHash 10, 1⟩, List.mem_singleton.mpr rfl, ?_⟩
    · intro ref href
      obtain rfl := List.mem_singleton.mp href
      exact ⟨⟨60000000000, exampleOwner 2, some exampleTokenType, exampleSellCell.data⟩, rfl, by decide⟩
    · exact ⟨⟨60000000000, exampleOwner 2, some exampleTokenType, exampleSellCell.data⟩, rfl, by decide⟩
  outputs := ⟨[⟨59999999000, exampleOwner 2, some exampleTokenType, exampleSellCell.data⟩], rfl⟩

theorem cancellation_accepted_iff_example :
    buildCancelOrderTx exampleClient (confirmedDocument none exampleSellConfirmed) = .ok exampleBuilt ∧
    Completes exampleScriptHash exampleWorld.content exampleSellCell.lock (exampleHash 2) exampleBuilt
      exampleCancellation ∧
    programEntry { tx := resolvedTx exampleScriptHash exampleWorld.content exampleCancellation
                   script := exampleSellCell.lock } = 0 := by
  obtain ⟨terms, built, hterms, hbuilt, haccepted⟩ := cancellation_accepted_iff exampleDrivers exampleConfig
    exampleClient exampleLate exampleDex 0 exampleSellIndexed ⟨1, exampleHash 21, 0, exampleHash 5⟩
    exampleCreation exampleSell_created Db.empty Db.empty exampleSellConfirmed exampleSell_emitted none
  have hexpected : buildCancelOrderTx exampleClient (confirmedDocument none exampleSellConfirmed) =
      .ok exampleBuilt :=
    buildCancelOrderTx_eq exampleSell_admitted _ none
  obtain rfl : terms = exampleOrder sideSell (exampleHash 2) :=
    Except.ok.inj (hterms.symm.trans exampleSell_admitted.parsed)
  obtain rfl : built = exampleBuilt := Except.ok.inj (hbuilt.symm.trans hexpected)
  exact ⟨hexpected, exampleCancellation_completes,
    (haccepted exampleCancellation exampleCancellation_completes).1 (Or.inl rfl)⟩

/-- A buy cell with a byte of data. -/
def notedCell : CellOutput := { exampleBuyCell with data := [1] }

def notedCreation : RawTx := ⟨[⟨exampleHash 10, 0⟩], [notedCell]⟩

def notedTxs : List (Hash × RawTx) :=
  [(exampleHash 10, ⟨[], [⟨40000000000, exampleOwner 1, none, []⟩,
      ⟨10000000000, exampleOwner 1, none, []⟩]⟩),
    (exampleHash 5, notedCreation)]

def notedWorld : World where
  content hash := (notedTxs.find? fun tx => tx.1 = hash).map Prod.snd
  block := exampleWorld.block

def notedChain : Chain notedWorld :=
  ⟨[exampleHash 20, exampleHash 21, exampleHash 22], by decide, by decide, by decide⟩

def notedIndexed : IndexedCell := ⟨⟨exampleHash 5, 0⟩, notedCell⟩

/-- The wallet's transaction with one input and the change of it. -/
def notedCancellation : RawTx :=
  ⟨[⟨exampleHash 5, 0⟩, ⟨exampleHash 10, 1⟩],
    [refundOf exampleClient notedCell (exampleOwner 1) sideBuy,
      ⟨9999999000, exampleOwner 1, none, []⟩]⟩

theorem notedCell_created : Created notedChain notedIndexed ⟨1, exampleHash 21, 0, exampleHash 5⟩
    notedCreation := by
  constructor <;> first | rfl | decide

theorem notedCell_admitted : Admits exampleVerification notedCell (exampleOrder sideBuy (exampleHash 1)) := by
  constructor <;> first | rfl | decide

theorem notedCancellation_completes : Completes exampleScriptHash notedWorld.content notedCell.lock
    (exampleHash 1) ⟨[⟨exampleHash 5, 0⟩], [refundOf exampleClient notedCell (exampleOwner 1) sideBuy]⟩
    notedCancellation where
  inputs := by
    refine ⟨[⟨exampleHash 10, 1⟩], rfl, ?_, ⟨exampleHash 10, 1⟩, List.mem_singleton.mpr rfl, ?_⟩
    · intro ref href
      obtain rfl := List.mem_singleton.mp href
      exact ⟨⟨10000000000, exampleOwner 1, none, []⟩, rfl, by decide⟩
    · exact ⟨⟨10000000000, exampleOwner 1, none, []⟩, rfl, by decide⟩
  outputs := ⟨[⟨9999999000, exampleOwner 1, none, []⟩], rfl⟩

/-- The scan lists the order, and the contract rejects its cancellation. -/
theorem noted_cancellation_rejected : ∃ event, run exampleDrivers (notedChain.node exampleDex 0)
      (orderEventOf exampleConfig notedIndexed) Db.empty = (.ok (some event), Db.empty) ∧
    buildCancelOrderTx exampleClient (confirmedDocument none event) =
      .ok ⟨[⟨exampleHash 5, 0⟩], [refundOf exampleClient notedCell (exampleOwner 1) sideBuy]⟩ ∧
    Completes exampleScriptHash notedWorld.content notedCell.lock (exampleHash 1)
      ⟨[⟨exampleHash 5, 0⟩], [refundOf exampleClient notedCell (exampleOwner 1) sideBuy]⟩
      notedCancellation ∧
    programEntry { tx := resolvedTx exampleScriptHash notedWorld.content notedCancellation
                   script := notedCell.lock } ≠ 0 := by
  have hfirst : firstLock exampleConfig.verification.hash notedWorld.content
      (hashText (exampleHash 1)) notedCreation.inputs = some (exampleOwner 1) := by decide +kernel
  have hnew : isKnown Db.empty notedIndexed = false := rfl
  refine ⟨indexedEvent (fun _ => "ckt1") notedIndexed (exampleOrder sideBuy (exampleHash 1))
    (exampleOwner 1) ⟨1, exampleHash 21, 0, exampleHash 5⟩ notedCreation, ?_,
    buildCancelOrderTx_eq notedCell_admitted _ none, notedCancellation_completes, fun hzero => ?_⟩
  · rw [run_orderEventOf notedCell_created, hnew,
      orderOf_eq_some.mpr ⟨_, notedCell_admitted, rfl, hfirst⟩]
    rfl
  · have hcell : cellAt notedWorld.content notedIndexed.outPoint = some notedIndexed.cell := rfl
    obtain ⟨out, hout, -, -, hdata, -⟩ := (accepted_iff_refund hcell notedCell_admitted.parsed
      notedCancellation_completes).mp hzero
    have hnone : notedCancellation.outputs.all (fun out => out.data = []) = true := by decide
    have hempty : out.data = [] := of_decide_eq_true (List.all_eq_true.mp hnone out hout)
    rw [hempty] at hdata
    cases hdata

end

end CkbDex.Cancellation
