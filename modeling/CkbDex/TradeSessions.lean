import CkbDex.ReservationNotes

/-!
# What a trade calls

A trade reserves two orders, submits a settlement of just these, and gives back
both when it fails. So a whole tick follows the rules of its notes.
-/
namespace CkbDex.Reservations
open Bytes Checked CkbDex.Bot Documents EventVerification IngestionSteps Interleaving Observation
open Operations Programs Projection Sessions SettlementBuilder

section
variable {v : ChainVerification}

/-- A later note of a session that has neither reserved nor given back since. -/
structure Note.Later (note other : Note) : Prop where
  read : note.read ⊆ other.read
  asked : other.asked = note.asked
  got : other.got = note.got
  held : other.held = note.held
  sent : note.sent ⊆ other.sent
  stuck : other.stuck = false → note.stuck = false

variable {config : Config} {settlement : Settlement} {note other third : Note} {op : Op}

theorem Note.Later.refl (note : Note) : note.Later note :=
  ⟨fun _ h => h, rfl, rfl, rfl, fun _ h => h, fun h => h⟩

theorem Note.Later.trans (h : note.Later other) (h' : other.Later third) : note.Later third where
  read := fun _ hmem => h'.read (h.read hmem)
  asked := h'.asked.trans h.asked
  got := h'.got.trans h.got
  held := h'.held.trans h.held
  sent := fun _ hmem => h'.sent (h.sent hmem)
  stuck := fun hstuck => h.stuck (h'.stuck hstuck)

theorem Note.Later.sound (h : note.Later other) (hsound : other.Sound) : note.Sound := by
  obtain ⟨hgot, hread⟩ := hsound
  rw [h.got, h.asked] at hgot
  exact ⟨hgot, fun order hmem => hread order (h.read hmem)⟩

/-- What is settled stays settled. -/
theorem Note.Settled.later (h : note.Settled) (hlater : note.Later other) : other.Settled := by
  intro hsound hstuck
  rw [hlater.held]
  intro id hmem
  exact hlater.sent (h (hlater.sound hsound) (hlater.stuck hstuck) hmem)

theorem later_stuck (note : Note) : note.Later { note with stuck := true } where
  read := fun _ h => h
  asked := rfl
  got := rfl
  held := rfl
  sent := fun _ h => h
  stuck := fun h => by cases h

theorem later_submit (note : Note) (settlement : Settlement) (answer : Answer Hash) :
    note.Later (note.submit settlement answer) := by
  unfold Note.submit
  split_ifs
  · exact ⟨fun _ h => h, rfl, rfl, rfl, fun _ h => List.mem_append_right _ h, fun h => h⟩
  · exact .refl note

theorem later_record (hreserve : ∀ id t, op ≠ .reserve id t) (hrelease : ∀ id, op ≠ .revertToLive id)
    (answer : Answer (Res op)) : note.Later (record note op answer) := by
  cases op with
  | reserve id t => exact absurd rfl (hreserve id t)
  | revertToLive id => exact absurd rfl (hrelease id)
  | sendTransaction settlement => exact later_submit note settlement answer
  | now =>
      cases answer with
      | ok now => exact .refl note
      | error error => exact later_stuck note
  | findOrdersByStatus statuses =>
      cases answer with
      | ok orders => exact ⟨fun _ h => List.mem_append_right _ h, rfl, rfl, rfl, fun _ h => h, fun h => h⟩
      | error error => exact .refl note
  | _ => exact .refl note

theorem later_of_idles (h : idles op) (answer : Answer (Res op)) : note.Later (record note op answer) := by
  apply later_record
  · rintro id t rfl
    exact h
  · rintro id rfl
    exact h

theorem allowed_of_idles (h : idles op) : allowed note op := by
  cases op <;> trivial

/-- Calls that reserve nothing, give nothing back and submit nothing. -/
theorem follows_idles {α : Type} {x : Proc α} {K : Note → Prop} (hx : Only idles x)
    (hlater : ∀ note other, K note → note.Later other → K other) (hnote : K note) :
    Follows record allowed (fun note' _ => K note') note x :=
  follows_keeping hx (fun note _ hknown hop =>
    ⟨allowed_of_idles hop, fun answer => hlater note _ hknown (later_of_idles hop answer)⟩) hnote

/-- Who holds nothing may give anything back. -/
theorem follows_spares {α : Type} {x : Proc α} (hx : Only spares x) (hheld : note.held = []) :
    Follows record allowed (fun note' _ => note'.held = []) note x := by
  refine follows_keeping (K := fun note : Note => note.held = []) hx ?_ hheld
  intro note op hheld hop
  constructor
  · cases op <;> first | trivial | exact fun _ => Or.inl hheld
  · intro answer
    by_cases hidle : idles op
    · exact (later_of_idles hidle answer).held.trans hheld
    · cases op with
      | revertToLive id =>
          cases answer with
          | ok done =>
              change note.held.erase id = []
              rw [hheld, List.erase_nil]
          | error error => exact hheld
      | reserve id t => cases hop
      | sendTransaction settlement => cases hop
      | _ => exact absurd trivial hidle

/-- The settlement is in the pool when `submit` returns. -/
theorem follows_submit (hheld : allowed note (.sendTransaction settlement)) :
    Follows record allowed (fun note' r => note.Later note' ∧
      ∀ txHash, r = .ok txHash → settlement.inputs.map toOrderId ⊆ note'.sent) note
          (submit config settlement) := by
  refine follows_tryCatch.mpr (follows_perform.mpr ⟨hheld, fun answer => ?_⟩)
  have hlater : note.Later (record note (.sendTransaction settlement) answer) :=
    later_submit note settlement answer
  have hsent : pooled answer = true →
      settlement.inputs.map toOrderId ⊆ (record note (.sendTransaction settlement) answer).sent := by
    intro hpooled
    change settlement.inputs.map toOrderId ⊆ (note.submit settlement answer).sent
    rw [Note.submit, if_pos hpooled]
    exact List.subset_append_left _ _
  cases answer with
  | ok txHash => exact ⟨hlater, fun _ _ => hsent rfl⟩
  | error error =>
      simp only [translateRejection]
      split_ifs with hduplicate
      · exact ⟨hlater, fun _ _ => hsent hduplicate⟩
      all_goals exact ⟨hlater, fun _ h => by cases h⟩

/-- What a trade does with two orders that it holds. -/
theorem follows_settleReserved (schedule : List Bool) (first second : OrderDocument)
    (hheld : allowed note (.sendTransaction settlement)) :
    Follows record allowed (fun note' r => note.Later note' ∧
      ∀ txHash, r = .ok txHash → settlement.inputs.map toOrderId ⊆ note'.sent) note
      (settleReserved config schedule settlement first second) := by
  have hwatched : Only idles (promiseAll schedule (checkOrderLiveness config.verification first)
      (checkOrderLiveness config.verification second)) :=
    only_promiseAll schedule ((watches_checkOrderLiveness first).mono fun _ => idles_of_watches)
      ((watches_checkOrderLiveness second).mono fun _ => idles_of_watches)
  rw [settleReserved, follows_bind]
  have hchecks : Follows record allowed (fun note' _ => note.Later note') note _ :=
    follows_idles hwatched (fun _ _ h h' => h.trans h') (.refl note)
  refine hchecks.mono fun note₁ r hlater₁ => ?_
  cases r with
  | error error => exact ⟨hlater₁, fun _ h => by cases h⟩
  | ok live =>
      simp only [continues]
      rw [follows_bind, follows_require]
      cases throwIf (live.1 = false ∨ live.2 = false)
          (appError 409 "one of the matched orders was already settled on-chain") with
      | error error => exact ⟨hlater₁, fun _ h => by cases h⟩
      | ok checked =>
          simp only [continues]
          rw [follows_bind]
          have hallowed : allowed note₁ (.sendTransaction settlement) := by
            intro hsound outPoint hmem
            rw [hlater₁.held]
            exact hheld (hlater₁.sound hsound) outPoint hmem
          refine (follows_submit hallowed).mono fun note₂ r hsubmitted => ?_
          obtain ⟨hlater₂, hsent⟩ := hsubmitted
          cases r with
          | error error => exact ⟨hlater₁.trans hlater₂, fun _ h => by cases h⟩
          | ok txHash =>
              simp only [continues]
              rw [follows_bind]
              have hrecorded : Only idles (tryCatch
                  (do
                    let _ ← ingest config.verification (.settlementSubmitted
                      (settlementSubmittedEvent first second txHash))
                    return ())
                  fun _ => request (.trackPending [first.id, second.id] (hashText txHash)) : Proc Unit) :=
                only_tryCatch (only_bind (idles_ingest _) fun _ => only_pure _) fun _ =>
                    only_request.mpr trivial
              have hkept : Follows record allowed (fun note' _ => note.Later note' ∧
                  settlement.inputs.map toOrderId ⊆ note'.sent) note₂ _ :=
                follows_idles hrecorded
                  (fun _ _ h h' => ⟨h.1.trans h', fun _ hmem => h'.sent (h.2 hmem)⟩)
                  ⟨hlater₁.trans hlater₂, hsent txHash rfl⟩
              refine hkept.mono fun note₃ r hends => ?_
              obtain ⟨hlater₃, hin⟩ := hends
              cases r with
              | error error => exact ⟨hlater₃, fun _ h => by cases h⟩
              | ok done => exact ⟨hlater₃, fun _ _ => hin⟩

theorem inputs_of_buildSettlement {ccc : Client} {supported : List Hex} {buy sell : OrderDocument}
    (h : buildSettlement ccc supported buy sell = .ok settlement) :
    settlement.inputs = [buy.outPoint, sell.outPoint] := by
  simp only [buildSettlement, bind_eq_ok, okOr_eq_ok, throwIf_eq_ok] at h
  obtain ⟨-, -, -, -, -, -, sellCapacity, -, price, -, sellerLock, -, buyerLock, -, tokenType, -,
      tokenData, -,
    buyCapacity, -, allocation, -, allocated, -, hret⟩ := h
  obtain rfl := Except.ok.inj hret
  rfl

/-- After a trade all that is held is settled as before. -/
def Ends (note other : Note) : Prop := other.Settled ∧ note.read ⊆ other.read

theorem ends_stuck (hstuck : other.stuck = true) (hread : note.read ⊆ other.read) : Ends note other := by
  refine ⟨fun _ hfree => ?_, hread⟩
  rw [hstuck] at hfree
  cases hfree

/-- A reservation succeeds, finds no live order, or fails. -/
theorem follows_reserve {id : String} :
    Follows record allowed (fun note' r => (∃ order, r = .ok (some order) ∧ note' = note.add id order) ∨
      r = .ok none ∧ note' = note ∨ ∃ error, r = .error error ∧ note'.stuck = true ∧ note.read ⊆ note'.read)
      note (Bot.reserve id) := by
  rw [Bot.reserve, follows_bind]
  refine follows_perform.mpr ⟨trivial, fun answer => ?_⟩
  cases answer with
  | error error => exact Or.inr (Or.inr ⟨error, rfl, rfl, fun _ h => h⟩)
  | ok now =>
      refine follows_perform.mpr ⟨trivial, fun answer => ?_⟩
      rcases answer with error | _ | order
      · exact Or.inr (Or.inr ⟨error, rfl, rfl, fun _ h => h⟩)
      · exact Or.inr (Or.inl ⟨rfl, rfl⟩)
      · exact Or.inl ⟨order, rfl, rfl⟩

/-- What is left of a trade that fails, with an order to give back. -/
theorem follows_release {α : Type} {id : String} {f : Unit → Proc α} (hheld : id ∈ other.held)
    (hread : note.read ⊆ other.read)
    (hreleased : Follows record allowed (fun note' _ => Ends note note') (other.release id) (f ())) :
    Follows record allowed (fun note' _ => Ends note note') other (revertToLive id >>= f) := by
  rw [follows_bind]
  refine follows_perform.mpr ⟨fun _ => Or.inr hheld, fun answer => ?_⟩
  cases answer with
  | ok done => exact hreleased
  | error error => exact ends_stuck rfl hread

theorem erase_second (first second : String) (held : List String) :
    (second :: first :: held).erase first = second :: held := by
  by_cases hsame : second = first
  · rw [hsame, List.erase_cons_head]
  · rw [List.erase_cons_tail (by simpa using hsame), List.erase_cons_head]

/-- Giving an order back succeeds or fails. -/
theorem follows_revertToLive {id : String} (hheld : id ∈ note.held) :
    Follows record allowed (fun note' r => ∃ result, r = .ok result ∧
      (note' = note.release id ∨ note' = { note with stuck := true })) note (attempt (revertToLive id)) := by
  refine follows_attempt.mpr (follows_perform.mpr ⟨fun _ => Or.inr hheld, fun answer => ⟨answer, rfl, ?_⟩⟩)
  cases answer with
  | ok done => exact Or.inl rfl
  | error error => exact Or.inr rfl

/-- Two orders are given back one after the other, the second also when the
first could not be. -/
theorem follows_releases {α : Type} {first second : String}
    {f : Except Failure Unit → Except Failure Unit → α}
    (hfirst : first ∈ other.held) (hsecond : second ∈ (other.release first).held)
    (hread : note.read ⊆ other.read)
    (hreleased : ((other.release first).release second).Settled) :
    Follows record allowed (fun note' _ => Ends note note') other (do
      let a ← attempt (revertToLive first)
      let b ← attempt (revertToLive second)
      return f a b) := by
  refine follows_bind.mpr ((follows_revertToLive hfirst).mono ?_)
  rintro note₁ - ⟨a, rfl, hdone⟩
  have hheld : second ∈ note₁.held := by
    rcases hdone with rfl | rfl
    · exact hsecond
    · exact List.mem_of_mem_erase hsecond
  refine follows_bind.mpr ((follows_revertToLive hheld).mono ?_)
  rintro note₂ - ⟨b, rfl, hdone₂⟩
  rcases hdone with rfl | rfl
  · rcases hdone₂ with rfl | rfl
    · exact ⟨hreleased, hread⟩
    · exact ends_stuck rfl hread
  · rcases hdone₂ with rfl | rfl
    · exact ends_stuck rfl hread
    · exact ends_stuck rfl hread

/-- Two orders are given back at once. -/
theorem follows_revertBoth (schedule : List Bool) {first second : String} (hfirst : first ∈ other.held)
    (hsecond : second ∈ (other.release first).held) (hread : note.read ⊆ other.read)
    (hreleased : ((other.release first).release second).Settled) :
    Follows record allowed (fun note' _ => Ends note note') other (revertBoth schedule first second) := by
  have hswap : (other.release second).release first = (other.release first).release second := by
    simp only [Note.release, List.erase_comm]
  have hsecond' : second ∈ other.held := List.mem_of_mem_erase hsecond
  have hfirst' : first ∈ (other.release second).held := by
    by_cases hsame : first = second
    · rw [hsame]
      rw [hsame] at hsecond
      exact hsecond
    · exact (List.mem_erase_of_ne hsame).mpr hfirst
  have hboth : Follows record allowed (fun note' _ => Ends note note') other
      (promiseAll schedule (attempt (revertToLive first)) (attempt (revertToLive second))) := by
    have hcalls := @promiseAll_attempts Op Res Failure schedule (.revertToLive first) (.revertToLive second)
    rw [show promiseAll schedule (attempt (revertToLive first)) (attempt (revertToLive second)) = _
        from hcalls]
    split_ifs
    · exact follows_releases hfirst hsecond hread hreleased
    · exact follows_releases hsecond' hfirst' hread (hswap ▸ hreleased)
  refine follows_bind.mpr (hboth.mono fun note' r hends => ?_)
  cases r with
  | error error => exact hends
  | ok results =>
      obtain ⟨a, b⟩ := results
      cases a <;> exact hends

/-- Giving back what was reserved last. -/
theorem Note.Settled.released (h : note.Settled) {buyId sellId : String} {first second : OrderDocument}
    (hlater : ((note.add buyId first).add sellId second).Later other) :
    ((other.release first.id).release second.id).Settled := by
  rintro ⟨hgot, hread⟩ hstuck
  have hgot : other.got = other.asked := hgot
  have hstuck : other.stuck = false := hstuck
  rw [hlater.got, hlater.asked] at hgot
  have hheld : ((other.held.erase first.id).erase second.id) = note.held := by
    rw [hlater.held]
    change (((second.id :: first.id :: note.held).erase first.id).erase second.id) = note.held
    rw [erase_second, List.erase_cons_head]
  change ((other.held.erase first.id).erase second.id) ⊆ other.sent
  rw [hheld]
  have hbefore : note.Sound :=
    ⟨(List.cons.inj (List.cons.inj hgot).2).2, fun order hmem => hread order (hlater.read hmem)⟩
  exact fun id hmem => hlater.sent (h hbefore (hlater.stuck hstuck) hmem)

/-- Both orders are held while a trade settles; they are in the pool after it has
succeeded and given back after it has failed. -/
theorem follows_settling (schedule : List Bool) {buy sell first second : OrderDocument} (h : note.Settled)
    (hbuy : note.Sound → Located buy) (hsell : note.Sound → Located sell)
    (hinputs : settlement.inputs = [buy.outPoint, sell.outPoint]) :
    Follows record allowed (fun note' _ => Ends note note') ((note.add buy.id first).add sell.id second)
      (tryCatch (settleReserved config schedule settlement first second) fun error => do
        revertBoth schedule.reverse first.id second.id
        throw error) := by
  -- the documents got are those of the matched orders
  have hids : ∀ final : Note, ((note.add buy.id first).add sell.id second).Later final → final.Sound →
      note.Sound ∧ first.id = toOrderId buy.outPoint ∧ second.id = toOrderId sell.outPoint := by
    intro final hlater hsound
    obtain ⟨hgot, hread⟩ := hlater.sound hsound
    have hgot : second.id :: first.id :: note.got = sell.id :: buy.id :: note.asked := hgot
    obtain ⟨hsecond, hgot⟩ := List.cons.inj hgot
    obtain ⟨hfirst, hgot⟩ := List.cons.inj hgot
    have hbefore : note.Sound := ⟨hgot, hread⟩
    exact ⟨hbefore, hfirst.trans (hbuy hbefore), hsecond.trans (hsell hbefore)⟩
  have hallowed : allowed ((note.add buy.id first).add sell.id second) (.sendTransaction settlement) := by
    intro hsound outPoint hmem
    obtain ⟨-, hfirst, hsecond⟩ := hids _ (.refl _) hsound
    change toOrderId outPoint ∈ second.id :: first.id :: note.held
    rw [hinputs] at hmem
    rcases List.mem_cons.mp hmem with rfl | hmem
    · simp [hfirst]
    · simp [List.mem_singleton.mp hmem, hsecond]
  refine follows_tryCatch.mpr ((follows_settleReserved schedule first second hallowed).mono ?_)
  rintro final r ⟨hlater, hsent⟩
  cases r with
  | ok txHash =>
      refine ⟨fun hsound hstuck => ?_, hlater.read⟩
      obtain ⟨hbefore, hfirst, hsecond⟩ := hids final hlater hsound
      have hpooled := hsent txHash rfl
      rw [hinputs] at hpooled
      rw [hlater.held]
      intro id hmem
      rcases List.mem_cons.mp hmem with rfl | hmem
      · exact hpooled (by simp [hsecond])
      · rcases List.mem_cons.mp hmem with rfl | hmem
        · exact hpooled (by simp [hfirst])
        · exact hlater.sent (h hbefore (hlater.stuck hstuck) hmem)
  | error error =>
      have hheld : final.held = second.id :: first.id :: note.held := hlater.held
      have hfirst : first.id ∈ final.held := by
        rw [hheld]
        exact List.mem_cons_of_mem _ List.mem_cons_self
      have hsecond : second.id ∈ (final.release first.id).held := by
        change second.id ∈ final.held.erase first.id
        rw [hheld, erase_second]
        exact List.mem_cons_self
      refine follows_bind.mpr ((follows_revertBoth schedule.reverse hfirst hsecond hlater.read
        (h.released hlater)).mono fun note' r hends => ?_)
      cases r <;> exact hends

theorem follows_executeTrade (schedule : List Bool) {buy sell : OrderDocument} (h : note.Settled)
    (hbuy : note.Sound → Located buy) (hsell : note.Sound → Located sell) :
    Follows record allowed (fun note' _ => Ends note note') note (executeTrade config schedule buy sell) := by
  have hunchanged : Ends note note := ⟨h, fun _ hmem => hmem⟩
  unfold executeTrade
  rw [follows_bind, follows_require]
  cases hbuild : buildSettlement config.client config.verification.supportedAssetHashes buy sell with
  | error error => exact hunchanged
  | ok settlement =>
      have hinputs := inputs_of_buildSettlement hbuild
      simp only [continues]
      rw [follows_bind]
      refine follows_reserve.mono fun note₁ r hreserved => ?_
      rcases hreserved with ⟨first, rfl, rfl⟩ | ⟨rfl, rfl⟩ | ⟨error, rfl, hstuck, hread⟩
      · simp only [continues, follows_bind, follows_require, okOr]
        refine follows_reserve.mono fun note₂ r hreserved => ?_
        rcases hreserved with ⟨second, rfl, rfl⟩ | ⟨rfl, rfl⟩ | ⟨error, rfl, hstuck, hread⟩
        · exact follows_settling schedule h hbuy hsell hinputs
        · apply follows_release List.mem_cons_self (fun _ hmem => hmem)
          refine ⟨?_, fun _ hmem => hmem⟩
          rintro ⟨hgot, hread⟩ hfree
          change (first.id :: note.held).erase first.id ⊆ note.sent
          rw [List.erase_cons_head]
          exact h ⟨(List.cons.inj hgot).2, hread⟩ hfree
        · exact ends_stuck hstuck hread
      · exact hunchanged
      · exact ends_stuck hstuck hread

theorem idles_handleMatchFailure (schedule : List Bool) (buy sell : OrderDocument) (error : Failure) :
    Only idles (handleMatchFailure config schedule buy sell error) := by
  have hsettled : ∀ order, Only idles (settled (checkOrderLiveness config.verification order)) := by
    intro order
    apply only_tryCatch _ fun _ => only_pure _
    exact only_bind ((watches_checkOrderLiveness order).mono fun _ => idles_of_watches) fun _ => only_pure _
  unfold handleMatchFailure
  split
  · split_ifs
    · exact only_bind (only_promiseAll schedule (hsettled buy) (hsettled sell)) fun _ => only_pure _
    · exact only_pure _
  · exact only_pure _

/-- One match after the other. -/
theorem follows_matchPendingOrders (schedule : List Bool) (pairs : List (OrderDocument × OrderDocument))
    (h : note.Settled) (hpairs : ∀ pair ∈ pairs, pair.1 ∈ note.read ∧ pair.2 ∈ note.read) :
    Follows record allowed (fun note' _ => note'.Settled) note
        (matchPendingOrders config schedule pairs) := by
  unfold matchPendingOrders
  have htaken : ∀ pair ∈ pairs.take maxMatchesPerTick, pair.1 ∈ note.read ∧ pair.2 ∈ note.read :=
    fun pair hmem => hpairs pair (List.mem_of_mem_take hmem)
  generalize pairs.take maxMatchesPerTick = pairs at htaken
  clear hpairs
  induction pairs generalizing note with
  | nil => exact h
  | cons pair pairs ih =>
      obtain ⟨hbuy, hsell⟩ := htaken pair List.mem_cons_self
      have htrade : Follows record allowed (fun note' _ => Ends note note') note
          (executeTrade config schedule pair.1 pair.2) :=
        follows_executeTrade schedule h (fun hsound => hsound.2 _ hbuy) fun hsound => hsound.2 _ hsell
      have hmatch : Follows record allowed (fun note' _ => note'.Settled ∧ note.read ⊆ note'.read) note
          (tryCatch
            (do
              let _ ← executeTrade config schedule pair.1 pair.2
              return ())
            (handleMatchFailure config schedule pair.1 pair.2)) := by
        refine follows_tryCatch.mpr (follows_bind.mpr (htrade.mono fun note₁ r hends => ?_))
        cases r with
        | ok txHash => exact hends
        | error error =>
            exact follows_idles (idles_handleMatchFailure schedule pair.1 pair.2 error)
              (fun _ _ hk hlater => ⟨hk.1.later hlater, fun _ hmem => hlater.read (hk.2 hmem)⟩) hends
      refine follows_bind.mpr (hmatch.mono fun note₁ r hends => ?_)
      obtain ⟨hsettled, hread⟩ := hends
      cases r with
      | error error => exact hsettled
      | ok done =>
          apply ih hsettled
          intro other hmem
          obtain ⟨hfirst, hsecond⟩ := htaken other (List.mem_cons_of_mem _ hmem)
          exact ⟨hread hfirst, hread hsecond⟩

end

end CkbDex.Reservations
