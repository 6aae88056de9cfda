import CkbDex.ScanCalls
import CkbDex.SpendClassification

/-!
# The parts of a scan

A scan fails loudly, except for the answer that an order is not buried deep
enough. Its parts keep what is indexed, and each checkpoint is saved by the scan
that covered its range.
-/
namespace CkbDex.ScanCursor
open Checked Bytes CellContext Text Documents BotEvents Projection Programs Operations Chains
open EventVerification IngestionSteps CkbDex.Bot Acceptance Observation Interference ScanCalls
open SettlementBuilder (toBigInt)

/-- Anything but the 409 that the bot takes for "not buried deep enough yet". -/
def NotPending {α : Type} (r : Except Failure α) : Prop :=
  ∀ message code, r ≠ .error (.app 409 message code)

section
variable {α β : Type} {v : ChainVerification}

/-- What a result promises, an error need not keep. -/
theorem of_error_eq_ok {error : Failure} {a : α} {P : Prop}
    (h : (Except.error error : Except Failure α) = .ok a) : P := by
  cases h

theorem notPending_ok (a : α) : NotPending (.ok a) := nofun

theorem notPending_other (message : String) : NotPending (.error (.other message) : Except Failure α) :=
  nofun

theorem notPending_rejection (reason : String) :
    NotPending (.error (rejection reason) : Except Failure α) := by
  intro message code h
  simp [rejection, appError] at h

theorem notPending_bind {x : Except Failure α} {f : α → Except Failure β} (hx : NotPending x)
    (hf : ∀ a, NotPending (f a)) : NotPending (x >>= f) := by
  cases x with
  | ok a => exact hf a
  | error error =>
      intro message code h
      exact hx message code (congrArg Except.error (Except.error.inj h))

theorem notPending_okOr {o : Option α} {e : Failure} (he : NotPending (.error e : Except Failure α)) :
    NotPending (okOr o e) := by
  cases o with
  | none => exact he
  | some a => exact notPending_ok a

theorem notPending_throwIf {c : Prop} [Decidable c] {e : Failure}
    (he : NotPending (.error e : Except Failure Unit)) : NotPending (throwIf c e) := by
  unfold throwIf
  split_ifs
  · exact he
  · exact notPending_ok ()

theorem notPending_rejectIf (c : Prop) [Decidable c] (reason : String) :
    NotPending (rejectIf c reason) :=
  notPending_throwIf (notPending_rejection reason)

theorem notPending_toBigInt (text : String) : NotPending (toBigInt text) :=
  notPending_okOr (notPending_other _)

theorem notPending_scriptHash (hash : Script → Hash) (script : ScriptDocument) :
    NotPending (scriptHash hash script) :=
  notPending_okOr (notPending_other _)

theorem notPending_checkBlock (txHash : Hex) (event : EventBase) (tx : Option ChainTransaction) :
    NotPending (checkBlock txHash event tx) := by
  refine notPending_bind (notPending_okOr (notPending_rejection _)) fun found => ?_
  refine notPending_bind (notPending_throwIf (notPending_rejection _)) fun _ => ?_
  refine notPending_bind (notPending_okOr (notPending_rejection _)) fun blockNumber => ?_
  refine notPending_bind (notPending_okOr (notPending_rejection _)) fun blockHash => ?_
  refine notPending_bind (notPending_rejectIf _ _) fun _ => ?_
  refine notPending_bind (notPending_okOr (notPending_rejection _)) fun claimed => ?_
  refine notPending_bind (notPending_toBigInt _) fun number => ?_
  exact notPending_bind (notPending_rejectIf _ _) fun _ => notPending_ok _

theorem notPending_checkTerms (order : ConfirmedOrder) (decoded : DecodedDexOrderArgs) :
    NotPending (checkTerms v order decoded) := by
  refine notPending_bind (notPending_rejectIf _ _) fun _ => ?_
  refine notPending_bind (notPending_toBigInt _) fun price => ?_
  refine notPending_bind (notPending_rejectIf _ _) fun _ => ?_
  refine notPending_bind (notPending_toBigInt _) fun amount => ?_
  refine notPending_bind (notPending_rejectIf _ _) fun _ => ?_
  refine notPending_bind (notPending_rejectIf _ _) fun _ => ?_
  exact notPending_bind (notPending_rejectIf _ _) fun _ => notPending_rejectIf _ _

theorem notPending_checkHolding (order : ConfirmedOrder) (output : ChainOutput)
    (decoded : DecodedDexOrderArgs) : NotPending (checkHolding v order output decoded) := by
  unfold checkHolding
  split_ifs
  · refine notPending_bind (notPending_okOr (notPending_rejection _)) fun outputType => ?_
    refine notPending_bind (notPending_scriptHash _ _) fun outputHash => ?_
    refine notPending_bind (notPending_rejectIf _ _) fun _ => ?_
    refine notPending_bind (notPending_okOr (notPending_rejection _)) fun claimedType => ?_
    refine notPending_bind (notPending_scriptHash _ _) fun claimedHash => ?_
    refine notPending_bind (notPending_rejectIf _ _) fun _ => ?_
    exact notPending_bind (notPending_okOr (notPending_other _)) fun data => notPending_rejectIf _ _
  · exact notPending_rejectIf _ _

theorem notPending_checkOwner (order : ConfirmedOrder) (tx : ChainTransaction)
    (decoded : DecodedDexOrderArgs) : NotPending (checkOwner v order tx decoded) := by
  refine notPending_bind (notPending_scriptHash _ _) fun ownerHash => ?_
  exact notPending_bind (notPending_rejectIf _ _) fun _ => notPending_rejectIf _ _

theorem notPending_checkOutput (order : ConfirmedOrder) (output : ChainOutput) :
    NotPending (checkOutput v order output) := by
  refine notPending_bind (notPending_rejectIf _ _) fun _ => ?_
  refine notPending_bind (notPending_rejectIf _ _) fun _ => ?_
  refine notPending_bind (notPending_rejectIf _ _) fun _ => ?_
  exact notPending_bind (notPending_toBigInt _) fun capacity => notPending_rejectIf _ _

theorem notPending_decoding (x : Except Failure α) : NotPending (x.mapError decodingRejection) := by
  cases x with
  | ok a => exact notPending_ok a
  | error error =>
      cases error with
      | app statusCode message code => exact notPending_rejection message
      | other message => exact notPending_rejection message

theorem notPending_checkOrderConfirmed (event : OrderConfirmedEvent) (tx : ChainTransaction) :
    NotPending (checkOrderConfirmed v event tx) := by
  refine notPending_bind (notPending_rejectIf _ _) fun _ => ?_
  refine notPending_bind ?_ fun _ => ?_
  · cases tx.txIndex with
    | none => exact notPending_ok ()
    | some txIndex => exact notPending_bind (notPending_toBigInt _) fun claimed => notPending_rejectIf _ _
  refine notPending_bind (notPending_okOr (notPending_rejection _)) fun output => ?_
  refine notPending_bind (notPending_checkOutput _ _) fun _ => ?_
  refine notPending_bind (notPending_decoding _) fun decoded => ?_
  refine notPending_bind (notPending_checkTerms _ _) fun _ => ?_
  exact notPending_bind (notPending_checkHolding _ _ _) fun _ => notPending_checkOwner _ _ _

end

def scanning {w : World} (drivers : Drivers) (dex : Script) (v : ChainVerification) :
    Setting Op (fun op => Answer (Res op)) (Moment w) where
  drifts := Grows
  performs := Performs drivers dex InStep
  guarantee := Later v dex
  refl := Later.refl
  trans := Later.trans

section
variable {w : World} {v : ChainVerification} {dex : Script} {s : Moment w} {drivers : Drivers}
  {base : Chain w} {α β : Type}

theorem Grows.refl (s : Moment w) : Grows s s := ⟨List.prefix_refl _, rfl, rfl⟩

theorem Grows.trans {s t u : Moment w} (hst : Grows s t) (htu : Grows t u) : Grows s u :=
  ⟨hst.grown.trans htu.grown, htu.db.trans hst.db, htu.since.trans hst.since⟩

/-- A harmless call, by what its answer says. -/
theorem safe_request {op : Op} {post : Answer (Res op) → Moment w → Prop} (hharmless : Harmless op)
    (h : ∀ t answer u, Grows s t → Performs drivers dex InStep op t answer u → Later v dex s u →
      Later v dex t u → post answer u) : Safe (scanning drivers dex v) (request op) post s := by
  refine safe_perform.mpr fun t answer u hgrows hperformed => ?_
  have hlater : Later v dex s u := hperformed.later hgrows hharmless
  exact ⟨hlater, h t answer u hgrows hperformed hlater (hperformed.later (Grows.refl t) hharmless)⟩

theorem safe_harmless {x : Proc α} (hx : Only Harmless x) (s : Moment w) :
    Safe (scanning drivers dex v) x (fun _ _ => True) s :=
  safe_of_only (S := scanning drivers dex v) hx
    (fun _ hop _ _ _ _ hgrows hperformed => Performs.later hgrows hperformed hop) s

theorem harmless_of_query {op : Op} (h : isQuery op = true) : Harmless op := Or.inl h

theorem safe_notPending_request {op : Op} (hharmless : Harmless op) :
    Safe (scanning drivers dex v) (request op) (fun r _ => NotPending r) s := by
  refine safe_request hharmless fun t answer u _ hperformed _ _ => ?_
  cases answer with
  | ok a => exact notPending_ok a
  | error error =>
      obtain ⟨message, rfl⟩ := performs_error hperformed
      exact notPending_other message

theorem safe_notPending_bind {x : Proc α} {f : α → Proc β}
    (hx : Safe (scanning drivers dex v) x (fun r _ => NotPending r) s)
    (hf : ∀ a (t : Moment w), Safe (scanning drivers dex v) (f a) (fun r _ => NotPending r) t) :
    Safe (scanning drivers dex v) (x >>= f) (fun r _ => NotPending r) s := by
  refine safe_bind.mpr (hx.mono fun r t _ hr => ?_)
  cases r with
  | ok a => exact hf a t
  | error error =>
      intro message code h
      exact hr message code (congrArg Except.error (Except.error.inj h))

theorem safe_readInputLockHashes (hash : Script → Hash) (inputs : List CellRef) (s : Moment w) :
    Safe (scanning drivers dex v) (readInputLockHashes hash inputs) (fun r _ => NotPending r) s := by
  induction inputs generalizing s with
  | nil => exact notPending_ok _
  | cons input inputs ih =>
      refine safe_notPending_bind (safe_notPending_request (harmless_of_query rfl)) fun previous t => ?_
      exact safe_notPending_bind (ih t) fun rest u => notPending_ok _

theorem safe_readTransaction (hash : Script → Hash) (txHash : Hex) (s : Moment w) :
    Safe (scanning drivers dex v) (readTransaction hash txHash) (fun r _ => NotPending r) s := by
  refine safe_notPending_bind (notPending_okOr (notPending_other _)) fun key t => ?_
  refine safe_notPending_bind (safe_notPending_request (harmless_of_query rfl)) fun response u => ?_
  cases response with
  | none => exact notPending_ok _
  | some found =>
      exact safe_notPending_bind (safe_readInputLockHashes _ _ _) fun _ _ => notPending_ok _

/-- A transaction that is buried below the tip of the scan is deep enough for
the verifier. -/
theorem safe_requireConfirmed {txHash : Hex} {event : EventBase} {n : ℕ} (hsince : s.since = some base)
    (hblock : event.blockNumber = some (toString n)) (hdeep : n + v.confirmationDepth ≤ base.tip) :
    Safe (scanning drivers dex v) (requireConfirmed v txHash event) (fun r _ => NotPending r) s := by
  refine safe_bind.mpr ((safe_readTransaction _ _ _).mono fun r t hst hr => ?_)
  cases r with
  | error error =>
      intro message code h
      exact hr message code (congrArg Except.error (Except.error.inj h))
  | ok tx =>
      refine safe_bind.mpr ?_
      have hchecked := notPending_checkBlock txHash event tx
      cases hcheck : checkBlock txHash event tx with
      | error error =>
          rw [hcheck] at hchecked
          intro message code h
          exact hchecked message code (congrArg Except.error (Except.error.inj h))
      | ok found =>
          obtain ⟨found, blockNumber⟩ := found
          obtain ⟨-, -, -, -, claimed, hclaimed, hnumber⟩ := checkBlock_eq_ok hcheck
          obtain rfl : toString n = claimed := Option.some_inj.mp (hblock.symm.trans hclaimed)
          obtain rfl : n = blockNumber := by
            rw [bigInt_toString, Option.some_inj] at hnumber
            exact Int.ofNat_inj.mp hnumber
          refine safe_bind.mpr (safe_request (harmless_of_query rfl) fun t' answer u hgrows
              hperformed _ _ => ?_)
          rcases performs_ordinary rfl hperformed with ⟨message, rfl⟩ | ⟨d, -, hanswer, hlookup, -⟩
          · exact notPending_other message
          · have htip : base.tip ≤ d.tip + 1 := hlookup base (hgrows.since.trans (hst.since base hsince))
            simp only [handle, Chain.node] at hanswer
            split_ifs at hanswer
            · rw [hanswer]
              exact notPending_other _
            · rw [hanswer]
              have henough : ¬confirmationsOf d.tip n < v.confirmationDepth := by
                unfold confirmationsOf
                split_ifs <;> omega
              refine safe_bind.mpr ?_
              simp only [throwIf, henough, if_false]
              exact notPending_ok _

/-- The event that confirms the order of a cell, created in a block with a number. -/
structure Confirms (event : OrderConfirmedEvent) (ref : CellRef) (n : ℕ) : Prop where
  outPoint : event.outPoint = outPointText ref
  eventId : ∃ blockHash, event.eventId = confirmId ref blockHash
  blockNumber : event.blockNumber = some (toString n)

theorem Confirms.harmless {event : OrderConfirmedEvent} {ref : CellRef} {n : ℕ}
    (h : Confirms event ref n) : Only Harmless (ingest v (.orderConfirmed event)) := by
  obtain ⟨blockHash, hid⟩ := h.eventId
  refine (only_ingest _).mono ?_
  rintro op (hquery | rfl | ⟨message, rfl⟩)
  · exact Or.inl hquery
  · exact Or.inr (Or.inr (Or.inl ⟨event, ref, blockHash, rfl, h.outPoint, hid⟩))
  · exact Or.inr (Or.inl ⟨_, message, rfl⟩)

theorem safe_auditFailure (event : BotEvent) (error : Failure) (s : Moment w) :
    Safe (scanning drivers dex v) (auditFailure event error) (fun r _ => r = .ok ()) s := by
  refine safe_tryCatch.mpr (safe_request (Or.inr (Or.inl ⟨_, _, rfl⟩)) fun t answer u _ _ _ _ => ?_)
  cases answer <;> rfl

/-- Whatever fails is thrown after the audit. -/
theorem safe_audit_throw (event : BotEvent) (error : Failure) (s : Moment w) :
    Safe (scanning drivers dex v) (do auditFailure event error; throw error : Proc α)
      (fun r _ => r = .error error) s := by
  refine safe_bind.mpr ((safe_auditFailure event error s).mono fun r t _ hr => ?_)
  subst hr
  rfl

theorem safe_verify {event : OrderConfirmedEvent} {ref : CellRef} {n : ℕ} (h : Confirms event ref n)
    (hsince : s.since = some base) (hdeep : n + v.confirmationDepth ≤ base.tip) :
    Safe (scanning drivers dex v) (verify v (.orderConfirmed event)) (fun r _ => NotPending r) s := by
  have hverify : Safe (scanning drivers dex v) (verifyEvent v (.orderConfirmed event))
      (fun r _ => NotPending r) s :=
    safe_notPending_bind (safe_requireConfirmed hsince h.blockNumber hdeep)
      fun tx t => notPending_checkOrderConfirmed event tx
  refine safe_tryCatch.mpr (hverify.mono fun r t _ hr => ?_)
  cases r with
  | ok u => exact notPending_ok u
  | error error =>
      cases error with
      | other message =>
          intro message' code h
          simp [appError] at h
      | app statusCode message code =>
          simp only [reportFailure]
          split_ifs with hstatus
          · refine (safe_audit_throw _ _ t).mono fun r' u _ hr' => ?_
            subst hr'
            exact hr
          · exact hr

theorem applyOrderConfirmed_error {event : OrderConfirmedEvent} {db : Db} {error : Failure}
    (h : applyOrderConfirmed drivers event db = .error error) : ∃ message, error = .other message := by
  have hthrow : ∀ {c : Prop} [Decidable c] {message : String},
      throwIf c (.other message : Failure) = .error error → ∃ message, error = .other message := by
    intro c _ message hthrown
    unfold throwIf at hthrown
    split_ifs at hthrown
    exact ⟨message, (Except.error.inj hthrown).symm⟩
  have hbind : ∀ {x : Except Failure Unit} {f : Unit → Except Failure (IngestionResult × Db)},
      (x >>= f) = .error error → x = .error error ∨ f () = .error error := by
    intro x f hx
    cases x with
    | error error' => exact Or.inl (congrArg Except.error (Except.error.inj hx))
    | ok u => exact Or.inr hx
  unfold applyOrderConfirmed at h
  simp only at h
  split_ifs at h
  · cases h
  · rcases hbind h with hfirst | h
    · exact hthrow hfirst
    · rcases hbind h with hsecond | h
      · exact hthrow hsecond
      · rcases hbind h with hthird | h
        · exact hthrow hthird
        · cases h

/-- The transaction of a confirmation is committed, finds its event processed,
or throws a plain error. -/
theorem transact_confirmed (drivers : Drivers) (event : OrderConfirmedEvent) (db : Db) :
    (∃ result, (transact drivers (.orderConfirmed event) db).1 = .committed result) ∨
      (transact drivers (.orderConfirmed event) db).1 = .duplicateKey ∧
        db.processed event.eventId = true ∨
      ∃ message, (transact drivers (.orderConfirmed event) db).1 = .aborted (.other message) := by
  cases happly : applyEvent drivers (.orderConfirmed event) db with
  | error error =>
      obtain ⟨message, rfl⟩ := applyOrderConfirmed_error happly
      refine Or.inr (Or.inr ⟨message, ?_⟩)
      unfold transact
      rw [happly]
  | ok applied =>
      obtain ⟨result, next⟩ := applied
      cases hnew : db.processed event.eventId with
      | false =>
          have hcommitted : transact drivers (.orderConfirmed event) db = (.committed result, _) :=
            transact_eq hnew happly
          exact Or.inl ⟨result, congrArg Prod.fst hcommitted⟩
      | true =>
          have hnot : (transact drivers (.orderConfirmed event) db).1 ≠ .committed result :=
            transact_ne_committed hnew result
          refine Or.inr (Or.inl ⟨?_, rfl⟩)
          unfold transact at hnot ⊢
          simp only [happly] at hnot ⊢
          split_ifs at hnot ⊢
          · rfl
          · exact (hnot rfl).elim

/-- A confirmation that the bot delivers leaves its order stored, or throws
something that the scan does not swallow. -/
theorem safe_ingest {event : OrderConfirmedEvent} {ref : CellRef} {n : ℕ} (h : Confirms event ref n)
    (hvalid : Valid v dex s) (hsince : s.since = some base)
    (hdeep : n + v.confirmationDepth ≤ base.tip) :
    Safe (scanning drivers dex v) (ingest v (.orderConfirmed event)) (fun r u => NotPending r ∧
      ∀ result, r = .ok result → (u.db.orders.find? (toOrderId (outPointText ref))).isSome = true) s := by
  obtain ⟨blockHash, hid⟩ := h.eventId
  have hharmless : Harmless (.transact (.orderConfirmed event)) :=
    Or.inr (Or.inr (Or.inl ⟨event, ref, blockHash, rfl, h.outPoint, hid⟩))
  have hstored : ∀ t : Moment w, Valid v dex t → t.db.processed event.eventId = true →
      (t.db.orders.find? (toOrderId (outPointText ref))).isSome = true := by
    intro t ht hprocessed
    rw [hid] at hprocessed
    exact ht.recorded ref blockHash hprocessed
  refine safe_bind.mpr (safe_request (harmless_of_query rfl) fun t answer u hgrows hperformed hsu htu => ?_)
  rcases performs_same rfl (fun _ => rfl) hperformed with ⟨message, rfl⟩ | rfl
  · exact ⟨notPending_other message, fun _ => of_error_eq_ok⟩
  · simp only [proceeds]
    split_ifs with hprocessed
    · refine ⟨notPending_ok _, fun _ _ => htu.stored _ (hstored t (hgrows.later.valid hvalid) hprocessed)⟩
    · refine safe_bind.mpr ((safe_verify h (hsu.since base hsince) hdeep).mono fun r u' huu' hr => ?_)
      cases r with
      | error error =>
          refine ⟨fun message code hpending => ?_, fun _ => of_error_eq_ok⟩
          exact hr message code (congrArg Except.error (Except.error.inj hpending))
      | ok _ =>
          refine safe_bind.mpr (safe_request hharmless fun t' answer u'' hgrows' hperformed' _ htu'' => ?_)
          rcases performs_transact hperformed' with ⟨message, rfl⟩ | ⟨message, rfl⟩ | ⟨rfl, hdb⟩
          · exact ⟨notPending_other message, fun _ => of_error_eq_ok⟩
          · refine (safe_audit_throw _ _ u'').mono fun r' _ _ hr' => ?_
            subst hr'
            exact ⟨notPending_other message, fun _ => of_error_eq_ok⟩
          · have hvalid' : Valid v dex t' := hgrows'.later.valid (huu'.valid (hsu.valid hvalid))
            rcases transact_confirmed drivers event t'.db with
              ⟨result, hcommitted⟩ | ⟨hduplicate, hprocessed'⟩ | ⟨message, haborted⟩
            · have htransacted : transact drivers (.orderConfirmed event) t'.db =
                  (.committed result, (transact drivers (.orderConfirmed event) t'.db).2) :=
                Prod.ext hcommitted rfl
              obtain ⟨hfound, -⟩ := stored_of_committed htransacted
              rw [hcommitted]
              refine ⟨notPending_ok _, fun _ _ => ?_⟩
              rw [hdb, ← h.outPoint]
              exact hfound
            · rw [hduplicate]
              exact ⟨notPending_ok _, fun _ _ => htu''.stored _ (hstored t' hvalid' hprocessed')⟩
            · rw [haborted]
              refine (safe_audit_throw _ _ u'').mono fun r' _ _ hr' => ?_
              subst hr'
              exact ⟨notPending_other message, fun _ => of_error_eq_ok⟩

theorem safe_emit {event : OrderConfirmedEvent} {ref : CellRef} {n : ℕ} (h : Confirms event ref n)
    (hvalid : Valid v dex s) (hsince : s.since = some base)
    (hdeep : n + v.confirmationDepth ≤ base.tip) :
    Safe (scanning drivers dex v) (emit v (.orderConfirmed event)) (fun r u => ∀ handled, r = .ok handled →
      (u.db.orders.find? (toOrderId (outPointText ref))).isSome = true) s := by
  refine safe_tryCatch.mpr (safe_bind.mpr ((safe_ingest h hvalid hsince hdeep).mono fun r u _ hr => ?_))
  obtain ⟨hpending, hstored⟩ := hr
  cases r with
  | ok result => exact fun _ _ => hstored result rfl
  | error error =>
      simp only [proceeds]
      split
      · rename_i message code
        exact (hpending message code rfl).elim
      · intro handled hthrown
        cases hthrown

end

end CkbDex.ScanCursor
