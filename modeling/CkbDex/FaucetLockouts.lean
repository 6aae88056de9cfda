import CkbDex.FaucetStore
import CkbDex.Interleaving

/-!
# Recipients are not locked out

A reserved claim is retaken once its time is up, so a recipient can be locked
out only by a reservation that has no time. The undo of a reservation restores
a remembered status and drops the time; that status is RESERVED when the
reservation had retaken an abandoned one.
-/
namespace CkbDex.FaucetLockouts
open Checked Collections Decimals Documents Programs Faucet Interleaving

/-- Every reserved claim has a time. -/
def Dated (s : State) : Prop :=
  ∀ doc ∈ s.claims.docs, doc.status = some .reserved → doc.reservedAt ≠ none

/-- A reservation that is undone is no longer current, or its predecessor was
not reserved. -/
def UndoesToSent (s : State) : Op → Prop
  | .restoreClaim lockHash id .reserved => s.mine lockHash id = none
  | _ => True

section
variable {s : State} {op : Op} {txHash : Hex} {lockHash address : String} {limits : ClaimLimits}
  {now day : ℤ}

theorem dated_empty : Dated State.empty := by
  intro doc hdoc
  cases hdoc

theorem Dated.put (h : Dated s) {t : State} {doc : ClaimDocument} (ht : t.claims = s.claims.put doc)
    (hdoc : doc.status = some .reserved → doc.reservedAt ≠ none) : Dated t := by
  intro other hmem hstatus
  rw [ht] at hmem
  rcases Collection.mem_docs_put.mp hmem with rfl | ⟨hold, -⟩
  · exact hdoc hstatus
  · exact h other hold hstatus

theorem Dated.of_same (h : Dated s) {t : State} (ht : t.claims = s.claims) : Dated t := by
  intro doc hmem
  rw [ht] at hmem
  exact h doc hmem

theorem Dated.updateMine (h : Dated s) {id : ℕ} {update : ClaimDocument → ClaimDocument}
    (hupdate : ∀ doc, s.mine lockHash id = some doc → (update doc).status = some .reserved →
      (update doc).reservedAt ≠ none) : Dated (s.updateMine lockHash id update) := by
  unfold State.updateMine
  cases hmine : s.mine lockHash id with
  | none => exact h
  | some doc => exact h.put rfl (hupdate doc hmine)

theorem Dated.handle (h : Dated s) (hop : UndoesToSent s op) : Dated (handle txHash op s).2 := by
  cases op with
  | reserveClaim lockHash address now cutoff stale id =>
      simp only [Faucet.handle, State.reserveClaim]
      cases hfind : s.claims.find? lockHash with
      | none => exact h.put rfl fun _ => Option.some_ne_none now
      | some doc =>
          simp only
          split_ifs
          · exact h.put rfl fun _ => Option.some_ne_none now
          · exact h
  | takeBudget day dailyMaxClaims room drip =>
      refine h.of_same ?_
      simp only [Faucet.handle, State.takeBudget]
      cases s.budgets.find? day with
      | none => rfl
      | some doc =>
          simp only
          split_ifs <;> rfl
  | returnBudget day drip =>
      refine h.of_same ?_
      simp only [Faucet.handle, State.returnBudget]
      cases s.budgets.find? day <;> rfl
  | commitClaim lockHash id txHash now => exact h.updateMine fun doc _ hstatus => by cases hstatus
  | deleteClaim lockHash id =>
      intro doc hmem
      exact h doc (Collection.mem_docs_deleteWhere.mp hmem).1
  | restoreClaim lockHash id status =>
      refine h.updateMine fun doc hmine hstatus => ?_
      cases status with
      | reserved =>
          have hnone : s.mine lockHash id = none := hop
          rw [hnone] at hmine
          cases hmine
      | sent => cases hstatus
  | _ => exact h

/-- A call against the condition leaves a reservation without a time. -/
theorem not_dated_of_undone (h : ¬UndoesToSent s op) : ¬Dated (Faucet.handle txHash op s).2 := by
  cases op with
  | restoreClaim lockHash id status =>
      cases status with
      | sent => exact (h trivial).elim
      | reserved =>
          obtain ⟨doc, hmine⟩ := Option.ne_none_iff_exists'.mp h
          intro hdated
          refine hdated (restoredClaim .reserved doc) ?_ rfl rfl
          simp only [Faucet.handle, State.updateMine, hmine]
          exact Collection.mem_docs_put.mpr (Or.inl rfl)
  | _ => exact (h trivial).elim

/-- The budget of a day has a share left. -/
def BudgetFree (limits : ClaimLimits) (s : State) (day : ℤ) : Prop :=
  ∃ room drip, decimal (limits.dailyMaxTokens - limits.dripAmount) = .ok room ∧
    decimal limits.dripAmount = .ok drip ∧ ∀ doc, s.budgets.find? day = some doc →
      doc.claims < limits.dailyMaxClaims ∧ doc.tokens.atMost room = true

theorem eval_takeBudget {room drip : Decimal128}
    (hroom : decimal (limits.dailyMaxTokens - limits.dripAmount) = .ok room)
    (hdrip : decimal limits.dripAmount = .ok drip) :
    eval (Faucet.handle txHash) (takeBudget limits day) s =
      (match (s.takeBudget day limits.dailyMaxClaims room drip).1 with
        | .duplicateKey => .error (appError 503
            "The faucet has reached its daily limit - please try again tomorrow")
        | _ => .ok (),
        (s.takeBudget day limits.dailyMaxClaims room drip).2) := by
  have htake : eval (Faucet.handle txHash)
      (request (.takeBudget day limits.dailyMaxClaims room drip)) s =
        (.ok (s.takeBudget day limits.dailyMaxClaims room drip).1,
          (s.takeBudget day limits.dailyMaxClaims room drip).2) := rfl
  simp only [takeBudget, eval_bind, eval_require, hroom, hdrip, htake]
  cases (s.takeBudget day limits.dailyMaxClaims room drip).1 <;> rfl

theorem eval_takeBudget_of_free (h : BudgetFree limits s day) :
    (eval (Faucet.handle txHash) (takeBudget limits day) s).1 = .ok () := by
  obtain ⟨room, drip, hroom, hdrip, hfree⟩ := h
  rw [eval_takeBudget hroom hdrip, State.takeBudget]
  cases hfind : s.budgets.find? day with
  | none => rfl
  | some doc =>
      obtain ⟨hclaims, htokens⟩ := hfree doc hfind
      simp only [hclaims, htokens, decide_true, Bool.and_self, if_true]

theorem decimal_ne_inProgress {value : ℤ} {error : Failure} (h : decimal value = .error error) :
    error ≠ inProgress := by
  unfold decimal at h
  cases hvalue : Decimal128.ofInt value with
  | none =>
      rw [hvalue] at h
      obtain rfl := Except.error.inj h
      simp [inProgress, appError]
  | some d =>
      rw [hvalue] at h
      cases h

theorem eval_takeBudget_ne_inProgress :
    (eval (Faucet.handle txHash) (takeBudget limits day) s).1 ≠ .error inProgress := by
  cases hroom : decimal (limits.dailyMaxTokens - limits.dripAmount) with
  | error error =>
      simp only [takeBudget, eval_bind, eval_require, hroom]
      exact fun h => decimal_ne_inProgress hroom (Except.error.inj h)
  | ok room =>
      cases hdrip : decimal limits.dripAmount with
      | error error =>
          simp only [takeBudget, eval_bind, eval_require, hroom, hdrip]
          exact fun h => decimal_ne_inProgress hdrip (Except.error.inj h)
      | ok drip =>
          rw [eval_takeBudget hroom hdrip]
          cases (s.takeBudget day limits.dailyMaxClaims room drip).1 <;> simp [inProgress, appError]

theorem eval_restoreClaim (txHash : Hex) (s : State) (reservation : Reservation) :
    ∃ t, eval (Faucet.handle txHash) (restoreClaim reservation) s = (.ok (), t) := by
  unfold restoreClaim
  split_ifs <;> exact ⟨_, rfl⟩

/-- A marked claim gets its share of the budget, or the failure to take it. -/
theorem eval_takeShare (reservation : Reservation) :
    (eval (Faucet.handle txHash) (takeShare limits reservation) s).1 =
      (eval (Faucet.handle txHash) (takeBudget limits reservation.day) s).1.map fun _ => reservation := by
  rw [takeShare, eval_bind, eval_tryCatch]
  rcases eval (Faucet.handle txHash) (takeBudget limits reservation.day) s with ⟨error | u, t⟩
  · obtain ⟨t', hrestore⟩ := eval_restoreClaim txHash t reservation
    simp only [eval_bind, hrestore, eval_throw, Except.map]
  · simp only [eval_pure, Except.map]

theorem eval_takeShare_of_taken {reservation : Reservation} {t : State}
    (h : eval (Faucet.handle txHash) (takeBudget limits reservation.day) s = (.ok (), t)) :
    eval (Faucet.handle txHash) (takeShare limits reservation) s = (.ok reservation, t) := by
  simp only [takeShare, eval_bind, eval_tryCatch, h, eval_pure]

/-- The claim that a reservation leaves. -/
def markedClaim (lockHash address : String) (now : ℤ) (id : ℕ) : Option ClaimDocument → ClaimDocument
  | none => newClaim lockHash address now id
  | some doc => reservedClaim address now id doc

def marked (s : State) (lockHash address : String) (now : ℤ) : State :=
  { s with
    issued := s.issued + 1
    claims := s.claims.put (markedClaim lockHash address now s.issued (s.claims.find? lockHash)) }

/-- A claim that is free, or absent, is reserved as far as the budget goes. -/
theorem eval_reserve_of_free (hfree : ∀ doc, s.claims.find? lockHash = some doc →
    free (now - limits.cooldownMs) (now - limits.reservationTimeoutMs) doc = true) :
    eval (Faucet.handle txHash) (reserve limits lockHash address now) s =
      eval (Faucet.handle txHash)
        (takeShare limits (reservationOf lockHash s.issued now (s.claims.find? lockHash)))
        (marked s lockHash address now) := by
  have huuid : eval (Faucet.handle txHash) (request .randomUUID) s =
      (.ok s.issued, { s with issued := s.issued + 1 }) := rfl
  have hmark : eval (Faucet.handle txHash) (request (.reserveClaim lockHash address now
      (now - limits.cooldownMs) (now - limits.reservationTimeoutMs) s.issued))
      { s with issued := s.issued + 1 } =
        (.ok (match s.claims.find? lockHash with
          | none => Upsert.inserted
          | some doc => .updated doc), marked s lockHash address now) := by
    change (Except.ok (State.reserveClaim _ _ _ _ _ _ _).1, (State.reserveClaim _ _ _ _ _ _ _).2) = _
    simp only [State.reserveClaim, marked]
    cases hfind : s.claims.find? lockHash with
    | none => rfl
    | some doc =>
        simp only [hfree doc hfind, if_true]
        rfl
  rw [reserve, eval_bind, huuid]
  simp only [eval_bind, hmark]
  cases s.claims.find? lockHash <;> rfl

/-- A reservation without a time is never retaken. -/
theorem eval_reserve_of_undated {doc : ClaimDocument} (hfind : s.claims.find? lockHash = some doc)
    (hstatus : doc.status = some .reserved) (hnone : doc.reservedAt = none) :
    (eval (Faucet.handle txHash) (reserve limits lockHash address now) s).1 = .error inProgress := by
  have huuid : eval (Faucet.handle txHash) (request .randomUUID) s =
      (.ok s.issued, { s with issued := s.issued + 1 }) := rfl
  have hmark : eval (Faucet.handle txHash) (request (.reserveClaim lockHash address now
      (now - limits.cooldownMs) (now - limits.reservationTimeoutMs) s.issued))
      { s with issued := s.issued + 1 } =
        (.ok .duplicateKey, { s with issued := s.issued + 1 }) := by
    change (Except.ok (State.reserveClaim _ _ _ _ _ _ _).1, (State.reserveClaim _ _ _ _ _ _ _).2) = _
    simp [State.reserveClaim, hfind, free, hstatus, hnone]
  have hread : eval (Faucet.handle txHash) (request (.findClaim lockHash))
      { s with issued := s.issued + 1 } = (.ok (some doc), { s with issued := s.issued + 1 }) := by
    change (Except.ok (s.claims.find? lockHash), _) = _
    rw [hfind]
    rfl
  rw [reserve, eval_bind, huuid]
  simp only [eval_bind, hmark, rejection, hread, Option.any_some, hstatus, decide_true, if_true,
    eval_pure, eval_throw]

/-- From some time on a dated claim is free. -/
theorem Dated.free_from (h : Dated s) (limits : ClaimLimits) (lockHash : String) :
    ∃ start : ℤ, ∀ now, start ≤ now → ∀ doc, s.claims.find? lockHash = some doc →
      free (now - limits.cooldownMs) (now - limits.reservationTimeoutMs) doc = true := by
  cases hfind : s.claims.find? lockHash with
  | none => exact ⟨0, fun now _ doc hdoc => by cases hdoc⟩
  | some doc =>
      by_cases hstatus : doc.status = some .reserved
      · obtain ⟨time, htime⟩ := Option.ne_none_iff_exists'.mp
          (h doc (Collection.find?_eq_some.mp hfind).1 hstatus)
        refine ⟨time + limits.reservationTimeoutMs, fun now hnow other hother => ?_⟩
        obtain rfl := Option.some_inj.mp hother
        simp only [free, hstatus, htime, Option.any_some]
        simp only [decide_true, ne_eq, not_true_eq_false, decide_false, Bool.false_and, Bool.true_and,
          Bool.false_or, decide_eq_true_eq]
        omega
      · refine ⟨doc.lastClaimedAt.getD 0 + limits.cooldownMs, fun now hnow other hother => ?_⟩
        obtain rfl := Option.some_inj.mp hother
        cases hlast : doc.lastClaimedAt with
        | none => simp [free, hstatus, hlast]
        | some time =>
            rw [hlast, Option.getD_some] at hnow
            simp only [free, hstatus, hlast, Option.any_some, ne_eq, not_false_eq_true, decide_true,
              Bool.true_and, Bool.or_eq_true, Bool.not_eq_true', decide_eq_false_iff_not]
            left
            omega

end

/-- What runs on the store: callers of it, at any times, and claims. -/
inductive Activity (config : Config) : Proc Unit → Prop
  | caller (lockHash address : String) (now : ℤ) (decision : Decision) :
      Activity config (useReservation config.limits lockHash address now decision)
  | claim (addressLike : String) :
      Activity config (do
        let _ ← claim config addressLike
        return ())

abbrev System := Pool Op (fun op => Answer (Res op)) State (Answer Unit)

abbrev Runs (config : Config) (permitted : State → Op → Prop) : System → System → Prop :=
  Relation.ReflTransGen (Step (fun p => ∃ x, Activity config x ∧ p = x.run) (Performs permitted))

theorem claims_of_later {s t : State} (h : Later s t) : t.claims = s.claims := by rw [h.same]

/-- However callers interleave and wherever they crash, every recipient can
claim again from some time on, as long as no reservation is undone that had
retaken an abandoned one. An undo against this condition leaves a reservation
without a time. -/
theorem recipients_not_locked_out (config : Config) :
    (∀ before after : System, Runs config UndoesToSent before after → Dated before.state →
      Dated after.state ∧ ∀ lockHash, ∃ start : ℤ, ∀ now, start ≤ now → ∀ txHash address,
        (eval (handle txHash) (reserve config.limits lockHash address now) after.state).1 ≠
            .error inProgress ∧
          (BudgetFree config.limits after.state (dayKey now) → ∃ reservation,
            (eval (handle txHash) (reserve config.limits lockHash address now) after.state).1 =
              .ok reservation)) ∧
    (∀ txHash s op, ¬UndoesToSent s op → ¬Dated (handle txHash op s).2) := by
  refine ⟨?_, fun txHash s op => not_dated_of_undone⟩
  intro before after hrun hbefore
  have hafter : Dated after.state := by
    refine run_keeps (P := Dated) ?_ hrun hbefore
    rintro op s answer t ⟨present, hlater, hop, -, ⟨txHash, hhandle⟩ | ⟨rfl, -⟩⟩ hs
    · have hpresent := hs.of_same (claims_of_later hlater)
      have hnext : (handle txHash op present).2 = t := congrArg Prod.snd hhandle
      rw [← hnext]
      exact hpresent.handle hop
    · exact hs.of_same (claims_of_later hlater)
  refine ⟨hafter, fun lockHash => ?_⟩
  obtain ⟨start, hstart⟩ := hafter.free_from config.limits lockHash
  refine ⟨start, fun now hnow txHash address => ?_⟩
  rw [eval_reserve_of_free (hstart now hnow), eval_takeShare]
  constructor
  · intro h
    cases htaken : (eval (handle txHash) (takeBudget config.limits (dayKey now))
        (marked after.state lockHash address now)).1 with
    | ok u =>
        change Except.map _ (eval (handle txHash) (takeBudget config.limits (dayKey now)) _).1 = _ at h
        rw [htaken] at h
        cases h
    | error error =>
        change Except.map _ (eval (handle txHash) (takeBudget config.limits (dayKey now)) _).1 = _ at h
        rw [htaken] at h
        exact eval_takeBudget_ne_inProgress (htaken.trans (congrArg _ (Except.error.inj h)))
  · intro hfree
    have hmarked : BudgetFree config.limits (marked after.state lockHash address now) (dayKey now) :=
      hfree
    refine ⟨reservationOf lockHash after.state.issued now (after.state.claims.find? lockHash), ?_⟩
    change Except.map _ (eval (handle txHash) (takeBudget config.limits (dayKey now)) _).1 = _
    rw [eval_takeBudget_of_free hmarked]
    rfl

def anyCall : State → Op → Prop := fun _ _ => True

/-- Calls that wait for nobody. -/
def immediate : Op → Prop
  | .enter _ => False
  | _ => True

theorem performs_handle {permitted : State → Op → Prop} {op : Op} {s : State} (txHash : Hex)
    (hop : immediate op) (hpermitted : permitted s op) :
    Performs permitted op s (handle txHash op s).1 (handle txHash op s).2 := by
  refine ⟨s, .refl s, hpermitted, ?_, Or.inl ⟨txHash, rfl⟩⟩
  cases op <;> trivial

theorem only_restoreClaim (reservation : Reservation) : Only immediate (restoreClaim reservation) := by
  unfold restoreClaim
  split_ifs <;> exact ⟨trivial, fun _ => trivial⟩

theorem only_reserve (limits : ClaimLimits) (lockHash address : String) (now : ℤ) :
    Only immediate (reserve limits lockHash address now) := by
  have hshare : ∀ reservation, Only immediate (takeShare limits reservation) := by
    intro reservation
    refine only_bind (only_tryCatch ?_ fun error => only_bind (only_restoreClaim _) fun _ => trivial)
      fun _ => trivial
    refine only_bind trivial fun room => only_bind trivial fun drip => ?_
    refine only_bind ⟨trivial, fun _ => trivial⟩ fun taken => ?_
    cases taken <;> trivial
  refine only_bind ⟨trivial, fun _ => trivial⟩ fun id => only_bind ⟨trivial, fun _ => trivial⟩
    fun upsert => ?_
  cases upsert with
  | inserted => exact hshare _
  | updated previous => exact hshare _
  | duplicateKey =>
      refine only_bind (only_bind ⟨trivial, fun _ => trivial⟩ fun existing => ?_) fun _ => trivial
      dsimp only
      split_ifs <;> trivial

theorem only_release (limits : ClaimLimits) (reservation : Reservation) :
    Only immediate (release limits reservation) :=
  only_bind (only_restoreClaim _) fun _ => only_bind trivial fun _ => ⟨trivial, fun _ => trivial⟩

def exampleLimits : ClaimLimits := ⟨86400000, 300000, 100, 1000, 100000⟩

def exampleConfig : Config := ⟨exampleLimits, some⟩

theorem decimal_of_fits {n : ℤ} (h : Fits n) : decimal n = .ok (.finite n h) := by
  rw [decimal, Decimal128.ofInt, dif_pos h]
  rfl

theorem exampleDrip_fits : Fits exampleLimits.dripAmount := fits_of_lt (n := 100) (by decide)

theorem exampleRoom_fits : Fits (exampleLimits.dailyMaxTokens - exampleLimits.dripAmount) :=
  fits_of_lt (n := 99900) (by decide)

/-- The first of a day's reservations is granted. -/
theorem eval_reserve_first {s : State} {lockHash address : String} {now : ℤ}
    (hfree : ∀ doc, s.claims.find? lockHash = some doc →
      free (now - exampleLimits.cooldownMs) (now - exampleLimits.reservationTimeoutMs) doc = true)
    (hday : s.budgets.find? (dayKey now) = none) :
    eval (handle "0x") (reserve exampleLimits lockHash address now) s =
      (.ok (reservationOf lockHash s.issued now (s.claims.find? lockHash)),
        { marked s lockHash address now with
          budgets := s.budgets.put ⟨dayKey now, 1, .finite _ exampleDrip_fits⟩ }) := by
  have htake : (marked s lockHash address now).takeBudget (dayKey now) exampleLimits.dailyMaxClaims
      (.finite _ exampleRoom_fits) (.finite _ exampleDrip_fits) =
        (.inserted, { marked s lockHash address now with
          budgets := s.budgets.put ⟨dayKey now, 1, .finite _ exampleDrip_fits⟩ }) := by
    have hfind : (marked s lockHash address now).budgets.find? (dayKey now) = none := hday
    simp only [State.takeBudget, hfind]
    rfl
  rw [eval_reserve_of_free hfree]
  refine eval_takeShare_of_taken ?_
  change eval (handle "0x") (takeBudget exampleLimits (dayKey now)) _ = _
  rw [eval_takeBudget (decimal_of_fits exampleRoom_fits) (decimal_of_fits exampleDrip_fits), htake]

/-- A claim that was reserved and then left behind. -/
def exampleAbandoned : State :=
  { marked State.empty "0x01" "ckt1" 0 with
    budgets := State.empty.budgets.put ⟨0, 1, .finite _ exampleDrip_fits⟩ }

def exampleClaim : ClaimDocument := newClaim "0x01" "ckt1" 0 0

theorem exampleAbandoned_reserved :
    eval (handle "0x") (reserve exampleLimits "0x01" "ckt1" 0) State.empty =
      (.ok (reservationOf "0x01" 0 0 none), exampleAbandoned) :=
  eval_reserve_first (fun doc hdoc => by cases hdoc) rfl

theorem exampleAbandoned_find : exampleAbandoned.claims.find? "0x01" = some exampleClaim :=
  Collection.find?_put.trans (if_pos rfl)

/-- A day later it is retaken. -/
def exampleRetaken : State :=
  { marked exampleAbandoned "0x01" "ckt1" 86400000 with
    budgets := exampleAbandoned.budgets.put ⟨1, 1, .finite _ exampleDrip_fits⟩ }

def exampleRetakenClaim : ClaimDocument := reservedClaim "ckt1" 86400000 1 exampleClaim

theorem exampleRetaken_reserved :
    eval (handle "0x") (reserve exampleLimits "0x01" "ckt1" 86400000) exampleAbandoned =
      (.ok (reservationOf "0x01" 1 86400000 (some exampleClaim)), exampleRetaken) := by
  have hday : exampleAbandoned.budgets.find? (dayKey 86400000) = none :=
    Collection.find?_put.trans (if_neg (by decide))
  rw [eval_reserve_first (fun doc hdoc => ?_) hday]
  · rw [exampleAbandoned_find]
    rfl
  · obtain rfl := Option.some_inj.mp (exampleAbandoned_find.symm.trans hdoc)
    decide

theorem exampleRetaken_mine : exampleRetaken.mine "0x01" 1 = some exampleRetakenClaim := by
  have hfind : exampleRetaken.claims.find? "0x01" = some exampleRetakenClaim := by
    refine Collection.find?_put.trans ?_
    rw [exampleAbandoned_find]
    exact if_pos rfl
  rw [State.mine, hfind]
  rfl

theorem exampleDebit_fits : Fits (-exampleLimits.dripAmount) := fits_neg.mpr exampleDrip_fits

theorem claims_returnBudget (s : State) (day : ℤ) (drip : Decimal128) :
    (s.returnBudget day drip).claims = s.claims := by
  simp only [State.returnBudget]
  cases s.budgets.find? day <;> rfl

theorem exampleRetaken_released : ∃ t, eval (handle "0x")
    (release exampleLimits (reservationOf "0x01" 1 86400000 (some exampleClaim))) exampleRetaken =
      (.ok (), t) ∧ t.claims.find? "0x01" = some (restoredClaim .reserved exampleRetakenClaim) := by
  have hrestore : eval (handle "0x")
      (restoreClaim (reservationOf "0x01" 1 86400000 (some exampleClaim))) exampleRetaken =
        (.ok (), exampleRetaken.updateMine "0x01" 1 (restoredClaim .reserved)) := rfl
  refine ⟨(exampleRetaken.updateMine "0x01" 1 (restoredClaim .reserved)).returnBudget 1
    (.finite _ exampleDebit_fits), ?_, ?_⟩
  · rw [release, eval_bind, hrestore]
    simp only [eval_bind, eval_require, decimal_of_fits exampleDebit_fits]
    rfl
  · rw [claims_returnBudget, State.updateMine, exampleRetaken_mine]
    exact Collection.find?_put.trans (if_pos rfl)

/-- Calls that undo no reservation of an abandoned one. -/
def harmless (op : Op) : Prop := immediate op ∧ ∀ s, UndoesToSent s op

theorem performs_harmless {op : Op} (hop : harmless op) (s : State) :
    Performs UndoesToSent op s (handle "0x" op s).1 (handle "0x" op s).2 :=
  performs_handle "0x" hop.1 (hop.2 s)

section
variable {limits : ClaimLimits} {lockHash address : String} {id : ℕ} {now : ℤ} {s : State}

/-- What a new claim's reservation undoes is deleted. -/
theorem harmless_restoreClaim : Only harmless (restoreClaim (reservationOf lockHash id now none)) :=
  ⟨⟨trivial, fun _ => trivial⟩, fun _ => trivial⟩

theorem harmless_takeShare : Only harmless (takeShare limits (reservationOf lockHash id now none)) := by
  refine only_bind (only_tryCatch ?_ fun error => only_bind harmless_restoreClaim fun _ => trivial)
    fun _ => trivial
  refine only_bind trivial fun room => only_bind trivial fun drip => ?_
  refine only_bind ⟨⟨trivial, fun _ => trivial⟩, fun _ => trivial⟩ fun taken => ?_
  cases taken <;> trivial

theorem harmless_release : Only harmless (release limits (reservationOf lockHash id now none)) :=
  only_bind harmless_restoreClaim fun _ => only_bind trivial fun _ =>
    ⟨⟨trivial, fun _ => trivial⟩, fun _ => trivial⟩

theorem claims_release_new (s : State) :
    (eval (handle "0x") (release exampleLimits (reservationOf lockHash id now none)) s).2.claims =
      s.claims.deleteWhere fun doc => doc.id = lockHash && doc.reservationId = some id := by
  have hdelete : eval (handle "0x") (restoreClaim (reservationOf lockHash id now none)) s =
      (.ok (), { s with claims := s.claims.deleteWhere fun doc =>
        doc.id = lockHash && doc.reservationId = some id }) := rfl
  rw [release, eval_bind, hdelete]
  simp only [eval_bind, eval_require, decimal_of_fits exampleDebit_fits]
  exact claims_returnBudget _ _ _

/-- The first of a day's reservations is made for a new recipient. -/
theorem calls_reserve_new (hnone : s.claims.find? lockHash = none)
    (hday : s.budgets.find? (dayKey now) = none) :
    Calls (Performs UndoesToSent) (s, (reserve exampleLimits lockHash address now).run)
      ({ marked s lockHash address now with
        budgets := s.budgets.put ⟨dayKey now, 1, .finite _ exampleDrip_fits⟩ },
        .pure (.ok (reservationOf lockHash s.issued now none))) := by
  have hfree : ∀ doc, s.claims.find? lockHash = some doc → free (now - exampleLimits.cooldownMs)
      (now - exampleLimits.reservationTimeoutMs) doc = true := by
    intro doc hdoc
    rw [hnone] at hdoc
    cases hdoc
  have hshare := (eval_reserve_of_free hfree).symm.trans
      (@eval_reserve_first s lockHash address now hfree hday)
  rw [hnone] at hshare
  obtain ⟨next, later, hnext, hlater, hrest⟩ : ∃ next later,
      (reserve exampleLimits lockHash address now).run = .call .randomUUID next ∧
      next (.ok s.issued) = .call (.reserveClaim lockHash address now (now - exampleLimits.cooldownMs)
        (now - exampleLimits.reservationTimeoutMs) s.issued) later ∧
      later (.ok .inserted) = (takeShare exampleLimits (reservationOf lockHash s.issued now none)).run :=
    ⟨_, _, rfl, rfl, rfl⟩
  have huuid : Call (Performs UndoesToSent) (s, .call .randomUUID next)
      ({ s with issued := s.issued + 1 }, next (.ok s.issued)) :=
    .perform _ _ _ _ _ (@performs_harmless .randomUUID ⟨trivial, fun _ => trivial⟩ s)
  have hmark : handle "0x" (.reserveClaim lockHash address now (now - exampleLimits.cooldownMs)
      (now - exampleLimits.reservationTimeoutMs) s.issued) { s with issued := s.issued + 1 } =
        (.ok .inserted, marked s lockHash address now) := by
    simp only [handle, State.reserveClaim, hnone, marked, markedClaim]
  have hperforms := @performs_harmless (.reserveClaim lockHash address now (now - exampleLimits.cooldownMs)
    (now - exampleLimits.reservationTimeoutMs) s.issued) ⟨trivial, fun _ => trivial⟩
      { s with issued := s.issued + 1 }
  rw [hmark] at hperforms
  rw [hlater] at huuid
  have hreserve : Call (Performs UndoesToSent) ({ s with issued := s.issued + 1 }, .call _ later)
      (marked s lockHash address now, later (.ok .inserted)) := .perform _ _ _ _ _ hperforms
  rw [hrest] at hreserve
  rw [hnext]
  have hshared := calls_of_eval (fun _ hop => performs_harmless hop) harmless_takeShare hshare
  exact (hshared.head hreserve).head huuid

end

/-- A caller crashes with a reservation, and the next day another one gives its own
back. Everyone can claim from some time on. -/
theorem recipients_not_locked_out_example : ∃ after : System,
    Runs exampleConfig UndoesToSent ⟨State.empty, []⟩ after ∧
    exampleClaim ∈ after.state.claims.docs ∧
    ∀ lockHash, ∃ start : ℤ, ∀ now, start ≤ now → BudgetFree exampleLimits after.state (dayKey now) →
      ∃ reservation, (eval (handle "0x") (reserve exampleLimits lockHash "ckt1" now) after.state).1 =
        .ok reservation := by
  have hfirst : Calls (Performs UndoesToSent)
      (State.empty, (useReservation exampleLimits "0x01" "ckt1" 0 .release).run)
      (exampleAbandoned, (release exampleLimits (reservationOf "0x01" 0 0 none)).run) :=
    calls_bind (calls_reserve_new rfl rfl) _
  have hcrash : Runs exampleConfig UndoesToSent ⟨State.empty, []⟩ ⟨exampleAbandoned, []⟩ :=
    ((run_calls hfirst [] []).head (.start State.empty [] _ ⟨_, .caller _ _ _ _, rfl⟩)).tail
      (.stop exampleAbandoned [] [] _)
  have hday : exampleAbandoned.budgets.find? (dayKey 86400000) = none :=
    Collection.find?_put.trans (if_neg (by decide))
  have hnone : exampleAbandoned.claims.find? "0x02" = none :=
    Collection.find?_put.trans (if_neg (by decide))
  have hsecond : Calls (Performs UndoesToSent)
      (exampleAbandoned, (useReservation exampleLimits "0x02" "ckt2" 86400000 .release).run) _ :=
    (calls_bind (calls_reserve_new hnone hday) _).trans
      (calls_eval (fun _ hop => performs_harmless hop) harmless_release _)
  have hrun := hcrash.trans ((run_calls hsecond [] []).head
    (.start exampleAbandoned [] _ ⟨_, .caller _ _ _ _, rfl⟩))
  obtain ⟨-, htime⟩ := (recipients_not_locked_out exampleConfig).1 _ _ hrun dated_empty
  refine ⟨_, hrun, ?_, fun lockHash => ?_⟩
  · have hreleased := @claims_release_new "0x02" 1 86400000
      { marked exampleAbandoned "0x02" "ckt2" 86400000 with
        budgets := exampleAbandoned.budgets.put ⟨1, 1, .finite _ exampleDrip_fits⟩ }
    have hkept : exampleClaim ∈ (marked exampleAbandoned "0x02" "ckt2" 86400000).claims.docs :=
      Collection.mem_docs_put.mpr (Or.inr ⟨(Collection.find?_eq_some.mp exampleAbandoned_find).1, by decide⟩)
    have hmem : exampleClaim ∈ ((marked exampleAbandoned "0x02" "ckt2" 86400000).claims.deleteWhere
        fun doc => doc.id = "0x02" && doc.reservationId = some 1).docs :=
      Collection.mem_docs_deleteWhere.mpr ⟨hkept, by decide⟩
    exact hreleased.symm ▸ hmem
  · obtain ⟨start, hstart⟩ := htime lockHash
    exact ⟨start, fun now hnow => (hstart now hnow "0x" "ckt1").2⟩

/-- A caller crashes with a reservation, the next one retakes it and gives it
back: then the claim is reserved for ever. -/
theorem retaken_release_locks_out : ∃ after : System,
    Runs exampleConfig anyCall ⟨State.empty, []⟩ after ∧
    (∃ doc ∈ after.state.claims.docs, doc.status = some .reserved ∧ doc.reservedAt = none) ∧
    ∀ txHash address now, (eval (handle txHash) (reserve exampleLimits "0x01" address now)
      after.state).1 = .error inProgress := by
  have hhandle : ∀ op, immediate op → ∀ s, Performs anyCall op s (handle "0x" op s).1
      (handle "0x" op s).2 := fun op hop s => performs_handle "0x" hop trivial
  obtain ⟨released, hreleased, hfind⟩ := exampleRetaken_released
  have hfirst : Calls (Performs anyCall)
      (State.empty, (useReservation exampleLimits "0x01" "ckt1" 0 .release).run)
      (exampleAbandoned, (release exampleLimits (reservationOf "0x01" 0 0 none)).run) :=
    calls_bind_ok hhandle (only_reserve _ _ _ _) exampleAbandoned_reserved _
  have hsecond : Calls (Performs anyCall)
      (exampleAbandoned, (useReservation exampleLimits "0x01" "ckt1" 86400000 .release).run)
      (released, .pure (.ok ())) :=
    (calls_bind_ok hhandle (only_reserve _ _ _ _) exampleRetaken_reserved _).trans
      (calls_of_eval hhandle (only_release _ _) hreleased)
  have hcrash : Runs exampleConfig anyCall ⟨State.empty, []⟩ ⟨exampleAbandoned, []⟩ :=
    ((run_calls hfirst [] []).head (.start State.empty [] _ ⟨_, .caller _ _ _ _, rfl⟩)).tail
      (.stop exampleAbandoned [] [] _)
  refine ⟨_, hcrash.trans ((run_calls hsecond [] []).head
    (.start exampleAbandoned [] _ ⟨_, .caller _ _ _ _, rfl⟩)), ?_, ?_⟩
  · exact ⟨_, (Collection.find?_eq_some.mp hfind).1, rfl, rfl⟩
  · exact fun txHash address now => eval_reserve_of_undated hfind rfl rfl

end CkbDex.FaucetLockouts
