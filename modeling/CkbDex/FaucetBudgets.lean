import CkbDex.FaucetLockouts

/-!
# The daily budget

Every session on the claim store notes how far its reservation is: refused,
marked, holding a share of a day's budget, or given back. The budget document
of a day counts the notes that hold a share of it, and its tokens are that many
drips as long as every such product is an exact decimal.
-/
namespace CkbDex.FaucetBudgets
open Checked Collections Decimals Documents Programs Faucet FaucetLockouts Sessions
open Text (utf16Length)

inductive Note where
  | idle
  /-- The recipient's claim has not cooled down, or is in progress. -/
  | refused
  | marked
  | holds (day : ℤ)
  | returned (day : ℤ)
  deriving DecidableEq

def record : Note → (op : Op) → Answer (Res op) → Note
  | .idle, .reserveClaim .., .ok .duplicateKey => .refused
  | .idle, .reserveClaim .., .ok _ => .marked
  | .marked, .takeBudget .., .ok .duplicateKey => .marked
  | .marked, .takeBudget day .., .ok _ => .holds day
  | .holds day, .returnBudget .., .ok _ => .returned day
  | note, _, _ => note

/-- Nothing has been written for the session. -/
def Quiet (note : Note) : Prop := note = .idle ∨ note = .refused

def allowed (limits : ClaimLimits) (note : Note) : Op → Prop
  | .reserveClaim .. => note = .idle
  | .takeBudget _ dailyMaxClaims room drip => note = .marked ∧ dailyMaxClaims = limits.dailyMaxClaims ∧
      decimal (limits.dailyMaxTokens - limits.dripAmount) = .ok room ∧
      decimal limits.dripAmount = .ok drip
  | .returnBudget day drip => note = .holds day ∧ decimal (-limits.dripAmount) = .ok drip
  | .commitClaim .. | .deleteClaim .. | .restoreClaim .. => ¬Quiet note
  | _ => True

/-- Calls that leave every note as it is. -/
def noteless : Op → Prop
  | .reserveClaim .. | .takeBudget .. | .returnBudget .. => False
  | _ => True

section
variable {limits : ClaimLimits} {note : Note} {now day : ℤ} {lockHash address : String}

theorem record_of_noteless {op : Op} (h : noteless op) (answer : Answer (Res op)) :
    record note op answer = note := by
  cases op <;> first | exact h.elim | (cases note <;> rfl)

theorem allowed_of_noteless {op : Op} (h : noteless op) (hnote : ¬Quiet note) :
    allowed limits note op := by
  cases op <;> first | exact h.elim | exact hnote | trivial

theorem follows_noteless {α : Type} {x : Proc α} (h : Only noteless x) (hnote : ¬Quiet note) :
    Follows record (allowed limits) (fun note' _ => note' = note) note x :=
  follows_of_only h fun _ hop => ⟨allowed_of_noteless hop hnote, record_of_noteless hop⟩

theorem noteless_restoreClaim (reservation : Reservation) :
    Only noteless (restoreClaim reservation) := by
  unfold restoreClaim
  split_ifs <;> exact ⟨trivial, fun _ => trivial⟩

theorem noteless_commit (reservation : Reservation) (txHash : Hex) (now : ℤ) :
    Only noteless (commit reservation txHash now) := ⟨trivial, fun _ => trivial⟩

theorem noteless_recordSent (reservation : Reservation) (txHash : Hex) (attempts : ℕ) :
    Only noteless (recordSent reservation txHash attempts) := by
  induction attempts with
  | zero => trivial
  | succ attempts ih =>
      exact only_tryCatch (only_bind ⟨trivial, fun _ => trivial⟩ fun now =>
        noteless_commit reservation txHash now) fun _ => ih

theorem noteless_send (lockHash : String) (id : ℕ) :
    Only noteless (withLock (request (.send lockHash id))) := by
  refine only_bind ⟨trivial, fun _ => trivial⟩ fun ticket => only_bind ⟨trivial, fun _ => trivial⟩
    fun _ => only_bind ?_ fun result => only_bind ⟨trivial, fun _ => trivial⟩ fun _ => trivial
  exact only_tryCatch (only_bind ⟨trivial, fun _ => trivial⟩ fun _ => trivial) fun _ => trivial

/-- The budget is taken for a marked claim, or its note stays. -/
theorem follows_takeBudget :
    Follows record (allowed limits)
      (fun note r => note = match r with
        | .ok _ => .holds day
        | .error _ => .marked) .marked (takeBudget limits day) := by
  rw [takeBudget, follows_bind, follows_require]
  cases hroom : decimal (limits.dailyMaxTokens - limits.dripAmount) with
  | error error => rfl
  | ok room =>
      simp only [continues, follows_bind, follows_require]
      cases hdrip : decimal limits.dripAmount with
      | error error => trivial
      | ok drip =>
          refine follows_perform.mpr ⟨⟨rfl, rfl, hroom, hdrip⟩, fun answer => ?_⟩
          rcases answer with error | _ | before | _ <;> rfl

/-- A marked claim ends with its share of its day's budget, or fails. -/
theorem follows_takeShare (reservation : Reservation) :
    Follows record (allowed limits)
      (fun note r => r = .ok reservation ∧ note = .holds reservation.day ∨ ∃ error, r = .error error)
      .marked (takeShare limits reservation) := by
  rw [takeShare, follows_bind, follows_tryCatch]
  refine follows_takeBudget.mono fun note r hnote => ?_
  cases r with
  | ok u => exact Or.inl ⟨rfl, hnote⟩
  | error error =>
      obtain rfl : note = .marked := hnote
      simp only [follows_bind]
      refine (follows_noteless (noteless_restoreClaim reservation) (by simp [Quiet])).mono
        fun note r _ => ?_
      cases r with
      | ok u => exact Or.inr ⟨_, rfl⟩
      | error error => exact Or.inr ⟨_, rfl⟩

theorem follows_rejection :
    Follows record (allowed limits) (fun _ _ => True) .refused (rejection limits lockHash now) := by
  rw [rejection, follows_bind]
  refine follows_perform.mpr ⟨trivial, fun answer => ?_⟩
  rcases answer with error | existing
  · trivial
  · simp only [continues]
    split_ifs <;> trivial

/-- A reservation that is granted holds a share of the budget of its day. -/
theorem follows_reserve :
    Follows record (allowed limits)
      (fun note r => (∃ reservation, r = .ok reservation ∧ note = .holds reservation.day ∧
        reservation.day = dayKey now) ∨ ∃ error, r = .error error)
      .idle (reserve limits lockHash address now) := by
  have hshare : ∀ reservation : Reservation, reservation.day = dayKey now →
      Follows record (allowed limits)
        (fun note r => (∃ reservation, r = .ok reservation ∧ note = .holds reservation.day ∧
          reservation.day = dayKey now) ∨ ∃ error, r = .error error)
        .marked (takeShare limits reservation) := by
    intro reservation hday
    refine (follows_takeShare reservation).mono fun note r hr => ?_
    rcases hr with ⟨rfl, hnote⟩ | herror
    · exact Or.inl ⟨reservation, rfl, hnote, hday⟩
    · exact Or.inr herror
  rw [reserve, follows_bind]
  refine follows_perform.mpr ⟨trivial, fun answer => ?_⟩
  rcases answer with error | id
  · exact Or.inr ⟨error, rfl⟩
  · simp only [continues, follows_bind]
    refine follows_perform.mpr ⟨rfl, fun answer => ?_⟩
    rcases answer with error | _ | previous | _
    · exact Or.inr ⟨error, rfl⟩
    · exact hshare _ rfl
    · exact hshare _ rfl
    · refine follows_bind.mpr (follows_rejection.mono fun note r _ => ?_)
      rcases r with error | error <;> exact Or.inr ⟨error, rfl⟩

theorem follows_release {reservation : Reservation} :
    Follows record (allowed limits) (fun _ _ => True) (.holds reservation.day)
      (release limits reservation) := by
  rw [release, follows_bind]
  refine (follows_noteless (noteless_restoreClaim reservation) (by simp [Quiet])).mono
    fun note r hnote => ?_
  subst hnote
  cases r with
  | error error => trivial
  | ok u =>
      simp only [continues, follows_bind, follows_require]
      cases hdrip : decimal (-limits.dripAmount) with
      | error error => trivial
      | ok drip => exact ⟨⟨rfl, hdrip⟩, fun _ => trivial⟩

/-- A committed reservation keeps its share. -/
theorem follows_commitReservation {txHash : Hex} {later : ℤ} :
    Follows record (allowed limits) (fun note r => r = .ok () → note = .holds (dayKey now)) .idle
      (useReservation limits lockHash address now (.commit txHash later)) := by
  rw [useReservation, follows_bind]
  refine follows_reserve.mono fun note r hr => ?_
  rcases hr with ⟨reservation, rfl, rfl, hday⟩ | ⟨error, rfl⟩
  · refine (follows_noteless (noteless_commit reservation txHash later) (by simp [Quiet])).mono
      fun note _ hnote _ => ?_
    rw [hnote, hday]
  · exact fun h => by cases h

theorem follows_useReservation (decision : Decision) :
    Follows record (allowed limits) (fun _ _ => True) .idle
      (useReservation limits lockHash address now decision) := by
  rw [useReservation, follows_bind]
  refine follows_reserve.mono fun note r hr => ?_
  rcases hr with ⟨reservation, rfl, rfl, -⟩ | ⟨error, rfl⟩
  · cases decision with
    | commit txHash later =>
        exact (follows_noteless (noteless_commit reservation txHash later) (by simp [Quiet])).mono
          fun _ _ _ => trivial
    | release => exact follows_release
  · trivial

theorem follows_claim (config : Config) (addressLike : String) :
    Follows record (allowed config.limits) (fun _ _ => True) .idle (claim config addressLike) := by
  rw [claim, follows_bind, follows_require]
  cases throwIf (maxAddressLength < utf16Length addressLike) (appError 400 "Invalid address") with
  | error error => trivial
  | ok u =>
  simp only [continues, follows_bind, follows_require]
  cases okOr (config.recipient addressLike) (appError 400 "Invalid address for this network") with
  | error error => trivial
  | ok lockHash =>
  refine follows_perform.mpr ⟨trivial, fun answer => ?_⟩
  rcases answer with error | now
  · trivial
  refine follows_bind.mpr (follows_reserve.mono fun note r hr => ?_)
  rcases hr with ⟨reservation, rfl, rfl, -⟩ | ⟨error, rfl⟩
  swap
  · trivial
  refine follows_bind.mpr (follows_tryCatch.mpr ?_)
  refine (follows_noteless (noteless_send _ _) (by simp [Quiet])).mono fun note r hnote => ?_
  subst hnote
  cases r with
  | ok txHash =>
      refine follows_bind.mpr ?_
      refine (follows_noteless (noteless_recordSent _ _ _) (by simp [Quiet])).mono fun note r _ => ?_
      cases r <;> trivial
  | error error =>
      refine follows_bind.mpr (follows_tryCatch.mpr (follows_release.mono fun note r _ => ?_))
      cases r <;> trivial

end

/-- A day's budget document counts the shares that are held of it. -/
def Booked (limits : ClaimLimits) (held : ℕ) : Option BudgetDocument → Prop
  | none => held = 0
  | some doc => doc.claims = held ∧ doc.claims ≤ limits.dailyMaxClaims ∧
      held * limits.dripAmount ≤ limits.dailyMaxTokens ∧
      ∃ fits, doc.tokens = .finite (held * limits.dripAmount) fits

/-- Once the drip and the room beside it are exact decimals, so is every number
of drips within the budget. -/
def Exact (limits : ClaimLimits) : Prop :=
  Fits limits.dripAmount → Fits (limits.dailyMaxTokens - limits.dripAmount) →
    ∀ shares : ℕ, shares ≤ limits.dailyMaxClaims → shares * limits.dripAmount ≤ limits.dailyMaxTokens →
      Fits (shares * limits.dripAmount)

section
variable {limits : ClaimLimits} {s t : State} {note : Note} {op : Op} {txHash : Hex} {day : ℤ}
  {room drip : Decimal128} {held : ℕ}

theorem decimal_eq_ok {value : ℤ} {d : Decimal128} (h : decimal value = .ok d) :
    ∃ fits, d = .finite value fits := by
  unfold decimal at h
  cases hvalue : Decimal128.ofInt value with
  | none =>
      rw [hvalue] at h
      cases h
  | some d' =>
      rw [hvalue] at h
      obtain rfl := Except.ok.inj h
      exact Decimal128.ofInt_eq_some.mp hvalue

/-- A share that is taken is booked, and no other day changes. -/
theorem booked_takeBudget (hexact : Exact limits) (hclaims : 1 ≤ limits.dailyMaxClaims)
    (htokens : limits.dripAmount ≤ limits.dailyMaxTokens)
    (hroom : decimal (limits.dailyMaxTokens - limits.dripAmount) = .ok room)
    (hdrip : decimal limits.dripAmount = .ok drip) (h : Booked limits held (s.budgets.find? day)) :
    s.takeBudget day limits.dailyMaxClaims room drip = (.duplicateKey, s) ∨
      ∃ doc, (s.takeBudget day limits.dailyMaxClaims room drip).1 ≠ .duplicateKey ∧
        (s.takeBudget day limits.dailyMaxClaims room drip).2 =
          { s with budgets := s.budgets.put doc } ∧
        doc.day = day ∧ Booked limits (held + 1) (some doc) := by
  obtain ⟨hfitsRoom, rfl⟩ := decimal_eq_ok hroom
  obtain ⟨hfits, rfl⟩ := decimal_eq_ok hdrip
  unfold State.takeBudget
  cases hfind : s.budgets.find? day with
  | none =>
      rw [hfind] at h
      obtain rfl : held = 0 := h
      have hone : ((0 + 1 : ℕ) : ℤ) * limits.dripAmount = limits.dripAmount := by simp
      refine Or.inr ⟨⟨day, 1, .finite _ hfits⟩, by simp, rfl, rfl, rfl, hclaims, ?_, ?_⟩
      · rwa [hone]
      · rw [hone]
        exact ⟨hfits, rfl⟩
  | some doc =>
      rw [hfind] at h
      obtain ⟨hheld, -, -, hfitsHeld, hstored⟩ := h
      by_cases hfree : (doc.claims < limits.dailyMaxClaims &&
          doc.tokens.atMost (.finite _ hfitsRoom)) = true
      · simp only [hfree, if_true]
        simp only [hstored, Decimal128.atMost, Bool.and_eq_true, decide_eq_true_eq] at hfree
        obtain ⟨hlt, hle⟩ := hfree
        have hsum : held * limits.dripAmount + limits.dripAmount = (held + 1 : ℕ) * limits.dripAmount := by
          push_cast
          ring
        have hmax : ((held + 1 : ℕ) : ℤ) ≤ limits.dailyMaxClaims := by
          push_cast
          omega
        have hcap : (held + 1 : ℕ) * limits.dripAmount ≤ limits.dailyMaxTokens := by
          rw [← hsum]
          omega
        have hnext := hexact hfits hfitsRoom (held + 1) hmax hcap
        have hday : doc.day = day := Collection.key_of_find? hfind
        refine Or.inr ⟨_, by simp, rfl, hday, ?_, ?_, hcap, hnext, ?_⟩
        · simp [hheld]
        · exact hlt
        · rw [hstored, Decimal128.add, hsum, Decimal128.round_of_fits hnext]
      · left
        simp only [hfree, Bool.false_eq_true, if_false]

/-- A share that is given back is taken off the books. -/
theorem booked_returnBudget (hexact : Exact limits) (hroom : Fits (limits.dailyMaxTokens - limits.dripAmount))
    (hdrip : decimal (-limits.dripAmount) = .ok drip) (hpos : 0 < limits.dripAmount)
    (h : Booked limits (held + 1) (s.budgets.find? day)) :
    ∃ doc, s.returnBudget day drip = { s with budgets := s.budgets.put doc } ∧ doc.day = day ∧
      Booked limits held (some doc) := by
  obtain ⟨hneg, rfl⟩ := decimal_eq_ok hdrip
  unfold State.returnBudget
  cases hfind : s.budgets.find? day with
  | none =>
      rw [hfind] at h
      cases h
  | some doc =>
      rw [hfind] at h
      obtain ⟨hheld, hmax, hcap, hfits, hstored⟩ := h
      have hless : (held + 1 : ℕ) * limits.dripAmount + -limits.dripAmount = held * limits.dripAmount := by
        push_cast
        ring
      have hcap' : held * limits.dripAmount ≤ limits.dailyMaxTokens := by
        rw [← hless]
        omega
      push_cast at hheld
      have hback := hexact (fits_neg.mp hneg) hroom held (by omega) hcap'
      have hday : doc.day = day := Collection.key_of_find? hfind
      refine ⟨_, rfl, hday, ?_, ?_, hcap', hback, ?_⟩
      · simp only [hheld]
        omega
      · simp only
        omega
      · rw [hstored, Decimal128.add, hless, Decimal128.round_of_fits hback]

end

/-- The budgets count the notes, whose shares were taken with an exact room. -/
structure Kept (limits : ClaimLimits) (s : State) (notes : List Note) : Prop where
  booked : ∀ day, Booked limits (notes.count (.holds day)) (s.budgets.find? day)
  room : ∀ day, .holds day ∈ notes → Fits (limits.dailyMaxTokens - limits.dripAmount)

section
variable {limits : ClaimLimits} {s t : State} {note note' : Note} {op : Op} {txHash : Hex} {day : ℤ}
  {before after : List Note}

/-- Only the budget calls change what a session holds. -/
theorem holds_record (hop : ∀ day max room drip, op ≠ .takeBudget day max room drip)
    (hop' : ∀ day drip, op ≠ .returnBudget day drip) (answer : Answer (Res op)) :
    record note op answer = .holds day ↔ note = .holds day := by
  cases op with
  | takeBudget day max room drip => exact (hop day max room drip rfl).elim
  | returnBudget day drip => exact (hop' day drip rfl).elim
  | reserveClaim lockHash address now cutoff stale id =>
      rcases note with _ | _ | _ | _ | _ <;> rcases answer with error | _ | previous | _ <;>
        simp [record]
  | _ => cases note <;> exact Iff.rfl

theorem record_error {error : Failure} : record note op (.error error) = note := by
  cases op <;> cases note <;> rfl

theorem budgets_handle (hop : ∀ day max room drip, op ≠ .takeBudget day max room drip)
    (hop' : ∀ day drip, op ≠ .returnBudget day drip) :
    (handle txHash op s).2.budgets = s.budgets := by
  cases op with
  | takeBudget day max room drip => exact (hop day max room drip rfl).elim
  | returnBudget day drip => exact (hop' day drip rfl).elim
  | reserveClaim lockHash address now cutoff stale id =>
      simp only [Faucet.handle, State.reserveClaim]
      cases s.claims.find? lockHash with
      | none => rfl
      | some doc =>
          simp only
          split_ifs <;> rfl
  | commitClaim lockHash id txHash now =>
      simp only [Faucet.handle, State.updateMine]
      cases s.mine lockHash id <;> rfl
  | restoreClaim lockHash id status =>
      simp only [Faucet.handle, State.updateMine]
      cases s.mine lockHash id <;> rfl
  | _ => rfl

theorem Kept.of_same (h : Kept limits s (before ++ note :: after)) (ht : t.budgets = s.budgets)
    (hnote : ∀ day, note' = .holds day ↔ note = .holds day) :
    Kept limits t (before ++ note' :: after) := by
  constructor
  · intro day
    have hcount : (before ++ note' :: after).count (.holds day) =
        (before ++ note :: after).count (.holds day) := by
      simp only [List.count_append, List.count_cons, beq_iff_eq, hnote day]
    rw [ht, hcount]
    exact h.booked day
  · intro day hmem
    refine h.room day ?_
    simp only [List.mem_append, List.mem_cons] at hmem ⊢
    rcases hmem with hmem | hmem | hmem
    · exact Or.inl hmem
    · exact Or.inr (Or.inl ((hnote day).mp hmem.symm).symm)
    · exact Or.inr (Or.inr hmem)

/-- A budget document that is written keeps the books of the other days. -/
theorem Kept.put (h : Kept limits s (before ++ note :: after)) {doc : BudgetDocument}
    (ht : t = { s with budgets := s.budgets.put doc })
    (hother : ∀ day, day ≠ doc.day → (note' = .holds day ↔ note = .holds day))
    (hbooked : Booked limits ((before ++ note' :: after).count (.holds doc.day)) (some doc))
    (hroom : Fits (limits.dailyMaxTokens - limits.dripAmount)) :
    Kept limits t (before ++ note' :: after) := by
  refine ⟨fun day => ?_, fun _ _ => hroom⟩
  rw [ht, Collection.find?_put]
  split_ifs with hday
  · rw [← hday]
    exact hbooked
  · have hcount : (before ++ note' :: after).count (.holds day) =
        (before ++ note :: after).count (.holds day) := by
      simp only [List.count_append, List.count_cons, beq_iff_eq, hother day (Ne.symm hday)]
    rw [hcount]
    exact h.booked day

theorem Kept.handle (hexact : Exact limits) (hpos : 0 < limits.dripAmount)
    (hclaims : 1 ≤ limits.dailyMaxClaims) (htokens : limits.dripAmount ≤ limits.dailyMaxTokens)
    (hop : allowed limits note op) (h : Kept limits s (before ++ note :: after)) :
    Kept limits (handle txHash op s).2
      (before ++ record note op (handle txHash op s).1 :: after) := by
  by_cases htake : ∃ day max room drip, op = .takeBudget day max room drip
  · obtain ⟨day, max, room, drip, rfl⟩ := htake
    obtain ⟨rfl, rfl, hroom, hdrip⟩ := hop
    obtain ⟨hfitsRoom, -⟩ := decimal_eq_ok hroom
    simp only [Faucet.handle]
    rcases booked_takeBudget hexact hclaims htokens hroom hdrip (h.booked day) with
      hnone | ⟨doc, hne, hput, rfl, hbooked⟩
    · rw [hnone]
      exact h
    · have hrecord : record .marked (.takeBudget doc.day limits.dailyMaxClaims room drip)
          (.ok (s.takeBudget doc.day limits.dailyMaxClaims room drip).1) = .holds doc.day := by
        cases htaken : (s.takeBudget doc.day limits.dailyMaxClaims room drip).1 with
        | duplicateKey => exact (hne htaken).elim
        | _ => rfl
      rw [hrecord]
      refine h.put hput (fun other hother => ?_) ?_ hfitsRoom
      · simp [Ne.symm hother]
      · convert hbooked using 1
        simp [List.count_append]
        omega
  · by_cases hreturn : ∃ day drip, op = .returnBudget day drip
    · obtain ⟨day, drip, rfl⟩ := hreturn
      obtain ⟨rfl, hdrip⟩ := hop
      have hroom := h.room day (by simp)
      have hcount : (before ++ .holds day :: after).count (.holds day) =
          (before ++ .returned day :: after).count (.holds day) + 1 := by
        simp [List.count_append]
        omega
      have hbooked := h.booked day
      rw [hcount] at hbooked
      obtain ⟨doc, hput, rfl, hless⟩ := booked_returnBudget hexact hroom hdrip hpos hbooked
      simp only [Faucet.handle, hput]
      exact h.put rfl (fun other hother => by simp [record, Ne.symm hother]) hless hroom
    · have htake' : ∀ day max room drip, op ≠ .takeBudget day max room drip :=
        fun day max room drip heq => htake ⟨day, max, room, drip, heq⟩
      have hreturn' : ∀ day drip, op ≠ .returnBudget day drip :=
        fun day drip heq => hreturn ⟨day, drip, heq⟩
      exact h.of_same (budgets_handle htake' hreturn') fun day => holds_record htake' hreturn' _

end

abbrev Store := Room Op (fun op => Answer (Res op)) Note State (Answer Unit)

/-- Sessions of the store's callers, from their first call on. -/
def Starts (config : Config) (note : Note) (p : Prog Op (fun op => Answer (Res op)) (Answer Unit)) :
    Prop :=
  note = .idle ∧ ∃ x, Activity config x ∧ p = x.run

abbrev StoreRuns (config : Config) : Store → Store → Prop :=
  Run (Starts config) record (Performs anyCall)

section
variable {config : Config} {note : Note} {op : Op} {s t : State}

theorem starts_keeps {p : Prog Op (fun op => Answer (Res op)) (Answer Unit)}
    (h : Starts config note p) : Keeps record (allowed config.limits) (fun _ _ => True) note p := by
  obtain ⟨rfl, x, hactivity, rfl⟩ := h
  cases hactivity with
  | caller lockHash address now decision => exact follows_useReservation decision
  | claim addressLike =>
      refine follows_bind.mpr ((follows_claim config addressLike).mono fun note r _ => ?_)
      cases r <;> trivial

/-- Before a reservation is marked, and when it is refused, nothing is written. -/
theorem unchanged_of_quiet {answer : Answer (Res op)} (hop : allowed config.limits note op)
    (h : Performs anyCall op s answer t) (hquiet : Quiet (record note op answer)) :
    Quiet note ∧ t.claims = s.claims ∧ t.budgets = s.budgets := by
  obtain ⟨present, hlater, -, -, hdone⟩ := h
  have hclaims := claims_of_later hlater
  have hbudgets : present.budgets = s.budgets := by rw [hlater.same]
  rcases hdone with ⟨txHash, hhandle⟩ | ⟨rfl, error, rfl⟩
  · have hanswer := congrArg Prod.fst hhandle
    have hnext := congrArg Prod.snd hhandle
    dsimp only at hanswer hnext
    subst hanswer hnext
    rw [← hclaims, ← hbudgets]
    cases op with
    | reserveClaim lockHash address now cutoff stale id =>
        obtain rfl : note = .idle := hop
        refine ⟨Or.inl rfl, ?_⟩
        simp only [Faucet.handle, State.reserveClaim] at hquiet ⊢
        cases hfind : present.claims.find? lockHash with
        | none => simp [hfind, record, Quiet] at hquiet
        | some doc =>
            simp only [hfind] at hquiet ⊢
            split_ifs at hquiet ⊢ with hfree
            · simp [record, Quiet] at hquiet
            · exact ⟨rfl, rfl⟩
    | takeBudget day max room drip =>
        obtain rfl := hop.1
        simp only [Faucet.handle] at hquiet
        cases htaken : (present.takeBudget day max room drip).1 <;>
          simp [htaken, record, Quiet] at hquiet
    | returnBudget day drip =>
        obtain rfl := hop.1
        simp [Faucet.handle, record, Quiet] at hquiet
    | commitClaim | deleteClaim | restoreClaim =>
        have hnote : Quiet note := by cases note <;> exact hquiet
        exact (hop hnote).elim
    | _ =>
        refine ⟨?_, rfl, rfl⟩
        cases note <;> exact hquiet
  · rw [record_error] at hquiet
    exact ⟨hquiet, hclaims, hbudgets⟩

theorem allKeep_of_run {after : Store} (h : StoreRuns config ⟨State.empty, []⟩ after) :
    AllKeep record (allowed config.limits) after :=
  (run_invariant (I := fun _ _ => True) (fun _ _ => starts_keeps) (fun _ _ _ _ _ _ => trivial)
    (fun _ _ _ _ _ _ _ _ _ _ => trivial) h (fun _ hmem => by cases hmem) trivial).1

/-- The books are kept throughout every run. -/
theorem kept_of_run (hexact : Exact config.limits) (hpos : 0 < config.limits.dripAmount)
    (hclaims : 1 ≤ config.limits.dailyMaxClaims)
    (htokens : config.limits.dripAmount ≤ config.limits.dailyMaxTokens) {after : Store}
    (h : StoreRuns config ⟨State.empty, []⟩ after) :
    Kept config.limits after.state after.notes := by
  refine (run_invariant (I := Kept config.limits) (fun _ _ => starts_keeps) ?_ ?_ h
    (fun _ hmem => by cases hmem) ⟨fun _ => rfl, fun _ hmem => by cases hmem⟩).2
  · rintro s notes note p ⟨rfl, -⟩ hs
    constructor
    · intro day
      rw [List.count_cons_of_ne (by simp)]
      exact hs.booked day
    · intro day hmem
      exact hs.room day (by simpa using hmem)
  · rintro s t before after note op answer hop ⟨present, hlater, -, -, hdone⟩ hs
    have hpresent : Kept config.limits present (before ++ note :: after) :=
      hs.of_same (by rw [hlater.same]) fun _ => Iff.rfl
    rcases hdone with ⟨txHash, hhandle⟩ | ⟨rfl, error, rfl⟩
    · have hanswer := congrArg Prod.fst hhandle
      have hnext := congrArg Prod.snd hhandle
      dsimp only at hanswer hnext
      subst hanswer hnext
      exact hpresent.handle hexact hpos hclaims htokens hop
    · rw [record_error]
      exact hpresent

end

section
variable {config : Config} {s t : State} {room drip : Decimal128} {taken : Upsert BudgetDocument}
  {lockHash : String}

/-- One more recipient takes a share of the budget and keeps it. -/
theorem run_another (sessions : List (Session Op (fun op => Answer (Res op)) Note (Answer Unit)))
    (hnew : s.claims.find? lockHash = none)
    (hroom : decimal (config.limits.dailyMaxTokens - config.limits.dripAmount) = .ok room)
    (hdrip : decimal config.limits.dripAmount = .ok drip)
    (htaken : s.takeBudget 0 config.limits.dailyMaxClaims room drip = (taken, t))
    (hne : taken ≠ .duplicateKey) :
    ∃ after, StoreRuns config ⟨s, sessions⟩ after ∧ after.state.budgets = t.budgets ∧
      after.notes = .holds 0 :: sessions.map Session.note ∧
      ∀ doc ∈ after.state.claims.docs, doc.id = lockHash ∨ doc ∈ s.claims.docs := by
  have hmarked : (marked s lockHash "" 0).takeBudget 0 config.limits.dailyMaxClaims room drip =
      (taken, { marked s lockHash "" 0 with budgets := t.budgets }) := by
    have hfind : (marked s lockHash "" 0).budgets.find? 0 = s.budgets.find? 0 := rfl
    simp only [State.takeBudget, hfind] at htaken ⊢
    cases hday : s.budgets.find? 0 with
    | none =>
        rw [hday] at htaken
        obtain ⟨rfl, rfl⟩ := Prod.mk.inj htaken
        rfl
    | some doc =>
        simp only [hday] at htaken ⊢
        split_ifs at htaken ⊢
        · obtain ⟨rfl, rfl⟩ := Prod.mk.inj htaken
          rfl
        · exact (hne (Prod.mk.inj htaken).1.symm).elim
  have hreserve : eval (handle "0x") (reserve config.limits lockHash "" 0) s =
      (.ok (reservationOf lockHash s.issued 0 none),
        { marked s lockHash "" 0 with budgets := t.budgets }) := by
    rw [eval_reserve_of_free (fun doc hdoc => by rw [hnew] at hdoc; cases hdoc), hnew]
    refine eval_takeShare_of_taken ?_
    change eval (handle "0x") (takeBudget config.limits 0) _ = _
    rw [eval_takeBudget hroom hdrip, hmarked]
    cases taken with
    | duplicateKey => exact (hne rfl).elim
    | _ => rfl
  have hcommit : eval (handle "0x") (useReservation config.limits lockHash "" 0 (.commit "0x" 0)) s =
      (.ok (), State.updateMine { marked s lockHash "" 0 with budgets := t.budgets } lockHash s.issued
        (sentClaim "0x" 0)) := by
    rw [useReservation, eval_bind, hreserve]
    rfl
  have honly : Only immediate (useReservation config.limits lockHash "" 0 (.commit "0x" 0)) :=
    only_bind (only_reserve _ _ _ _) fun _ => ⟨trivial, fun _ => trivial⟩
  have hhandle : ∀ op, immediate op → ∀ s, Performs anyCall op s (handle "0x" op s).1
      (handle "0x" op s).2 := fun _ hop _ => performs_handle "0x" hop trivial
  have hends : ∃ note', ((eval (handle "0x") (useReservation config.limits lockHash "" 0
      (.commit "0x" 0)) s).1 = .ok () → note' = .holds (dayKey 0)) ∧ StoreRuns config
        ⟨s, ⟨.idle, (useReservation config.limits lockHash "" 0 (.commit "0x" 0)).run⟩ :: sessions⟩
        ⟨(eval (handle "0x") (useReservation config.limits lockHash "" 0 (.commit "0x" 0)) s).2,
          ⟨note', .pure (eval (handle "0x") (useReservation config.limits lockHash "" 0
            (.commit "0x" 0)) s).1⟩ :: sessions⟩ :=
    run_of_eval hhandle honly follows_commitReservation s sessions
  rw [hcommit] at hends
  obtain ⟨note, hnote, hrun⟩ := hends
  obtain rfl := hnote rfl
  have hstarts : Starts config .idle
      (useReservation config.limits lockHash "" 0 (.commit "0x" 0)).run :=
    ⟨rfl, _, .caller lockHash "" 0 (.commit "0x" 0), rfl⟩
  refine ⟨_, hrun.head (.start s sessions .idle _ hstarts), ?_, rfl, ?_⟩
  · simp only [State.updateMine]
    cases State.mine _ lockHash s.issued <;> rfl
  · intro doc hdoc
    simp only [State.updateMine] at hdoc
    cases hmine : State.mine { marked s lockHash "" 0 with budgets := t.budgets } lockHash s.issued with
    | none =>
        rw [hmine] at hdoc
        rcases Collection.mem_docs_put.mp hdoc with rfl | ⟨hold, -⟩
        · rw [hnew]
          exact Or.inl rfl
        · exact Or.inr hold
    | some mine =>
        rw [hmine] at hdoc
        rcases Collection.mem_docs_put.mp hdoc with rfl | ⟨hdoc, -⟩
        · have hid : mine.id = lockHash :=
            Collection.key_of_find? (Option.filter_eq_some_iff.mp hmine).1
          exact Or.inl hid
        · rcases Collection.mem_docs_put.mp hdoc with rfl | ⟨hold, -⟩
          · rw [hnew]
            exact Or.inl rfl
          · exact Or.inr hold

/-- Within the budget a share is taken, and the sum is rounded. -/
theorem takeBudget_of_booked {held : ℕ} {day : ℤ} (h : Booked config.limits held (s.budgets.find? day))
    (hroom : decimal (config.limits.dailyMaxTokens - config.limits.dripAmount) = .ok room)
    (hdrip : decimal config.limits.dripAmount = .ok drip)
    (hmax : (held + 1 : ℕ) ≤ config.limits.dailyMaxClaims)
    (hcap : (held + 1 : ℕ) * config.limits.dripAmount ≤ config.limits.dailyMaxTokens) :
    ∃ taken doc, s.takeBudget day config.limits.dailyMaxClaims room drip =
        (taken, { s with budgets := s.budgets.put doc }) ∧ taken ≠ .duplicateKey ∧ doc.day = day ∧
      doc.claims = (held + 1 : ℕ) ∧
      doc.tokens = .round ((held + 1 : ℕ) * config.limits.dripAmount) := by
  obtain ⟨hfitsRoom, rfl⟩ := decimal_eq_ok hroom
  obtain ⟨hfits, rfl⟩ := decimal_eq_ok hdrip
  have hsum : held * config.limits.dripAmount + config.limits.dripAmount =
      (held + 1 : ℕ) * config.limits.dripAmount := by
    push_cast
    ring
  unfold State.takeBudget
  cases hfind : s.budgets.find? day with
  | none =>
      rw [hfind] at h
      obtain rfl : held = 0 := h
      refine ⟨_, ⟨day, 1, .finite _ hfits⟩, rfl, by simp, rfl, rfl, ?_⟩
      rw [← hsum]
      simp [Decimal128.round_of_fits hfits]
  | some doc =>
      rw [hfind] at h
      obtain ⟨hheld, -, -, hfitsHeld, hstored⟩ := h
      have hfree : (doc.claims < config.limits.dailyMaxClaims &&
          doc.tokens.atMost (.finite _ hfitsRoom)) = true := by
        rw [← hsum] at hcap
        simp only [hstored, Decimal128.atMost, Bool.and_eq_true, decide_eq_true_eq]
        push_cast at hmax
        exact ⟨by omega, by omega⟩
      have hday : doc.day = day := Collection.key_of_find? hfind
      simp only [hfree, if_true]
      refine ⟨_, _, rfl, by simp, hday, ?_, ?_⟩
      · simp [hheld]
      · rw [hstored, Decimal128.add, hsum]

/-- The recipients of the run below. -/
def recipientOf (n : ℕ) : String := String.ofList (List.replicate n 'a')

theorem recipientOf_injective : Function.Injective recipientOf := by
  intro m n h
  have hlength := congrArg (fun name => name.toList.length) h
  simpa [recipientOf] using hlength

/-- One recipient after another takes a share of one day's budget. -/
theorem run_shares (hpos : 0 < config.limits.dripAmount)
    (hroom : decimal (config.limits.dailyMaxTokens - config.limits.dripAmount) = .ok room)
    (hdrip : decimal config.limits.dripAmount = .ok drip) (shares : ℕ)
    (hfits : ∀ k ≤ shares, Fits (k * config.limits.dripAmount))
    (hmax : (shares + 1 : ℕ) ≤ config.limits.dailyMaxClaims)
    (hcap : (shares + 1 : ℕ) * config.limits.dripAmount ≤ config.limits.dailyMaxTokens) :
    ∃ after doc, StoreRuns config ⟨State.empty, []⟩ after ∧
      (∀ doc ∈ after.state.claims.docs, ∃ k ≤ shares, doc.id = recipientOf k) ∧
      after.notes.count (.holds 0) = shares + 1 ∧ after.state.budgets.find? 0 = some doc ∧
      doc.claims = (shares + 1 : ℕ) ∧
      doc.tokens = .round ((shares + 1 : ℕ) * config.limits.dripAmount) := by
  induction shares with
  | zero =>
      have hbooked : Booked config.limits 0 (State.empty.budgets.find? 0) := rfl
      have hnew : State.empty.claims.find? (recipientOf 0) = none := rfl
      obtain ⟨taken, doc, htaken, hne, hday, hclaims, htokens⟩ :=
        takeBudget_of_booked hbooked hroom hdrip hmax hcap
      obtain ⟨after, hrun, hbudgets, hnotes, hids⟩ := run_another [] hnew hroom hdrip htaken hne
      refine ⟨after, doc, hrun, fun doc hdoc => ?_, by simp [hnotes], ?_, hclaims, htokens⟩
      · rcases hids doc hdoc with hid | hold
        · exact ⟨0, le_rfl, hid⟩
        · cases hold
      · rw [hbudgets, Collection.find?_put, if_pos hday]
  | succ shares ih =>
      have hmax' : (shares + 1 : ℕ) ≤ config.limits.dailyMaxClaims := by
        push_cast at hmax ⊢
        omega
      have hcap' : (shares + 1 : ℕ) * config.limits.dripAmount ≤ config.limits.dailyMaxTokens := by
        refine le_trans (mul_le_mul_of_nonneg_right ?_ hpos.le) hcap
        push_cast
        omega
      obtain ⟨before, doc, hbefore, hids, hcount, hfind, hclaims, htokens⟩ :=
        ih (fun k hk => hfits k (hk.trans (Nat.le_succ _))) hmax' hcap'
      have hlast := hfits (shares + 1) le_rfl
      have hbooked : Booked config.limits (shares + 1) (before.state.budgets.find? 0) := by
        rw [hfind]
        refine ⟨hclaims, hclaims ▸ hmax', hcap', hlast, ?_⟩
        rw [htokens, Decimal128.round_of_fits hlast]
      obtain ⟨taken, doc', htaken, hne, hday, hclaims', htokens'⟩ :=
        takeBudget_of_booked hbooked hroom hdrip hmax hcap
      have hnew : before.state.claims.find? (recipientOf (shares + 1)) = none := by
        refine Collection.find?_eq_none.mpr fun doc hdoc hid => ?_
        obtain ⟨k, hk, hname⟩ := hids doc hdoc
        have heq := recipientOf_injective (hname.symm.trans hid)
        omega
      obtain ⟨after, hrun, hbudgets, hnotes, hids'⟩ :=
        run_another before.sessions hnew hroom hdrip htaken hne
      refine ⟨after, doc', hbefore.trans hrun, fun doc hdoc => ?_, ?_, ?_, hclaims', htokens'⟩
      · rcases hids' doc hdoc with hid | hold
        · exact ⟨shares + 1, le_rfl, hid⟩
        · obtain ⟨k, hk, hname⟩ := hids doc hold
          exact ⟨k, hk.trans (Nat.le_succ _), hname⟩
      · rw [hnotes, List.count_cons_self]
        exact congrArg (· + 1) hcount
      · rw [hbudgets, Collection.find?_put, if_pos hday]

end

/-- The first number of drips that is not an exact decimal is booked wrongly. -/
theorem exists_unbooked {config : Config} (hpos : 0 < config.limits.dripAmount)
    (h : ¬Exact config.limits) :
    ∃ after, StoreRuns config ⟨State.empty, []⟩ after ∧
      ¬Booked config.limits (after.notes.count (.holds 0)) (after.state.budgets.find? 0) := by
  classical
  simp only [Exact, not_forall] at h
  obtain ⟨hfits, hfitsRoom, some_shares, hmax, hcap, hnot⟩ := h
  -- The least such number is reached by shares that are all exact.
  have hex : ∃ shares : ℕ, shares ≤ config.limits.dailyMaxClaims ∧
      shares * config.limits.dripAmount ≤ config.limits.dailyMaxTokens ∧
      ¬Fits (shares * config.limits.dripAmount) := ⟨some_shares, hmax, hcap, hnot⟩
  obtain ⟨hmax, hcap, hnot⟩ := Nat.find_spec hex
  have hleast : ∀ k < Nat.find hex, Fits (k * config.limits.dripAmount) := by
    intro k hk
    have hlt : (k : ℤ) < Nat.find hex := by exact_mod_cast hk
    have hless : k * config.limits.dripAmount ≤ Nat.find hex * config.limits.dripAmount :=
      mul_le_mul_of_nonneg_right hlt.le hpos.le
    by_contra hk'
    exact Nat.find_min hex hk ⟨hlt.le.trans hmax, hless.trans hcap, hk'⟩
  cases hshares : Nat.find hex with
  | zero =>
      rw [hshares] at hnot
      simp [fits_zero] at hnot
  | succ shares =>
      rw [hshares] at hmax hcap hnot hleast
      obtain ⟨after, doc, hrun, -, hcount, hfind, -, htokens⟩ :=
        run_shares hpos (decimal_of_fits hfitsRoom) (decimal_of_fits hfits) shares
          (fun k hk => hleast k (Nat.lt_succ_of_le hk)) hmax hcap
      refine ⟨after, hrun, ?_⟩
      rw [hcount, hfind]
      rintro ⟨-, -, -, hexact, -⟩
      exact hnot hexact

/-- In every run of every number of sessions, each day's budget document counts
the reservations that hold a share of it and stays within the limits, exactly
when every number of drips within the budget is an exact decimal. A session
that is refused by the recipient's claim writes nothing. -/
theorem budgets_exact_iff (config : Config) (hpos : 0 < config.limits.dripAmount)
    (hclaims : 1 ≤ config.limits.dailyMaxClaims)
    (htokens : config.limits.dripAmount ≤ config.limits.dailyMaxTokens) :
    ((∀ after, StoreRuns config ⟨State.empty, []⟩ after → ∀ day,
        Booked config.limits (after.notes.count (.holds day)) (after.state.budgets.find? day)) ↔
      Exact config.limits) ∧
    ∀ s t before after note op next answer,
      StoreRuns config ⟨State.empty, []⟩ ⟨s, before ++ ⟨note, .call op next⟩ :: after⟩ →
      Performs anyCall op s answer t → Quiet (record note op answer) →
      Quiet note ∧ t.claims = s.claims ∧ t.budgets = s.budgets := by
  refine ⟨⟨fun h => ?_, fun hexact after hrun => ?_⟩, ?_⟩
  · by_contra hnot
    obtain ⟨after, hrun, hunbooked⟩ := exists_unbooked hpos hnot
    exact hunbooked (h after hrun 0)
  · exact (kept_of_run hexact hpos hclaims htokens hrun).booked
  · intro s t before after note op next answer hrun hperformed hquiet
    have hcaller := allKeep_of_run hrun ⟨note, .call op next⟩ (by simp)
    exact unchanged_of_quiet hcaller.1 hperformed hquiet

theorem exampleLimits_exact : Exact exampleLimits := by
  intro _ _ shares _ hcap
  have hlt : shares * 100 < 10 ^ precision := by
    have hcap' : (shares : ℤ) * 100 ≤ 100000 := hcap
    simp only [precision]
    omega
  have hfits := fits_of_lt hlt
  push_cast at hfits
  exact hfits

theorem budgets_exact_iff_example :
    Exact exampleLimits ∧ ∀ after, StoreRuns exampleConfig ⟨State.empty, []⟩ after → ∀ day,
      Booked exampleLimits (after.notes.count (.holds day)) (after.state.budgets.find? day) :=
  ⟨exampleLimits_exact, (budgets_exact_iff exampleConfig (by decide) (by decide) (by decide)).1.mpr
    exampleLimits_exact⟩

/-- Two drips of 34 digits have 35. -/
def wideConfig : Config := ⟨⟨86400000, 300000, 5 * 10 ^ 33 + 1, 2, 10 ^ 34 + 2⟩, some⟩

theorem excess_wide : excess (10 ^ 34 + 2) = 1 := by
  have hlog : Nat.log 10 (10 ^ 34 + 2) = 34 :=
    Nat.log_eq_of_pow_le_of_lt_pow (by norm_num) (by norm_num)
  rw [excess, hlog]
  rfl

theorem round_wide : ∃ fits, Decimal128.round (10 ^ 34 + 2) = .finite (10 ^ 34) fits := by
  have hnot : ¬Fits (10 ^ 34 + 2) := by
    rintro ⟨hdvd, -⟩
    rw [show ((10 ^ 34 + 2 : ℤ)).natAbs = 10 ^ 34 + 2 from rfl, excess_wide] at hdvd
    norm_num at hdvd
  have hrounded : rounded (10 ^ 34 + 2) = 10 ^ 34 := by
    rw [rounded, show ((10 ^ 34 + 2 : ℤ)).natAbs = 10 ^ 34 + 2 from rfl, excess_wide]
    rfl
  have hfits : Fits (10 ^ 34) := fits_of_eq _ 34 (by decide : 1 < _) (by decide) (by decide)
  refine ⟨hfits, ?_⟩
  simp only [Decimal128.round, dif_neg hnot, hrounded, dif_pos hfits]

theorem wideDrip_fits : Fits wideConfig.limits.dripAmount :=
  fits_of_eq (5 * 10 ^ 33 + 1) 0 (by decide) (by decide) (by decide)

theorem wideRoom_fits : Fits (wideConfig.limits.dailyMaxTokens - wideConfig.limits.dripAmount) :=
  fits_of_eq (5 * 10 ^ 33 + 1) 0 (by decide) (by decide) (by decide)

/-- Two recipients hold a share each, and the tokens booked for them are two
fewer than what they hold. -/
theorem wide_shares_rounded :
    ∃ after doc, StoreRuns wideConfig ⟨State.empty, []⟩ after ∧ after.notes.count (.holds 0) = 2 ∧
      after.state.budgets.find? 0 = some doc ∧ doc.claims = 2 ∧
      ∃ fits, doc.tokens = .finite (2 * wideConfig.limits.dripAmount - 2) fits := by
  have hfits : ∀ k ≤ 1, Fits ((k : ℕ) * wideConfig.limits.dripAmount) := by
    intro k hk
    rcases Nat.le_one_iff_eq_zero_or_eq_one.mp hk with rfl | rfl
    · exact fits_zero
    · rw [Nat.cast_one, one_mul]
      exact wideDrip_fits
  obtain ⟨after, doc, hrun, -, hcount, hfind, hclaims, htokens⟩ :=
    run_shares (by decide) (decimal_of_fits wideRoom_fits) (decimal_of_fits wideDrip_fits) 1 hfits
      (by decide) (by decide)
  obtain ⟨fits, hround⟩ := round_wide
  exact ⟨after, doc, hrun, hcount, hfind, hclaims, fits, htokens.trans hround⟩

end CkbDex.FaucetBudgets
