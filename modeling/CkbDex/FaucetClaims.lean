import CkbDex.FaucetLockouts

/-!
# How a claim proceeds

A claim marks the recipient's document, broadcasts its mint once, and writes down
the time only after it was broadcast.
-/
namespace CkbDex.FaucetCooldowns
open Checked Documents Programs Faucet FaucetLockouts Interleaving Sessions
open Text (utf16Length)

/-- How far a claim is. -/
inductive Note where
  | idle
  | read (now : ℤ)
  | drawn (now : ℤ) (reservationId : ℕ)
  /-- Marked, and not broadcast. -/
  | holding (reservation : Reservation)
  | sent (lockHash : String) (reservationId : ℕ)
  | stamped (lockHash : String) (reservationId : ℕ) (time : ℤ)
  /-- After a failure that does not happen. -/
  | lost

/-- Calls that reach neither the database nor the chain cannot fail. -/
def inMemory : Op → Bool
  | .now | .randomUUID | .joinQueue | .enter _ | .leave _ => true
  | _ => false

def recordResult : Note → (op : Op) → Res op → Note
  | .idle, .now, now => .read now
  | .read now, .randomUUID, id => .drawn now id
  | .drawn now id, .reserveClaim lockHash _ _ _ _ _, .inserted =>
      .holding (reservationOf lockHash id now none)
  | .drawn now id, .reserveClaim lockHash _ _ _ _ _, .updated previous =>
      .holding (reservationOf lockHash id now (some previous))
  | .holding _, .send lockHash id, _ => .sent lockHash id
  | .sent lockHash id, .now, time => .stamped lockHash id time
  | .stamped lockHash id _, .now, time => .stamped lockHash id time
  | note, _, _ => note

def record (note : Note) (op : Op) : Answer (Res op) → Note
  | .ok result => recordResult note op result
  | .error _ => if inMemory op then .lost else note

def allowed (limits : ClaimLimits) : Note → Op → Prop
  | .lost, _ => True
  | note, .randomUUID => ∃ now, note = .read now
  | note, .reserveClaim _ _ now cutoff stale id => note = .drawn now id ∧
      cutoff = now - limits.cooldownMs ∧ stale = now - limits.reservationTimeoutMs
  | note, .send lockHash id => ∃ reservation, note = .holding reservation ∧
      lockHash = reservation.lockHash ∧ id = reservation.reservationId
  | note, .commitClaim lockHash id _ time => note = .stamped lockHash id time
  | note, .deleteClaim lockHash id => ∃ reservation, note = .holding reservation ∧
      reservation.hadPrevious = false ∧ lockHash = reservation.lockHash ∧
      id = reservation.reservationId
  | note, .restoreClaim lockHash id status => ∃ reservation, note = .holding reservation ∧
      reservation.hadPrevious = true ∧ lockHash = reservation.lockHash ∧
      id = reservation.reservationId ∧ status = reservation.previousStatus.getD .sent
  | _, _ => True

/-- Calls on budgets, and reads of claims. -/
def aside : Op → Prop
  | .takeBudget .. | .returnBudget .. | .findClaim _ => True
  | _ => False

section
variable {limits : ClaimLimits} {note : Note} {lockHash address : String} {now : ℤ} {id : ℕ}
  {reservation : Reservation}

theorem follows_aside {α : Type} {x : Proc α} (h : Only aside x) :
    Follows record (allowed limits) (fun note' _ => note' = note) note x := by
  refine follows_of_only h fun op hop => ?_
  cases op with
  | takeBudget | returnBudget | findClaim =>
      refine ⟨by cases note <;> trivial, fun answer => ?_⟩
      cases answer <;> cases note <;> rfl
  | _ => exact hop.elim

theorem follows_lost {α : Type} {x : Proc α} :
    Follows record (allowed limits) (fun note' _ => note' = .lost) .lost x := by
  refine follows_of_only (Prog.only_true x.run) fun op _ => ⟨trivial, fun answer => ?_⟩
  rcases answer with error | a
  · exact ite_self _
  · cases op <;> rfl

theorem aside_takeBudget {day : ℤ} : Only aside (takeBudget limits day) := by
  refine only_bind trivial fun room => only_bind trivial fun drip =>
    only_bind ⟨trivial, fun _ => trivial⟩ fun taken => ?_
  cases taken <;> trivial

theorem aside_rejection : Only aside (rejection limits lockHash now) := by
  refine only_bind ⟨trivial, fun _ => trivial⟩ fun existing => ?_
  dsimp only
  split_ifs <;> trivial

theorem follows_restoreClaim :
    Follows record (allowed limits) (fun note _ => note = .holding reservation) (.holding reservation)
      (restoreClaim reservation) := by
  unfold restoreClaim
  split_ifs with hprevious
  · refine follows_perform.mpr ⟨⟨reservation, rfl, hprevious, rfl, rfl⟩, fun answer => ?_⟩
    cases answer <;> rfl
  · refine follows_perform.mpr ⟨⟨reservation, rfl, ?_, rfl, rfl, rfl⟩, fun answer => ?_⟩
    · simpa using hprevious
    · cases answer <;> rfl

/-- A marked claim that gets its share of the budget is still the same. -/
theorem follows_takeShare :
    Follows record (allowed limits)
      (fun note r => (r = .ok reservation ∧ note = .holding reservation) ∨ ∃ error, r = .error error)
      (.holding reservation) (takeShare limits reservation) := by
  rw [takeShare, follows_bind, follows_tryCatch]
  refine (follows_aside aside_takeBudget).mono fun note r hnote => ?_
  subst hnote
  cases r with
  | ok u => exact Or.inl ⟨rfl, rfl⟩
  | error error =>
      refine follows_bind.mpr (follows_restoreClaim.mono fun note r _ => ?_)
      cases r <;> exact Or.inr ⟨_, rfl⟩

theorem follows_reserve :
    Follows record (allowed limits)
      (fun note r => (∃ reservation, r = .ok reservation ∧ note = .holding reservation) ∨
        ∃ error, r = .error error)
      (.read now) (reserve limits lockHash address now) := by
  have hshare : ∀ reservation : Reservation, Follows record (allowed limits)
      (fun note r => (∃ reservation, r = .ok reservation ∧ note = .holding reservation) ∨
        ∃ error, r = .error error) (.holding reservation) (takeShare limits reservation) := by
    intro reservation
    refine follows_takeShare.mono fun note r hr => ?_
    rcases hr with ⟨rfl, hnote⟩ | herror
    · exact Or.inl ⟨reservation, rfl, hnote⟩
    · exact Or.inr herror
  rw [reserve, follows_bind]
  refine follows_perform.mpr ⟨⟨now, rfl⟩, fun answer => ?_⟩
  rcases answer with error | id
  · exact Or.inr ⟨error, rfl⟩
  · simp only [continues, follows_bind]
    refine follows_perform.mpr ⟨⟨rfl, rfl, rfl⟩, fun answer => ?_⟩
    rcases answer with error | _ | previous | _
    · exact Or.inr ⟨error, rfl⟩
    · exact hshare _
    · exact hshare _
    · refine follows_bind.mpr ((follows_aside aside_rejection).mono fun note r _ => ?_)
      rcases r with error | error <;> exact Or.inr ⟨error, rfl⟩

theorem follows_release :
    Follows record (allowed limits) (fun _ _ => True) (.holding reservation)
      (release limits reservation) := by
  rw [release, follows_bind]
  refine follows_restoreClaim.mono fun note r hnote => ?_
  subst hnote
  cases r with
  | error error => trivial
  | ok u =>
      refine (follows_aside (x := do
        let drip ← require (decimal (-limits.dripAmount))
        request (.returnBudget reservation.day drip)) ?_).mono fun _ _ _ => trivial
      exact only_bind trivial fun _ => ⟨trivial, fun _ => trivial⟩

/-- After the lock the mint is noted when it was broadcast. -/
theorem follows_withLock :
    Follows record (allowed limits)
      (fun note r => note = .lost ∨
        (∃ txHash, r = .ok txHash ∧ note = .sent reservation.lockHash reservation.reservationId) ∨
        ∃ error, r = .error error ∧ note = .holding reservation)
      (.holding reservation)
      (withLock (request (.send reservation.lockHash reservation.reservationId))) := by
  rw [withLock, follows_bind]
  refine follows_perform.mpr ⟨trivial, fun answer => ?_⟩
  rcases answer with error | ticket
  · exact Or.inl rfl
  simp only [continues, follows_bind]
  refine follows_perform.mpr ⟨trivial, fun answer => ?_⟩
  rcases answer with error | u
  · exact Or.inl rfl
  simp only [continues, follows_bind, follows_tryCatch]
  refine follows_perform.mpr ⟨⟨reservation, rfl, rfl, rfl⟩, fun answer => ?_⟩
  rcases answer with error | txHash
  · simp only [continues, follows_pure, follows_bind]
    refine follows_perform.mpr ⟨trivial, fun answer => ?_⟩
    rcases answer with error' | u
    · exact Or.inl rfl
    · exact Or.inr (Or.inr ⟨error, rfl, rfl⟩)
  · simp only [continues, follows_pure, follows_bind]
    refine follows_perform.mpr ⟨trivial, fun answer => ?_⟩
    rcases answer with error' | u
    · exact Or.inl rfl
    · exact Or.inr (Or.inl ⟨txHash, rfl, rfl⟩)

/-- A time is read for each attempt to write the commit. -/
theorem follows_recordSent {txHash : Hex} (attempts : ℕ)
    (hnote : note = .sent reservation.lockHash reservation.reservationId ∨
      ∃ time, note = .stamped reservation.lockHash reservation.reservationId time) :
    Follows record (allowed limits) (fun _ _ => True) note
      (recordSent reservation txHash attempts) := by
  induction attempts generalizing note with
  | zero => trivial
  | succ attempts ih =>
      rw [recordSent, follows_tryCatch, follows_bind]
      have hnow : allowed limits note .now := by
        rcases hnote with rfl | ⟨time, rfl⟩ <;> trivial
      refine follows_perform.mpr ⟨hnow, fun answer => ?_⟩
      rcases answer with error | time
      · exact follows_lost.mono fun _ _ _ => trivial
      · have hstamped : record note .now (.ok time) =
            .stamped reservation.lockHash reservation.reservationId time := by
          rcases hnote with rfl | ⟨time, rfl⟩ <;> rfl
        rw [hstamped]
        refine follows_perform.mpr ⟨rfl, fun answer => ?_⟩
        rcases answer with error | u
        · exact ih (Or.inr ⟨time, rfl⟩)
        · trivial

theorem follows_claim (config : Config) (addressLike : String) :
    Follows record (allowed config.limits) (fun _ _ => True) .idle (claim config addressLike) := by
  rw [claim, follows_bind, follows_require]
  cases throwIf (maxAddressLength < utf16Length addressLike) (appError 400 "Invalid address") with
  | error error => trivial
  | ok u =>
  simp only [continues, follows_bind, follows_require]
  cases okOr (config.recipient addressLike) (appError 400 "Invalid address for this network") with
  | error error => trivial
  | ok lockHash =>
  refine follows_perform.mpr ⟨trivial, fun answer => ?_⟩
  rcases answer with error | now
  · trivial
  refine follows_bind.mpr (follows_reserve.mono fun note r hr => ?_)
  rcases hr with ⟨reservation, rfl, rfl⟩ | ⟨error, rfl⟩
  swap
  · trivial
  refine follows_bind.mpr (follows_tryCatch.mpr (follows_withLock.mono fun note r hr => ?_))
  rcases hr with rfl | ⟨txHash, rfl, rfl⟩ | ⟨error, rfl, rfl⟩
  · cases r with
    | ok txHash => exact follows_lost.mono fun _ _ _ => trivial
    | error error =>
        refine follows_bind.mpr (follows_lost.mono fun note r _ => ?_)
        cases r <;> trivial
  · refine follows_bind.mpr ((follows_recordSent 3 (Or.inl rfl)).mono fun note r _ => ?_)
    cases r <;> trivial
  · refine follows_bind.mpr (follows_tryCatch.mpr (follows_release.mono fun note r _ => ?_))
    cases r <;> trivial

end

end CkbDex.FaucetCooldowns
