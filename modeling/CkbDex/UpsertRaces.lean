import CkbDex.FaucetStore

/-!
# Upserts that collide

The server carries an upsert out in two steps: an update of the document that
matches the filter, and an insert when none does, which fails when there is a
document with that id. Other calls may come between the two. The faucet takes
the failure of the second step for a budget that is spent.
-/
namespace CkbDex.UpsertRaces
open Checked Collections Decimals Documents Faucet Programs Sessions

/-- The first step. The client learns of a match only. -/
inductive Lookup (α : Type) where
  | matched (before : α)
  | mismatched
  | absent

/-- The second step, with the document that it collides with. -/
inductive Insert (α : Type) where
  | inserted
  | duplicateKey (existing : α)

/-- The operations of the claim store, an upsert as two. -/
inductive Call where
  | whole (op : Op)
  | updateClaim (lockHash address : String) (now cutoff stale : ℤ) (reservationId : ℕ)
  | insertClaim (lockHash address : String) (now : ℤ) (reservationId : ℕ)
  | updateBudget (day dailyMaxClaims : ℤ) (room drip : Decimal128)
  | insertBudget (day : ℤ) (drip : Decimal128)

abbrev Found : Call → Type
  | .whole op => Res op
  | .updateClaim .. => Lookup ClaimDocument
  | .insertClaim .. => Insert ClaimDocument
  | .updateBudget .. => Lookup BudgetDocument
  | .insertBudget .. => Insert BudgetDocument

abbrev CallProg (α : Type) := Prog Call (fun call => Answer (Found call)) α

section
variable (s : State)

def updateClaim (lockHash address : String) (now cutoff stale : ℤ) (reservationId : ℕ) :
    Lookup ClaimDocument × State :=
  match s.claims.find? lockHash with
  | none => (.absent, s)
  | some doc =>
      if free cutoff stale doc then
        (.matched doc, { s with claims := s.claims.put (reservedClaim address now reservationId doc) })
      else (.mismatched, s)

def insertClaim (lockHash address : String) (now : ℤ) (reservationId : ℕ) :
    Insert ClaimDocument × State :=
  match s.claims.find? lockHash with
  | none => (.inserted, { s with claims := s.claims.put (newClaim lockHash address now reservationId) })
  | some doc => (.duplicateKey doc, s)

def updateBudget (day dailyMaxClaims : ℤ) (room drip : Decimal128) : Lookup BudgetDocument × State :=
  match s.budgets.find? day with
  | none => (.absent, s)
  | some doc =>
      if doc.claims < dailyMaxClaims && doc.tokens.atMost room then
        (.matched doc, { s with
          budgets := s.budgets.put { doc with claims := doc.claims + 1, tokens := doc.tokens.add drip } })
      else (.mismatched, s)

def insertBudget (day : ℤ) (drip : Decimal128) : Insert BudgetDocument × State :=
  match s.budgets.find? day with
  | none => (.inserted, { s with budgets := s.budgets.put ⟨day, 1, drip⟩ })
  | some doc => (.duplicateKey doc, s)

end

def handle : (call : Call) → State → Answer (Found call) × State
  | .whole op, s => Faucet.handle "0x" op s
  | .updateClaim lockHash address now cutoff stale id, s =>
      let done := updateClaim s lockHash address now cutoff stale id
      (.ok done.1, done.2)
  | .insertClaim lockHash address now id, s =>
      let done := insertClaim s lockHash address now id
      (.ok done.1, done.2)
  | .updateBudget day dailyMaxClaims room drip, s =>
      let done := updateBudget s day dailyMaxClaims room drip
      (.ok done.1, done.2)
  | .insertBudget day drip, s =>
      let done := insertBudget s day drip
      (.ok done.1, done.2)

/-- What an upsert answers when its first step has. -/
def afterUpdate {δ β : Type} (next : Answer (Upsert δ) → β) (insert : (Answer (Insert δ) → β) → β) :
    Answer (Lookup δ) → β
  | .error error => next (.error error)
  | .ok (.matched before) => next (.ok (.updated before))
  | .ok _ => insert fun
      | .error error => next (.error error)
      | .ok .inserted => next (.ok .inserted)
      | .ok (.duplicateKey _) => next (.ok .duplicateKey)

section
variable {α : Type}

def splitCall : (op : Op) → (Answer (Res op) → CallProg α) → CallProg α
  | .reserveClaim lockHash address now cutoff stale id, next =>
      .call (.updateClaim lockHash address now cutoff stale id)
        (afterUpdate next fun rest => .call (.insertClaim lockHash address now id) rest)
  | .takeBudget day dailyMaxClaims room drip, next =>
      .call (.updateBudget day dailyMaxClaims room drip)
        (afterUpdate next fun rest => .call (.insertBudget day drip) rest)
  | op, next => .call (.whole op) next

/-- A procedure of the faucet with its upserts in two steps. -/
def split : Prog Op (fun op => Answer (Res op)) α → CallProg α
  | .pure a => .pure a
  | .call op next => splitCall op fun answer => split (next answer)

/-- Left alone, an upsert does in two steps what it does in one. -/
theorem eval_split (p : Prog Op (fun op => Answer (Res op)) α) (s : State) :
    (split p).eval handle s = p.eval (Faucet.handle "0x") s := by
  induction p generalizing s with
  | pure a => rfl
  | call op next ih =>
      cases op with
      | reserveClaim lockHash address now cutoff stale id =>
          simp only [split, splitCall, Prog.eval, handle, Faucet.handle, updateClaim, State.reserveClaim]
          cases hfind : s.claims.find? lockHash with
          | none =>
              simp only [afterUpdate, Prog.eval, handle, insertClaim, hfind]
              exact ih _ _
          | some doc =>
              dsimp only
              split_ifs
              · exact ih _ _
              · simp only [afterUpdate, Prog.eval, handle, insertClaim, hfind]
                exact ih _ _
      | takeBudget day dailyMaxClaims room drip =>
          simp only [split, splitCall, Prog.eval, handle, Faucet.handle, updateBudget, State.takeBudget]
          cases hfind : s.budgets.find? day with
          | none =>
              simp only [afterUpdate, Prog.eval, handle, insertBudget, hfind]
              exact ih _ _
          | some doc =>
              dsimp only
              split_ifs
              · exact ih _ _
              · simp only [afterUpdate, Prog.eval, handle, insertBudget, hfind]
                exact ih _ _
      | _ => exact ih _ _

end

def dailyLimit : Failure :=
  appError 503 "The faucet has reached its daily limit - please try again tomorrow"

/-- No more of a day's budget may be taken. -/
def Spent (limits : ClaimLimits) (doc : BudgetDocument) : Prop :=
  doc.claims = limits.dailyMaxClaims ∨
    ∃ room, decimal (limits.dailyMaxTokens - limits.dripAmount) = .ok room ∧
      doc.tokens.atMost room = false

/-- What a call of `reserve` has seen of its day's budget. -/
inductive Note where
  | idle
  /-- The update has found the document, and it did not match. -/
  | mismatched (day : ℤ)
  /-- The update has found no document. -/
  | absent (day : ℤ)
  /-- The insert collided: with what, and whether there was none before. -/
  | refused (existing : BudgetDocument) (raced : Bool)
  | failed (error : Failure)

def record : Note → (call : Call) → Answer (Found call) → Note
  | _, .updateBudget day .., .ok .mismatched => .mismatched day
  | _, .updateBudget day .., .ok .absent => .absent day
  | .mismatched _, .insertBudget .., .ok (.duplicateKey existing) => .refused existing false
  | _, .insertBudget .., .ok (.duplicateKey existing) => .refused existing true
  | _, _, .error error => .failed error
  | note, _, .ok _ => note

/-- A call is carried out, or the driver reports an error. -/
def Performs (call : Call) (s : State) (answer : Answer (Found call)) (t : State) : Prop :=
  handle call s = (answer, t) ∨ t = s ∧ ∃ message, answer = .error (.other message)

def Starts (limits : ClaimLimits) (note : Note) (p : CallProg (Answer Reservation)) : Prop :=
  note = .idle ∧ ∃ lockHash address now, p = split (reserve limits lockHash address now).run

abbrev ReserveRoom := Room Call (fun call => Answer (Found call)) Note State (Answer Reservation)

abbrev ReserveRuns (limits : ClaimLimits) : ReserveRoom → ReserveRoom → Prop :=
  Run (Starts limits) record Performs

/-- How a call of `reserve` will end. -/
inductive Ending where
  | undecided
  | refused
  | failed (error : Failure)

def Note.ending : Note → Ending
  | .refused .. => .refused
  | .failed error => .failed error
  | _ => .undecided

def recordEnding : Ending → (op : Op) → Answer (Res op) → Ending
  | _, .takeBudget .., .ok .duplicateKey => .refused
  | _, _, .error error => .failed error
  | ending, _, .ok _ => ending

/-- The budget is taken once, by the limits; nothing is given back. -/
def reserves (limits : ClaimLimits) (ending : Ending) : Op → Prop
  | .takeBudget _ dailyMaxClaims room _ => ending = .undecided ∧ dailyMaxClaims = limits.dailyMaxClaims ∧
      decimal (limits.dailyMaxTokens - limits.dripAmount) = .ok room
  | .randomUUID | .reserveClaim .. | .findClaim _ | .deleteClaim .. | .restoreClaim .. => True
  | _ => False

/-- The same in two steps. -/
def allowed (limits : ClaimLimits) (note : Note) : Call → Prop
  | .whole op => ∀ s, (Faucet.handle "0x" op s).2.budgets = s.budgets
  | .updateBudget _ dailyMaxClaims room _ => dailyMaxClaims = limits.dailyMaxClaims ∧
      decimal (limits.dailyMaxTokens - limits.dripAmount) = .ok room
  | .insertBudget day _ => note = .mismatched day ∨ note = .absent day
  | _ => True

section
variable {limits : ClaimLimits} {note : Note} {ending : Ending} {lockHash address : String} {now day : ℤ}

theorem record_error (call : Call) (error : Failure) : record note call (.error error) = .failed error := by
  cases call <;> cases note <;> rfl

/-- Calls at once keep to their notes when the procedure keeps to its ending. -/
theorem keeps_split {α : Type} {ends : Ending → α → Prop}
    {p : Prog Op (fun op => Answer (Res op)) α} :
    Keeps recordEnding (reserves limits) ends note.ending p →
      Keeps record (allowed limits) (fun note a => ends note.ending a) note (split p) := by
  induction p generalizing note with
  | pure a => exact id
  | call op next ih =>
      rintro ⟨hop, hnext⟩
      -- the rest of the call, from a note that agrees with the ending
      have hrest : ∀ answer {after : Note}, recordEnding note.ending op answer = after.ending →
          Keeps record (allowed limits) (fun note a => ends note.ending a) after (split (next answer)) :=
        fun answer _ hsame => ih answer ((hnext answer).of_eq hsame)
      cases op with
      | reserveClaim lockHash address now cutoff stale id =>
          refine ⟨trivial, fun found => ?_⟩
          rcases found with error | before | _ | _
          · exact hrest (.error error) (by cases note <;> rfl)
          · exact hrest (.ok (.updated before)) (by cases note <;> rfl)
          all_goals
            refine ⟨trivial, fun done => ?_⟩
            rcases done with error | _ | existing
            · exact hrest (.error error) (by cases note <;> rfl)
            · exact hrest (.ok .inserted) (by cases note <;> rfl)
            · exact hrest (.ok .duplicateKey) (by cases note <;> rfl)
      | takeBudget day dailyMaxClaims room drip =>
          obtain ⟨hopen, hlimits⟩ := hop
          refine ⟨hlimits, fun found => ?_⟩
          rcases found with error | before | _ | _
          · exact hrest (.error error) (by cases note <;> rfl)
          · exact hrest (.ok (.updated before)) (by cases note <;> rfl)
          · refine ⟨Or.inl rfl, fun done => ?_⟩
            rcases done with error | _ | existing
            · exact hrest (.error error) rfl
            · exact hrest (.ok .inserted) hopen
            · exact hrest (.ok .duplicateKey) rfl
          · refine ⟨Or.inr rfl, fun done => ?_⟩
            rcases done with error | _ | existing
            · exact hrest (.error error) rfl
            · exact hrest (.ok .inserted) hopen
            · exact hrest (.ok .duplicateKey) rfl
      | randomUUID | findClaim | deleteClaim | restoreClaim =>
          refine ⟨fun _ => ?_, fun answer => ?_⟩
          · first | rfl | (simp only [Faucet.handle, State.updateMine]; split <;> rfl)
          · exact hrest answer (by cases answer <;> cases note <;> rfl)
      | _ => exact hop.elim

/-- What the result of a call says about its budget. -/
def Explained (ending : Ending) (r : Answer Reservation) : Prop :=
  r = .error dailyLimit → ending = .refused ∨ ending = .failed dailyLimit

theorem follows_takeBudget :
    Follows recordEnding (reserves limits)
      (fun ending r => match r with
        | .ok _ => ending = .undecided
        | .error error => error = dailyLimit → ending = .refused ∨ ending = .failed dailyLimit)
      .undecided (takeBudget limits day) := by
  rw [takeBudget, follows_bind, follows_require]
  have hinexact : ∀ {n : ℤ} {error : Failure}, decimal n = .error error → error ≠ dailyLimit := by
    intro n error hdecimal hsame
    unfold decimal okOr at hdecimal
    split at hdecimal
    · cases hdecimal
    · cases hdecimal
      cases hsame
  cases hroom : decimal (limits.dailyMaxTokens - limits.dripAmount) with
  | error error => exact fun hsame => absurd hsame (hinexact hroom)
  | ok room =>
      simp only [continues, follows_bind, follows_require]
      cases hdrip : decimal limits.dripAmount with
      | error error => exact fun hsame => absurd hsame (hinexact hdrip)
      | ok drip =>
          apply follows_perform.mpr
          refine ⟨⟨rfl, rfl, hroom⟩, fun answer => ?_⟩
          rcases answer with error | _ | before | _
          · exact fun hsame => Or.inr (congrArg Ending.failed hsame)
          · rfl
          · rfl
          · exact fun _ => Or.inl rfl

theorem follows_restoreClaim (reservation : Reservation) :
    Follows recordEnding (reserves limits)
      (fun ending' r => match r with
        | .ok _ => ending' = ending
        | .error error => ending' = .failed error) ending (restoreClaim reservation) := by
  unfold restoreClaim
  split_ifs
  all_goals
    refine ⟨trivial, fun answer => ?_⟩
    cases answer <;> rfl

theorem follows_takeShare (reservation : Reservation) :
    Follows recordEnding (reserves limits) Explained .undecided (takeShare limits reservation) := by
  rw [takeShare, follows_bind, follows_tryCatch]
  apply follows_takeBudget.mono
  intro ending r hr
  cases r with
  | ok _ => exact fun hsame => by cases hsame
  | error error =>
      simp only [follows_bind]
      apply (follows_restoreClaim reservation).mono
      intro ending' r hrestored
      cases r with
      | error error =>
          intro hsame
          rw [Except.error.inj hsame] at hrestored
          exact Or.inr hrestored
      | ok _ =>
          intro hsame
          rw [show ending' = ending from hrestored]
          exact hr (Except.error.inj hsame)

theorem follows_rejection :
    Follows recordEnding (reserves limits)
      (fun ending r => match r with
        | .ok error => error ≠ dailyLimit
        | .error error => ending = .failed error) ending (rejection limits lockHash now) := by
  rw [rejection, follows_bind]
  apply follows_perform.mpr
  refine ⟨trivial, fun answer => ?_⟩
  rcases answer with error | existing
  · rfl
  · simp only [continues]
    split_ifs
    · exact fun hsame => by cases hsame
    · exact fun hsame => by cases hsame

theorem follows_reserve :
    Follows recordEnding (reserves limits) Explained .undecided (reserve limits lockHash address now) := by
  rw [reserve, follows_bind]
  apply follows_perform.mpr
  refine ⟨trivial, fun answer => ?_⟩
  rcases answer with error | id
  · exact fun hsame => Or.inr (congrArg Ending.failed (Except.error.inj hsame))
  · simp only [continues, follows_bind]
    apply follows_perform.mpr
    refine ⟨trivial, fun answer => ?_⟩
    rcases answer with error | _ | previous | _
    · exact fun hsame => Or.inr (congrArg Ending.failed (Except.error.inj hsame))
    · exact follows_takeShare _
    · exact follows_takeShare _
    · apply follows_bind.mpr
      apply follows_rejection.mono
      intro ending r hr
      rcases r with error | error
      · intro hsame
        rw [Except.error.inj hsame] at hr
        exact Or.inr hr
      · exact fun hsame => absurd (Except.error.inj hsame) hr

end

section
variable {limits : ClaimLimits} {s t : State} {note : Note} {day : ℤ} {doc : BudgetDocument}

/-- A day's budget that is spent stays as it is. -/
def Upheld (limits : ClaimLimits) (s : State) : Note → Prop
  | .mismatched day => ∃ doc, s.budgets.find? day = some doc ∧ Spent limits doc
  | .refused existing raced =>
      raced = false → s.budgets.find? existing.day = some existing ∧ Spent limits existing
  | .failed error => error ≠ dailyLimit
  | _ => True

structure Noted (limits : ClaimLimits) (s : State) (notes : List Note) : Prop where
  within : ∀ doc ∈ s.budgets.docs, doc.claims ≤ limits.dailyMaxClaims
  upheld : ∀ note ∈ notes, Upheld limits s note

/-- The filter of the update refuses a spent budget, and nothing else that is
within its limits. -/
theorem spent_iff {room : Decimal128} (hroom : decimal (limits.dailyMaxTokens - limits.dripAmount) = .ok room)
    (hwithin : doc.claims ≤ limits.dailyMaxClaims) :
    Spent limits doc ↔ ¬(doc.claims < limits.dailyMaxClaims && doc.tokens.atMost room) = true := by
  unfold Spent
  rw [Bool.and_eq_true, decide_eq_true_eq, not_and_or, Bool.not_eq_true, not_lt]
  apply or_congr
  · omega
  · constructor
    · rintro ⟨room', hroom', hfull⟩
      rw [hroom] at hroom'
      rwa [Except.ok.inj hroom']
    · exact fun hfull => ⟨room, hroom, hfull⟩

theorem Upheld.mono (h : Upheld limits s note)
    (hspent : ∀ day doc, s.budgets.find? day = some doc → Spent limits doc → t.budgets.find? day = some doc) :
    Upheld limits t note := by
  cases note with
  | mismatched day =>
      obtain ⟨doc, hfind, hdoc⟩ := h
      exact ⟨doc, hspent day doc hfind hdoc, hdoc⟩
  | refused existing raced =>
      intro hraced
      obtain ⟨hfind, hdoc⟩ := h hraced
      exact ⟨hspent existing.day existing hfind hdoc, hdoc⟩
  | _ => exact h

/-- What one call does to the budgets, and what its note then says. -/
structure Advances (limits : ClaimLimits) (s t : State) (note : Note) : Prop where
  within : ∀ doc ∈ t.budgets.docs, doc.claims ≤ limits.dailyMaxClaims
  spent : ∀ day doc, s.budgets.find? day = some doc → Spent limits doc → t.budgets.find? day = some doc
  upheld : Upheld limits t note

theorem advances_of_same (hwithin : ∀ doc ∈ s.budgets.docs, doc.claims ≤ limits.dailyMaxClaims)
    (hsame : t.budgets = s.budgets) (hnote : Upheld limits s note) : Advances limits s t note where
  within := hsame ▸ hwithin
  spent := fun day doc hfind _ => hsame ▸ hfind
  upheld := by
    apply hnote.mono
    rw [hsame]
    exact fun day doc hfind _ => hfind

theorem advances_updateBudget {dailyMaxClaims : ℤ} {room drip : Decimal128}
    (hwithin : ∀ doc ∈ s.budgets.docs, doc.claims ≤ limits.dailyMaxClaims) (hnote : Upheld limits s note)
    (hmax : dailyMaxClaims = limits.dailyMaxClaims)
    (hroom : decimal (limits.dailyMaxTokens - limits.dripAmount) = .ok room) :
    Advances limits s (updateBudget s day dailyMaxClaims room drip).2
      (record note (.updateBudget day dailyMaxClaims room drip)
        (.ok (updateBudget s day dailyMaxClaims room drip).1)) := by
  subst hmax
  unfold updateBudget
  cases hfind : s.budgets.find? day with
  | none => exact advances_of_same hwithin rfl trivial
  | some doc =>
      have hdoc := (Collection.find?_eq_some.mp hfind).1
      have hday : doc.day = day := Collection.key_of_find? hfind
      dsimp only
      split_ifs with hmatch
      · have hfree := Bool.and_eq_true_iff.mp hmatch
        have hlt := of_decide_eq_true hfree.1
        have hfrozen : ∀ day' doc', s.budgets.find? day' = some doc' → Spent limits doc' →
            (s.budgets.put { doc with claims := doc.claims + 1, tokens := doc.tokens.add drip }).find? day' =
              some doc' := by
          intro day' doc' hfind' hspent
          have hne : doc.day ≠ day' := by
            intro hsame
            rw [← hsame, hday, hfind] at hfind'
            rw [← Option.some_inj.mp hfind'] at hspent
            exact (spent_iff hroom (hwithin doc hdoc)).mp hspent hmatch
          exact Collection.find?_put.trans ((if_neg hne).trans hfind')
        constructor
        · intro other hother
          rcases Collection.mem_docs_put.mp hother with rfl | ⟨hother, -⟩
          · exact Int.add_one_le_of_lt hlt
          · exact hwithin other hother
        · exact hfrozen
        · have hsame : record note (.updateBudget day limits.dailyMaxClaims room drip) (.ok (.matched doc)) =
              note := by
            cases note <;> rfl
          rw [hsame]
          exact hnote.mono hfrozen
      · apply advances_of_same hwithin rfl
        exact ⟨doc, hfind, (spent_iff hroom (hwithin doc hdoc)).mpr hmatch⟩

theorem advances_insertBudget {drip : Decimal128} (hpos : 0 < limits.dailyMaxClaims)
    (hwithin : ∀ doc ∈ s.budgets.docs, doc.claims ≤ limits.dailyMaxClaims) (hnote : Upheld limits s note)
    (hlooked : note = .mismatched day ∨ note = .absent day) :
    Advances limits s (insertBudget s day drip).2
      (record note (.insertBudget day drip) (.ok (insertBudget s day drip).1)) := by
  unfold insertBudget
  cases hfind : s.budgets.find? day with
  | none =>
      have hkeep : ∀ day' doc', s.budgets.find? day' = some doc' →
          (s.budgets.put ⟨day, 1, drip⟩).find? day' = some doc' := by
        intro day' doc' hfind'
        have hne : day ≠ day' := by
          intro hsame
          rw [← hsame, hfind] at hfind'
          cases hfind'
        exact Collection.find?_put.trans ((if_neg hne).trans hfind')
      constructor
      · intro other hother
        rcases Collection.mem_docs_put.mp hother with rfl | ⟨hother, -⟩
        · exact hpos
        · exact hwithin other hother
      · exact fun day' doc' hfind' _ => hkeep day' doc' hfind'
      · have hsame : record note (.insertBudget day drip) (.ok .inserted) = note := by
          cases note <;> rfl
        rw [hsame]
        exact hnote.mono fun day' doc' hfind' _ => hkeep day' doc' hfind'
  | some doc =>
      apply advances_of_same hwithin rfl
      rcases hlooked with rfl | rfl
      · -- The update found this very document, and it has not changed.
        intro _
        obtain ⟨found, hfound, hspent⟩ := hnote
        have hday : doc.day = day := Collection.key_of_find? hfind
        rw [hfind] at hfound
        rw [hday, Option.some_inj.mp hfound]
        exact ⟨hfind.trans hfound, hspent⟩
      · exact fun hraced => by cases hraced

theorem advances_handle {call : Call} (hpos : 0 < limits.dailyMaxClaims)
    (hwithin : ∀ doc ∈ s.budgets.docs, doc.claims ≤ limits.dailyMaxClaims) (hnote : Upheld limits s note)
    (hcall : allowed limits note call) :
    Advances limits s (handle call s).2 (record note call (handle call s).1) := by
  cases call with
  | whole op =>
      have hok : ∃ answer, (Faucet.handle "0x" op s).1 = .ok answer := by
        cases op <;> exact ⟨_, rfl⟩
      obtain ⟨answer, hanswer⟩ := hok
      have hsame : record note (.whole op) (handle (.whole op) s).1 = note := by
        change record note (.whole op) (Faucet.handle "0x" op s).1 = note
        rw [hanswer]
        cases note <;> rfl
      rw [hsame]
      exact advances_of_same hwithin (hcall s) hnote
  | updateClaim lockHash address now cutoff stale id =>
      have hbudgets : (updateClaim s lockHash address now cutoff stale id).2.budgets = s.budgets := by
        unfold updateClaim
        split
        · rfl
        · split_ifs <;> rfl
      apply advances_of_same hwithin hbudgets
      cases note <;> exact hnote
  | insertClaim lockHash address now id =>
      have hbudgets : (insertClaim s lockHash address now id).2.budgets = s.budgets := by
        unfold insertClaim
        split <;> rfl
      apply advances_of_same hwithin hbudgets
      cases note <;> exact hnote
  | updateBudget day dailyMaxClaims room drip => exact advances_updateBudget hwithin hnote hcall.1 hcall.2
  | insertBudget day drip => exact advances_insertBudget hpos hwithin hnote hcall

theorem Noted.call {before after : List Note} {call : Call} {answer : Answer (Found call)}
    (hpos : 0 < limits.dailyMaxClaims) (hcall : allowed limits note call)
    (hperformed : Performs call s answer t) (h : Noted limits s (before ++ note :: after)) :
    Noted limits t (before ++ record note call answer :: after) := by
  have hnote := h.upheld note (by simp)
  have hadvances : Advances limits s t (record note call answer) := by
    rcases hperformed with hhandled | ⟨rfl, message, rfl⟩
    · have hanswer := congrArg Prod.fst hhandled
      have hstate := congrArg Prod.snd hhandled
      dsimp only at hanswer hstate
      rw [← hanswer, ← hstate]
      exact advances_handle hpos h.within hnote hcall
    · apply advances_of_same h.within rfl
      rw [record_error]
      exact fun hsame => by cases hsame
  refine ⟨hadvances.within, ?_⟩
  intro other hmem
  rcases List.mem_append.mp hmem with hmem | hmem
  · exact (h.upheld other (List.mem_append_left _ hmem)).mono hadvances.spent
  · rcases List.mem_cons.mp hmem with rfl | hmem
    · exact hadvances.upheld
    · exact (h.upheld other (by simp [hmem])).mono hadvances.spent

/-- A call of `reserve` keeps to its notes, and they explain its result. -/
theorem keeps_of_starts {p : CallProg (Answer Reservation)} (h : Starts limits note p) :
    Keeps record (allowed limits) (fun note r => Explained note.ending r) note p := by
  obtain ⟨rfl, lockHash, address, now, rfl⟩ := h
  exact keeps_split follows_reserve

theorem noted_of_runs {room : ReserveRoom} (hpos : 0 < limits.dailyMaxClaims)
    (hwithin : ∀ doc ∈ s.budgets.docs, doc.claims ≤ limits.dailyMaxClaims)
    (h : ReserveRuns limits ⟨s, []⟩ room) : Noted limits room.state room.notes := by
  have hkeeps : ∀ note p, Starts limits note p →
      Keeps record (allowed limits) (fun _ _ => True) note p := fun note p hp =>
    (keeps_of_starts hp).mono fun _ _ _ => trivial
  have hstart : ∀ s notes note (p : CallProg (Answer Reservation)), Starts limits note p →
      Noted limits s notes → Noted limits s (note :: notes) := by
    intro s notes note p hp hnoted
    refine ⟨hnoted.within, ?_⟩
    intro other hmem
    rcases List.mem_cons.mp hmem with rfl | hmem
    · obtain ⟨rfl, -⟩ := hp
      trivial
    · exact hnoted.upheld other hmem
  have hempty : Noted limits s [] := ⟨hwithin, nofun⟩
  exact (run_invariant hkeeps hstart
    (fun s t before after note call answer hcall hperformed hnoted => hnoted.call hpos hcall hperformed)
    h nofun hempty).2

end

/-- Every interleaving of calls of `reserve` in which no insert collides after an
update that found no document: a call is refused for the daily limit only when
the day's budget is spent. -/
theorem refused_when_spent {limits : ClaimLimits} {s : State} {room : ReserveRoom}
    (hpos : 0 < limits.dailyMaxClaims)
    (hwithin : ∀ doc ∈ s.budgets.docs, doc.claims ≤ limits.dailyMaxClaims)
    (hrun : ReserveRuns limits ⟨s, []⟩ room) (hraces : ∀ existing, .refused existing true ∉ room.notes) :
    ∀ session ∈ room.sessions, session.program = .pure (.error dailyLimit) →
      ∃ existing, session.note = .refused existing false ∧
        room.state.budgets.find? existing.day = some existing ∧ Spent limits existing := by
  intro session hmem hrefused
  have hnoted := noted_of_runs hpos hwithin hrun
  have hnote : session.note ∈ room.notes := List.mem_map_of_mem hmem
  have hkeeping := run_keeping (fun note p => keeps_of_starts) hrun nofun session hmem
  rw [hrefused] at hkeeping
  have hending := hkeeping rfl
  have hupheld := hnoted.upheld session.note hnote
  cases hnoteis : session.note with
  | refused existing raced =>
      rw [hnoteis] at hnote hupheld
      cases raced with
      | true => exact absurd hnote (hraces existing)
      | false => exact ⟨existing, rfl, hupheld rfl⟩
  | failed error =>
      rw [hnoteis] at hending hupheld
      rcases hending with hending | hending
      · cases hending
      · exact absurd (Ending.failed.inj hending) hupheld
  | _ =>
      rw [hnoteis] at hending
      rcases hending with hending | hending <;> cases hending

section
open State (empty)

def exampleLimits (dailyMaxClaims : ℤ) : ClaimLimits where
  cooldownMs := 86400000
  reservationTimeoutMs := 300000
  dripAmount := 100
  dailyMaxClaims := dailyMaxClaims
  dailyMaxTokens := 100000

/-- Two recipients, whose calls take turns as a schedule says. -/
def exampleRoom (dailyMaxClaims : ℤ) (schedule : List ℕ) : ReserveRoom :=
  let session (lockHash : String) : Session Call (fun call => Answer (Found call)) Note
      (Answer Reservation) :=
    ⟨.idle, split (reserve (exampleLimits dailyMaxClaims) lockHash "ckt1" 0).run⟩
  schedule.foldl (turn handle record) ⟨empty, [session "0x01", session "0x02"]⟩

theorem exampleRoom_runs (dailyMaxClaims : ℤ) (schedule : List ℕ) :
    ReserveRuns (exampleLimits dailyMaxClaims) ⟨empty, []⟩ (exampleRoom dailyMaxClaims schedule) := by
  have hstart : ∀ lockHash sessions, ReserveRuns (exampleLimits dailyMaxClaims) ⟨empty, sessions⟩
      ⟨empty, ⟨.idle, split (reserve (exampleLimits dailyMaxClaims) lockHash "ckt1" 0).run⟩ :: sessions⟩ :=
    fun lockHash sessions => .single (.start empty sessions .idle _ ⟨rfl, lockHash, "ckt1", 0, rfl⟩)
  apply ((hstart "0x02" []).trans (hstart "0x01" _)).trans
  have hhandle : ∀ call s, Performs call s (handle call s).1 (handle call s).2 := fun _ _ => Or.inl rfl
  exact run_turns hhandle _ schedule

/-- One recipient after the other, with a budget of one claim. -/
def exampleTurns : ReserveRoom := exampleRoom 1 [1, 1, 1, 1, 1, 0, 0, 0, 0, 0, 0]

theorem refused_when_spent_example :
    (∃ session ∈ exampleTurns.sessions, session.program = .pure (.error dailyLimit)) ∧
    ∀ session ∈ exampleTurns.sessions, session.program = .pure (.error dailyLimit) →
      ∃ existing, session.note = .refused existing false ∧
        exampleTurns.state.budgets.find? existing.day = some existing ∧
        Spent (exampleLimits 1) existing := by
  have hnotes : ∃ fits, exampleTurns.notes = [.refused ⟨0, 1, .finite 100 fits⟩ false, .absent 0] :=
    ⟨by decide, by rfl⟩
  have hraces : ∀ existing, .refused existing true ∉ exampleTurns.notes := by
    intro existing hmem
    obtain ⟨fits, hnotes⟩ := hnotes
    rw [hnotes] at hmem
    simp at hmem
  constructor
  · exact ⟨_, List.mem_cons_self, rfl⟩
  · have hwithin : ∀ doc ∈ State.empty.budgets.docs, doc.claims ≤ (exampleLimits 1).dailyMaxClaims :=
      fun _ hdoc => absurd hdoc List.not_mem_nil
    exact refused_when_spent (by decide) hwithin (exampleRoom_runs 1 _) hraces

/-- Both look for the day's document before one of them inserts it: the other is
refused when one claim of three is taken. -/
theorem first_claim_refused : ∃ room, ReserveRuns (exampleLimits 3) ⟨empty, []⟩ room ∧
    ∃ session ∈ room.sessions, session.program = .pure (.error dailyLimit) ∧
      ∃ existing, session.note = .refused existing true ∧
        room.state.budgets.find? existing.day = some existing ∧ existing.claims = 1 ∧
        ¬Spent (exampleLimits 3) existing := by
  have hfits : Fits 100 := by decide
  refine ⟨exampleRoom 3 [0, 1, 0, 1, 0, 1, 0, 1, 1, 0, 0], exampleRoom_runs 3 _,
    ⟨.refused ⟨0, 1, .finite 100 hfits⟩ true, .pure (.error dailyLimit)⟩, List.mem_cons_self, rfl,
    ⟨0, 1, .finite 100 hfits⟩, rfl, rfl, rfl, ?_⟩
  rintro (hclaims | ⟨room, hroom, hfull⟩)
  · have hclaims : (1 : ℤ) = 3 := hclaims
    omega
  · have hfits' : Fits 99900 := by decide
    have hroom' : decimal 99900 = .ok (.finite 99900 hfits') := rfl
    rw [show decimal 99900 = .ok room from hroom] at hroom'
    rw [Except.ok.inj hroom'] at hfull
    have hfull : decide ((100 : ℤ) ≤ 99900) = false := hfull
    exact absurd hfull (by decide)

end

end CkbDex.UpsertRaces
