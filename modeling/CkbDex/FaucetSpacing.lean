import CkbDex.FaucetClaims

/-!
# What spaces the mints of a recipient

The claim document remembers every mint that was broadcast before its reservation
was made. Each call keeps this, when the reservation is current at the broadcast.
-/
namespace CkbDex.FaucetCooldowns
open Collections Documents Faucet Interleaving Sessions

/-- The document remembers a mint as claimed. -/
def Covered (doc : ClaimDocument) (mint : Mint) : Prop :=
  ∃ time, doc.lastClaimedAt = some time ∧ mint.time ≤ time

/-- A document covers its recipient's mints, or is reserved when the ones under
other ids have cooled down. -/
structure Sound (limits : ClaimLimits) (s : State) (doc : ClaimDocument) : Prop where
  covered : doc.status ≠ some .reserved → ∀ mint ∈ s.minted, mint.lockHash = doc.id →
    Covered doc mint
  reserved : ∀ id, doc.reservationId = some id → doc.status = some .reserved ∧ id < s.issued
  cooled : ∀ id, doc.reservationId = some id → ∀ earlier ∈ s.minted, earlier.lockHash = doc.id →
    earlier.reservationId ≠ id → earlier.time + limits.cooldownMs ≤ s.clock ∧
      ∀ later ∈ s.minted, later.lockHash = doc.id → later.reservationId = id →
        earlier.time ≤ later.time
  dated : doc.status = some .reserved → doc.reservedAt ≠ none → doc.reservationId ≠ none

/-- The mints of a recipient are at least a cooldown apart. -/
def Apart (limits : ClaimLimits) (s : State) : Prop :=
  s.minted.Pairwise fun later earlier => later.lockHash = earlier.lockHash →
    earlier.time + limits.cooldownMs ≤ later.time

structure Spaced (limits : ClaimLimits) (s : State) : Prop where
  apart : Apart limits s
  past : ∀ mint ∈ s.minted, mint.time ≤ s.clock
  issued : ∀ mint ∈ s.minted, mint.reservationId < s.issued
  known : ∀ mint ∈ s.minted, s.claims.find? mint.lockHash ≠ none
  sound : ∀ doc ∈ s.claims.docs, Sound limits s doc

def owner : Note → Option ℕ
  | .drawn _ id | .sent _ id | .stamped _ id _ => some id
  | .holding reservation => some reservation.reservationId
  | .idle | .read _ | .lost => none

def Broadcast (s : State) (lockHash : String) (id : ℕ) : Prop :=
  ∃ mint ∈ s.minted, mint.lockHash = lockHash ∧ mint.reservationId = id

/-- What the state shows of a session. -/
def Upheld (s : State) : Note → Prop
  | .idle => True
  | .read now => now ≤ s.clock
  | .drawn now id => now ≤ s.clock ∧ (∀ mint ∈ s.minted, mint.reservationId ≠ id) ∧
      ∀ doc ∈ s.claims.docs, doc.reservationId ≠ some id
  | .holding reservation => (∀ mint ∈ s.minted, mint.reservationId ≠ reservation.reservationId) ∧
      ∀ doc, s.mine reservation.lockHash reservation.reservationId = some doc →
        ∀ mint ∈ s.minted, mint.lockHash = reservation.lockHash → reservation.hadPrevious = true ∧
          (reservation.previousStatus = some .reserved ∨ Covered doc mint)
  | .sent lockHash id => Broadcast s lockHash id
  | .stamped lockHash id time => Broadcast s lockHash id ∧
      ∀ mint ∈ s.minted, mint.reservationId = id → mint.time ≤ time
  | .lost => False

/-- A mint is broadcast while its reservation is current, and a reservation
whose mint was broadcast is not retaken. -/
def InTime (s : State) : Op → Prop
  | .send lockHash id => s.mine lockHash id ≠ none
  | .reserveClaim lockHash _ _ _ stale _ => ∀ doc, s.claims.find? lockHash = some doc →
      doc.status = some .reserved → (doc.reservedAt.any fun time => time ≤ stale) = true →
      ∀ id, doc.reservationId = some id → ¬Broadcast s lockHash id
  | _ => True

section
variable {limits : ClaimLimits} {s t : State} {note : Note} {doc : ClaimDocument}
  {lockHash address : String} {id : ℕ}

theorem mine_eq_some : s.mine lockHash id = some doc ↔
    s.claims.find? lockHash = some doc ∧ doc.reservationId = some id := by
  rw [State.mine, Option.filter_eq_some_iff, decide_eq_true_eq]

theorem Upheld.put (h : Upheld s note) (ht : t = { s with claims := s.claims.put doc })
    (hdoc : ∀ id, owner note = some id → doc.reservationId ≠ some id) : Upheld t note := by
  subst ht
  cases note with
  | drawn now id =>
      obtain ⟨hnow, hminted, hdocs⟩ := h
      refine ⟨hnow, hminted, fun other hother => ?_⟩
      rcases Collection.mem_docs_put.mp hother with rfl | ⟨hother, -⟩
      · exact hdoc id rfl
      · exact hdocs other hother
  | holding reservation =>
      refine ⟨h.1, fun other hother => ?_⟩
      obtain ⟨hfind, hid⟩ := mine_eq_some.mp hother
      rw [Collection.find?_put] at hfind
      split_ifs at hfind
      · obtain rfl := Option.some_inj.mp hfind
        exact (hdoc _ rfl hid).elim
      · exact h.2 other (mine_eq_some.mpr ⟨hfind, hid⟩)
  | _ => exact h

theorem Spaced.put (h : Spaced limits s) (ht : t = { s with claims := s.claims.put doc })
    (hdoc : Sound limits s doc) : Spaced limits t := by
  subst ht
  refine ⟨h.apart, h.past, h.issued, fun mint hmint => ?_, fun other hother => ?_⟩
  · rw [Collection.find?_put]
    split_ifs
    · exact Option.some_ne_none _
    · exact h.known mint hmint
  · rcases Collection.mem_docs_put.mp hother with rfl | ⟨hother, -⟩
    · exact ⟨hdoc.covered, hdoc.reserved, hdoc.cooled, hdoc.dated⟩
    · have hold := h.sound other hother
      exact ⟨hold.covered, hold.reserved, hold.cooled, hold.dated⟩

/-- Calls that leave the claims and the mints alone. -/
theorem Upheld.of_same (h : Upheld s note) (hclaims : t.claims = s.claims)
    (hminted : t.minted = s.minted) (hclock : s.clock ≤ t.clock) : Upheld t note := by
  cases note with
  | idle => trivial
  | read now => exact h.trans hclock
  | drawn now id =>
      simp only [Upheld, hclaims, hminted] at h ⊢
      exact ⟨h.1.trans hclock, h.2⟩
  | holding reservation =>
      simp only [Upheld, State.mine, hclaims, hminted] at h ⊢
      exact h
  | sent lockHash id =>
      simp only [Upheld, Broadcast, hminted] at h ⊢
      exact h
  | stamped lockHash id time =>
      simp only [Upheld, Broadcast, hminted] at h ⊢
      exact h
  | lost => exact h

theorem Spaced.of_same (h : Spaced limits s) (hclaims : t.claims = s.claims)
    (hminted : t.minted = s.minted) (hclock : s.clock ≤ t.clock) (hissued : s.issued ≤ t.issued) :
    Spaced limits t := by
  refine ⟨?_, ?_, ?_, ?_, ?_⟩
  · rw [Apart, hminted]
    exact h.apart
  · rw [hminted]
    exact fun mint hmint => (h.past mint hmint).trans hclock
  · rw [hminted]
    exact fun mint hmint => (h.issued mint hmint).trans_le hissued
  · rw [hminted, hclaims]
    exact h.known
  · rw [hclaims]
    intro doc hdoc
    have hsound := h.sound doc hdoc
    refine ⟨?_, fun id hid => ?_, fun id hid => ?_, hsound.dated⟩
    · rw [hminted]
      exact hsound.covered
    · exact ⟨(hsound.reserved id hid).1, (hsound.reserved id hid).2.trans_le hissued⟩
    · rw [hminted]
      intro earlier hearlier hlock hne
      obtain ⟨hcooled, hsorted⟩ := hsound.cooled id hid earlier hearlier hlock hne
      exact ⟨hcooled.trans hclock, hsorted⟩

/-- A claim of a new recipient. -/
theorem Spaced.sound_newClaim (h : Spaced limits s) (hnone : s.claims.find? lockHash = none)
    {now : ℤ} (hid : id < s.issued) : Sound limits s (newClaim lockHash address now id) := by
  refine ⟨fun hstatus => (hstatus rfl).elim, fun id' hid' => ?_, fun id' _ earlier hearlier hlock => ?_,
    fun _ _ => Option.some_ne_none id⟩
  · obtain rfl := Option.some_inj.mp hid'
    exact ⟨rfl, hid⟩
  · have hsame : earlier.lockHash = lockHash := hlock
    exact (h.known earlier hearlier (hsame ▸ hnone)).elim

/-- A claim that is free: what it remembers has cooled down, and an abandoned
reservation was not broadcast. -/
theorem Sound.reservedClaim (h : Sound limits s doc) {now : ℤ}
    (hfree : free (now - limits.cooldownMs) (now - limits.reservationTimeoutMs) doc = true)
    (hnow : now ≤ s.clock) (hid : id < s.issued) (hunused : ∀ mint ∈ s.minted, mint.reservationId ≠ id)
    (habandoned : doc.status = some .reserved →
      (doc.reservedAt.any fun time => time ≤ now - limits.reservationTimeoutMs) = true →
      ∀ id, doc.reservationId = some id → ¬Broadcast s doc.id id) :
    Sound limits s (reservedClaim address now id doc) := by
  have hcooled : ∀ earlier ∈ s.minted, earlier.lockHash = doc.id →
      earlier.time + limits.cooldownMs ≤ s.clock := by
    intro earlier hearlier hlock
    simp only [free, Bool.or_eq_true, Bool.and_eq_true, decide_eq_true_eq, Bool.not_eq_true'] at hfree
    rcases hfree with ⟨hstatus, hclaimed⟩ | ⟨hstatus, hstale⟩
    · obtain ⟨time, hlast, hle⟩ := h.covered hstatus earlier hearlier hlock
      simp only [hlast, Option.any_some, decide_eq_false_iff_not] at hclaimed
      omega
    · have hdate : doc.reservedAt ≠ none := by
        intro hnone
        rw [hnone] at hstale
        cases hstale
      obtain ⟨old, hold⟩ := Option.ne_none_iff_exists'.mp (h.dated hstatus hdate)
      have hne : earlier.reservationId ≠ old := fun heq =>
        habandoned hstatus hstale old hold ⟨earlier, hearlier, hlock, heq⟩
      exact (h.cooled old hold earlier hearlier hlock hne).1
  refine ⟨fun hstatus => (hstatus rfl).elim, fun id' hid' => ?_,
    fun id' hid' earlier hearlier hlock _ => ⟨hcooled earlier hearlier hlock, ?_⟩,
    fun _ _ => Option.some_ne_none id⟩
  · obtain rfl := Option.some_inj.mp hid'
    exact ⟨rfl, hid⟩
  · obtain rfl := Option.some_inj.mp hid'
    exact fun later hlater _ heq => (hunused later hlater heq).elim

/-- A commit covers the mint under its id, and those before it. -/
theorem Sound.sentClaim (h : Sound limits s doc) (hdoc : s.mine lockHash id = some doc) {time : ℤ}
    (hstamped : Upheld s (.stamped lockHash id time)) (txHash : Hex) :
    Sound limits s (sentClaim txHash time doc) := by
  obtain ⟨hfind, hid⟩ := mine_eq_some.mp hdoc
  have hlock : doc.id = lockHash := Collection.key_of_find? hfind
  obtain ⟨⟨mint, hmint, hmintLock, hmintId⟩, hbefore⟩ := hstamped
  refine ⟨fun _ earlier hearlier hsame => ⟨time, rfl, ?_⟩, nofun, nofun, nofun⟩
  by_cases heq : earlier.reservationId = id
  · exact hbefore earlier hearlier heq
  · exact ((h.cooled id hid earlier hearlier hsame heq).2 mint hmint (hmintLock.trans hlock.symm)
      hmintId).trans (hbefore mint hmint hmintId)

/-- An undo restores what was true before the reservation. -/
theorem Sound.restoredClaim {reservation : Reservation}
    (hdoc : s.mine reservation.lockHash reservation.reservationId = some doc)
    (hholding : Upheld s (.holding reservation)) :
    Sound limits s (restoredClaim (reservation.previousStatus.getD .sent) doc) := by
  have hlock : doc.id = reservation.lockHash := Collection.key_of_find? (mine_eq_some.mp hdoc).1
  refine ⟨fun hstatus earlier hearlier hsame => ?_, nofun, nofun, fun _ hdate => (hdate rfl).elim⟩
  obtain ⟨-, hprevious | hcovered⟩ :=
    hholding.2 doc hdoc earlier hearlier (hsame.trans hlock)
  · simp [Faucet.restoredClaim, hprevious] at hstatus
  · exact hcovered

theorem Upheld.deleteWhere (h : Upheld s note) {p : ClaimDocument → Bool} :
    Upheld { s with claims := s.claims.deleteWhere p } note := by
  cases note with
  | drawn now id =>
      exact ⟨h.1, h.2.1, fun doc hdoc => h.2.2 doc (Collection.mem_docs_deleteWhere.mp hdoc).1⟩
  | holding reservation =>
      refine ⟨h.1, fun doc hdoc => ?_⟩
      obtain ⟨hfind, hid⟩ := mine_eq_some.mp hdoc
      rw [Collection.find?_deleteWhere] at hfind
      exact h.2 doc (mine_eq_some.mpr ⟨(Option.filter_eq_some_iff.mp hfind).1, hid⟩)
  | _ => exact h

theorem Spaced.deleteWhere (h : Spaced limits s) {p : ClaimDocument → Bool}
    (hp : ∀ doc, s.claims.find? doc.id = some doc → p doc = true → ∀ mint ∈ s.minted,
      mint.lockHash ≠ doc.id) :
    Spaced limits { s with claims := s.claims.deleteWhere p } := by
  refine ⟨h.apart, h.past, h.issued, fun mint hmint => ?_, fun doc hdoc => ?_⟩
  · obtain ⟨doc, hfind⟩ := Option.ne_none_iff_exists'.mp (h.known mint hmint)
    have hlock : doc.id = mint.lockHash := Collection.key_of_find? hfind
    have hkept : (!p doc) = true := by
      by_contra hdeleted
      exact hp doc (hlock ▸ hfind) (by simpa using hdeleted) mint hmint hlock.symm
    rw [Collection.find?_deleteWhere, hfind, Option.filter_some_pos (p := fun a => !p a) hkept]
    exact Option.some_ne_none _
  · have hsound := h.sound doc (Collection.mem_docs_deleteWhere.mp hdoc).1
    exact ⟨hsound.covered, hsound.reserved, hsound.cooled, hsound.dated⟩

/-- The state after a broadcast. -/
def afterSend (s : State) (lockHash : String) (id : ℕ) : State :=
  { s with minted := ⟨lockHash, id, s.clock⟩ :: s.minted }

theorem Upheld.send (h : Upheld s note) (hmine : s.mine lockHash id ≠ none)
    (howner : owner note ≠ some id) : Upheld (afterSend s lockHash id) note := by
  cases note with
  | drawn now id' =>
      refine ⟨h.1, fun mint hmint => ?_, h.2.2⟩
      rcases List.mem_cons.mp hmint with rfl | hmint
      · exact fun heq => howner (congrArg some heq.symm)
      · exact h.2.1 mint hmint
  | holding reservation =>
      refine ⟨fun mint hmint => ?_, fun doc hdoc mint hmint hlock => ?_⟩
      · rcases List.mem_cons.mp hmint with rfl | hmint
        · exact fun heq => howner (congrArg some heq.symm)
        · exact h.1 mint hmint
      · have hdoc' : s.mine reservation.lockHash reservation.reservationId = some doc := hdoc
        rcases List.mem_cons.mp hmint with rfl | hmint
        · -- The document carries the id of the mint, not this one.
          obtain ⟨other, hother⟩ := Option.ne_none_iff_exists'.mp hmine
          have hsame : lockHash = reservation.lockHash := hlock
          rw [hsame] at hother
          obtain ⟨hfind, hid⟩ := mine_eq_some.mp hother
          obtain ⟨hfind', hid'⟩ := mine_eq_some.mp hdoc'
          obtain rfl := Option.some_inj.mp (hfind.symm.trans hfind')
          exact (howner (hid'.symm.trans hid)).elim
        · exact h.2 doc hdoc' mint hmint hlock
  | sent lockHash' id' =>
      obtain ⟨mint, hmint, hrest⟩ := h
      exact ⟨mint, List.mem_cons_of_mem _ hmint, hrest⟩
  | stamped lockHash' id' time =>
      obtain ⟨⟨mint, hmint, hrest⟩, hbefore⟩ := h
      refine ⟨⟨mint, List.mem_cons_of_mem _ hmint, hrest⟩, fun mint hmint heq => ?_⟩
      rcases List.mem_cons.mp hmint with rfl | hmint
      · exact (howner (congrArg some heq.symm)).elim
      · exact hbefore mint hmint heq
  | _ => exact h

/-- A mint under the current reservation of its recipient. -/
theorem Spaced.send (h : Spaced limits s) (hdoc : s.mine lockHash id = some doc)
    (hunsent : ∀ mint ∈ s.minted, mint.reservationId ≠ id) :
    Spaced limits (afterSend s lockHash id) := by
  obtain ⟨hfind, hid⟩ := mine_eq_some.mp hdoc
  have hlock : doc.id = lockHash := Collection.key_of_find? hfind
  have hsound := h.sound doc (Collection.find?_eq_some.mp hfind).1
  obtain ⟨hstatus, hissued⟩ := hsound.reserved id hid
  have hunique : ∀ other ∈ s.claims.docs, lockHash = other.id → other = doc := by
    intro other hother heq
    refine Option.some_inj.mp ((Collection.find?_of_mem hother).symm.trans ?_)
    rw [← heq]
    exact hfind
  refine ⟨?_, fun mint hmint => ?_, fun mint hmint => ?_, fun mint hmint => ?_, fun other hother => ?_⟩
  · refine List.pairwise_cons.mpr ⟨fun earlier hearlier hsame => ?_, h.apart⟩
    have hearlierLock : earlier.lockHash = doc.id := hsame.symm.trans hlock.symm
    exact (hsound.cooled id hid earlier hearlier hearlierLock (hunsent earlier hearlier)).1
  · rcases List.mem_cons.mp hmint with rfl | hmint
    · exact le_rfl
    · exact h.past mint hmint
  · rcases List.mem_cons.mp hmint with rfl | hmint
    · exact hissued
    · exact h.issued mint hmint
  · rcases List.mem_cons.mp hmint with rfl | hmint
    · exact Option.ne_none_iff_exists'.mpr ⟨doc, hfind⟩
    · exact h.known mint hmint
  · have hold := h.sound other hother
    refine ⟨fun hother' mint hmint hsame => ?_, hold.reserved,
      fun id' hid' earlier hearlier hsame hne => ?_, hold.dated⟩
    · rcases List.mem_cons.mp hmint with rfl | hmint
      · rw [hunique other hother hsame] at hother'
        exact (hother' hstatus).elim
      · exact hold.covered hother' mint hmint hsame
    · rcases List.mem_cons.mp hearlier with rfl | hearlier
      · rw [hunique other hother hsame, hid] at hid'
        exact (hne (Option.some_inj.mp hid')).elim
      · obtain ⟨hcooled, hsorted⟩ := hold.cooled id' hid' earlier hearlier hsame hne
        refine ⟨hcooled, fun later hlater hlaterLock hlaterId => ?_⟩
        rcases List.mem_cons.mp hlater with rfl | hlater
        · exact h.past earlier hearlier
        · exact hsorted later hlater hlaterLock hlaterId

/-- The mints are spaced, and every session's note is upheld. -/
abbrev Kept (limits : ClaimLimits) (s : State) (notes : List Note) : Prop :=
  Spaced limits s ∧ Identified owner State.issued Upheld s notes

section
variable {op : Op} {before after : List Note} {txHash : Hex}

theorem Kept.of_same {notes : List Note} (h : Kept limits s notes) (hclaims : t.claims = s.claims)
    (hminted : t.minted = s.minted) (hclock : s.clock ≤ t.clock) (hissued : s.issued ≤ t.issued) :
    Kept limits t notes :=
  ⟨h.1.of_same hclaims hminted hclock hissued,
    h.2.mono (fun _ hnote => hnote.of_same hclaims hminted hclock) hissued⟩

/-- A document is written that no other session relies on. -/
theorem Kept.put (h : Kept limits s (before ++ note :: after))
    (ht : t = { s with claims := s.claims.put doc }) (hdoc : Sound limits s doc)
    (hid : ∀ id, doc.reservationId = some id → owner note = some id) {note' : Note}
    (hnote : Upheld t note') (howner : owner note' = owner note) :
    Kept limits t (before ++ note' :: after) := by
  have hissued : t.issued = s.issued := by rw [ht]
  refine ⟨h.1.put ht hdoc, h.2.call hnote hissued.ge (Or.inl howner) fun other hother hids => ?_⟩
  exact hother.put ht fun id hown hdocId => (hids id hown).2 (hid id hdocId)

theorem kept_reserveClaim (h : Kept limits s (before ++ note :: after)) {now cutoff stale : ℤ}
    (hop : allowed limits note (.reserveClaim lockHash address now cutoff stale id))
    (hin : InTime s (.reserveClaim lockHash address now cutoff stale id)) :
    Kept limits (s.reserveClaim lockHash address now cutoff stale id).2
      (before ++ record note (.reserveClaim lockHash address now cutoff stale id)
        (.ok (s.reserveClaim lockHash address now cutoff stale id).1) :: after) := by
  have hcaller := h.2.caller
  obtain ⟨rfl, rfl, rfl⟩ : note = .drawn now id ∧ cutoff = now - limits.cooldownMs ∧
      stale = now - limits.reservationTimeoutMs := by
    cases note <;> first | exact hop | exact hcaller.elim
  obtain ⟨hnow, hunused, -⟩ := hcaller
  have hissued : id < s.issued := h.2.drawn (.drawn now id) (by simp) id rfl
  unfold State.reserveClaim
  cases hfind : s.claims.find? lockHash with
  | none =>
      refine h.put rfl (h.1.sound_newClaim hfind hissued) (fun _ hid => hid) ⟨hunused, ?_⟩ rfl
      intro doc hdoc mint hmint hlock
      have hsame : mint.lockHash = lockHash := hlock
      exact (h.1.known mint hmint (hsame ▸ hfind)).elim
  | some doc =>
      have hkey : doc.id = lockHash := Collection.key_of_find? hfind
      have hsound := h.1.sound doc (Collection.find?_eq_some.mp hfind).1
      by_cases hfree : free (now - limits.cooldownMs) (now - limits.reservationTimeoutMs) doc = true
      · simp only [hfree, if_true]
        have habandoned := hin doc hfind
        rw [← hkey] at habandoned
        refine h.put rfl (hsound.reservedClaim hfree hnow hissued hunused habandoned)
          (fun _ hid => hid) ⟨hunused, ?_⟩ rfl
        intro other hother mint hmint hlock
        refine ⟨rfl, ?_⟩
        obtain ⟨hfind', -⟩ := mine_eq_some.mp hother
        have hother' : other = reservedClaim address now id doc := by
          have hput := Collection.find?_put_self (c := s.claims) (a := reservedClaim address now id doc)
          have hkey' : (reservedClaim address now id doc).id = lockHash := hkey
          rw [hkey'] at hput
          exact Option.some_inj.mp (hfind'.symm.trans hput)
        by_cases hstatus : doc.status = some .reserved
        · exact Or.inl hstatus
        · right
          rw [hother']
          exact hsound.covered hstatus mint hmint (hlock.trans hkey.symm)
      · simp only [hfree, Bool.false_eq_true, if_false]
        exact h

theorem kept_commitClaim (h : Kept limits s (before ++ note :: after)) {time : ℤ}
    (hop : allowed limits note (.commitClaim lockHash id txHash time)) :
    Kept limits (s.updateMine lockHash id (sentClaim txHash time)) (before ++ note :: after) := by
  have hcaller := h.2.caller
  obtain rfl : note = .stamped lockHash id time := by
    cases note <;> first | exact hop | exact hcaller.elim
  unfold State.updateMine
  cases hmine : s.mine lockHash id with
  | none => exact h
  | some doc =>
      obtain ⟨hfind, -⟩ := mine_eq_some.mp hmine
      have hsound := h.1.sound doc (Collection.find?_eq_some.mp hfind).1
      exact h.put rfl (hsound.sentClaim hmine hcaller txHash) nofun (hcaller.put rfl nofun) rfl

theorem kept_restoreClaim (h : Kept limits s (before ++ note :: after)) {status : ClaimStatus}
    (hop : allowed limits note (.restoreClaim lockHash id status)) :
    Kept limits (s.updateMine lockHash id (restoredClaim status)) (before ++ note :: after) := by
  have hcaller := h.2.caller
  obtain ⟨reservation, rfl, -, rfl, rfl, rfl⟩ : ∃ reservation, note = .holding reservation ∧
      reservation.hadPrevious = true ∧ lockHash = reservation.lockHash ∧
      id = reservation.reservationId ∧ status = reservation.previousStatus.getD .sent := by
    cases note <;> first | exact hop | exact hcaller.elim
  unfold State.updateMine
  cases hmine : s.mine reservation.lockHash reservation.reservationId with
  | none => exact h
  | some doc => exact h.put rfl (Sound.restoredClaim hmine hcaller) nofun (hcaller.put rfl nofun) rfl

theorem kept_deleteClaim (h : Kept limits s (before ++ note :: after))
    (hop : allowed limits note (.deleteClaim lockHash id)) :
    Kept limits
      { s with claims := s.claims.deleteWhere fun doc => doc.id = lockHash && doc.reservationId = some id }
      (before ++ note :: after) := by
  have hcaller := h.2.caller
  obtain ⟨reservation, rfl, hprevious, rfl, rfl⟩ : ∃ reservation, note = .holding reservation ∧
      reservation.hadPrevious = false ∧ lockHash = reservation.lockHash ∧
      id = reservation.reservationId := by
    cases note <;> first | exact hop | exact hcaller.elim
  refine ⟨h.1.deleteWhere fun doc hfind hdoc mint hmint hlock => ?_, h.2.mono ?_ le_rfl⟩
  · simp only [Bool.and_eq_true, decide_eq_true_eq] at hdoc
    obtain ⟨hkey, hid⟩ := hdoc
    rw [hkey] at hfind hlock
    obtain ⟨hhad, -⟩ := hcaller.2 doc (mine_eq_some.mpr ⟨hfind, hid⟩) mint hmint hlock
    rw [hprevious] at hhad
    cases hhad
  · exact fun other hother => hother.deleteWhere

theorem kept_send (h : Kept limits s (before ++ note :: after))
    (hop : allowed limits note (.send lockHash id)) (hin : InTime s (.send lockHash id)) :
    Kept limits (afterSend s lockHash id) (before ++ .sent lockHash id :: after) := by
  have hcaller := h.2.caller
  obtain ⟨reservation, rfl, rfl, rfl⟩ : ∃ reservation, note = .holding reservation ∧
      lockHash = reservation.lockHash ∧ id = reservation.reservationId := by
    cases note <;> first | exact hop | exact hcaller.elim
  obtain ⟨doc, hdoc⟩ := Option.ne_none_iff_exists'.mp hin
  refine ⟨h.1.send hdoc hcaller.1, h.2.call ?_ le_rfl (Or.inl rfl) fun other hother hids => ?_⟩
  · exact ⟨_, List.mem_cons_self, rfl, rfl⟩
  · exact hother.send hin fun hown => (hids _ hown).2 rfl

/-- A call that a claim makes in time keeps the mints spaced. -/
theorem kept_handle (h : Kept limits s (before ++ note :: after)) (hop : allowed limits note op)
    (hin : InTime s op) :
    Kept limits (handle txHash op s).2 (before ++ record note op (handle txHash op s).1 :: after) := by
  have hcaller := h.2.caller
  cases op with
  | now =>
      refine ⟨h.1, h.2.call ?_ le_rfl (Or.inl ?_) fun other hother _ => hother⟩
      · cases note with
        | idle => exact le_refl s.clock
        | sent lockHash id => exact ⟨hcaller, fun mint hmint _ => h.1.past mint hmint⟩
        | stamped lockHash id time => exact ⟨hcaller.1, fun mint hmint _ => h.1.past mint hmint⟩
        | _ => exact hcaller
      · cases note <;> rfl
  | randomUUID =>
      obtain ⟨now, rfl⟩ : ∃ now, note = .read now := by
        cases note <;> first | exact hop | exact hcaller.elim
      have hsame : Kept limits { s with issued := s.issued + 1 } (before ++ .read now :: after) :=
        h.of_same rfl rfl le_rfl (Nat.le_succ _)
      refine ⟨hsame.1, h.2.call ?_ (Nat.le_succ _) (Or.inr ⟨rfl, rfl, Nat.lt_succ_self _⟩) ?_⟩
      · refine ⟨hcaller, fun mint hmint => (h.1.issued mint hmint).ne, fun doc hdoc hid => ?_⟩
        exact ((h.1.sound doc hdoc).reserved _ hid).2.ne rfl
      · exact fun other hother _ => hother.of_same rfl rfl le_rfl
  | reserveClaim lockHash address now cutoff stale id => exact kept_reserveClaim h hop hin
  | commitClaim lockHash id txHash time =>
      have hsame : record note (.commitClaim lockHash id txHash time) (.ok ()) = note := by
        cases note <;> rfl
      simp only [Faucet.handle, hsame]
      exact kept_commitClaim h hop
  | deleteClaim lockHash id =>
      have hsame : record note (.deleteClaim lockHash id) (.ok ()) = note := by cases note <;> rfl
      simp only [Faucet.handle, hsame]
      exact kept_deleteClaim h hop
  | restoreClaim lockHash id status =>
      have hsame : record note (.restoreClaim lockHash id status) (.ok ()) = note := by
        cases note <;> rfl
      simp only [Faucet.handle, hsame]
      exact kept_restoreClaim h hop
  | send lockHash id =>
      have hsent : record note (.send lockHash id) (.ok txHash) = .sent lockHash id := by
        obtain ⟨reservation, rfl, -⟩ : ∃ reservation, note = .holding reservation ∧
            lockHash = reservation.lockHash ∧ id = reservation.reservationId := by
          cases note <;> first | exact hop | exact hcaller.elim
        rfl
      simp only [Faucet.handle, hsent]
      exact kept_send h hop hin
  | takeBudget day max room drip =>
      have hsame : ∀ taken, record note (.takeBudget day max room drip) (.ok taken) = note := by
        intro taken
        cases note <;> rfl
      simp only [Faucet.handle, hsame, State.takeBudget]
      cases s.budgets.find? day with
      | none => exact h.of_same rfl rfl le_rfl le_rfl
      | some doc =>
          simp only
          split_ifs
          · exact h.of_same rfl rfl le_rfl le_rfl
          · exact h
  | returnBudget day drip =>
      have hsame : record note (.returnBudget day drip) (.ok ()) = note := by cases note <;> rfl
      simp only [Faucet.handle, hsame, State.returnBudget]
      cases s.budgets.find? day with
      | none => exact h
      | some doc => exact h.of_same rfl rfl le_rfl le_rfl
  | findClaim lockHash | enter ticket => cases note <;> exact h
  | joinQueue =>
      have hkept : Kept limits { s with queue := s.queue ++ [s.tickets], tickets := s.tickets + 1 }
          (before ++ note :: after) := h.of_same rfl rfl le_rfl le_rfl
      cases note <;> exact hkept
  | leave ticket =>
      have hkept : Kept limits { s with queue := s.queue.erase ticket } (before ++ note :: after) :=
        h.of_same rfl rfl le_rfl le_rfl
      cases note <;> exact hkept

end

end

end CkbDex.FaucetCooldowns
