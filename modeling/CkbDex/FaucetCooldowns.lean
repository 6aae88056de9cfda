import CkbDex.FaucetSpacing

/-!
# The recipient's cooldown

A mint is spaced from the earlier ones of its recipient as long as the claim
document carries its reservation when it is broadcast: the document remembers
what was broadcast before the reservation was made. Two things break the link.
A reservation may be retaken while its owner still waits to send, and one whose
mint was broadcast may be retaken before that is written down.
-/
namespace CkbDex.FaucetCooldowns
open Collections Documents Programs Faucet FaucetLockouts Interleaving Sessions

abbrev Claims := Room Op (fun op => Answer (Res op)) Note State (Answer Hex)

/-- Calls of the faucet; only the database and the chain can fail. -/
def Answers (permitted : State → Op → Prop) (op : Op) (s : State) (answer : Answer (Res op))
    (t : State) : Prop :=
  Performs permitted op s answer t ∧ (inMemory op = true → ∃ result, answer = .ok result)

abbrev ClaimRuns (config : Config) (permitted : State → Op → Prop) : Claims → Claims → Prop :=
  Run (fun note p => note = .idle ∧ ∃ addressLike, p = (claim config addressLike).run) record
    (Answers permitted)

/-- In every interleaving of claims, with any waits, failures and crashes, the
mints of a recipient are at least a cooldown apart, as long as each is broadcast
while its reservation is current and no reservation is retaken whose mint was
broadcast. -/
theorem mints_apart (config : Config) (after : Claims)
    (h : ClaimRuns config InTime ⟨State.empty, []⟩ after) : Apart config.limits after.state := by
  have hempty : Kept config.limits State.empty [] := by
    refine ⟨⟨List.Pairwise.nil, ?_, ?_, ?_, ?_⟩, identified_nil⟩ <;> exact fun _ hmem => by cases hmem
  have hkeeps : ∀ note p, (note = Note.idle ∧ ∃ addressLike, p = (claim config addressLike).run) →
      Keeps record (allowed config.limits) (fun _ _ => True) note p := by
    rintro note p ⟨rfl, addressLike, rfl⟩
    exact follows_claim config addressLike
  refine (run_invariant (I := Kept config.limits) hkeeps ?_ ?_ h (fun _ hmem => by cases hmem)
    hempty).2.1.apart
  · rintro s notes note p ⟨rfl, -⟩ hs
    exact ⟨hs.1, hs.2.start trivial rfl⟩
  · rintro s t before after note op answer hop ⟨⟨present, hlater, hin, -, hdone⟩, hmemory⟩ hs
    have hpresent : Kept config.limits present (before ++ note :: after) :=
      hs.of_same (by rw [hlater.same]) (by rw [hlater.same]) hlater.clock (by rw [hlater.same])
    rcases hdone with ⟨txHash, hhandle⟩ | ⟨rfl, error, rfl⟩
    · have hanswer := congrArg Prod.fst hhandle
      have hnext := congrArg Prod.snd hhandle
      dsimp only at hanswer hnext
      subst hanswer hnext
      exact kept_handle hpresent hop hin
    · have hsame : record note op (.error error) = note := by
        cases hmem : inMemory op with
        | false => simp [record, hmem]
        | true =>
            obtain ⟨result, hresult⟩ := hmemory hmem
            cases hresult
      rw [hsame]
      exact hpresent

/-- A condition on the two calls that mark a claim and broadcast its mint. -/
def OnMints (permitted : State → Op → Prop) : Prop :=
  ∀ s op, (∀ lockHash address now cutoff stale id,
    op ≠ .reserveClaim lockHash address now cutoff stale id) →
    (∀ lockHash id, op ≠ .send lockHash id) → permitted s op

section
variable {permitted : State → Op → Prop} {s t : State} {limits : ClaimLimits}
  {lockHash address : String} {id : ℕ} {now : ℤ}

theorem onMints_anyCall : OnMints anyCall := fun _ _ _ _ => trivial

theorem onMints_inTime : OnMints InTime := by
  intro s op hmark hsend
  cases op with
  | reserveClaim lockHash address now cutoff stale id => exact (hmark _ _ _ _ _ _ rfl).elim
  | send lockHash id => exact (hsend lockHash id rfl).elim
  | _ => trivial

theorem answers_handle {op : Op} (himmediate : immediate op) (hop : permitted s op) :
    Answers permitted op s (handle "0x" op s).1 (handle "0x" op s).2 := by
  refine ⟨performs_handle "0x" himmediate hop, fun _ => ?_⟩
  cases op <;> exact ⟨_, rfl⟩

/-- Calls on the budgets, and those that undo a reservation. -/
def onShare : Op → Prop
  | .takeBudget .. | .deleteClaim .. | .restoreClaim .. => True
  | _ => False

theorem only_takeShare (reservation : Reservation) : Only onShare (takeShare limits reservation) := by
  refine only_bind (only_tryCatch ?_ fun error => only_bind ?_ fun _ => trivial) fun _ => trivial
  · refine only_bind trivial fun room => only_bind trivial fun drip => ?_
    refine only_bind ⟨trivial, fun _ => trivial⟩ fun taken => ?_
    cases taken <;> trivial
  · unfold restoreClaim
    split_ifs <;> exact ⟨trivial, fun _ => trivial⟩

/-- A claim that is free is reserved when the budget has a share left. -/
theorem calls_reserve (hpermitted : OnMints permitted)
    (hmark : permitted { s with issued := s.issued + 1 } (.reserveClaim lockHash address now
      (now - limits.cooldownMs) (now - limits.reservationTimeoutMs) s.issued))
    (hfree : ∀ doc, s.claims.find? lockHash = some doc →
      free (now - limits.cooldownMs) (now - limits.reservationTimeoutMs) doc = true)
    (htaken : eval (handle "0x") (takeBudget limits (dayKey now)) (marked s lockHash address now) =
      (.ok (), t)) :
    Calls (Answers permitted) (s, (reserve limits lockHash address now).run)
      (t, .pure (.ok (reservationOf lockHash s.issued now (s.claims.find? lockHash)))) := by
  have huuid : Answers permitted .randomUUID s (.ok s.issued) { s with issued := s.issued + 1 } :=
    answers_handle trivial (hpermitted s .randomUUID (by simp) (by simp))
  have hmarked : Answers permitted (.reserveClaim lockHash address now (now - limits.cooldownMs)
      (now - limits.reservationTimeoutMs) s.issued) { s with issued := s.issued + 1 }
      (.ok ((s.claims.find? lockHash).elim Upsert.inserted Upsert.updated))
      (marked s lockHash address now) := by
    have himmediate : immediate (.reserveClaim lockHash address now (now - limits.cooldownMs)
        (now - limits.reservationTimeoutMs) s.issued) := trivial
    have hcall := answers_handle himmediate hmark
    simp only [Faucet.handle, State.reserveClaim] at hcall
    unfold marked
    cases hfind : s.claims.find? lockHash with
    | none =>
        simp only [hfind] at hcall
        exact hcall
    | some doc =>
        simp only [hfind, hfree doc hfind, if_true] at hcall
        exact hcall
  have hshare : Calls (Answers permitted)
      (marked s lockHash address now, (takeShare limits
        (reservationOf lockHash s.issued now (s.claims.find? lockHash))).run)
      (t, .pure (.ok (reservationOf lockHash s.issued now (s.claims.find? lockHash)))) := by
    have hhandle : ∀ op, onShare op → ∀ s, Answers permitted op s (handle "0x" op s).1
        (handle "0x" op s).2 := by
      intro op hop s
      have himmediate : immediate op := by cases op <;> trivial
      refine answers_handle himmediate (hpermitted s op ?_ ?_)
      · rintro _ _ _ _ _ _ rfl
        exact hop
      · rintro _ _ rfl
        exact hop
    exact calls_of_eval hhandle (only_takeShare _) (eval_takeShare_of_taken htaken)
  refine (Relation.ReflTransGen.head ?_ hshare).head (call_ok huuid)
  cases hfind : s.claims.find? lockHash with
  | none =>
      rw [hfind] at hmarked
      exact call_ok hmarked
  | some doc =>
      rw [hfind] at hmarked
      exact call_ok hmarked

/-- The state after a claim had the lock for itself and broadcast its mint. -/
def afterMint (s : State) (lockHash : String) (id : ℕ) : State :=
  { afterSend s lockHash id with tickets := s.tickets + 1 }

theorem calls_withLock (hpermitted : OnMints permitted) (hqueue : s.queue = [])
    (hsend : ∀ queue, permitted { s with queue := queue, tickets := s.tickets + 1 }
      (.send lockHash id)) :
    Calls (Answers permitted) (s, (withLock (request (.send lockHash id))).run)
      (afterMint s lockHash id, .pure (.ok "0x")) := by
  obtain ⟨claims, budgets, issued, queue, tickets, minted, clock⟩ := s
  obtain rfl : queue = [] := hqueue
  have hjoin : Answers permitted .joinQueue ⟨claims, budgets, issued, [], tickets, minted, clock⟩
      (.ok tickets) ⟨claims, budgets, issued, [tickets], tickets + 1, minted, clock⟩ :=
    answers_handle trivial (hpermitted _ .joinQueue nofun nofun)
  have henter : Answers permitted (.enter tickets)
      ⟨claims, budgets, issued, [tickets], tickets + 1, minted, clock⟩ (.ok ())
      ⟨claims, budgets, issued, [tickets], tickets + 1, minted, clock⟩ :=
    ⟨⟨_, .refl _, hpermitted _ _ nofun nofun, rfl, Or.inl ⟨"0x", rfl⟩⟩, fun _ => ⟨_, rfl⟩⟩
  have hsent : Answers permitted (.send lockHash id)
      ⟨claims, budgets, issued, [tickets], tickets + 1, minted, clock⟩ (.ok "0x")
      ⟨claims, budgets, issued, [tickets], tickets + 1, ⟨lockHash, id, clock⟩ :: minted, clock⟩ :=
    answers_handle trivial (hsend _)
  have hleave : Answers permitted (.leave tickets)
      ⟨claims, budgets, issued, [tickets], tickets + 1, ⟨lockHash, id, clock⟩ :: minted, clock⟩ (.ok ())
      ⟨claims, budgets, issued, [], tickets + 1, ⟨lockHash, id, clock⟩ :: minted, clock⟩ := by
    have hcall : Answers permitted (.leave tickets)
        ⟨claims, budgets, issued, [tickets], tickets + 1, ⟨lockHash, id, clock⟩ :: minted, clock⟩
        (.ok ()) ⟨claims, budgets, issued, [tickets].erase tickets, tickets + 1,
          ⟨lockHash, id, clock⟩ :: minted, clock⟩ :=
      answers_handle trivial (hpermitted _ (.leave tickets) nofun nofun)
    rw [List.erase_cons_head] at hcall
    exact hcall
  let last : Except Failure Hex → Proc Hex := fun result =>
    request (.leave tickets) >>= fun _ => require result
  let task : Proc (Except Failure Hex) := tryCatch
    (do
      let a ← request (.send lockHash id)
      return .ok a)
    fun error => return .error error
  have hfirst : Calls (Answers permitted) (_, (withLock (request (.send lockHash id))).run)
      (_, (request (.enter tickets) >>= fun _ => task >>= last).run) :=
    .single (call_ok hjoin)
  have hsecond : Calls (Answers permitted) (_, (request (.enter tickets) >>= fun _ => task >>= last).run)
      (_, (task >>= last).run) := .single (call_ok henter)
  have htask : Calls (Answers permitted) (_, task.run) (_, (pure (.ok "0x") : Proc _).run) :=
    calls_tryCatch (.single (call_ok hsent)) _
  exact ((hfirst.trans hsecond).trans (calls_seq htask last)).trans (.single (call_ok hleave))

/-- A claim once it holds its reservation. -/
def afterReserve (limits : ClaimLimits) (reservation : Reservation) : Proc Hex := do
  let txHash ← tryCatch
    (withLock (request (.send reservation.lockHash reservation.reservationId)))
    fun error => do
      tryCatch (release limits reservation) fun _ => return ()
      throw error
  recordSent reservation txHash 3
  return txHash

theorem claim_example : claim exampleConfig "ckt1" = (do
    let now : ℤ ← request .now
    let reservation ← reserve exampleLimits "ckt1" "ckt1" now
    afterReserve exampleLimits reservation) := rfl

/-- A claim up to its broadcast. -/
theorem calls_claim {reservation : Reservation} {time : ℤ} (hpermitted : OnMints permitted)
    (hclock : s.clock ≤ time)
    (hreserve : Calls (Answers permitted)
      ({ s with clock := time }, (reserve exampleLimits "ckt1" "ckt1" time).run)
      (t, .pure (.ok reservation)))
    (hqueue : t.queue = [])
    (hsend : ∀ queue, permitted { t with queue := queue, tickets := t.tickets + 1 }
      (.send reservation.lockHash reservation.reservationId)) :
    Calls (Answers permitted) (s, (claim exampleConfig "ckt1").run)
      (afterMint t reservation.lockHash reservation.reservationId,
        (recordSent reservation "0x" 3 >>= fun _ => pure "0x" : Proc Hex).run) := by
  have hnow : Answers permitted .now s (.ok time) { s with clock := time } :=
    ⟨⟨{ s with clock := time }, ⟨rfl, hclock, Or.inl rfl⟩, hpermitted _ _ nofun nofun, trivial,
      Or.inl ⟨"0x", rfl⟩⟩, fun _ => ⟨_, rfl⟩⟩
  have hreserve' : Calls (Answers permitted)
      ({ s with clock := time }, (reserve exampleLimits "ckt1" "ckt1" time).run)
      (t, (pure reservation : Proc _).run) := hreserve
  have hfirst : Calls (Answers permitted) (s, (claim exampleConfig "ckt1").run)
      ({ s with clock := time },
        (reserve exampleLimits "ckt1" "ckt1" time >>= afterReserve exampleLimits).run) := by
    rw [claim_example]
    exact .single (call_ok hnow)
  have hlock : Calls (Answers permitted)
      (t, (withLock (request (.send reservation.lockHash reservation.reservationId))).run)
      (afterMint t reservation.lockHash reservation.reservationId, (pure "0x" : Proc Hex).run) :=
    calls_withLock hpermitted hqueue hsend
  exact (hfirst.trans (calls_seq hreserve' _)).trans (calls_seq (calls_tryCatch hlock _) _)

/-- A share of the budget is taken without touching anything else. -/
theorem eval_takeBudget_same {day : ℤ} (h : BudgetFree limits s day) :
    ∃ budgets, eval (handle "0x") (takeBudget limits day) s = (.ok (), { s with budgets := budgets }) := by
  have hok : (eval (handle "0x") (takeBudget limits day) s).1 = .ok () := eval_takeBudget_of_free h
  obtain ⟨room, drip, hroom, hdrip, -⟩ := h
  have htake : ∃ budgets, (s.takeBudget day limits.dailyMaxClaims room drip).2 =
      { s with budgets := budgets } := by
    unfold State.takeBudget
    cases s.budgets.find? day with
    | none => exact ⟨_, rfl⟩
    | some doc =>
        simp only
        split_ifs <;> exact ⟨_, rfl⟩
  obtain ⟨budgets, hbudgets⟩ := htake
  refine ⟨budgets, ?_⟩
  rw [eval_takeBudget hroom hdrip] at hok ⊢
  rw [← hbudgets]
  exact Prod.ext hok rfl

end

/-- A claim starts and makes its calls. -/
theorem claimRuns_of_calls {config : Config} {permitted : State → Op → Prop} {s t : State}
    {addressLike : String} {p : Prog Op (fun op => Answer (Res op)) (Answer Hex)}
    (h : Calls (Answers permitted) (s, (claim config addressLike).run) (t, p))
    (sessions : List (Session Op (fun op => Answer (Res op)) Note (Answer Hex))) :
    ∃ note, ClaimRuns config permitted ⟨s, sessions⟩ ⟨t, ⟨note, p⟩ :: sessions⟩ := by
  obtain ⟨note, hrun⟩ := run_of_calls h Note.idle sessions
  exact ⟨note, hrun.head (.start s sessions .idle _ ⟨rfl, addressLike, rfl⟩)⟩

/-- The first claim, up to its broadcast. -/
theorem calls_first {permitted : State → Op → Prop} (hpermitted : OnMints permitted)
    (hmark : permitted { State.empty with issued := 1 }
      (.reserveClaim "ckt1" "ckt1" 0 (-86400000) (-300000) 0))
    (hsend : ∀ s : State, s.claims.find? "ckt1" = some (newClaim "ckt1" "ckt1" 0 0) →
      permitted s (.send "ckt1" 0)) :
    ∃ s, Calls (Answers permitted) (State.empty, (claim exampleConfig "ckt1").run)
        (s, (recordSent (reservationOf "ckt1" 0 0 none) "0x" 3 >>= fun _ => pure "0x" : Proc Hex).run) ∧
      s.claims.find? "ckt1" = some (newClaim "ckt1" "ckt1" 0 0) ∧
      s.budgets.find? 0 = some ⟨0, 1, .finite _ exampleDrip_fits⟩ ∧
      s.minted = [⟨"ckt1", 0, 0⟩] ∧ s.issued = 1 ∧ s.queue = [] ∧ s.clock = 0 := by
  let reserved : State := { marked State.empty "ckt1" "ckt1" 0 with
    budgets := State.empty.budgets.put ⟨0, 1, .finite _ exampleDrip_fits⟩ }
  have htaken : eval (handle "0x") (takeBudget exampleLimits (dayKey 0))
      (marked State.empty "ckt1" "ckt1" 0) = (.ok (), reserved) := by
    rw [eval_takeBudget (decimal_of_fits exampleRoom_fits) (decimal_of_fits exampleDrip_fits)]
    rfl
  have hclaim : reserved.claims.find? "ckt1" = some (newClaim "ckt1" "ckt1" 0 0) :=
    Collection.find?_put.trans (if_pos rfl)
  have hreserve := calls_reserve hpermitted hmark (fun doc hdoc => by cases hdoc) htaken
  exact ⟨_, calls_claim hpermitted le_rfl hreserve rfl (fun _ => hsend _ hclaim), hclaim,
    Collection.find?_put.trans (if_pos rfl), rfl, rfl, rfl, rfl⟩

/-- A claim whose mint is broadcast under its reservation. -/
theorem mints_apart_example : ∃ after : Claims, ClaimRuns exampleConfig InTime ⟨State.empty, []⟩ after ∧
    after.state.minted = [⟨"ckt1", 0, 0⟩] ∧ Apart exampleLimits after.state := by
  obtain ⟨s, hcalls, -, -, hminted, -⟩ := calls_first onMints_inTime (fun doc hdoc => by cases hdoc)
    fun s hfind hmine => by
      rw [State.mine, hfind] at hmine
      cases hmine
  obtain ⟨note, hafter⟩ := claimRuns_of_calls hcalls []
  exact ⟨_, hafter, hminted, mints_apart exampleConfig _ hafter⟩

/-- Every attempt to write a commit fails. -/
def handleUncommitted : (op : Op) → State → Answer (Res op) × State
  | .commitClaim .., s => (.error (.other "connection lost"), s)
  | op, s => handle "0x" op s

def onCommit : Op → Prop
  | .now | .commitClaim .. => True
  | _ => False

theorem calls_uncommitted (s : State) (reservation : Reservation) : Calls (Answers anyCall)
    (s, (recordSent reservation "0x" 3 >>= fun _ => pure "0x" : Proc Hex).run) (s, .pure (.ok "0x")) := by
  have hhandle : ∀ op, onCommit op → ∀ s, Answers anyCall op s (handleUncommitted op s).1
      (handleUncommitted op s).2 := by
    intro op hop s
    cases op with
    | now => exact answers_handle trivial trivial
    | commitClaim lockHash id txHash time =>
        exact ⟨⟨s, .refl s, trivial, trivial, Or.inr ⟨rfl, _, rfl⟩⟩, nofun⟩
    | _ => exact hop.elim
  have honly : ∀ attempts, Only onCommit (recordSent reservation "0x" attempts) := by
    intro attempts
    induction attempts with
    | zero => trivial
    | succ attempts ih =>
        exact only_tryCatch (only_bind ⟨trivial, fun _ => trivial⟩ fun _ => ⟨trivial, fun _ => trivial⟩)
          fun _ => ih
  have honly' : Only onCommit (recordSent reservation "0x" 3 >>= fun _ => pure "0x" : Proc Hex) :=
    only_bind (honly 3) fun _ => only_pure _
  exact calls_of_eval hhandle honly' rfl

theorem not_apart {s : State} (h : s.minted = [⟨"ckt1", 1, 300000⟩, ⟨"ckt1", 0, 0⟩]) :
    ¬Apart exampleLimits s := by
  rw [Apart, h, List.pairwise_cons]
  rintro ⟨hearlier, -⟩
  have hclose := hearlier _ (List.mem_singleton_self _) rfl
  simp [exampleLimits] at hclose

/-- The first claim broadcasts its mint and cannot write its commit; five
minutes later the second one retakes the reservation and mints again. -/
theorem retaken_after_mint : ∃ after : Claims,
    ClaimRuns exampleConfig anyCall ⟨State.empty, []⟩ after ∧
      after.state.minted = [⟨"ckt1", 1, 300000⟩, ⟨"ckt1", 0, 0⟩] ∧ ¬Apart exampleLimits after.state := by
  obtain ⟨s, hcalls, hfind, hbudget, hminted, hissued, hqueue, hclock⟩ :=
    calls_first onMints_anyCall trivial fun _ _ => trivial
  obtain ⟨note, hfirst⟩ := claimRuns_of_calls (hcalls.trans (calls_uncommitted s _)) []
  obtain ⟨later, hlater⟩ : ∃ later : State, later = { s with clock := 300000 } := ⟨_, rfl⟩
  have hfree : ∀ doc, later.claims.find? "ckt1" = some doc →
      free (300000 - exampleLimits.cooldownMs) (300000 - exampleLimits.reservationTimeoutMs) doc = true := by
    intro doc hdoc
    rw [hlater] at hdoc
    obtain rfl := Option.some_inj.mp (hfind.symm.trans hdoc)
    decide
  have hroom : BudgetFree exampleLimits (marked later "ckt1" "ckt1" 300000) (dayKey 300000) := by
    refine ⟨_, _, decimal_of_fits exampleRoom_fits, decimal_of_fits exampleDrip_fits, fun doc hdoc => ?_⟩
    rw [hlater] at hdoc
    obtain rfl := Option.some_inj.mp (hbudget.symm.trans hdoc)
    decide
  obtain ⟨budgets, htaken⟩ := eval_takeBudget_same hroom
  have hreserve := calls_reserve onMints_anyCall trivial hfree htaken
  rw [hlater] at hreserve
  have hsecond := calls_claim onMints_anyCall (by rw [hclock]; decide) hreserve hqueue fun _ => trivial
  obtain ⟨note', hrun⟩ := claimRuns_of_calls hsecond [⟨note, .pure (.ok "0x")⟩]
  have hmints : (afterMint { marked { s with clock := 300000 } "ckt1" "ckt1" 300000 with
      budgets := budgets } "ckt1" s.issued).minted = [⟨"ckt1", 1, 300000⟩, ⟨"ckt1", 0, 0⟩] := by
    simp only [afterMint, afterSend, marked, hminted, hissued]
  exact ⟨_, hfirst.trans hrun, hmints, not_apart hmints⟩

end CkbDex.FaucetCooldowns
