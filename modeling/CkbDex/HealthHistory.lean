import CkbDex.Quarantine

/-!
# The history behind the match health

The failures that the matching remembers, as a function of the calls that were
made. An entry is dropped when a query or a pruning finds that it no longer
matters: what is dropped could not have answered any later query differently.
-/
namespace CkbDex.HealthHistory
open Matching Quarantine

def recordSuccess (health : MatchHealth) (buyId sellId : String) : MatchHealth :=
  { health with pairs := Function.update health.pairs (pairKey buyId sellId) none }

/-- `key.split("|")` -/
def keyIds (key : String) : List String := (key.toList.splitOn '|').map String.ofList

def bothLive (live : List String) (key : String) : Bool :=
  ((keyIds key)[0]?.any fun buyId => buyId ∈ live) && (keyIds key)[1]?.any fun sellId => sellId ∈ live

/-- Entries that are over are dropped: of an order in any case, of a pair unless
both of its orders are live. What is not live is not kept in quarantine. -/
def prune (live : List String) (now : ℕ) (health : MatchHealth) : MatchHealth where
  quarantinedOrders id := (health.quarantinedOrders id).filter fun expiry =>
    !(expiry ≤ now || id ∉ live)
  pairs key := (health.pairs key).filter fun state =>
    !(state.expiry ≤ now && !bothLive live key)

/-- No id has the separator of the pair keys. -/
def NoSeparator (id : String) : Prop := '|' ∉ id.toList

theorem keyIds_pairKey {buyId sellId : String} (hbuy : NoSeparator buyId) (hsell : NoSeparator sellId) :
    keyIds (pairKey buyId sellId) = [buyId, sellId] := by
  have hkey : (pairKey buyId sellId).toList = buyId.toList ++ '|' :: sellId.toList := by
    have hstring : ∀ text : String, toString text = text := fun _ => rfl
    have hbar : "|".toList = ['|'] := rfl
    simp only [pairKey, String.toList_append, hstring, hbar, List.append_assoc, List.cons_append,
      List.nil_append]
  rw [keyIds, hkey, List.splitOn_append_cons_self_of_not_mem hbuy,
    List.splitOn_eq_singleton hsell]
  simp

theorem pairKey_injective {buyId sellId buyId' sellId' : String} (hbuy : NoSeparator buyId)
    (hsell : NoSeparator sellId) (hbuy' : NoSeparator buyId') (hsell' : NoSeparator sellId')
    (h : pairKey buyId sellId = pairKey buyId' sellId') : buyId = buyId' ∧ sellId = sellId' := by
  have hids := congrArg keyIds h
  rw [keyIds_pairKey hbuy hsell, keyIds_pairKey hbuy' hsell'] at hids
  cases hids
  exact ⟨rfl, rfl⟩

theorem bothLive_pairKey {live : List String} {buyId sellId : String} (hbuy : NoSeparator buyId)
    (hsell : NoSeparator sellId) :
    bothLive live (pairKey buyId sellId) = true ↔ buyId ∈ live ∧ sellId ∈ live := by
  rw [bothLive, keyIds_pairKey hbuy hsell]
  simp

inductive Action where
  | quarantineOrder (orderId : String) (ms : ℕ)
  | isOrderQuarantined (orderId : String)
  | recordPairFailure (buyId sellId : String)
  | recordSuccess (buyId sellId : String)
  | prune (live : List String)

structure Call where
  action : Action
  now : ℕ

def Call.perform (call : Call) (health : MatchHealth) : MatchHealth :=
  match call.action with
  | .quarantineOrder orderId ms => health.quarantineOrder orderId ms call.now
  | .isOrderQuarantined orderId => (health.isOrderQuarantined orderId call.now).2
  | .recordPairFailure buyId sellId => recordPairFailure health buyId sellId call.now
  | .recordSuccess buyId sellId => recordSuccess health buyId sellId
  | .prune live => prune live call.now health

/-- What is remembered after some calls, the latest first. -/
def healthAfter : List Call → MatchHealth
  | [] => ⟨fun _ => none, fun _ => none⟩
  | call :: earlier => call.perform (healthAfter earlier)

/-- The clock does not go back. -/
def InOrder (calls : List Call) : Prop := calls.Pairwise fun later earlier => earlier.now ≤ later.now

def Action.NoSeparators : Action → Prop
  | .quarantineOrder orderId _ => NoSeparator orderId
  | .isOrderQuarantined orderId => NoSeparator orderId
  | .recordPairFailure buyId sellId => NoSeparator buyId ∧ NoSeparator sellId
  | .recordSuccess buyId sellId => NoSeparator buyId ∧ NoSeparator sellId
  | .prune _ => True

inductive PairOutcome where
  | success
  | failure (time : ℕ)

section
variable (buyId sellId : String)

/-- The last outcome that was recorded of a pair. -/
def lastOutcome : List Call → Option PairOutcome
  | [] => none
  | call :: earlier =>
      match call.action with
      | .recordPairFailure buyId' sellId' =>
          if buyId' = buyId ∧ sellId' = sellId then some (.failure call.now) else lastOutcome earlier
      | .recordSuccess buyId' sellId' =>
          if buyId' = buyId ∧ sellId' = sellId then some .success else lastOutcome earlier
      | _ => lastOutcome earlier

/-- How long a pair is blocked after a number of failures. -/
def backoff (failures : ℕ) : ℕ := min (basePairBackoffMs * 2 ^ (failures - 1)) maxPairBackoffMs

/-- The failures of a pair since its last success or since it was dropped: by a
pruning, when it was not blocked any more and one of its orders was not live. -/
def failuresSince : List Call → ℕ
  | [] => 0
  | call :: earlier =>
      match call.action with
      | .recordPairFailure buyId' sellId' =>
          if buyId' = buyId ∧ sellId' = sellId then failuresSince earlier + 1
          else failuresSince earlier
      | .recordSuccess buyId' sellId' =>
          if buyId' = buyId ∧ sellId' = sellId then 0 else failuresSince earlier
      | .prune live =>
          match lastOutcome buyId sellId earlier with
          | some (.failure time) =>
              if time + backoff (failuresSince earlier) ≤ call.now ∧ ¬(buyId ∈ live ∧ sellId ∈ live) then 0
              else failuresSince earlier
          | _ => failuresSince earlier
      | _ => failuresSince earlier

/-- The last outcome is a failure whose backoff is not over. -/
def Blocked (calls : List Call) (t : ℕ) : Prop :=
  ∃ time, lastOutcome buyId sellId calls = some (.failure time) ∧
    t < time + backoff (failuresSince buyId sellId calls)

end

theorem backoff_ge (failures : ℕ) : basePairBackoffMs ≤ backoff failures := by
  have hpow : 1 ≤ 2 ^ (failures - 1) := Nat.one_le_two_pow
  apply le_min
  · exact Nat.le_mul_of_pos_right _ hpow
  · decide

/-- What the entry of a pair says about the calls, the last of them made by now. -/
def Stands (buyId sellId : String) (calls : List Call) (now : ℕ) : Option PairState → Prop
  | some state => 0 < state.failures ∧ state.failures = failuresSince buyId sellId calls ∧ ∃ time,
      lastOutcome buyId sellId calls = some (.failure time) ∧ state.expiry = time + backoff state.failures
  | none => failuresSince buyId sellId calls = 0 ∧
      ∀ time, lastOutcome buyId sellId calls = some (.failure time) → time + backoff 0 ≤ now

section
variable {buyId sellId : String} {calls : List Call} {call : Call} {now : ℕ} {entry : Option PairState}

theorem Stands.later {now' : ℕ} (h : Stands buyId sellId calls now entry) (hle : now ≤ now') :
    Stands buyId sellId calls now' entry := by
  cases entry with
  | some state => exact h
  | none => exact ⟨h.1, fun time htime => le_trans (h.2 time htime) hle⟩

theorem Stands.blocked_iff (h : Stands buyId sellId calls now entry) {t : ℕ} (ht : now ≤ t) :
    (∃ state, entry = some state ∧ t < state.expiry) ↔ Blocked buyId sellId calls t := by
  cases entry with
  | some state =>
      obtain ⟨-, hcount, time, htime, hexpiry⟩ := h
      rw [hcount] at hexpiry
      constructor
      · rintro ⟨state', hstate, hlt⟩
        cases hstate
        exact ⟨time, htime, hexpiry ▸ hlt⟩
      · rintro ⟨time', htime', hlt⟩
        rw [htime] at htime'
        cases htime'
        exact ⟨state, rfl, hexpiry ▸ hlt⟩
  | none =>
      obtain ⟨hzero, hover⟩ := h
      constructor
      · rintro ⟨state, ⟨⟩, -⟩
      · rintro ⟨time, htime, hlt⟩
        have hend := hover time htime
        rw [hzero] at hlt
        omega

/-- A call that neither records an outcome of the pair nor prunes. -/
theorem Stands.unrelated (h : Stands buyId sellId calls now entry) (hle : now ≤ call.now)
    (houtcome : lastOutcome buyId sellId (call :: calls) = lastOutcome buyId sellId calls)
    (hcount : failuresSince buyId sellId (call :: calls) = failuresSince buyId sellId calls) :
    Stands buyId sellId (call :: calls) call.now entry := by
  have hlater := h.later hle
  cases entry with
  | some state =>
      simp only [Stands, houtcome, hcount]
      exact hlater
  | none =>
      simp only [Stands, houtcome, hcount]
      exact hlater

theorem Stands.failed {health : MatchHealth} (h : Stands buyId sellId calls now
      (health.pairs (pairKey buyId sellId))) (t : ℕ) :
    Stands buyId sellId (⟨.recordPairFailure buyId sellId, t⟩ :: calls) t
      ((recordPairFailure health buyId sellId t).pairs (pairKey buyId sellId)) := by
  have hcount : (health.pairs (pairKey buyId sellId)).elim 0 PairState.failures =
      failuresSince buyId sellId calls := by
    cases hentry : health.pairs (pairKey buyId sellId) with
    | some state =>
        rw [hentry] at h
        exact h.2.1
    | none =>
        rw [hentry] at h
        exact h.1.symm
  simp only [recordPairFailure, hcount, Function.update_self, Stands, lastOutcome, failuresSince,
    and_self, if_true]
  exact ⟨Nat.succ_pos _, trivial, t, rfl, rfl⟩

theorem Stands.pruned {health : MatchHealth} (h : Stands buyId sellId calls now
      (health.pairs (pairKey buyId sellId))) (hbuy : NoSeparator buyId) (hsell : NoSeparator sellId)
    (live : List String) {t : ℕ} (hle : now ≤ t) :
    Stands buyId sellId (⟨.prune live, t⟩ :: calls) t
        ((prune live t health).pairs (pairKey buyId sellId)) := by
  have hlive : bothLive live (pairKey buyId sellId) = true ↔ buyId ∈ live ∧ sellId ∈ live :=
    bothLive_pairKey hbuy hsell
  cases hentry : health.pairs (pairKey buyId sellId) with
  | none =>
      rw [hentry] at h
      obtain ⟨hzero, hover⟩ := h
      have hcount : failuresSince buyId sellId (⟨.prune live, t⟩ :: calls) = 0 := by
        simp only [failuresSince, hzero]
        cases lastOutcome buyId sellId calls with
        | none => rfl
        | some outcome => cases outcome <;> simp
      simp only [prune, hentry, Option.filter_none]
      exact ⟨hcount, fun time htime => le_trans (hover time htime) hle⟩
  | some state =>
      rw [hentry] at h
      obtain ⟨hpos, hfailures, time, htime, hexpiry⟩ := h
      by_cases hdrop : state.expiry ≤ t ∧ ¬(buyId ∈ live ∧ sellId ∈ live)
      · have hgone : (prune live t health).pairs (pairKey buyId sellId) = none := by
          have hdead : bothLive live (pairKey buyId sellId) = false :=
            Bool.eq_false_iff.mpr fun hboth => hdrop.2 (hlive.mp hboth)
          simp [prune, hentry, Option.filter, hdrop.1, hdead]
        rw [hgone]
        refine ⟨?_, ?_⟩
        · simp only [failuresSince, htime]
          rw [← hfailures, ← hexpiry, if_pos hdrop]
        · intro time' htime'
          change lastOutcome buyId sellId calls = _ at htime'
          rw [htime] at htime'
          cases htime'
          have hleast := backoff_ge state.failures
          have hzero : backoff 0 = basePairBackoffMs := by decide
          omega
      · have hkept : (prune live t health).pairs (pairKey buyId sellId) = some state := by
          rw [not_and_or, not_not, ← hlive] at hdrop
          rcases hdrop with hlt | hboth
          · simp [prune, hentry, Option.filter, hlt]
          · simp [prune, hentry, Option.filter, hboth]
        rw [hkept]
        refine ⟨hpos, ?_, time, htime, hexpiry⟩
        simp only [failuresSince, htime]
        rw [← hfailures, ← hexpiry, if_neg hdrop]

theorem Stands.step {health : MatchHealth} (h : Stands buyId sellId calls now
      (health.pairs (pairKey buyId sellId))) (hbuy : NoSeparator buyId) (hsell : NoSeparator sellId)
    (hids : call.action.NoSeparators) (hle : now ≤ call.now) :
    Stands buyId sellId (call :: calls) call.now ((call.perform health).pairs (pairKey buyId sellId)) := by
  obtain ⟨action, t⟩ := call
  cases action with
  | quarantineOrder orderId ms => exact h.unrelated hle rfl rfl
  | isOrderQuarantined orderId =>
      have hpairs : ((Call.perform ⟨.isOrderQuarantined orderId, t⟩ health).pairs) = health.pairs := by
        simp only [Call.perform, MatchHealth.isOrderQuarantined]
        split
        · rfl
        · split_ifs <;> rfl
      rw [hpairs]
      exact h.unrelated hle rfl rfl
  | recordPairFailure buyId' sellId' =>
      by_cases hsame : buyId' = buyId ∧ sellId' = sellId
      · obtain ⟨rfl, rfl⟩ := hsame
        exact h.failed t
      · have hkey : pairKey buyId sellId ≠ pairKey buyId' sellId' := by
          intro hkeys
          obtain ⟨rfl, rfl⟩ := pairKey_injective hbuy hsell hids.1 hids.2 hkeys
          exact hsame ⟨rfl, rfl⟩
        simp only [Call.perform, recordPairFailure, Function.update_of_ne hkey]
        apply h.unrelated hle
        · simp only [lastOutcome, if_neg hsame]
        · simp only [failuresSince, if_neg hsame]
  | recordSuccess buyId' sellId' =>
      by_cases hsame : buyId' = buyId ∧ sellId' = sellId
      · obtain ⟨rfl, rfl⟩ := hsame
        simp only [Call.perform, recordSuccess, Function.update_self, Stands, lastOutcome,
          failuresSince, and_self, if_true, true_and]
        intro time htime
        cases htime
      · have hkey : pairKey buyId sellId ≠ pairKey buyId' sellId' := by
          intro hkeys
          obtain ⟨rfl, rfl⟩ := pairKey_injective hbuy hsell hids.1 hids.2 hkeys
          exact hsame ⟨rfl, rfl⟩
        simp only [Call.perform, recordSuccess, Function.update_of_ne hkey]
        apply h.unrelated hle
        · simp only [lastOutcome, if_neg hsame]
        · simp only [failuresSince, if_neg hsame]
  | prune live => exact h.pruned hbuy hsell live hle

/-- After any calls, every entry stands for the history of its pair. -/
theorem stands (horder : InOrder calls) (hids : ∀ call ∈ calls, call.action.NoSeparators)
    (hbuy : NoSeparator buyId) (hsell : NoSeparator sellId) (hnow : ∀ call ∈ calls, call.now ≤ now) :
    Stands buyId sellId calls now ((healthAfter calls).pairs (pairKey buyId sellId)) := by
  induction calls generalizing now with
  | nil =>
      refine ⟨rfl, ?_⟩
      intro time htime
      cases htime
  | cons call earlier ih =>
      have hlatest : ∀ other ∈ earlier, other.now ≤ call.now := fun other hmem =>
        List.rel_of_pairwise_cons horder hmem
      have hbefore := ih horder.of_cons (fun other hmem => hids other (List.mem_cons_of_mem _ hmem)) hlatest
      have hstep := hbefore.step hbuy hsell (hids call List.mem_cons_self) (le_refl _)
      exact hstep.later (hnow call List.mem_cons_self)

end

/-- Every key that is kept is the key of two ids without separator. -/
theorem keys_of_pairs {calls : List Call} (hids : ∀ call ∈ calls, call.action.NoSeparators)
    {key : String} {state : PairState} (h : (healthAfter calls).pairs key = some state) :
    ∃ buyId sellId, NoSeparator buyId ∧ NoSeparator sellId ∧ key = pairKey buyId sellId := by
  induction calls generalizing state with
  | nil => cases h
  | cons call earlier ih =>
      have hearlier : ∀ {state : PairState}, (healthAfter earlier).pairs key = some state →
          ∃ buyId sellId, NoSeparator buyId ∧ NoSeparator sellId ∧ key = pairKey buyId sellId :=
        ih fun other hmem => hids other (List.mem_cons_of_mem _ hmem)
      have hcall := hids call List.mem_cons_self
      obtain ⟨action, t⟩ := call
      cases action with
      | quarantineOrder orderId ms => exact hearlier h
      | isOrderQuarantined orderId =>
          simp only [healthAfter, Call.perform, MatchHealth.isOrderQuarantined] at h
          split at h
          · exact hearlier h
          · split_ifs at h <;> exact hearlier h
      | recordPairFailure buyId sellId =>
          simp only [healthAfter, Call.perform, recordPairFailure] at h
          by_cases hkey : key = pairKey buyId sellId
          · exact ⟨buyId, sellId, hcall.1, hcall.2, hkey⟩
          · rw [Function.update_of_ne hkey] at h
            exact hearlier h
      | recordSuccess buyId sellId =>
          simp only [healthAfter, Call.perform, recordSuccess] at h
          by_cases hkey : key = pairKey buyId sellId
          · exact ⟨buyId, sellId, hcall.1, hcall.2, hkey⟩
          · rw [Function.update_of_ne hkey] at h
            exact hearlier h
      | prune live =>
          obtain ⟨hfind, -⟩ := Option.filter_eq_some_iff.mp h
          exact hearlier hfind

section
variable {live : List String} {now t : ℕ} {health : MatchHealth}

theorem isPairBlocked_prune (hle : now ≤ t) (buyId sellId : String) :
    (prune live now health).isPairBlocked buyId sellId t = health.isPairBlocked buyId sellId t := by
  have hpairs : (prune live now health).pairs (pairKey buyId sellId) =
      (health.pairs (pairKey buyId sellId)).filter fun state =>
        !(state.expiry ≤ now && !bothLive live (pairKey buyId sellId)) := rfl
  rw [MatchHealth.isPairBlocked, MatchHealth.isPairBlocked, hpairs]
  cases health.pairs (pairKey buyId sellId) with
  | none => rfl
  | some state =>
      simp only [Option.filter]
      split_ifs with hkeep
      · rfl
      · have hover : state.expiry ≤ now := by
          by_contra hlt
          simp [hlt] at hkeep
        symm
        simp only [decide_eq_false_iff_not]
        omega

theorem isOrderQuarantined_prune (hle : now ≤ t) {orderId : String} (hlive : orderId ∈ live) :
    ((prune live now health).isOrderQuarantined orderId t).1 =
      (health.isOrderQuarantined orderId t).1 := by
  have hentries : (prune live now health).quarantinedOrders orderId =
      (health.quarantinedOrders orderId).filter fun expiry => !(expiry ≤ now || orderId ∉ live) := rfl
  rw [MatchHealth.isOrderQuarantined, MatchHealth.isOrderQuarantined, hentries]
  cases health.quarantinedOrders orderId with
  | none => rfl
  | some expiry =>
      simp only [Option.filter, hlive, not_true_eq_false, decide_false, Bool.or_false]
      by_cases hover : expiry ≤ now
      · simp [hover, le_trans hover hle]
      · simp only [hover, decide_false, Bool.not_false, if_true]
        split_ifs <;> rfl

end

/-- Pruning is unobservable, a pair is blocked as its history says, and pruning
keeps no more than it has to. -/
theorem pruning_unobservable (calls : List Call) (now : ℕ) (horder : InOrder calls)
    (hids : ∀ call ∈ calls, call.action.NoSeparators) (hnow : ∀ call ∈ calls, call.now ≤ now) :
    (∀ live t, now ≤ t →
      (∀ buyId sellId, (prune live now (healthAfter calls)).isPairBlocked buyId sellId t =
        (healthAfter calls).isPairBlocked buyId sellId t) ∧
      ∀ orderId ∈ live, ((prune live now (healthAfter calls)).isOrderQuarantined orderId t).1 =
        ((healthAfter calls).isOrderQuarantined orderId t).1) ∧
    (∀ buyId sellId t, NoSeparator buyId → NoSeparator sellId → now ≤ t →
      ((healthAfter calls).isPairBlocked buyId sellId t = true ↔ Blocked buyId sellId calls t)) ∧
    ∀ live key state, (prune live now (healthAfter calls)).pairs key = some state →
      now < state.expiry ∨ ∃ buyId ∈ live, ∃ sellId ∈ live, key = pairKey buyId sellId := by
  refine ⟨?_, ?_, ?_⟩
  · intro live t hle
    exact ⟨isPairBlocked_prune hle, fun orderId hlive => isOrderQuarantined_prune hle hlive⟩
  · intro buyId sellId t hbuy hsell hle
    rw [← (stands horder hids hbuy hsell hnow).blocked_iff hle]
    unfold MatchHealth.isPairBlocked
    cases (healthAfter calls).pairs (pairKey buyId sellId) with
    | none => simp
    | some state => simp
  · intro live key state hkept
    obtain ⟨hfind, hpasses⟩ := Option.filter_eq_some_iff.mp hkept
    obtain ⟨buyId, sellId, hbuy, hsell, rfl⟩ := keys_of_pairs hids hfind
    rcases Nat.lt_or_ge now state.expiry with hlt | hge
    · exact Or.inl hlt
    · have hboth : bothLive live (pairKey buyId sellId) = true := by simpa [hge] using hpasses
      obtain ⟨hbuyLive, hsellLive⟩ := (bothLive_pairKey hbuy hsell).mp hboth
      exact Or.inr ⟨buyId, hbuyLive, sellId, hsellLive, rfl⟩

/-- A pair that has failed twice, with a pruning in between. -/
def exampleCalls : List Call :=
  [⟨.recordPairFailure "a" "b", 7000⟩, ⟨.prune ["a", "b"], 6000⟩, ⟨.recordPairFailure "a" "b", 0⟩]

theorem pruning_unobservable_example :
    (healthAfter exampleCalls).isPairBlocked "a" "b" 16999 = true ↔ Blocked "a" "b" exampleCalls 16999 :=
  (pruning_unobservable exampleCalls 7000 (by simp [InOrder, exampleCalls])
    (by simp [exampleCalls, Action.NoSeparators, NoSeparator]) (by simp [exampleCalls])).2.1 "a" "b" 16999
      (by simp [NoSeparator]) (by simp [NoSeparator]) (by decide)

end CkbDex.HealthHistory
