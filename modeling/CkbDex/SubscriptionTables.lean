import CkbDex.Realtime
import Mathlib.Tactic.Tauto

/-!
# The subscription tables

`subscriptions` and `channelsBySocket` are inverse to each other as long as a
socket is closed only when none of its message handlers has channels left: a
handler that goes on with its loop after the close enters the socket again.
-/
namespace CkbDex.Realtime

/-- Every set that is not empty is the set of one channel. -/
structure Wired (s : State) : Prop where
  distinct : ∀ c c' address, s.subscriptions c = some address → s.subscriptions c' = some address →
    c = c'
  linked : ∀ address, s.sets address ≠ [] → ∃ c, s.subscriptions c = some address
  bounded : ∀ c address, s.subscriptions c = some address → address < s.created
  nonempty : ∀ c address, s.subscriptions c = some address → s.sets address ≠ []
  captured : ∀ waiting ∈ s.waiting, ∀ address, waiting.handler = .emit address →
    address < s.created ∧ ∀ c, s.subscriptions c = some address → c = waiting.channel

section
variable {s t : State} {socket other : Socket} {channel c : Channel} {rest : List Channel}
  {address : ℕ} {overloaded : Socket → Bool} {message : RealtimeMessage} {waiting : Waiting}

theorem mem_addTo {α : Type} [DecidableEq α] {set : List α} {a b : α} :
    b ∈ addTo set a ↔ b = a ∨ b ∈ set := by
  unfold addTo
  split_ifs with h
  · constructor
    · exact Or.inr
    · rintro (rfl | hb)
      · exact h
      · exact hb
  · rw [List.mem_append, List.mem_singleton]
    tauto

theorem members_of_some (h : s.subscriptions channel = some address) :
    s.members channel = s.sets address := by
  rw [State.members, h]

theorem members_of_none (h : s.subscriptions channel = none) : s.members channel = [] := by
  rw [State.members, h]

theorem Wired.of_same (h : Wired s) (hsubscriptions : t.subscriptions = s.subscriptions)
    (hsets : t.sets = s.sets) (hcreated : t.created = s.created)
    (hwaiting : ∀ waiting ∈ t.waiting, ∀ address, waiting.handler = .emit address →
      address < s.created ∧ ∀ c, s.subscriptions c = some address → c = waiting.channel) : Wired t := by
  refine ⟨?_, ?_, ?_, ?_, ?_⟩
  · rw [hsubscriptions]
    exact h.distinct
  · rw [hsubscriptions, hsets]
    exact h.linked
  · rw [hsubscriptions, hcreated]
    exact h.bounded
  · rw [hsubscriptions, hsets]
    exact h.nonempty
  · rw [hsubscriptions, hcreated]
    exact hwaiting

/-- The set that the next channel without subscribers gets is empty. -/
theorem Wired.fresh (h : Wired s) : s.sets s.created = [] := by
  by_contra hne
  obtain ⟨c, hc⟩ := h.linked s.created hne
  exact (h.bounded c s.created hc).ne rfl

theorem Wired.setOf_eq_iff (h : Wired s) {c : Channel} :
    s.subscriptions c = some (s.setOf channel) ↔ c = channel ∧ s.subscriptions channel ≠ none := by
  unfold State.setOf
  cases hchannel : s.subscriptions channel with
  | none =>
      simp only [Option.getD_none, ne_eq, not_true_eq_false, and_false, iff_false]
      exact fun hc => (h.bounded c _ hc).ne rfl
  | some address =>
      simp only [Option.getD_some, ne_eq, reduceCtorEq, not_false_eq_true, and_true]
      exact ⟨fun hc => h.distinct c channel address hc hchannel, fun hc => hc ▸ hchannel⟩

theorem Wired.sets_setOf (h : Wired s) : s.sets (s.setOf channel) = s.members channel := by
  unfold State.setOf State.members
  cases s.subscriptions channel with
  | none => exact h.fresh
  | some address => rfl

theorem members_enterChannel (h : Wired s) :
    (enterChannel s socket channel rest).members c =
      if c = channel then addTo (s.members channel) socket else s.members c := by
  unfold State.members
  simp only [enterChannel]
  by_cases hc : c = channel
  · subst hc
    rw [if_pos rfl, Function.update_self]
    simp only [Function.update_self, h.sets_setOf]
    rfl
  · rw [if_neg hc, Function.update_of_ne hc]
    cases hsome : s.subscriptions c with
    | none => rfl
    | some address =>
        have hne : address ≠ s.setOf channel := by
          rintro rfl
          exact hc (h.setOf_eq_iff.mp hsome).1
        simp only [Function.update_of_ne hne]

theorem Wired.enterChannel (h : Wired s) : Wired (enterChannel s socket channel rest) := by
  have hcreated : s.created ≤ (Realtime.enterChannel s socket channel rest).created := by
    simp only [Realtime.enterChannel]
    split_ifs <;> omega
  have hset : s.setOf channel < (Realtime.enterChannel s socket channel rest).created := by
    simp only [Realtime.enterChannel, State.setOf]
    cases hchannel : s.subscriptions channel with
    | none => simp
    | some address => simpa using h.bounded channel address hchannel
  have hcases : ∀ c address, (Realtime.enterChannel s socket channel rest).subscriptions c = some address →
      c = channel ∧ address = s.setOf channel ∨ c ≠ channel ∧ s.subscriptions c = some address ∧
        address ≠ s.setOf channel := by
    intro c address hc
    simp only [Realtime.enterChannel] at hc
    by_cases hchannel : c = channel
    · subst hchannel
      rw [Function.update_self] at hc
      exact Or.inl ⟨rfl, (Option.some_inj.mp hc).symm⟩
    · rw [Function.update_of_ne hchannel] at hc
      refine Or.inr ⟨hchannel, hc, ?_⟩
      rintro rfl
      exact hchannel (h.setOf_eq_iff.mp hc).1
  refine ⟨fun c c' address hc hc' => ?_, fun address hne => ?_, fun c address hc => ?_,
    fun c address hc => ?_, fun waiting hwaiting address hemit => ?_⟩
  · rcases hcases c address hc with ⟨rfl, rfl⟩ | ⟨-, hold, hne⟩ <;>
      rcases hcases c' _ hc' with ⟨rfl, heq⟩ | ⟨-, hold', hne'⟩
    · rfl
    · exact (hne' rfl).elim
    · exact (hne heq).elim
    · exact h.distinct c c' _ hold hold'
  · by_cases heq : address = s.setOf channel
    · exact ⟨channel, by simp [Realtime.enterChannel, heq]⟩
    · simp only [Realtime.enterChannel, Function.update_of_ne heq] at hne ⊢
      obtain ⟨c, hc⟩ := h.linked address hne
      refine ⟨c, ?_⟩
      rw [Function.update_of_ne]
      · exact hc
      · rintro rfl
        exact heq (by simp [State.setOf, hc])
  · rcases hcases c address hc with ⟨-, rfl⟩ | ⟨-, hold, -⟩
    · exact hset
    · exact (h.bounded c address hold).trans_le hcreated
  · rcases hcases c address hc with ⟨-, rfl⟩ | ⟨-, hold, hne⟩
    · simp only [Realtime.enterChannel, Function.update_self]
      exact List.ne_nil_of_mem (mem_addTo.mpr (Or.inl rfl))
    · simp only [Realtime.enterChannel, Function.update_of_ne hne]
      exact h.nonempty c address hold
  · have hold : waiting ∈ s.waiting := by
      simp only [Realtime.enterChannel, List.mem_append, List.mem_singleton] at hwaiting
      rcases hwaiting with hwaiting | rfl
      · exact hwaiting
      · cases hemit
    obtain ⟨hlt, honly⟩ := h.captured waiting hold address hemit
    refine ⟨hlt.trans_le hcreated, fun c hc => ?_⟩
    rcases hcases c address hc with ⟨rfl, heq⟩ | ⟨-, hold, -⟩
    · -- The set is an old one, so it was the channel's before.
      refine honly c (h.setOf_eq_iff.mpr ⟨rfl, fun hnone => ?_⟩ |>.trans (congrArg some heq.symm))
      rw [heq, State.setOf, hnone, Option.getD_none] at hlt
      exact hlt.ne rfl
    · exact honly c hold

theorem members_leaveChannel (h : Wired s) :
    (leaveChannel socket s channel).members c =
      if c = channel then (s.members channel).filter (fun other => other ≠ socket) else s.members c := by
  unfold leaveChannel
  cases hchannel : s.subscriptions channel with
  | none =>
      split_ifs with hc
      · rw [hc, members_of_none hchannel]
        rfl
      · rfl
  | some address =>
      have hleft : s.members channel = s.sets address := members_of_some hchannel
      have hother : c ≠ channel → ∀ address', s.subscriptions c = some address' → address' ≠ address := by
        rintro hc _ hsome rfl
        exact hc (h.distinct c channel _ hsome hchannel)
      rw [hleft]
      simp only
      split_ifs with hempty hc hc
      · subst hc
        rw [hempty]
        simp only [State.members, Function.update_self]
      · simp only [State.members, Function.update_of_ne hc]
        cases hsome : s.subscriptions c with
        | none => rfl
        | some address' => simp only [Function.update_of_ne (hother hc address' hsome)]
      · subst hc
        simp [State.members, hchannel]
      · simp only [State.members]
        cases hsome : s.subscriptions c with
        | none => rfl
        | some address' => simp only [Function.update_of_ne (hother hc address' hsome)]

/-- A channel that keeps a subscriber keeps its set and its numbers. -/
theorem leaveChannel_kept (hc : (leaveChannel socket s channel).members c ≠ []) :
    (leaveChannel socket s channel).subscriptions c = s.subscriptions c ∧
      (leaveChannel socket s channel).sequenceByChannel c = s.sequenceByChannel c := by
  unfold leaveChannel at hc ⊢
  cases hchannel : s.subscriptions channel with
  | none => exact ⟨rfl, rfl⟩
  | some address =>
      simp only [hchannel] at hc ⊢
      split_ifs at hc ⊢ with hempty
      · have hne : c ≠ channel := by
          rintro rfl
          simp [State.members] at hc
        simp only [Function.update_of_ne hne, and_self]
      · exact ⟨rfl, rfl⟩

theorem Wired.leaveChannel (h : Wired s) : Wired (leaveChannel socket s channel) := by
  unfold Realtime.leaveChannel
  cases hchannel : s.subscriptions channel with
  | none => exact h
  | some address =>
      simp only
      split_ifs with hempty
      · have hold : ∀ c address', Function.update s.subscriptions channel none c = some address' →
            s.subscriptions c = some address' ∧ address' ≠ address := by
          intro c address' hc
          have hne : c ≠ channel := by
            rintro rfl
            rw [Function.update_self] at hc
            cases hc
          rw [Function.update_of_ne hne] at hc
          refine ⟨hc, ?_⟩
          rintro rfl
          exact hne (h.distinct c channel _ hc hchannel)
        refine ⟨fun c c' address' hc hc' => h.distinct c c' address' (hold c _ hc).1 (hold c' _ hc').1,
          fun address' hne => ?_, fun c address' hc => h.bounded c address' (hold c _ hc).1,
          fun c address' hc => ?_, fun waiting hwaiting address' hemit => ?_⟩
        · have haddress : address' ≠ address := by
            rintro rfl
            simp only [Function.update_self] at hne
            exact hne hempty
          simp only [Function.update_of_ne haddress] at hne
          obtain ⟨c, hc⟩ := h.linked address' hne
          have hne' : c ≠ channel := by
            rintro rfl
            exact haddress (Option.some_inj.mp (hc.symm.trans hchannel))
          exact ⟨c, (Function.update_of_ne hne' _ _).trans hc⟩
        · simp only [Function.update_of_ne (hold c _ hc).2]
          exact h.nonempty c address' (hold c _ hc).1
        · obtain ⟨hlt, honly⟩ := h.captured waiting hwaiting address' hemit
          exact ⟨hlt, fun c hc => honly c (hold c _ hc).1⟩
      · refine ⟨h.distinct, fun address' hne => ?_, h.bounded, fun c address' hc => ?_, h.captured⟩
        · by_cases haddress : address' = address
          · exact ⟨channel, haddress ▸ hchannel⟩
          · simp only [Function.update_of_ne haddress] at hne
            exact h.linked address' hne
        · by_cases haddress : address' = address
          · subst haddress
            simpa using hempty
          · simp only [Function.update_of_ne haddress]
            exact h.nonempty c address' hc

/-- Leaving changes the tables of channels only. -/
theorem leaveChannels_eq (socket : Socket) (s : State) (channels : List Channel) :
    ∃ sets subscriptions sequenceByChannel, leaveChannels socket s channels =
      { s with sets, subscriptions, sequenceByChannel } := by
  induction channels generalizing s with
  | nil => exact ⟨_, _, _, rfl⟩
  | cons channel channels ih =>
      have hone : ∃ sets subscriptions sequenceByChannel, leaveChannel socket s channel =
          { s with sets, subscriptions, sequenceByChannel } := by
        unfold leaveChannel
        cases s.subscriptions channel with
        | none => exact ⟨_, _, _, rfl⟩
        | some address =>
            simp only
            split_ifs <;> exact ⟨_, _, _, rfl⟩
      obtain ⟨sets, subscriptions, sequenceByChannel, hleave⟩ := hone
      change ∃ _ _ _, leaveChannels socket (leaveChannel socket s channel) channels = _
      obtain ⟨sets', subscriptions', sequenceByChannel', hrest⟩ := ih (leaveChannel socket s channel)
      rw [hleave] at hrest
      rw [hleave, hrest]
      exact ⟨_, _, _, rfl⟩

theorem Wired.leaveChannels (h : Wired s) (socket : Socket) (channels : List Channel) :
    Wired (leaveChannels socket s channels) := by
  induction channels generalizing s with
  | nil => exact h
  | cons channel channels ih => exact ih h.leaveChannel

theorem mem_members_leaveChannels (h : Wired s) {channels : List Channel} :
    other ∈ (leaveChannels socket s channels).members c ↔
      other ∈ s.members c ∧ (other ≠ socket ∨ c ∉ channels) := by
  induction channels generalizing s with
  | nil =>
      change other ∈ s.members c ↔ _
      simp
  | cons channel channels ih =>
      change other ∈ (Realtime.leaveChannels socket (leaveChannel socket s channel) channels).members c ↔ _
      rw [ih h.leaveChannel, members_leaveChannel h, List.mem_cons]
      split_ifs with hc
      · subst hc
        simp only [List.mem_filter, decide_eq_true_eq]
        tauto
      · tauto

theorem leaveChannels_kept (h : Wired s) {channels : List Channel}
    (hc : (leaveChannels socket s channels).members c ≠ []) :
    (leaveChannels socket s channels).subscriptions c = s.subscriptions c ∧
      (leaveChannels socket s channels).sequenceByChannel c = s.sequenceByChannel c := by
  induction channels generalizing s with
  | nil => exact ⟨rfl, rfl⟩
  | cons channel channels ih =>
      obtain ⟨hsubscriptions, hsequence⟩ := ih h.leaveChannel hc
      have hone : (leaveChannel socket s channel).members c ≠ [] := by
        obtain ⟨other, hother⟩ := List.exists_mem_of_ne_nil _ hc
        exact List.ne_nil_of_mem ((mem_members_leaveChannels h.leaveChannel).mp hother).1
      obtain ⟨hsubscriptions', hsequence'⟩ := leaveChannel_kept hone
      exact ⟨hsubscriptions.trans hsubscriptions', hsequence.trans hsequence'⟩

theorem sendError_eq (s : State) (socket : Socket) (text : String) :
    ∃ received, sendError s socket text = { s with received } := by
  unfold sendError
  split_ifs <;> exact ⟨_, rfl⟩

theorem sendToSocket_eq (overloaded : Socket → Bool) (message : RealtimeMessage) (s : State)
    (socket : Socket) :
    ∃ ready received, sendToSocket overloaded message s socket = { s with ready, received } := by
  unfold sendToSocket
  split_ifs <;> exact ⟨_, _, rfl⟩

theorem sendToSockets_eq (overloaded : Socket → Bool) (message : RealtimeMessage) (s : State)
    (sockets : List Socket) : ∃ ready received,
    sockets.foldl (sendToSocket overloaded message) s = { s with ready, received } := by
  induction sockets generalizing s with
  | nil => exact ⟨_, _, rfl⟩
  | cons socket sockets ih =>
      obtain ⟨ready, received, hsend⟩ := sendToSocket_eq overloaded message s socket
      obtain ⟨ready', received', hrest⟩ := ih (s := sendToSocket overloaded message s socket)
      rw [hsend] at hrest
      rw [List.foldl_cons, hsend, hrest]
      exact ⟨_, _, rfl⟩

/-- A message is left, answered with an error, or starts the subscription loop of a
registered socket. -/
theorem onMessage_cases (limits : RealtimeLimits) (s : State) (socket : Socket) (payload : Payload) :
    onMessage limits s socket payload = s ∨
      (∃ text, onMessage limits s socket payload = sendError s socket text) ∨
      ∃ channel rest, socket ∈ s.registered ∧
        onMessage limits s socket payload = enterChannel s socket channel rest := by
  cases payload with
  | malformed => exact Or.inr (Or.inl ⟨_, rfl⟩)
  | parsed channels =>
      cases channels with
      | none => exact Or.inr (Or.inl ⟨_, rfl⟩)
      | some channels =>
          simp only [onMessage]
          split_ifs with _ _ _ hregistered
          · exact Or.inr (Or.inl ⟨_, rfl⟩)
          · exact Or.inr (Or.inl ⟨_, rfl⟩)
          · exact Or.inr (Or.inl ⟨_, rfl⟩)
          · exact Or.inr (Or.inl ⟨_, rfl⟩)
          · cases (channels.filterMap id).eraseDups with
            | nil => exact Or.inl rfl
            | cons channel rest => exact Or.inr (Or.inr ⟨channel, rest, hregistered, rfl⟩)
          · exact Or.inl rfl

/-- A message handler sends its snapshot and enters the next channel. -/
theorem resume_subscribe (overloaded : Socket → Bool) (s : State) (snapshot : ℕ)
    (h : waiting.handler = .subscribe socket rest) :
    ∃ ready received sequenceByChannel, resume overloaded s waiting snapshot =
      enterChannels { s with ready, received, sequenceByChannel } socket rest := by
  obtain ⟨ready, received, hsend⟩ := sendToSocket_eq overloaded
    ⟨.snapshot, waiting.channel, nextSequence s waiting.channel, snapshot⟩ (s.number waiting.channel)
    socket
  refine ⟨ready, received, (s.number waiting.channel).sequenceByChannel, ?_⟩
  simp only [resume, h]
  rw [hsend]
  rfl

theorem resume_emit (overloaded : Socket → Bool) (s : State) (snapshot : ℕ)
    (h : waiting.handler = .emit address) :
    ∃ ready received sequenceByChannel, resume overloaded s waiting snapshot =
      { s with ready, received, sequenceByChannel } := by
  obtain ⟨ready, received, hsend⟩ := sendToSockets_eq overloaded
    ⟨.update, waiting.channel, nextSequence s waiting.channel, snapshot⟩ (s.number waiting.channel)
    (s.sets address)
  refine ⟨ready, received, (s.number waiting.channel).sequenceByChannel, ?_⟩
  simp only [resume, h]
  rw [hsend]
  rfl

theorem reject_cases (s : State) (handler : Handler) :
    reject s handler = s ∨ ∃ socket text, reject s handler = sendError s socket text := by
  cases handler with
  | subscribe socket rest => exact Or.inr ⟨socket, _, rfl⟩
  | emit address => exact Or.inl rfl

theorem reject_eq (s : State) (handler : Handler) :
    ∃ received, reject s handler = { s with received } := by
  rcases reject_cases s handler with heq | ⟨socket, text, heq⟩
  · exact ⟨_, heq⟩
  · rw [heq]
    exact sendError_eq s socket text

/-- An emit that a change has due is made. -/
def State.made (s : State) (channel : Channel) : State :=
  { s with due := Function.update s.due channel (s.due channel - 1) }

/-- An emit waits for a snapshot when the channel has subscribers. -/
theorem emit_cases (s : State) (channel : Channel) :
    emit s channel = s.made channel ∧ s.members channel = [] ∨
      ∃ address, s.subscriptions channel = some address ∧
        emit s channel =
          { s.made channel with waiting := s.waiting ++ [⟨channel, .emit address, none⟩] } := by
  unfold emit State.made
  cases hchannel : s.subscriptions channel with
  | none => exact Or.inl ⟨by simp [hchannel], members_of_none hchannel⟩
  | some address =>
      simp only [hchannel]
      split_ifs with hempty
      · exact Or.inl ⟨rfl, (members_of_some hchannel).trans hempty⟩
      · exact Or.inr ⟨address, rfl, rfl⟩

theorem Wired.of_waiting (h : Wired s) (hsubscriptions : t.subscriptions = s.subscriptions)
    (hsets : t.sets = s.sets) (hcreated : t.created = s.created)
    (hwaiting : ∀ waiting ∈ t.waiting, ∃ old ∈ s.waiting, old.handler = waiting.handler ∧
      old.channel = waiting.channel) : Wired t := by
  refine h.of_same hsubscriptions hsets hcreated fun waiting hmem address hemit => ?_
  obtain ⟨old, hold, hhandler, hchannel⟩ := hwaiting waiting hmem
  rw [← hchannel]
  exact h.captured old hold address (hhandler.trans hemit)

/-- A handler that leaves the list, or notes its snapshot, leaves the others. -/
theorem waiting_of_mem {before after : List Waiting} (hwaits : s.waiting = before ++ waiting :: after)
    {w : Waiting} (hw : w ∈ before ++ after) :
    ∃ old ∈ s.waiting, old.handler = w.handler ∧ old.channel = w.channel := by
  refine ⟨w, ?_, rfl, rfl⟩
  rw [hwaits, List.mem_append, List.mem_cons]
  rw [List.mem_append] at hw
  tauto

theorem waiting_of_read {before after : List Waiting} (hwaits : s.waiting = before ++ waiting :: after)
    {snapshot : Option ℕ} {w : Waiting}
    (hw : w ∈ before ++ { waiting with snapshot := snapshot } :: after) :
    ∃ old ∈ s.waiting, old.handler = w.handler ∧ old.channel = w.channel := by
  rw [List.mem_append, List.mem_cons] at hw
  rcases hw with hw | rfl | hw
  · exact waiting_of_mem hwaits (List.mem_append_left _ hw)
  · exact ⟨waiting, by simp [hwaits], rfl, rfl⟩
  · exact waiting_of_mem hwaits (List.mem_append_right _ hw)

theorem Wired.enterChannels (h : Wired s) (channels : List Channel) :
    Wired (enterChannels s socket channels) := by
  cases channels with
  | nil => exact h
  | cons channel rest => exact h.enterChannel

theorem Wired.step {limits : RealtimeLimits} {permitted : State → Turn → Prop} (h : Wired s)
    (hstep : Step limits permitted s t) : Wired t := by
  cases hstep with
  | connect socket ip new turn =>
      unfold connect
      simp only
      split_ifs
      · exact h.of_same rfl rfl rfl h.captured
      · exact h.of_same rfl rfl rfl h.captured
  | message socket payload turn =>
      rcases onMessage_cases limits s socket payload with heq | ⟨text, heq⟩ | ⟨channel, rest, -, heq⟩
      · rw [heq]
        exact h
      · obtain ⟨received, hsend⟩ := sendError_eq s socket text
        rw [heq, hsend]
        exact h.of_same rfl rfl rfl h.captured
      · rw [heq]
        exact h.enterChannel
  | hangUp socket turn => exact h.of_same rfl rfl rfl h.captured
  | close socket registered ended turn =>
      have hleft := h.leaveChannels socket
        (if socket ∈ s.registered then s.owned socket else [])
      exact hleft.of_same rfl rfl rfl hleft.captured
  | change channel turn => exact h.of_same rfl rfl rfl h.captured
  | emit channel turn =>
      rcases emit_cases s channel with ⟨heq, -⟩ | ⟨address, hchannel, heq⟩
      · rw [heq]
        exact h.of_same rfl rfl rfl h.captured
      · rw [heq]
        refine h.of_same rfl rfl rfl fun waiting hmem address' hemit => ?_
        rcases List.mem_append.mp hmem with hmem | hmem
        · exact h.captured waiting hmem address' hemit
        · obtain rfl := List.mem_singleton.mp hmem
          obtain rfl : address = address' := by simpa using hemit
          exact ⟨h.bounded channel address hchannel, fun c hc => h.distinct c channel address hc hchannel⟩
  | read before after waiting waits unread turn =>
      exact h.of_waiting rfl rfl rfl fun w hw => waiting_of_read waits hw
  | resume before after waiting snapshot overloaded waits answered turn =>
      have hrest : Wired { s with waiting := before ++ after } :=
        h.of_waiting rfl rfl rfl fun w hw => waiting_of_mem waits hw
      cases hhandler : waiting.handler with
      | subscribe socket rest =>
          obtain ⟨ready, received, sequenceByChannel, heq⟩ :=
            resume_subscribe overloaded { s with waiting := before ++ after } snapshot hhandler
          have htold : Wired { s with waiting := before ++ after, ready, received, sequenceByChannel } :=
            hrest.of_same rfl rfl rfl hrest.captured
          rw [heq]
          exact htold.enterChannels rest
      | emit address =>
          obtain ⟨ready, received, sequenceByChannel, heq⟩ :=
            resume_emit overloaded { s with waiting := before ++ after } snapshot hhandler
          rw [heq]
          exact hrest.of_same rfl rfl rfl hrest.captured
  | reject before after waiting waits turn =>
      have hrest : Wired { s with waiting := before ++ after } :=
        h.of_waiting rfl rfl rfl fun w hw => waiting_of_mem waits hw
      obtain ⟨received, heq⟩ := reject_eq { s with waiting := before ++ after } waiting.handler
      rw [heq]
      exact hrest.of_same rfl rfl rfl hrest.captured

theorem wired_initial : Wired State.initial := by
  constructor <;> intros <;> contradiction

/-- The tables are inverse to each other, and only handlers of registered
sockets have channels left. -/
structure Consistent (s : State) : Prop where
  wired : Wired s
  inverse : ∀ socket c, socket ∈ s.members c ↔ socket ∈ s.registered ∧ c ∈ s.owned socket
  opened : ∀ socket ∈ s.registered, socket ∈ s.opened
  loops : ∀ waiting ∈ s.waiting, ∀ socket rest, waiting.handler = .subscribe socket rest → rest ≠ [] →
    socket ∈ s.registered

/-- A socket is closed when none of its message handlers has channels left. -/
def ClosesLate (s : State) : Turn → Prop
  | .close socket => ∀ waiting ∈ s.waiting, ∀ rest, waiting.handler = .subscribe socket rest → rest = []
  | _ => True

theorem Consistent.of_waiting (h : Consistent s) (hsubscriptions : t.subscriptions = s.subscriptions)
    (hsets : t.sets = s.sets) (hregistered : t.registered = s.registered) (howned : t.owned = s.owned)
    (hopened : t.opened = s.opened) (hwired : Wired t)
    (hwaiting : ∀ waiting ∈ t.waiting, ∀ socket rest, waiting.handler = .subscribe socket rest →
      ∃ old ∈ s.waiting, old.handler = waiting.handler) : Consistent t := by
  refine ⟨hwired, fun socket c => ?_, ?_, fun waiting hmem socket rest hhandler hrest => ?_⟩
  · have hmembers : t.members c = s.members c := by rw [State.members, State.members, hsubscriptions, hsets]
    rw [hmembers, hregistered, howned]
    exact h.inverse socket c
  · rw [hregistered, hopened]
    exact h.opened
  · obtain ⟨old, hold, heq⟩ := hwaiting waiting hmem socket rest hhandler
    rw [hregistered]
    exact h.loops old hold socket rest (heq.trans hhandler) hrest

theorem Consistent.enterChannel (h : Consistent s) (hsocket : socket ∈ s.registered) :
    Consistent (enterChannel s socket channel rest) := by
  refine ⟨h.wired.enterChannel, fun other c => ?_, h.opened,
      fun waiting hmem other rest' hhandler hrest => ?_⟩
  · rw [members_enterChannel h.wired]
    simp only [Realtime.enterChannel]
    by_cases hother : other = socket
    · subst hother
      rw [Function.update_self, mem_addTo]
      split_ifs with hc
      · subst hc
        simp [mem_addTo, hsocket]
      · rw [h.inverse]
        tauto
    · rw [Function.update_of_ne hother]
      split_ifs with hc
      · subst hc
        rw [mem_addTo, h.inverse]
        tauto
      · exact h.inverse other c
  · rcases List.mem_append.mp hmem with hmem | hmem
    · exact h.loops waiting hmem other rest' hhandler hrest
    · obtain rfl := List.mem_singleton.mp hmem
      obtain ⟨rfl, -⟩ : socket = other ∧ rest = rest' := by simpa using hhandler
      exact hsocket

theorem Consistent.release (h : Consistent s) (hclosed : ClosesLate s (.close socket))
    (hwired : Wired (release s socket)) : Consistent (release s socket) := by
  obtain ⟨sets, subscriptions, sequenceByChannel, heq⟩ := leaveChannels_eq socket s
    (if socket ∈ s.registered then s.owned socket else [])
  refine ⟨hwired, fun other c => ?_, ?_, ?_⟩
  · have hmembers : other ∈ (Realtime.release s socket).members c ↔ other ∈ s.members c ∧ (other ≠ socket ∨
        c ∉ if socket ∈ s.registered then s.owned socket else []) := mem_members_leaveChannels h.wired
    rw [hmembers, h.inverse]
    simp only [Realtime.release, heq, List.mem_filter, decide_eq_true_eq]
    by_cases hother : other = socket
    · subst hother
      split_ifs <;> tauto
    · tauto
  · simp only [Realtime.release, heq, List.mem_filter]
    exact fun other hother => h.opened other hother.1
  · simp only [Realtime.release, heq, List.mem_filter, decide_eq_true_eq]
    intro waiting hmem other rest hhandler hrest
    refine ⟨h.loops waiting hmem other rest hhandler hrest, ?_⟩
    rintro rfl
    exact hrest (hclosed waiting hmem rest hhandler)

theorem Consistent.step {limits : RealtimeLimits} (h : Consistent s) (hstep : Step limits ClosesLate s t) :
    Consistent t := by
  have hwired := h.wired.step hstep
  cases hstep with
  | connect socket ip new turn =>
      revert hwired
      unfold connect
      simp only
      split_ifs
      · exact fun hwired => ⟨hwired, h.inverse, fun other hother =>
          List.mem_cons_of_mem _ (h.opened other hother),
          h.loops⟩
      · intro hwired
        have hnew : socket ∉ s.registered := fun hold => new (h.opened socket hold)
        refine ⟨hwired, fun other c => ?_, ?_, ?_⟩
        · refine (h.inverse other c).trans ?_
          simp only [List.mem_cons]
          by_cases hother : other = socket
          · subst hother
            simp [hnew]
          · simp [hother]
        · intro other hother
          rcases List.mem_cons.mp hother with rfl | hother
          · exact List.mem_cons_self
          · exact List.mem_cons_of_mem _ (h.opened other hother)
        · exact fun waiting hmem other rest hhandler hrest =>
            List.mem_cons_of_mem _ (h.loops waiting hmem other rest hhandler hrest)
  | message socket payload turn =>
      rcases onMessage_cases limits s socket payload with heq | ⟨text, heq⟩ | ⟨channel, rest, hsocket, heq⟩
      · rw [heq]
        exact h
      · obtain ⟨received, hsend⟩ := sendError_eq s socket text
        rw [heq, hsend] at hwired ⊢
        exact ⟨hwired, h.inverse, h.opened, h.loops⟩
      · rw [heq]
        exact h.enterChannel hsocket
  | hangUp socket turn => exact ⟨hwired, h.inverse, h.opened, h.loops⟩
  | close socket registered ended turn => exact h.release turn hwired
  | change channel turn => exact ⟨hwired, h.inverse, h.opened, h.loops⟩
  | emit channel turn =>
      rcases emit_cases s channel with ⟨heq, -⟩ | ⟨address, -, heq⟩
      · rw [heq] at hwired ⊢
        exact ⟨hwired, h.inverse, h.opened, h.loops⟩
      · rw [heq] at hwired ⊢
        refine h.of_waiting rfl rfl rfl rfl rfl hwired fun waiting hmem other rest hhandler => ?_
        rcases List.mem_append.mp hmem with hmem | hmem
        · exact ⟨waiting, hmem, rfl⟩
        · obtain rfl := List.mem_singleton.mp hmem
          cases hhandler
  | read before after waiting waits unread turn =>
      refine h.of_waiting rfl rfl rfl rfl rfl hwired fun w hw _ _ _ => ?_
      obtain ⟨old, hold, heq, -⟩ := waiting_of_read waits hw
      exact ⟨old, hold, heq⟩
  | resume before after waiting snapshot overloaded waits answered turn =>
      have hothers : ∀ w ∈ before ++ after, ∃ old ∈ s.waiting, old.handler = w.handler := by
        intro w hw
        obtain ⟨old, hold, heq, -⟩ := waiting_of_mem waits hw
        exact ⟨old, hold, heq⟩
      have hrest : Consistent { s with waiting := before ++ after } :=
        h.of_waiting rfl rfl rfl rfl rfl
          (h.wired.of_waiting rfl rfl rfl fun w hw => waiting_of_mem waits hw)
          fun w hw _ _ _ => hothers w hw
      cases hhandler : waiting.handler with
      | subscribe socket rest =>
          obtain ⟨ready, received, sequenceByChannel, heq⟩ :=
            resume_subscribe overloaded { s with waiting := before ++ after } snapshot hhandler
          have htold : Consistent { s with waiting := before ++ after, ready, received, sequenceByChannel } :=
            ⟨hrest.wired.of_same rfl rfl rfl hrest.wired.captured, hrest.inverse, hrest.opened, hrest.loops⟩
          rw [heq]
          cases rest with
          | nil => exact htold
          | cons channel rest =>
              refine htold.enterChannel ?_
              exact h.loops waiting (by simp [waits]) socket (channel :: rest) hhandler (by simp)
      | emit address =>
          obtain ⟨ready, received, sequenceByChannel, heq⟩ :=
            resume_emit overloaded { s with waiting := before ++ after } snapshot hhandler
          rw [heq] at hwired ⊢
          exact ⟨hwired, hrest.inverse, hrest.opened, hrest.loops⟩
  | reject before after waiting waits turn =>
      obtain ⟨received, heq⟩ := reject_eq { s with waiting := before ++ after } waiting.handler
      rw [heq] at hwired ⊢
      refine h.of_waiting rfl rfl rfl rfl rfl hwired fun w hw _ _ _ => ?_
      obtain ⟨old, hold, heq, -⟩ := waiting_of_mem waits hw
      exact ⟨old, hold, heq⟩

theorem consistent_initial : Consistent State.initial :=
  ⟨wired_initial, fun _ _ => by simp [State.initial, State.members], nofun, nofun⟩

/-- A handler that goes on enters its socket, whether it was closed or not. -/
theorem resume_enters (h : Wired s) (overloaded : Socket → Bool) (snapshot : ℕ)
    (hhandler : waiting.handler = .subscribe socket (channel :: rest)) :
    socket ∈ (resume overloaded s waiting snapshot).members channel ∧
      (resume overloaded s waiting snapshot).registered = s.registered := by
  obtain ⟨ready, received, sequenceByChannel, heq⟩ :=
    resume_subscribe overloaded s snapshot hhandler
  have htold : Wired { s with ready, received, sequenceByChannel } := h.of_same rfl rfl rfl h.captured
  rw [heq]
  refine ⟨?_, rfl⟩
  rw [enterChannels, members_enterChannel htold, if_pos rfl]
  exact mem_addTo.mpr (Or.inl rfl)

end

theorem runs_wired {limits : RealtimeLimits} {permitted : State → Turn → Prop} {after : State}
    (h : Runs limits permitted State.initial after) : Wired after := by
  induction h with
  | refl => exact wired_initial
  | tail _ hstep ih => exact ih.step hstep

/-- In every interleaving a socket is in the set of a channel exactly when it is
registered with the channel, and a channel without registered subscribers has no
set, as long as no socket is closed whose message handlers have channels left.
Such a handler would enter the closed socket again. -/
theorem subscriptions_consistent (limits : RealtimeLimits) :
    (∀ after, Runs limits ClosesLate State.initial after →
      (∀ socket c, socket ∈ after.members c ↔ socket ∈ after.registered ∧ c ∈ after.owned socket) ∧
        ∀ c, (∀ socket ∈ after.registered, c ∉ after.owned socket) → after.subscriptions c = none) ∧
    ∀ permitted before, Runs limits permitted State.initial before →
      ∀ waiting socket channel rest, waiting.handler = .subscribe socket (channel :: rest) →
        socket ∉ before.registered → ∀ overloaded snapshot,
          socket ∈ (resume overloaded before waiting snapshot).members channel ∧
            socket ∉ (resume overloaded before waiting snapshot).registered := by
  constructor
  · intro after hrun
    have hafter : Consistent after := by
      induction hrun with
      | refl => exact consistent_initial
      | tail _ hstep ih => exact ih.step hstep
    refine ⟨hafter.inverse, fun c hnone => ?_⟩
    cases hsome : after.subscriptions c with
    | none => rfl
    | some address =>
        obtain ⟨socket, hmem⟩ := List.exists_mem_of_ne_nil _ (hafter.wired.nonempty c address hsome)
        rw [← members_of_some hsome] at hmem
        obtain ⟨hregistered, howned⟩ := (hafter.inverse socket c).mp hmem
        exact (hnone socket hregistered howned).elim
  · intro permitted before hrun waiting socket channel rest hhandler hgone overloaded snapshot
    obtain ⟨hmem, hregistered⟩ := resume_enters (runs_wired hrun) overloaded snapshot hhandler
    refine ⟨hmem, ?_⟩
    rw [hregistered]
    exact hgone

def exampleRealtimeLimits : RealtimeLimits := ⟨1000, 20, 8, 16⟩

/-- The channel of a maker whose lock hash is one digit again and again. -/
def makerChannel (digit : Char) : Channel :=
  "maker:0x" ++ String.ofList (List.replicate 64 digit) ++ ":orders"

theorem makerChannel_valid : isValidChannel (makerChannel '0') = true ∧
    isValidChannel (makerChannel '1') = true ∧ makerChannel '0' ≠ makerChannel '1' := by
  decide +kernel

/-- A socket has subscribed to the first of two channels. -/
def exampleSubscribing : State :=
  enterChannel (connect exampleRealtimeLimits State.initial 0 "127.0.0.1") 0 (makerChannel '0')
    [makerChannel '1']

theorem exampleSubscribing_runs (permitted : State → Turn → Prop)
    (hconnect : ∀ s socket ip, permitted s (.connect socket ip))
    (hmessage : ∀ s socket payload, permitted s (.message socket payload)) :
    Runs exampleRealtimeLimits permitted State.initial exampleSubscribing := by
  obtain ⟨hfirst, hsecond, hne⟩ := makerChannel_valid
  have hconnected : connect exampleRealtimeLimits State.initial 0 "127.0.0.1" =
      { State.initial with
        opened := [0]
        ready := Function.update (fun _ => false) 0 true
        ipOf := Function.update (fun _ => "") 0 "127.0.0.1"
        connectionsByIp := Function.update (fun _ => none) "127.0.0.1" (some 1)
        registered := [0]
        owned := Function.update (fun _ => []) 0 [] } := rfl
  have hnames : [makerChannel '0', makerChannel '1'].eraseDups = [makerChannel '0', makerChannel '1'] := by
    simp [List.eraseDups_cons, hne.symm]
  have hentered : onMessage exampleRealtimeLimits
      (connect exampleRealtimeLimits State.initial 0 "127.0.0.1") 0
      (.parsed (some [some (makerChannel '0'), some (makerChannel '1')])) = exampleSubscribing := by
    rw [exampleSubscribing, hconnected]
    simp [onMessage, exampleRealtimeLimits, hfirst, hsecond, hnames, enterChannels]
  have hfirst : Step exampleRealtimeLimits permitted State.initial _ :=
    .connect State.initial 0 "127.0.0.1" (by simp [State.initial]) (hconnect _ _ _)
  refine (Relation.ReflTransGen.single hfirst).tail ?_
  rw [← hentered]
  exact .message _ 0 _ (hmessage _ _ _)

/-- The handler has its snapshot of the first channel. -/
def exampleAnswered : Waiting := ⟨makerChannel '0', .subscribe 0 [makerChannel '1'], some 0⟩

theorem subscriptions_consistent_example :
    Runs exampleRealtimeLimits ClosesLate State.initial exampleSubscribing ∧
      0 ∈ exampleSubscribing.members (makerChannel '0') ∧
      (0 ∈ exampleSubscribing.members (makerChannel '0') ↔
        0 ∈ exampleSubscribing.registered ∧ makerChannel '0' ∈ exampleSubscribing.owned 0) := by
  have hruns := exampleSubscribing_runs ClosesLate (fun _ _ _ => trivial) fun _ _ _ => trivial
  refine ⟨hruns, ?_, ((subscriptions_consistent exampleRealtimeLimits).1 _ hruns).1 0 _⟩
  simp [State.members, exampleSubscribing, enterChannel, mem_addTo]

/-- The socket is closed while its handler waits for the first snapshot; the
handler goes on, and the closed socket stays subscribed to the second channel. -/
theorem closed_socket_subscribed : ∃ after,
    Runs exampleRealtimeLimits (fun _ _ => True) State.initial after ∧ after.waiting =
      [⟨makerChannel '1', .subscribe 0 [], none⟩] ∧
    0 ∈ after.members (makerChannel '1') ∧ 0 ∉ after.registered := by
  have hsubscribing := exampleSubscribing_runs (fun _ _ => True) (fun _ _ _ => trivial) fun _ _ _ => trivial
  let read : State := { exampleSubscribing with waiting := [] ++ exampleAnswered :: [] }
  have hread : Step exampleRealtimeLimits (fun _ _ => True) exampleSubscribing read :=
    .read _ [] [] ⟨makerChannel '0', .subscribe 0 [makerChannel '1'], none⟩ rfl rfl trivial
  have hhangUp : Step exampleRealtimeLimits (fun _ _ => True) read (read.terminate 0) :=
    .hangUp read 0 trivial
  have hclose : Step exampleRealtimeLimits (fun _ _ => True) (read.terminate 0)
      (release (read.terminate 0) 0) :=
    .close _ 0 (by simp [read, State.terminate, exampleSubscribing, enterChannel, connect, State.initial,
      exampleRealtimeLimits]) (by simp [State.terminate]) trivial
  obtain ⟨sets, subscriptions, sequenceByChannel, heq⟩ := leaveChannels_eq 0 (read.terminate 0)
    (if 0 ∈ (read.terminate 0).registered then (read.terminate 0).owned 0 else [])
  have hwaiting : (release (read.terminate 0) 0).waiting = [] ++ exampleAnswered :: [] := by
    rw [release, heq]
    rfl
  have hresume : Step exampleRealtimeLimits (fun _ _ => True) (release (read.terminate 0) 0)
      (resume (fun _ => false) { release (read.terminate 0) 0 with waiting := [] } exampleAnswered 0) :=
    .resume _ [] [] exampleAnswered 0 _ hwaiting rfl trivial
  have hruns := (((hsubscribing.tail hread).tail hhangUp).tail hclose).tail hresume
  have hwired : Wired { release (read.terminate 0) 0 with waiting := [] } := by
    have hreleased := runs_wired (((hsubscribing.tail hread).tail hhangUp).tail hclose)
    exact hreleased.of_same rfl rfl rfl nofun
  have hhandler : exampleAnswered.handler = .subscribe 0 (makerChannel '1' :: []) := rfl
  obtain ⟨hmem, hregistered⟩ := resume_enters hwired (fun _ => false) 0 hhandler
  refine ⟨_, hruns, ?_, hmem, ?_⟩
  · obtain ⟨ready, received, sequenceByChannel, hresumed⟩ := resume_subscribe (fun _ => false)
      { release (read.terminate 0) 0 with waiting := [] } 0 hhandler
    rw [hresumed]
    rfl
  · rw [hregistered]
    simp [release]

end CkbDex.Realtime
