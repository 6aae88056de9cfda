import CkbDex.ChannelCaps

/-!
# The turns of the broadcaster

What a turn does to one socket and to the channels that it has, whatever the turn
is about.
-/
namespace CkbDex.Realtime

/-- A handler is going to send the socket a snapshot of the channel. -/
def Pending (s : State) (socket : Socket) (c : Channel) : Prop :=
  ∃ waiting ∈ s.waiting, ∃ rest, waiting.handler = .subscribe socket rest ∧
    (waiting.channel = c ∨ c ∈ rest)

/-- What a turn leaves an open socket. -/
structure Kept (s t : State) (socket : Socket) : Prop where
  ready : t.ready socket = true → s.ready socket = true
  received : s.received socket <:+ t.received socket
  members : t.ready socket = true → ∀ c, socket ∈ s.members c → socket ∈ t.members c
  pending : t.ready socket = true → ∀ c, Pending s socket c → Pending t socket c ∨
    socket ∈ t.members c ∧ ∃ message, t.received socket = .message message :: s.received socket ∧
      message.channel = c

section
variable {s t u v : State} {socket other : Socket} {channel c : Channel} {channels rest : List Channel}

theorem Kept.of_waiting (hready : t.ready socket = true → s.ready socket = true)
    (hreceived : s.received socket <:+ t.received socket)
    (hmembers : ∀ c, socket ∈ s.members c → socket ∈ t.members c)
    (hwaiting : ∀ waiting ∈ s.waiting, ∃ kept ∈ t.waiting, kept.handler = waiting.handler ∧
      kept.channel = waiting.channel) : Kept s t socket := by
  refine ⟨hready, hreceived, fun _ => hmembers, fun _ c hpending => Or.inl ?_⟩
  obtain ⟨waiting, hmem, rest, hhandler, hc⟩ := hpending
  obtain ⟨kept, hkept, hsame, hchannel⟩ := hwaiting waiting hmem
  exact ⟨kept, hkept, rest, hsame.trans hhandler, by rwa [hchannel]⟩

theorem pending_enterChannel (h : Pending s socket c) :
    Pending (enterChannel s other channel rest) socket c := by
  obtain ⟨waiting, hmem, hrest⟩ := h
  exact ⟨waiting, List.mem_append_left _ hmem, hrest⟩

theorem pending_enterChannels (hmem : c ∈ channels) :
    Pending (enterChannels s socket channels) socket c := by
  cases channels with
  | nil => cases hmem
  | cons channel rest =>
      refine ⟨⟨channel, .subscribe socket rest, none⟩, ?_, rest, rfl, ?_⟩
      · exact List.mem_append_right _ (List.mem_singleton_self _)
      · exact (List.mem_cons.mp hmem).imp Eq.symm id

theorem pending_of_enterChannels (h : Pending s socket c) :
    Pending (enterChannels s other channels) socket c := by
  cases channels with
  | nil => exact h
  | cons channel rest => exact pending_enterChannel h

theorem ready_enterChannels : (enterChannels s other channels).ready = s.ready := by
  cases channels <;> rfl

theorem received_enterChannels : (enterChannels s other channels).received = s.received := by
  cases channels <;> rfl

theorem mem_members_enterChannels (hwired : Wired s) (hmem : socket ∈ s.members c) :
    socket ∈ (enterChannels s other channels).members c := by
  cases channels with
  | nil => exact hmem
  | cons channel rest => exact (mem_members_enterChannel hwired).mpr (Or.inr hmem)

theorem Kept.refl (s : State) (socket : Socket) : Kept s s socket :=
  .of_waiting id (List.suffix_refl _) (fun _ => id) fun waiting hmem => ⟨waiting, hmem, rfl, rfl⟩

theorem Kept.sendError (s : State) (socket other : Socket) (text : String) :
    Kept s (Realtime.sendError s other text) socket := by
  unfold Realtime.sendError
  split_ifs
  · refine .of_waiting id ?_ (fun _ => id) fun waiting hmem => ⟨waiting, hmem, rfl, rfl⟩
    by_cases hsame : socket = other
    · subst hsame
      simp [State.push]
    · simp [State.push, hsame]
  · exact .refl s socket

theorem Kept.onMessage (limits : RealtimeLimits) (hwired : Wired s) (payload : Payload) :
    Kept s (Realtime.onMessage limits s other payload) socket := by
  rcases onMessage_cases limits s other payload with heq | ⟨text, heq⟩ | ⟨channel, rest, -, heq⟩
  · rw [heq]
    exact .refl s socket
  · rw [heq]
    exact .sendError s socket other text
  · rw [heq]
    refine ⟨id, List.suffix_refl _, fun _ c hmem => ?_, fun _ c hpending => ?_⟩
    · exact (mem_members_enterChannel hwired).mpr (Or.inr hmem)
    · exact Or.inl (pending_enterChannel hpending)

section
variable {overloaded : Socket → Bool} {type : MessageType} {snapshot : ℕ} {targets : List Socket}

theorem received_deliver (hnodup : targets.Nodup) :
    (deliver overloaded s type channel snapshot targets).received socket =
      if socket ∈ targets ∧ s.ready socket = true ∧ overloaded socket = false then
        .message ⟨type, channel, nextSequence s channel, snapshot⟩ :: s.received socket
      else s.received socket :=
  received_sendToSockets hnodup

theorem suffix_deliver (hnodup : targets.Nodup) :
    s.received socket <:+ (deliver overloaded s type channel snapshot targets).received socket := by
  rw [received_deliver hnodup]
  split_ifs
  · exact List.suffix_cons _ _
  · exact List.suffix_refl _

theorem ready_deliver (h : (deliver overloaded s type channel snapshot targets).ready socket = true) :
    s.ready socket = true ∧ (socket ∈ targets → overloaded socket = false) := by
  exact ready_sendToSockets (s := s.number channel) targets h

theorem members_deliver : (deliver overloaded s type channel snapshot targets).members c = s.members c := by
  obtain ⟨ready, received, heq⟩ := deliver_eq overloaded s type channel snapshot targets
  rw [heq]
  rfl

theorem waiting_deliver : (deliver overloaded s type channel snapshot targets).waiting = s.waiting := by
  obtain ⟨ready, received, heq⟩ := deliver_eq overloaded s type channel snapshot targets
  rw [heq]
  rfl

end

/-- A handler that goes on shows its channel, and enters the others it has left. -/
theorem Kept.resume {before after : List Waiting} {waiting : Waiting} {snapshot : ℕ}
    {overloaded : Socket → Bool} (htraced : Traced s) (waits : s.waiting = before ++ waiting :: after) :
    Kept s (Realtime.resume overloaded { s with waiting := before ++ after } waiting snapshot) socket := by
  have hmem : waiting ∈ s.waiting := by simp [waits]
  obtain ⟨hnodup, htargets⟩ := htraced.mem_targetsOf hmem
  have hdelivered := htraced.delivered overloaded snapshot waits
  -- The other handlers go on waiting.
  have hothers : ∀ {t : State} {w : Waiting} {rest : List Channel} {c : Channel},
      t.waiting = before ++ after → w ∈ s.waiting → w.handler = .subscribe socket rest →
        (w.channel = c ∨ c ∈ rest) → Pending t socket c ∨ w = waiting := by
    intro t w rest c ht hw hhandler hc
    rw [waits, List.mem_append, List.mem_cons] at hw
    rcases hw with hw | rfl | hw
    · exact Or.inl ⟨w, by simp [ht, hw], rest, hhandler, hc⟩
    · exact Or.inr rfl
    · exact Or.inl ⟨w, by simp [ht, hw], rest, hhandler, hc⟩
  obtain ⟨r, hr⟩ : ∃ r : State, r = { s with waiting := before ++ after } := ⟨_, rfl⟩
  have hready : r.ready = s.ready := by rw [hr]
  have hreceived : r.received = s.received := by rw [hr]
  have hmembers : ∀ c, r.members c = s.members c := fun c => by rw [hr]; rfl
  have hwaiting : r.waiting = before ++ after := by rw [hr]
  have hsets : r.sets = s.sets := by rw [hr]
  rw [← hr] at hdelivered ⊢
  cases hhandler : waiting.handler with
  | emit address =>
      rw [hhandler, targetsOf, ← hsets] at hnodup
      rw [resume_emit_deliver hhandler]
      refine ⟨fun h => ?_, ?_, fun _ c hc => ?_, fun _ c hpending => ?_⟩
      · rw [← hready]
        exact (ready_deliver h).1
      · rw [← hreceived]
        exact suffix_deliver hnodup
      · rwa [members_deliver, hmembers]
      · obtain ⟨w, hw, rest, hsubscribe, hc⟩ := hpending
        rcases hothers (waiting_deliver.trans hwaiting) hw hsubscribe hc with hpending | rfl
        · exact Or.inl hpending
        · rw [hhandler] at hsubscribe
          cases hsubscribe
  | subscribe target rest =>
      rw [hhandler, targetsOf] at hnodup htargets hdelivered
      rw [resume_subscribe_deliver hhandler]
      have hstays : ∀ c, socket ∈ s.members c → socket ∈ (enterChannels (deliver overloaded r
          .snapshot waiting.channel snapshot [target]) target rest).members c := by
        intro c hc
        apply mem_members_enterChannels hdelivered.wired
        rwa [members_deliver, hmembers]
      refine ⟨fun h => ?_, ?_, fun _ => hstays, fun h c hpending => ?_⟩
      · rw [ready_enterChannels] at h
        rw [← hready]
        exact (ready_deliver h).1
      · rw [received_enterChannels, ← hreceived]
        exact suffix_deliver hnodup
      · rw [ready_enterChannels] at h
        obtain ⟨hopen, hroom⟩ := ready_deliver h
        obtain ⟨w, hw, rest', hsubscribe, hc⟩ := hpending
        rcases hothers (waiting_deliver.trans hwaiting) hw hsubscribe hc with hpending | rfl
        · exact Or.inl (pending_of_enterChannels hpending)
        · rw [hhandler] at hsubscribe
          cases hsubscribe
          rcases hc with rfl | hc
          · rw [hready] at hopen
            refine Or.inr ⟨hstays _ (htargets _ (List.mem_singleton_self _) hopen),
              ⟨.snapshot, w.channel, nextSequence r w.channel, snapshot⟩, ?_, rfl⟩
            rw [received_enterChannels, received_deliver hnodup, hready, hreceived]
            exact if_pos ⟨List.mem_singleton_self _, hopen, hroom (List.mem_singleton_self _)⟩
          · exact Or.inl (pending_enterChannels hc)

theorem Kept.step {limits : RealtimeLimits} {permitted : State → Turn → Prop} (htraced : Traced s)
    (hanswered : ∀ turn, permitted s turn → ∀ waiting, turn ≠ .reject waiting)
    (hopened : socket ∈ s.opened) (hstep : Step limits permitted s t) : Kept s t socket := by
  cases hstep with
  | connect other ip new turn =>
      have hne : socket ≠ other := fun heq => new (heq ▸ hopened)
      refine .of_waiting ?_ ?_ ?_ ?_ <;> unfold Realtime.connect <;> simp only <;> split_ifs
      all_goals first
        | exact id
        | exact fun h => (Function.update_of_ne hne _ _).symm.trans h
        | exact List.suffix_refl _
        | exact fun _ => id
        | exact fun waiting hmem => ⟨waiting, hmem, rfl, rfl⟩
  | message other payload turn => exact .onMessage limits htraced.wired payload
  | hangUp other turn =>
      refine .of_waiting (fun h => ?_) (List.suffix_refl _) (fun _ => id)
        fun waiting hmem => ⟨waiting, hmem, rfl, rfl⟩
      have hne : socket ≠ other := by
        rintro rfl
        simp [State.terminate] at h
      exact (Function.update_of_ne hne _ _).symm.trans h
  | close other registered ended turn =>
      obtain ⟨connectionsByIp, registered, sets, subscriptions, sequenceByChannel, heq, -⟩ :=
        release_eq s other
      have hready : (release s other).ready = s.ready := by rw [heq]
      have hreceived : (release s other).received = s.received := by rw [heq]
      have hwaiting : (release s other).waiting = s.waiting := by rw [heq]
      refine ⟨fun h => by rwa [hready] at h, by rw [hreceived], fun h c hmem => ?_,
        fun _ c hpending => ?_⟩
      · have hne : socket ≠ other := by
          rintro rfl
          rw [hready, ended] at h
          cases h
        exact (mem_members_release htraced.wired hne).mpr hmem
      · left
        unfold Pending at hpending ⊢
        rwa [hwaiting]
  | change channel turn =>
      exact .of_waiting id (List.suffix_refl _) (fun _ => id)
        fun waiting hmem => ⟨waiting, hmem, rfl, rfl⟩
  | emit channel turn =>
      rcases emit_cases s channel with ⟨heq, -⟩ | ⟨address, -, heq⟩
      · rw [heq]
        exact .of_waiting id (List.suffix_refl _) (fun _ => id)
          fun waiting hmem => ⟨waiting, hmem, rfl, rfl⟩
      · rw [heq]
        exact .of_waiting id (List.suffix_refl _) (fun _ => id)
          fun waiting hmem => ⟨waiting, List.mem_append_left _ hmem, rfl, rfl⟩
  | read before after waiting waits unread turn =>
      refine .of_waiting id (List.suffix_refl _) (fun _ => id) fun w hmem => ?_
      rw [waits, List.mem_append, List.mem_cons] at hmem
      rcases hmem with hmem | rfl | hmem
      · exact ⟨w, List.mem_append_left _ hmem, rfl, rfl⟩
      · exact ⟨_, List.mem_append_right _ List.mem_cons_self, rfl, rfl⟩
      · exact ⟨w, List.mem_append_right _ (List.mem_cons_of_mem _ hmem), rfl, rfl⟩
  | resume before after waiting snapshot overloaded waits answered turn =>
      exact .resume htraced waits
  | reject before after waiting waits turn => exact (hanswered _ turn waiting rfl).elim

/-- Open sockets are registered, and what a socket has is a set. -/
structure Orderly (s : State) : Prop where
  registered : ∀ socket, s.ready socket = true → socket ∈ s.registered
  nodup : ∀ socket, (s.owned socket).Nodup
  unopened : ∀ socket, socket ∉ s.opened → s.owned socket = []

theorem Orderly.of_same (h : Orderly s) (hready : ∀ socket, t.ready socket = true → s.ready socket = true)
    (hregistered : t.registered = s.registered) (howned : t.owned = s.owned) (hopened : t.opened = s.opened) :
    Orderly t := by
  refine ⟨fun socket hr => ?_, fun socket => ?_, fun socket hnot => ?_⟩
  · rw [hregistered]
    exact h.registered socket (hready socket hr)
  · rw [howned]
    exact h.nodup socket
  · rw [hopened] at hnot
    rw [howned]
    exact h.unopened socket hnot

theorem Orderly.enterChannels (h : Orderly s) (hsocket : socket ∈ s.opened) :
    Orderly (Realtime.enterChannels s socket channels) := by
  cases channels with
  | nil => exact h
  | cons channel rest =>
      refine ⟨h.registered, fun other => ?_, fun other hnot => ?_⟩
      · simp only [Realtime.enterChannels, Realtime.enterChannel]
        by_cases hsame : other = socket
        · subst hsame
          rw [Function.update_self]
          exact nodup_addTo (h.nodup other)
        · rw [Function.update_of_ne hsame]
          exact h.nodup other
      · have hne : other ≠ socket := fun heq => hnot (heq ▸ hsocket)
        simp only [Realtime.enterChannels, Realtime.enterChannel, Function.update_of_ne hne]
        exact h.unopened other hnot

theorem Orderly.onMessage (h : Orderly s) (htraced : Traced s) (limits : RealtimeLimits) (payload : Payload) :
    Orderly (Realtime.onMessage limits s socket payload) := by
  rcases onMessage_cases limits s socket payload with heq | ⟨text, heq⟩ | ⟨channel, rest, hmem, heq⟩
  · rw [heq]
    exact h
  · obtain ⟨received, hsend⟩ := sendError_eq s socket text
    rw [heq, hsend]
    exact h.of_same (fun _ => id) rfl rfl rfl
  · rw [heq]
    have hentered : Orderly (Realtime.enterChannels s socket (channel :: rest)) :=
      h.enterChannels (htraced.registered socket hmem)
    exact hentered

theorem Orderly.resume (h : Orderly s) (htraced : Traced s) {before after : List Waiting} {waiting : Waiting}
    {snapshot : ℕ} {overloaded : Socket → Bool} (waits : s.waiting = before ++ waiting :: after) :
    Orderly (Realtime.resume overloaded { s with waiting := before ++ after } waiting snapshot) := by
  have hrest : Orderly { s with waiting := before ++ after } := h.of_same (fun _ => id) rfl rfl rfl
  have hdelivered : ∀ type targets, Orderly (deliver overloaded { s with waiting := before ++ after } type
      waiting.channel snapshot targets) := by
    intro type targets
    obtain ⟨ready, received, heq⟩ := deliver_eq overloaded { s with waiting := before ++ after } type
      waiting.channel snapshot targets
    refine hrest.of_same (fun _ hr => (ready_deliver hr).1) ?_ ?_ ?_ <;> rw [heq] <;> rfl
  cases hhandler : waiting.handler with
  | emit address =>
      rw [resume_emit_deliver hhandler]
      exact hdelivered _ _
  | subscribe target rest =>
      rw [resume_subscribe_deliver hhandler]
      apply (hdelivered _ _).enterChannels
      obtain ⟨ready, received, heq⟩ := deliver_eq overloaded { s with waiting := before ++ after }
        .snapshot waiting.channel snapshot [target]
      rw [heq]
      exact (htraced.loops waiting (by simp [waits]) target rest hhandler).1

theorem Orderly.step {limits : RealtimeLimits} {permitted : State → Turn → Prop} (h : Orderly s)
    (htraced : Traced s) (hstep : Step limits permitted s t) : Orderly t := by
  cases hstep with
  | connect other ip new turn =>
      unfold Realtime.connect
      simp only
      split_ifs
      · exact ⟨h.registered, h.nodup, fun socket hnot =>
          h.unopened socket (List.not_mem_of_not_mem_cons hnot)⟩
      · refine ⟨fun socket hr => ?_, fun socket => ?_, fun socket hnot => ?_⟩
        · by_cases hsame : socket = other
          · exact hsame ▸ List.mem_cons_self
          · have hold := (Function.update_of_ne hsame _ _).symm.trans hr
            exact List.mem_cons_of_mem _ (h.registered socket hold)
        · by_cases hsame : socket = other
          · simp [hsame]
          · simpa [hsame] using h.nodup socket
        · obtain ⟨hne, hnot⟩ := not_or.mp (mt List.mem_cons.mpr hnot)
          simpa [hne] using h.unopened socket hnot
  | message other payload turn => exact h.onMessage htraced limits payload
  | hangUp other turn =>
      refine h.of_same (fun socket hr => ?_) rfl rfl rfl
      have hne : socket ≠ other := by
        rintro rfl
        simp [State.terminate] at hr
      exact (Function.update_of_ne hne _ _).symm.trans hr
  | close other registered ended turn =>
      obtain ⟨sets, subscriptions, sequenceByChannel, heq⟩ := leaveChannels_eq other s
        (if other ∈ s.registered then s.owned other else [])
      simp only [release, heq]
      refine ⟨fun socket hr => ?_, h.nodup, h.unopened⟩
      have hne : socket ≠ other := by
        rintro rfl
        rw [ended] at hr
        cases hr
      exact List.mem_filter.mpr ⟨h.registered socket hr, by simpa using hne⟩
  | change channel turn => exact h.of_same (fun _ => id) rfl rfl rfl
  | emit channel turn =>
      rcases emit_cases s channel with ⟨heq, -⟩ | ⟨address, -, heq⟩
      · rw [heq]
        exact h.of_same (fun _ => id) rfl rfl rfl
      · rw [heq]
        exact h.of_same (fun _ => id) rfl rfl rfl
  | read before after waiting waits unread turn => exact h.of_same (fun _ => id) rfl rfl rfl
  | resume before after waiting snapshot overloaded waits answered turn => exact h.resume htraced waits
  | reject before after waiting waits turn =>
      obtain ⟨received, heq⟩ := reject_eq { s with waiting := before ++ after } waiting.handler
      rw [heq]
      exact h.of_same (fun _ => id) rfl rfl rfl

/-- Only its own requests give a socket channels. -/
theorem channelsAhead_step {limits : RealtimeLimits} {permitted : State → Turn → Prop}
    (hforeign : ∀ payload, ¬permitted s (.message socket payload))
    (hstep : Step limits permitted s t) :
    channelsAhead t socket ⊆ channelsAhead s socket := by
  have hold : ∀ waiting ∈ s.waiting, (∃ old ∈ s.waiting, old.handler = waiting.handler) ∨
      ∃ address, waiting.handler = .emit address := fun waiting hmem => Or.inl ⟨waiting, hmem, rfl⟩
  cases hstep with
  | connect other ip new turn =>
      unfold Realtime.connect
      simp only
      split_ifs
      · exact channelsAhead_mono rfl hold
      · intro c hc
        rw [mem_channelsAhead] at hc ⊢
        refine hc.imp_left fun howned => ?_
        by_cases hsame : socket = other
        · simp [hsame] at howned
        · simpa [hsame] using howned
  | message other payload turn =>
      have hne : other ≠ socket := fun heq => hforeign payload (heq ▸ turn)
      rcases onMessage_cases limits s other payload with heq | ⟨text, heq⟩ | ⟨channel, rest, -, heq⟩
      · rw [heq]
      · obtain ⟨received, hsend⟩ := sendError_eq s other text
        rw [heq, hsend]
        exact channelsAhead_mono rfl hold
      · rw [heq]
        exact channelsAhead_enterChannel.trans (by simp [hne.symm])
  | hangUp other turn => exact channelsAhead_mono rfl hold
  | close other registered ended turn =>
      obtain ⟨sets, subscriptions, sequenceByChannel, heq⟩ := leaveChannels_eq other s
        (if other ∈ s.registered then s.owned other else [])
      simp only [release, heq]
      exact channelsAhead_mono rfl hold
  | change channel turn => exact channelsAhead_mono rfl hold
  | emit channel turn =>
      rcases emit_cases s channel with ⟨heq, -⟩ | ⟨address, -, heq⟩
      · rw [heq]
        exact channelsAhead_mono rfl hold
      · rw [heq]
        refine channelsAhead_mono rfl fun waiting hmem => ?_
        rcases List.mem_append.mp hmem with hmem | hmem
        · exact hold waiting hmem
        · exact Or.inr ⟨address, by rw [List.mem_singleton.mp hmem]⟩
  | read before after waiting waits unread turn =>
      refine channelsAhead_mono rfl fun w hw => ?_
      obtain ⟨old, hmem, heq, -⟩ := waiting_of_read waits hw
      exact Or.inl ⟨old, hmem, heq⟩
  | resume before after waiting snapshot overloaded waits answered turn =>
      have hrest : channelsAhead { s with waiting := before ++ after } socket ⊆ channelsAhead s socket := by
        refine channelsAhead_mono rfl fun w hw => ?_
        obtain ⟨old, hmem, heq, -⟩ := waiting_of_mem waits hw
        exact Or.inl ⟨old, hmem, heq⟩
      cases hhandler : waiting.handler with
      | emit address =>
          obtain ⟨ready, received, sequenceByChannel, heq⟩ :=
            resume_emit overloaded { s with waiting := before ++ after } snapshot hhandler
          rw [heq]
          exact hrest
      | subscribe target rest =>
          obtain ⟨ready, received, sequenceByChannel, heq⟩ :=
            resume_subscribe overloaded { s with waiting := before ++ after } snapshot hhandler
          rw [heq]
          apply channelsAhead_enterChannels.trans
          apply Finset.union_subset hrest
          split_ifs with hsame
          · -- The channels that are left were ahead before.
            intro c hc
            rw [List.mem_toFinset] at hc
            rw [mem_channelsAhead]
            exact Or.inr ⟨waiting, by simp [waits],
              mem_channelsToCome.mpr ⟨rest, hsame ▸ hhandler, hc⟩⟩
          · exact Finset.empty_subset _
  | reject before after waiting waits turn =>
      obtain ⟨received, heq⟩ := reject_eq { s with waiting := before ++ after } waiting.handler
      rw [heq]
      refine channelsAhead_mono rfl fun w hw => ?_
      obtain ⟨old, hmem, hsame, -⟩ := waiting_of_mem waits hw
      exact Or.inl ⟨old, hmem, hsame⟩

theorem opened_step {limits : RealtimeLimits} {permitted : State → Turn → Prop}
    (hstep : Step limits permitted u v) (hopened : socket ∈ u.opened) : socket ∈ v.opened := by
  cases hstep with
  | connect other ip new turn =>
      unfold Realtime.connect
      simp only
      split_ifs <;> exact List.mem_cons_of_mem _ hopened
  | message other payload turn =>
      rcases onMessage_cases limits u other payload with heq | ⟨text, heq⟩ | ⟨channel, rest, -, heq⟩
      · rwa [heq]
      · obtain ⟨received, hsend⟩ := sendError_eq u other text
        rw [heq, hsend]
        exact hopened
      · rw [heq]
        exact hopened
  | hangUp other turn => exact hopened
  | close other registered ended turn =>
      obtain ⟨connectionsByIp, registered, sets, subscriptions, sequenceByChannel, heq, -⟩ :=
        release_eq u other
      rw [heq]
      exact hopened
  | change channel turn => exact hopened
  | emit channel turn =>
      rcases emit_cases u channel with ⟨heq, -⟩ | ⟨address, -, heq⟩ <;> rw [heq] <;> exact hopened
  | read before after waiting waits unread turn => exact hopened
  | resume before after waiting snapshot overloaded waits answered turn =>
      cases hhandler : waiting.handler with
      | emit address =>
          obtain ⟨ready, received, sequenceByChannel, heq⟩ :=
            resume_emit overloaded { u with waiting := before ++ after } snapshot hhandler
          rw [heq]
          exact hopened
      | subscribe target rest =>
          obtain ⟨ready, received, sequenceByChannel, heq⟩ :=
            resume_subscribe overloaded { u with waiting := before ++ after } snapshot hhandler
          rw [heq]
          cases rest <;> exact hopened
  | reject before after waiting waits turn =>
      obtain ⟨received, heq⟩ := reject_eq { u with waiting := before ++ after } waiting.handler
      rw [heq]
      exact hopened

end

end CkbDex.Realtime
