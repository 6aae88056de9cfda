import CkbDex.MessageNumbers

/-!
# Messages turn by turn

Every turn of the broadcaster keeps the order of the messages that it sent.
-/
namespace CkbDex.Realtime

section
variable {s t : State} {socket : Socket} {channel c : Channel} {overloaded : Socket → Bool}
  {type : MessageType} {snapshot : ℕ} {targets : List Socket} {rest : List Channel}

/-- Errors are no messages of a channel, and only open sockets receive them. -/
theorem sendError_messages (s : State) (target : Socket) (text : String) :
    ∃ received, sendError s target text = { s with received } ∧
      (∀ socket c, messagesOn { s with received } socket c = messagesOn s socket c) ∧
      ∀ socket, s.ready socket = false → received socket = s.received socket := by
  unfold sendError
  split_ifs with hready
  · refine ⟨_, rfl, fun socket c => ?_, fun socket hnot => ?_⟩
    · unfold messagesOn
      by_cases hsame : socket = target
      · subst hsame
        simp
      · simp only [Function.update_of_ne hsame]
    · have hne : socket ≠ target := by
        rintro rfl
        rw [hready] at hnot
        cases hnot
      exact Function.update_of_ne hne _ _
  · exact ⟨_, rfl, fun _ _ => rfl, fun _ _ => rfl⟩

theorem Traced.of_received (h : Traced s) {received : Socket → List Frame}
    (hreceived : ∀ socket, s.ready socket = false → received socket = s.received socket) :
    Traced { s with received } := by
  refine ⟨h.wired.of_same rfl rfl rfl h.wired.captured, h.nodup, h.loops, h.opened, h.registered,
    fun socket hnew => ?_⟩
  obtain ⟨hready, hnone⟩ := h.unopened socket hnew
  exact ⟨hready, (hreceived socket hready).trans hnone⟩

theorem Ordered.of_messages (h : Ordered s) {received : Socket → List Frame}
    (hmessages : ∀ socket c, messagesOn { s with received } socket c = messagesOn s socket c) :
    Ordered { s with received } := by
  refine ⟨fun socket c => ?_, fun socket c => ?_, fun waiting hmem snapshot hsnapshot => ?_,
    fun socket c hready => ?_⟩
  · rw [hmessages]
    exact h.sorted socket c
  · rw [hmessages]
    exact h.past socket c
  · refine ⟨(h.waits waiting hmem snapshot hsnapshot).1, fun socket => ?_⟩
    rw [hmessages]
    exact (h.waits waiting hmem snapshot hsnapshot).2 socket
  · rw [hmessages]
    exact h.numbered socket c hready

theorem mem_members_release (h : Wired s) {other : Socket} (hne : other ≠ socket) :
    other ∈ (release s socket).members c ↔ other ∈ s.members c :=
  (mem_members_leaveChannels h).trans (and_iff_left (Or.inl hne))

theorem release_kept (h : Wired s) {other : Socket} (hmem : other ∈ (release s socket).members c) :
    (release s socket).subscriptions c = s.subscriptions c ∧
      (release s socket).sequenceByChannel c = s.sequenceByChannel c :=
  leaveChannels_kept h (List.ne_nil_of_mem hmem)

theorem release_sets (s : State) (socket : Socket) (address : ℕ) :
    ((release s socket).sets address).Sublist (s.sets address) := by
  have general : ∀ channels (s : State),
      ((leaveChannels socket s channels).sets address).Sublist (s.sets address) := by
    intro channels
    induction channels with
    | nil => exact fun s => List.Sublist.refl _
    | cons channel channels ih =>
        intro s
        refine (ih (leaveChannel socket s channel)).trans ?_
        unfold leaveChannel
        cases s.subscriptions channel with
        | none => exact List.Sublist.refl _
        | some address' =>
            have hleft : (Function.update s.sets address' ((s.sets address').filter
                fun other => other ≠ socket) address).Sublist (s.sets address) := by
              by_cases hsame : address = address'
              · subst hsame
                rw [Function.update_self]
                exact List.filter_sublist
              · rw [Function.update_of_ne hsame]
            simp only
            split_ifs
            · exact hleft
            · exact hleft
  exact general _ s

/-- What a close leaves alone. -/
theorem release_eq (s : State) (socket : Socket) :
    ∃ connectionsByIp registered sets subscriptions sequenceByChannel,
    release s socket = { s with
      connectionsByIp, registered, sets, subscriptions, sequenceByChannel } ∧
    ∀ other ∈ registered, other ∈ s.registered := by
  obtain ⟨sets, subscriptions, sequenceByChannel, heq⟩ := leaveChannels_eq socket s
    (if socket ∈ s.registered then s.owned socket else [])
  refine ⟨(release s socket).connectionsByIp, s.registered.filter fun other => other ≠ socket, sets,
    subscriptions, sequenceByChannel, ?_, fun other hother => (List.mem_filter.mp hother).1⟩
  simp only [release, heq]

theorem Traced.release (h : Traced s) (hover : s.ready socket = false)
    (hwired : Wired (release s socket)) : Traced (release s socket) := by
  have hmem : ∀ {other c}, s.ready other = true → other ∈ s.members c →
      other ∈ (Realtime.release s socket).members c := by
    intro other c hready hold
    refine (mem_members_release h.wired ?_).mpr hold
    rintro rfl
    rw [hready] at hover
    cases hover
  have hsets := fun address => release_sets s socket address
  obtain ⟨connectionsByIp, registered, sets, subscriptions, sequenceByChannel, heq, hregistered⟩ :=
    release_eq s socket
  rw [heq] at hwired hsets ⊢
  refine ⟨hwired, fun address => (h.nodup address).sublist (hsets address),
    fun waiting hw other rest hhandler => ?_,
    fun address other hother => h.opened address other ((hsets address).subset hother),
    fun other hother => h.registered other (hregistered other hother), h.unopened⟩
  obtain ⟨hopened, hready⟩ := h.loops waiting hw other rest hhandler
  refine ⟨hopened, fun hr => ?_⟩
  rw [← heq]
  exact hmem hr (hready hr)

theorem Ordered.release (h : Ordered s) (hwired : Wired s) (hover : s.ready socket = false) :
    Ordered (release s socket) := by
  have hmem : ∀ {other c}, s.ready other = true → other ∈ s.members c →
      other ∈ (Realtime.release s socket).members c := by
    intro other c hready hold
    refine (mem_members_release hwired ?_).mpr hold
    rintro rfl
    rw [hready] at hover
    cases hover
  have hkept : ∀ {other c}, other ∈ (Realtime.release s socket).members c →
      (Realtime.release s socket).sequenceByChannel c = s.sequenceByChannel c :=
    fun hother => (release_kept hwired hother).2
  obtain ⟨connectionsByIp, registered, sets, subscriptions, sequenceByChannel, heq, -⟩ :=
    release_eq s socket
  rw [heq] at hmem hkept ⊢
  refine ⟨h.sorted, h.past, h.waits, fun other c hready message hmessage => ?_⟩
  obtain ⟨hmember, hle⟩ := h.numbered other c hready message hmessage
  refine ⟨hmem hready hmember, ?_⟩
  rw [hkept (hmem hready hmember)]
  exact hle

theorem Traced.deliver (h : Traced s) (hnodup : targets.Nodup) :
    Traced (deliver overloaded s type channel snapshot targets) := by
  have hready : ∀ socket, (Realtime.deliver overloaded s type channel snapshot targets).ready socket = true →
      s.ready socket = true := fun socket hr => (ready_sendToSockets targets hr).1
  have hreceived : ∀ socket, s.ready socket = false →
      (Realtime.deliver overloaded s type channel snapshot targets).received socket = s.received socket := by
    intro socket hnot
    refine (received_sendToSockets hnodup).trans (if_neg fun htold => ?_)
    have hopen : s.ready socket = true := htold.2.1
    rw [hnot] at hopen
    cases hopen
  obtain ⟨ready, received, heq⟩ := deliver_eq overloaded s type channel snapshot targets
  rw [heq] at hready hreceived ⊢
  refine ⟨h.wired.of_same rfl rfl rfl h.wired.captured, h.nodup, fun waiting hw other rest hhandler => ?_,
    h.opened, h.registered, fun socket hnew => ?_⟩
  · obtain ⟨hopened, hr⟩ := h.loops waiting hw other rest hhandler
    exact ⟨hopened, fun hr' => hr (hready other hr')⟩
  · obtain ⟨hnot, hnone⟩ := h.unopened socket hnew
    refine ⟨?_, (hreceived socket hnot).trans hnone⟩
    by_contra hopen
    have hopen' := hready socket (Bool.not_eq_false _ ▸ hopen)
    rw [hnot] at hopen'
    cases hopen'

theorem Traced.of_waiting (h : Traced s) {list : List Waiting}
    (hlist : ∀ waiting ∈ list, ∃ old ∈ s.waiting, old.handler = waiting.handler ∧
      old.channel = waiting.channel) : Traced { s with waiting := list } := by
  refine ⟨h.wired.of_waiting rfl rfl rfl hlist, h.nodup, fun waiting hw other rest hhandler => ?_, h.opened,
    h.registered, h.unopened⟩
  obtain ⟨old, hold, heq, hchannel⟩ := hlist waiting hw
  rw [← hchannel]
  exact h.loops old hold other rest (heq.trans hhandler)

theorem Ordered.of_waiting (h : Ordered s) {list : List Waiting}
    (hlist : ∀ waiting ∈ list, waiting ∈ s.waiting ∨ ∀ snapshot, waiting.snapshot = some snapshot →
      snapshot = s.projection waiting.channel) : Ordered { s with waiting := list } := by
  refine ⟨h.sorted, h.past, fun waiting hw snapshot hsnapshot => ?_, h.numbered⟩
  rcases hlist waiting hw with hold | hnow
  · exact h.waits waiting hold snapshot hsnapshot
  · rw [hnow snapshot hsnapshot]
    exact ⟨le_rfl, fun socket => h.past socket waiting.channel⟩

/-- The sockets that a handler sends its message to. -/
def targetsOf (s : State) : Handler → List Socket
  | .subscribe socket _ => [socket]
  | .emit address => s.sets address

theorem Traced.mem_targetsOf (h : Traced s) {waiting : Waiting} (hw : waiting ∈ s.waiting) :
    (targetsOf s waiting.handler).Nodup ∧ ∀ socket ∈ targetsOf s waiting.handler,
      s.ready socket = true → socket ∈ s.members waiting.channel := by
  cases hhandler : waiting.handler with
  | subscribe socket rest =>
      refine ⟨List.nodup_singleton socket, fun other hother hready => ?_⟩
      obtain rfl := List.mem_singleton.mp hother
      exact (h.loops waiting hw _ rest hhandler).2 hready
  | emit address =>
      refine ⟨h.nodup address, fun other hother _ => ?_⟩
      -- A set with a socket in it is still the set of its channel.
      obtain ⟨c, hc⟩ := h.wired.linked address (List.ne_nil_of_mem hother)
      obtain rfl := (h.wired.captured waiting hw address hhandler).2 c hc
      rw [members_of_some hc]
      exact hother

/-- The channels that a handler enters when it goes on. -/
def remaining : Handler → List Channel
  | .subscribe _ rest => rest
  | .emit _ => []

def typeOf : Handler → MessageType
  | .subscribe _ _ => .snapshot
  | .emit _ => .update

/-- A handler that goes on delivers its message, then it may enter a channel. -/
theorem resume_cases (overloaded : Socket → Bool) (s : State) (waiting : Waiting) (snapshot : ℕ) :
    resume overloaded s waiting snapshot = deliver overloaded s (typeOf waiting.handler) waiting.channel
        snapshot (targetsOf s waiting.handler) ∨
      ∃ socket next rest, waiting.handler = .subscribe socket (next :: rest) ∧
        resume overloaded s waiting snapshot = enterChannel (deliver overloaded s (typeOf waiting.handler)
          waiting.channel snapshot (targetsOf s waiting.handler)) socket next rest := by
  cases hhandler : waiting.handler with
  | subscribe socket channels =>
      rw [resume_subscribe_deliver hhandler]
      cases channels with
      | nil => exact Or.inl rfl
      | cons next rest => exact Or.inr ⟨socket, next, rest, rfl, rfl⟩
  | emit address =>
      rw [resume_emit_deliver hhandler]
      exact Or.inl rfl

section
variable {limits : RealtimeLimits} {permitted : State → Turn → Prop} {before after : List Waiting}
  {waiting : Waiting}

theorem Traced.delivered (h : Traced s) (overloaded : Socket → Bool) (snapshot : ℕ)
    (waits : s.waiting = before ++ waiting :: after) :
    Traced (Realtime.deliver overloaded { s with waiting := before ++ after } (typeOf waiting.handler)
      waiting.channel snapshot (targetsOf s waiting.handler)) := by
  have hw : waiting ∈ s.waiting := by simp [waits]
  exact (h.of_waiting fun w hmem => waiting_of_mem waits hmem).deliver (h.mem_targetsOf hw).1

theorem Traced.step (h : Traced s) (hstep : Step limits permitted s t) : Traced t := by
  cases hstep with
  | connect socket ip new turn =>
      have hunopened : ∀ other, other ∉ socket :: s.opened → other ≠ socket ∧ other ∉ s.opened := by
        intro other hnew
        rw [List.mem_cons, not_or] at hnew
        exact hnew
      unfold connect
      simp only
      split_ifs
      · exact ⟨h.wired.of_same rfl rfl rfl h.wired.captured, h.nodup,
          fun waiting hw other rest hhandler =>
            ⟨List.mem_cons_of_mem _ (h.loops waiting hw other rest hhandler).1,
              (h.loops waiting hw other rest hhandler).2⟩,
          fun address other hother => List.mem_cons_of_mem _ (h.opened address other hother),
          fun other hother => List.mem_cons_of_mem _ (h.registered other hother),
          fun other hnew => h.unopened other (hunopened other hnew).2⟩
      · refine ⟨h.wired.of_same rfl rfl rfl h.wired.captured, h.nodup,
          fun waiting hw other rest hhandler => ?_,
          fun address other hother => List.mem_cons_of_mem _ (h.opened address other hother),
          fun other hother => ?_, fun other hnew => ?_⟩
        · obtain ⟨hopened, hready⟩ := h.loops waiting hw other rest hhandler
          refine ⟨List.mem_cons_of_mem _ hopened, fun hr => hready ?_⟩
          have hne : other ≠ socket := fun heq => new (heq ▸ hopened)
          exact (Function.update_of_ne hne _ _).symm.trans hr
        · rcases List.mem_cons.mp hother with rfl | hother
          · exact List.mem_cons_self
          · exact List.mem_cons_of_mem _ (h.registered other hother)
        · obtain ⟨hne, hnew⟩ := hunopened other hnew
          refine ⟨(Function.update_of_ne hne _ _).trans (h.unopened other hnew).1, (h.unopened other hnew).2⟩
  | message socket payload turn =>
      rcases onMessage_cases limits s socket payload with heq | ⟨text, heq⟩ | ⟨channel, rest, hsocket, heq⟩
      · rw [heq]
        exact h
      · obtain ⟨received, hsend, -, hreceived⟩ := sendError_messages s socket text
        rw [heq, hsend]
        exact h.of_received hreceived
      · rw [heq]
        exact h.enterChannel (h.registered socket hsocket)
  | hangUp socket turn =>
      have hready : ∀ other, (s.terminate socket).ready other = true → s.ready other = true := by
        intro other hr
        have hne : other ≠ socket := by
          rintro rfl
          simp [State.terminate] at hr
        exact (Function.update_of_ne hne _ _).symm.trans hr
      refine ⟨h.wired.of_same rfl rfl rfl h.wired.captured, h.nodup, fun waiting hw other rest hhandler => ?_,
        h.opened, h.registered, fun other hnew => ⟨?_, (h.unopened other hnew).2⟩⟩
      · obtain ⟨hopened, hmember⟩ := h.loops waiting hw other rest hhandler
        exact ⟨hopened, fun hr => hmember (hready other hr)⟩
      · by_contra hopen
        have hopen' := hready other (Bool.not_eq_false _ ▸ hopen)
        rw [(h.unopened other hnew).1] at hopen'
        cases hopen'
  | close socket registered ended turn =>
      have hclose : Step limits permitted s (Realtime.release s socket) :=
        .close s socket registered ended turn
      exact h.release ended (h.wired.step hclose)
  | change channel turn =>
      exact ⟨h.wired.of_same rfl rfl rfl h.wired.captured, h.nodup, h.loops, h.opened, h.registered,
        h.unopened⟩
  | emit channel turn =>
      have hemit : Step limits permitted s (emit s channel) := .emit s channel turn
      have hwired := h.wired.step hemit
      rcases emit_cases s channel with ⟨heq, -⟩ | ⟨address, -, heq⟩
      · rw [heq] at hwired ⊢
        exact ⟨hwired, h.nodup, h.loops, h.opened, h.registered, h.unopened⟩
      · rw [heq] at hwired ⊢
        refine ⟨hwired, h.nodup, fun waiting hw other rest hhandler => ?_, h.opened, h.registered, h.unopened⟩
        rcases List.mem_append.mp hw with hw | hw
        · exact h.loops waiting hw other rest hhandler
        · obtain rfl := List.mem_singleton.mp hw
          cases hhandler
  | read before after waiting waits unread turn =>
      exact h.of_waiting fun w hw => waiting_of_read waits hw
  | resume before after waiting snapshot overloaded waits answered turn =>
      have hdelivered := h.delivered overloaded snapshot waits
      rcases resume_cases overloaded { s with waiting := before ++ after } waiting snapshot with
        heq | ⟨socket, next, rest, hhandler, heq⟩
      · rw [heq]
        exact hdelivered
      · rw [heq]
        refine Traced.enterChannel hdelivered ?_
        obtain ⟨ready, received, hsame⟩ := deliver_eq overloaded { s with waiting := before ++ after }
          (typeOf waiting.handler) waiting.channel snapshot (targetsOf s waiting.handler)
        change socket ∈ (Realtime.deliver _ _ _ _ _ (targetsOf s waiting.handler)).opened
        rw [hsame]
        exact (h.loops waiting (by simp [waits]) socket _ hhandler).1
  | reject before after waiting waits turn =>
      have hrest : Traced { s with waiting := before ++ after } :=
        h.of_waiting fun w hw => waiting_of_mem waits hw
      rcases reject_cases { s with waiting := before ++ after } waiting.handler with
        heq | ⟨socket, text, heq⟩
      · rw [heq]
        exact hrest
      · obtain ⟨received, hsend, -, hreceived⟩ :=
          sendError_messages { s with waiting := before ++ after } socket text
        rw [heq, hsend]
        exact hrest.of_received hreceived

theorem Ordered.delivered (h : Ordered s) (htraced : Traced s)
    (waits : s.waiting = before ++ waiting :: after) (answered : waiting.snapshot = some snapshot)
    (hturn : InOrder s (.resume waiting (before ++ after))) (overloaded : Socket → Bool) :
    Ordered (Realtime.deliver overloaded { s with waiting := before ++ after } (typeOf waiting.handler)
      waiting.channel snapshot (targetsOf s waiting.handler)) := by
  have hw : waiting ∈ s.waiting := by simp [waits]
  obtain ⟨hnodup, htargets⟩ := htraced.mem_targetsOf hw
  obtain ⟨hle, hpast⟩ := h.waits waiting hw snapshot answered
  have hrest : Ordered { s with waiting := before ++ after } := by
    refine h.of_waiting fun other hother => Or.inl ?_
    rw [waits]
    rcases List.mem_append.mp hother with hother | hother
    · exact List.mem_append_left _ hother
    · exact List.mem_append_right _ (List.mem_cons_of_mem _ hother)
  exact hrest.deliver hnodup htargets hle hpast fun other hother hchannel older hanswer =>
    hturn other hother hchannel snapshot answered older hanswer

theorem Ordered.step (h : Ordered s) (htraced : Traced s) (hin : ∀ turn, permitted s turn → InOrder s turn)
    (hstep : Step limits permitted s t) : Ordered t := by
  cases hstep with
  | connect socket ip new turn =>
      obtain ⟨hnot, hnone⟩ := htraced.unopened socket new
      unfold connect
      simp only
      split_ifs
      · exact ⟨h.sorted, h.past, h.waits, h.numbered⟩
      · refine ⟨h.sorted, h.past, h.waits, fun other c hready message hmessage => ?_⟩
        by_cases hsame : other = socket
        · subst hsame
          have hreceived : messagesOn s other c = [] := by simp [messagesOn, hnone]
          change message ∈ messagesOn s other c at hmessage
          rw [hreceived] at hmessage
          cases hmessage
        · exact h.numbered other c ((Function.update_of_ne hsame _ _).symm.trans hready) message hmessage
  | message socket payload turn =>
      rcases onMessage_cases limits s socket payload with heq | ⟨text, heq⟩ | ⟨channel, rest, hsocket, heq⟩
      · rw [heq]
        exact h
      · obtain ⟨received, hsend, hmessages, -⟩ := sendError_messages s socket text
        rw [heq, hsend]
        exact h.of_messages hmessages
      · rw [heq]
        exact h.enterChannel htraced.wired
  | hangUp socket turn =>
      refine ⟨h.sorted, h.past, h.waits, fun other c hready => ?_⟩
      have hne : other ≠ socket := by
        rintro rfl
        simp [State.terminate] at hready
      exact h.numbered other c ((Function.update_of_ne hne _ _).symm.trans hready)
  | close socket registered ended turn => exact h.release htraced.wired ended
  | change channel turn =>
      have hgrows : ∀ c, s.projection c ≤
          Function.update s.projection channel (s.projection channel + 1) c := by
        intro c
        by_cases hc : c = channel
        · subst hc
          rw [Function.update_self]
          exact Nat.le_succ _
        · rw [Function.update_of_ne hc]
      exact ⟨h.sorted, fun socket c message hmessage => (h.past socket c message hmessage).trans (hgrows c),
        fun waiting hw snapshot hsnapshot =>
          ⟨(h.waits waiting hw snapshot hsnapshot).1.trans (hgrows _),
              (h.waits waiting hw snapshot hsnapshot).2⟩,
        h.numbered⟩
  | emit channel turn =>
      rcases emit_cases s channel with ⟨heq, -⟩ | ⟨address, -, heq⟩
      · rw [heq]
        exact ⟨h.sorted, h.past, h.waits, h.numbered⟩
      · rw [heq]
        have hmade : Ordered (s.made channel) := ⟨h.sorted, h.past, h.waits, h.numbered⟩
        refine hmade.of_waiting fun waiting hw => ?_
        rcases List.mem_append.mp hw with hw | hw
        · exact Or.inl hw
        · obtain rfl := List.mem_singleton.mp hw
          exact Or.inr (by simp)
  | read before after waiting waits unread turn =>
      refine h.of_waiting fun w hw => ?_
      rw [waits]
      rcases List.mem_append.mp hw with hw | hw
      · exact Or.inl (List.mem_append_left _ hw)
      · rcases List.mem_cons.mp hw with rfl | hw
        · exact Or.inr fun snapshot hsnapshot => (Option.some_inj.mp hsnapshot).symm
        · exact Or.inl (List.mem_append_right _ (List.mem_cons_of_mem _ hw))
  | resume before after waiting snapshot overloaded waits answered turn =>
      have hdelivered := h.delivered htraced waits answered (hin _ turn) overloaded
      rcases resume_cases overloaded { s with waiting := before ++ after } waiting snapshot with
        heq | ⟨socket, next, rest, -, heq⟩
      · rw [heq]
        exact hdelivered
      · rw [heq]
        exact Ordered.enterChannel hdelivered (htraced.delivered overloaded snapshot waits).wired
  | reject before after waiting waits turn =>
      have hrest : Ordered { s with waiting := before ++ after } := by
        refine h.of_waiting fun other hother => Or.inl ?_
        rw [waits]
        rcases List.mem_append.mp hother with hother | hother
        · exact List.mem_append_left _ hother
        · exact List.mem_append_right _ (List.mem_cons_of_mem _ hother)
      rcases reject_cases { s with waiting := before ++ after } waiting.handler with
        heq | ⟨socket, text, heq⟩
      · rw [heq]
        exact hrest
      · obtain ⟨received, hsend, hmessages, -⟩ :=
          sendError_messages { s with waiting := before ++ after } socket text
        rw [heq, hsend]
        exact hrest.of_messages hmessages

end

end

end CkbDex.Realtime
