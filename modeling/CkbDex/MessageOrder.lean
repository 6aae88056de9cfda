import CkbDex.MessageTurns

/-!
# The order of messages

In order, the last message of a subscriber shows the last change, because every
change is followed by an emit.
-/
namespace CkbDex.Realtime

/-- A handler that will show a subscriber the projection as it is. -/
def Covers (s : State) (socket : Socket) (c : Channel) (waiting : Waiting) : Prop :=
  waiting.channel = c ∧ (waiting.snapshot = none ∨ waiting.snapshot = some (s.projection c)) ∧
    ((∃ rest, waiting.handler = .subscribe socket rest) ∨
      ∃ address, waiting.handler = .emit address ∧ s.subscriptions c = some address)

/-- The last message shows the projection as it is. -/
def Shown (s : State) (socket : Socket) (c : Channel) : Prop :=
  ∃ message earlier, messagesOn s socket c = message :: earlier ∧ message.data = s.projection c

/-- Every subscriber has seen the last change, or is going to. -/
def Fresh (s : State) : Prop :=
  ∀ socket c, s.ready socket = true → socket ∈ s.members c →
    s.due c ≠ 0 ∨ (∃ waiting ∈ s.waiting, Covers s socket c waiting) ∨ Shown s socket c

section
variable {s t : State} {socket : Socket} {channel c : Channel} {rest : List Channel} {waiting : Waiting}
  {before after : List Waiting} {overloaded : Socket → Bool} {snapshot : ℕ}

theorem Fresh.enterChannel (h : Fresh s) (hwired : Wired s) :
    Fresh (enterChannel s socket channel rest) := by
  intro other c hready hmem
  by_cases hnew : c = channel ∧ other = socket
  · obtain ⟨rfl, rfl⟩ := hnew
    refine Or.inr (Or.inl ⟨⟨c, .subscribe other rest, none⟩, ?_, rfl, Or.inl rfl, Or.inl ⟨rest, rfl⟩⟩)
    exact List.mem_append_right _ List.mem_cons_self
  · have hold : other ∈ s.members c := ((mem_members_enterChannel hwired).mp hmem).resolve_left hnew
    rcases h other c hready hold with hdue | ⟨waiting, hw, hchannel, hsnapshot, hhandler⟩ | hshown
    · exact Or.inl hdue
    · refine Or.inr (Or.inl ⟨waiting, List.mem_append_left _ hw, hchannel, hsnapshot, ?_⟩)
      refine hhandler.imp_right fun ⟨address, hemit, hsome⟩ => ⟨address, hemit, ?_⟩
      simp only [Realtime.enterChannel]
      by_cases hc : c = channel
      · subst hc
        simp [State.setOf, hsome]
      · rw [Function.update_of_ne hc]
        exact hsome
    · exact Or.inr (Or.inr hshown)

/-- What is delivered last is as new as what was shown before. -/
theorem Fresh.deliver (h : Fresh s) (overloaded : Socket → Bool) (htraced : Traced s)
    (hordered : Ordered s)
    (waits : s.waiting = before ++ waiting :: after) (answered : waiting.snapshot = some snapshot) :
    Fresh (deliver overloaded { s with waiting := before ++ after } (typeOf waiting.handler)
      waiting.channel snapshot (targetsOf s waiting.handler)) := by
  intro socket c hready hmem
  obtain ⟨hopen, hnotOver⟩ := ready_sendToSockets _ hready
  obtain ⟨hnodup, -⟩ := htraced.mem_targetsOf (by simp [waits] : waiting ∈ s.waiting)
  obtain ⟨hle, hpast⟩ := hordered.waits waiting (by simp [waits]) snapshot answered
  obtain ⟨t, ht⟩ : ∃ t, t = Realtime.deliver overloaded { s with waiting := before ++ after }
    (typeOf waiting.handler) waiting.channel snapshot (targetsOf s waiting.handler) := ⟨_, rfl⟩
  have hmessages : messagesOn t socket c =
      if c = waiting.channel ∧ socket ∈ targetsOf s waiting.handler ∧ s.ready socket = true ∧
        overloaded socket = false then
        ⟨typeOf waiting.handler, waiting.channel, nextSequence s waiting.channel, snapshot⟩ ::
          messagesOn s socket c
      else messagesOn s socket c := by
    rw [ht]
    exact messagesOn_deliver hnodup
  obtain ⟨ready, received, heq⟩ := deliver_eq overloaded { s with waiting := before ++ after }
    (typeOf waiting.handler) waiting.channel snapshot (targetsOf s waiting.handler)
  rw [← ht] at heq hmem ⊢
  have hprojection : t.projection = s.projection := by rw [heq]; rfl
  have hdue' : t.due = s.due := by rw [heq]; rfl
  have hsubscriptions : t.subscriptions = s.subscriptions := by rw [heq]; rfl
  have hwaiting : t.waiting = before ++ after := by rw [heq]; rfl
  have hmem' : socket ∈ s.members c := by
    rw [heq] at hmem
    exact hmem
  -- A delivery of the projection as it is shows it, and one to others changes nothing.
  have hshown : (c = waiting.channel → socket ∈ targetsOf s waiting.handler → snapshot = s.projection c) →
      (Shown s socket c ∨ c = waiting.channel ∧ socket ∈ targetsOf s waiting.handler) →
      Shown t socket c := by
    intro hcurrent hcases
    rw [Shown, hmessages, hprojection]
    by_cases htold : c = waiting.channel ∧ socket ∈ targetsOf s waiting.handler
    · rw [if_pos ⟨htold.1, htold.2, hopen, hnotOver htold.2⟩]
      exact ⟨_, _, rfl, hcurrent htold.1 htold.2⟩
    · rw [if_neg fun hall => htold ⟨hall.1, hall.2.1⟩]
      exact hcases.resolve_right htold
  rw [hdue', hwaiting]
  rcases h socket c hopen hmem' with hdue | ⟨w, hw, hchannel, hsnapshot, hhandler⟩ | hshown'
  · exact Or.inl hdue
  · rw [waits] at hw
    by_cases hrest : w ∈ before ++ after
    · refine Or.inr (Or.inl ⟨w, hrest, hchannel, ?_, ?_⟩)
      · rw [hprojection]
        exact hsnapshot
      · rw [hsubscriptions]
        exact hhandler
    · obtain rfl : w = waiting := by
        simp only [List.mem_append, List.mem_cons] at hw hrest
        tauto
      rw [answered] at hsnapshot
      have hcurrent : snapshot = s.projection c := by simpa using hsnapshot
      have htarget : socket ∈ targetsOf s w.handler := by
        rcases hhandler with ⟨rest, hsubscribe⟩ | ⟨address, hemit, hsome⟩
        · rw [hsubscribe]
          exact List.mem_cons_self
        · rw [hemit]
          rw [members_of_some hsome] at hmem'
          exact hmem'
      exact Or.inr (Or.inr (hshown (fun _ _ => hcurrent) (Or.inr ⟨hchannel.symm, htarget⟩)))
  · refine Or.inr (Or.inr (hshown (fun hc _ => ?_) (Or.inl hshown')))
    obtain ⟨message, earlier, hlist, hdata⟩ := hshown'
    subst hc
    refine le_antisymm hle ?_
    rw [← hdata]
    exact hpast socket message (by rw [hlist]; exact List.mem_cons_self)

theorem Fresh.step {limits : RealtimeLimits} {permitted : State → Turn → Prop} (h : Fresh s)
    (htraced : Traced s) (hordered : Ordered s)
    (hin : ∀ turn, permitted s turn → ∀ waiting, turn ≠ .reject waiting)
    (hstep : Step limits permitted s t) : Fresh t := by
  cases hstep with
  | connect socket ip new turn =>
      unfold connect
      simp only
      split_ifs
      · exact h
      · intro other c hready hmem
        have hne : other ≠ socket := by
          rintro rfl
          have hmem' : other ∈ s.members c := hmem
          unfold State.members at hmem'
          cases hsome : s.subscriptions c with
          | none => simp [hsome] at hmem'
          | some address =>
              rw [hsome] at hmem'
              exact new (htraced.opened address other hmem')
        exact h other c ((Function.update_of_ne hne _ _).symm.trans hready) hmem
  | message socket payload turn =>
      rcases onMessage_cases limits s socket payload with heq | ⟨text, heq⟩ | ⟨channel, rest, hsocket, heq⟩
      · rw [heq]
        exact h
      · obtain ⟨received, hsend, hmessages, -⟩ := sendError_messages s socket text
        rw [heq, hsend]
        intro other c hready hmem
        refine (h other c hready hmem).imp_right (Or.imp_right fun hshown => ?_)
        rw [Shown, hmessages]
        exact hshown
      · rw [heq]
        exact h.enterChannel htraced.wired
  | hangUp socket turn =>
      intro other c hready
      have hne : other ≠ socket := by
        rintro rfl
        simp [State.terminate] at hready
      exact h other c ((Function.update_of_ne hne _ _).symm.trans hready)
  | close socket registered ended turn =>
      intro other c hready hmem
      obtain ⟨hsubscriptions, -⟩ := release_kept htraced.wired hmem
      have hold : other ∈ s.members c := ((mem_members_leaveChannels htraced.wired).mp hmem).1
      obtain ⟨connectionsByIp, registered, sets, subscriptions, sequenceByChannel, heq, -⟩ :=
        release_eq s socket
      rw [heq] at hready hsubscriptions ⊢
      rcases h other c hready hold with hdue | ⟨waiting, hw, hchannel, hsnapshot, hhandler⟩ | hshown
      · exact Or.inl hdue
      · refine Or.inr (Or.inl ⟨waiting, hw, hchannel, hsnapshot, ?_⟩)
        rw [hsubscriptions]
        exact hhandler
      · exact Or.inr (Or.inr hshown)
  | change channel turn =>
      intro other c hready hmem
      by_cases hc : c = channel
      · subst hc
        left
        simp
      · have hprojection : Function.update s.projection channel (s.projection channel + 1) c =
            s.projection c := Function.update_of_ne hc _ _
        rcases h other c hready hmem with hdue | ⟨waiting, hw, hchannel, hsnapshot, hhandler⟩ | hshown
        · left
          simpa only [Function.update_of_ne hc] using hdue
        · refine Or.inr (Or.inl ⟨waiting, hw, hchannel, ?_, hhandler⟩)
          simpa only [hprojection] using hsnapshot
        · obtain ⟨message, earlier, hlist, hdata⟩ := hshown
          exact Or.inr (Or.inr ⟨message, earlier, hlist, hdata.trans hprojection.symm⟩)
  | emit channel turn =>
      have hmade : ∀ c, c ≠ channel → (s.made channel).due c = s.due c :=
        fun c hc => Function.update_of_ne hc _ _
      rcases emit_cases s channel with ⟨heq, hnone⟩ | ⟨address, hsome, heq⟩
      · rw [heq]
        intro other c hready hmem
        have hmem' : other ∈ s.members c := hmem
        have hc : c ≠ channel := by
          rintro rfl
          rw [hnone] at hmem'
          cases hmem'
        rw [hmade c hc]
        exact h other c hready hmem'
      · rw [heq]
        intro other c hready hmem
        by_cases hc : c = channel
        · subst hc
          refine Or.inr (Or.inl ⟨⟨c, .emit address, none⟩, ?_, rfl, Or.inl rfl, Or.inr ⟨address, rfl, hsome⟩⟩)
          exact List.mem_append_right _ List.mem_cons_self
        · have hdue' := hmade c hc
          rcases h other c hready hmem with hdue | ⟨waiting, hw, hcovers⟩ | hshown
          · exact Or.inl (hdue'.symm ▸ hdue)
          · exact Or.inr (Or.inl ⟨waiting, List.mem_append_left _ hw, hcovers⟩)
          · exact Or.inr (Or.inr hshown)
  | read before after waiting waits unread turn =>
      intro other c hready hmem
      rcases h other c hready hmem with hdue | ⟨w, hw, hchannel, hsnapshot, hhandler⟩ | hshown
      · exact Or.inl hdue
      · rw [waits, List.mem_append, List.mem_cons] at hw
        rcases hw with hw | rfl | hw
        · exact Or.inr (Or.inl ⟨w, List.mem_append_left _ hw, hchannel, hsnapshot, hhandler⟩)
        · subst hchannel
          exact Or.inr (Or.inl ⟨_, List.mem_append_right _ List.mem_cons_self, rfl, Or.inr rfl, hhandler⟩)
        · exact Or.inr (Or.inl ⟨w, List.mem_append_right _ (List.mem_cons_of_mem _ hw), hchannel, hsnapshot,
            hhandler⟩)
      · exact Or.inr (Or.inr hshown)
  | resume before after waiting snapshot overloaded waits answered turn =>
      have hdelivered := h.deliver overloaded htraced hordered waits answered
      rcases resume_cases overloaded { s with waiting := before ++ after } waiting snapshot with
        heq | ⟨socket, next, rest, -, heq⟩
      · rw [heq]
        exact hdelivered
      · rw [heq]
        exact Fresh.enterChannel hdelivered (htraced.delivered overloaded snapshot waits).wired
  | reject before after waiting waits turn => exact (hin _ turn waiting rfl).elim

end

theorem traced_initial : Traced State.initial :=
  ⟨wired_initial, fun _ => List.nodup_nil, nofun, nofun, nofun, fun _ _ => ⟨rfl, rfl⟩⟩

theorem ordered_initial : Ordered State.initial := ⟨fun _ _ => List.Pairwise.nil, nofun, nofun, nofun⟩

theorem fresh_initial : Fresh State.initial := nofun

section
variable {limits : RealtimeLimits} {permitted : State → Turn → Prop} {after : State}

theorem runs_ordered (hin : ∀ s turn, permitted s turn → InOrder s turn)
    (h : Runs limits permitted State.initial after) : Traced after ∧ Ordered after := by
  induction h with
  | refl => exact ⟨traced_initial, ordered_initial⟩
  | tail _ hstep ih => exact ⟨ih.1.step hstep, ih.2.step ih.1 (hin _) hstep⟩

theorem runs_fresh (h : Runs limits InOrderAnswered State.initial after) : Fresh after := by
  induction h with
  | refl => exact fresh_initial
  | tail hrun hstep ih =>
      obtain ⟨htraced, hordered⟩ := runs_ordered (fun _ _ hturn => hturn.1) hrun
      exact ih.step htraced hordered (fun _ hturn => hturn.2) hstep

theorem Ordered.data_le (h : Ordered after) (socket : Socket) (c : Channel) :
    ∀ message ∈ messagesOn after socket c, ∀ message' ∈ messagesOn after socket c,
      message.sequence < message'.sequence → message.data ≤ message'.data := by
  intro message hmem message' hmem'
  refine List.Pairwise.forall_of_forall_of_flip
    (R := fun m m' : RealtimeMessage => m.sequence < m'.sequence → m.data ≤ m'.data) ?_ ?_ ?_ hmem hmem'
  · exact fun _ _ hlt => (hlt.ne rfl).elim
  · exact (h.sorted socket c).imp fun hboth hlt => (hboth.1.not_gt hlt).elim
  · exact (h.sorted socket c).imp fun hboth _ => hboth.2

end

/-- In every interleaving a message with a higher number never shows an older
projection, as long as a handler goes on only when no other of its channel waits
with an older snapshot. When all snapshots were answered and all handlers have
ended, the last message of every open subscriber shows the last change. -/
theorem messages_in_order (limits : RealtimeLimits) :
    (∀ after, Runs limits InOrder State.initial after → ∀ socket c,
      ∀ message ∈ messagesOn after socket c, ∀ message' ∈ messagesOn after socket c,
        message.sequence < message'.sequence → message.data ≤ message'.data) ∧
    ∀ after, Runs limits InOrderAnswered State.initial after → after.waiting = [] →
      (∀ c, after.due c = 0) → ∀ socket c, after.ready socket = true → socket ∈ after.members c →
        ∃ message earlier, messagesOn after socket c = message :: earlier ∧
          message.data = after.projection c := by
  constructor
  · intro after hrun
    exact (runs_ordered (fun _ _ hturn => hturn) hrun).2.data_le
  · intro after hrun hended hmade socket c hready hmem
    rcases runs_fresh hrun socket c hready hmem with hdue | ⟨waiting, hw, -⟩ | hshown
    · exact (hdue (hmade c)).elim
    · rw [hended] at hw
      cases hw
    · exact hshown

theorem makerChannel_set : exampleSubscribing.subscriptions (makerChannel '0') = some 0 ∧
    exampleSubscribing.sets 0 = [0] ∧ exampleSubscribing.ready 0 = true ∧
    exampleSubscribing.sequenceByChannel (makerChannel '0') = none ∧
    exampleSubscribing.received 0 = [] ∧ exampleSubscribing.projection (makerChannel '0') = 0 := by
  refine ⟨?_, rfl, rfl, rfl, rfl, rfl⟩
  simp only [exampleSubscribing, enterChannel, Function.update_self]
  rfl

theorem emit_of_some {s : State} {channel : Channel} {address : ℕ}
    (h : s.subscriptions channel = some address) (hne : s.sets address ≠ []) :
    emit s channel = { s.made channel with waiting := s.waiting ++ [⟨channel, .emit address, none⟩] } := by
  simp [emit, State.made, h, hne]

/-- An emit with one subscriber goes on. -/
theorem resume_emit_one {s : State} {channel : Channel} {address snapshot : ℕ} {socket : Socket}
    (hset : s.sets address = [socket]) (hready : s.ready socket = true) :
    resume (fun _ => false) s ⟨channel, .emit address, some snapshot⟩ snapshot =
      (s.number channel).push socket
        (.message ⟨.update, channel, nextSequence s channel, snapshot⟩) := by
  have hready' : (s.number channel).ready socket = true := hready
  simp [resume, hset, sendToSocket, hready']

/-- A change is committed, its emit starts and reads its snapshot. -/
def State.emitted (s : State) (channel : Channel) (address : ℕ) : State :=
  { s with
    projection := Function.update s.projection channel (s.projection channel + 1)
    waiting := s.waiting ++ [⟨channel, .emit address, some (s.projection channel + 1)⟩] }

theorem emitted_runs {limits : RealtimeLimits} {permitted : State → Turn → Prop}
    (hpermitted : ∀ s turn, (∀ waiting others, turn ≠ .resume waiting others) →
      (∀ waiting, turn ≠ .reject waiting) → permitted s turn)
    {s : State} {channel : Channel} {address : ℕ}
    (hsome : s.subscriptions channel = some address) (hne : s.sets address ≠ []) :
    Runs limits permitted s (s.emitted channel address) := by
  let changed : State := { s with
    projection := Function.update s.projection channel (s.projection channel + 1)
    due := Function.update s.due channel (s.due channel + 1) }
  have hchange : Step limits permitted s changed := .change s channel (hpermitted _ _ nofun nofun)
  have hemit : Step limits permitted changed (emit changed channel) :=
    .emit changed channel (hpermitted _ _ nofun nofun)
  rw [emit_of_some (s := changed) hsome hne] at hemit
  have hread : Step limits permitted _ _ :=
    .read { changed.made channel with waiting := changed.waiting ++ [⟨channel, .emit address, none⟩] }
      changed.waiting [] ⟨channel, .emit address, none⟩ rfl rfl (hpermitted _ _ nofun nofun)
  have hdue : (changed.made channel).due = s.due := by simp [changed, State.made]
  have hafter : s.emitted channel address = { changed.made channel with waiting :=
      changed.waiting ++ [⟨channel, .emit address, some (changed.projection channel)⟩] } := by
    rw [show s.emitted channel address = { s.emitted channel address with due := s.due } from rfl, ← hdue]
    simp [State.emitted, State.made, changed]
  rw [hafter]
  exact ((Relation.ReflTransGen.single hchange).tail hemit).tail hread

theorem inOrderAnswered_of_new (s : State) (turn : Turn)
    (hresume : ∀ waiting others, turn ≠ .resume waiting others)
    (hreject : ∀ waiting, turn ≠ .reject waiting) :
    InOrderAnswered s turn := by
  refine ⟨?_, hreject⟩
  cases turn with
  | resume waiting others => exact (hresume waiting others rfl).elim
  | _ => trivial

/-- Handlers that wait with a newer snapshot, or with none, may be passed. -/
theorem inOrderAnswered_resume {s : State} {waiting : Waiting} {others : List Waiting} {snapshot : ℕ}
    (hanswered : waiting.snapshot = some snapshot)
    (hnewer : ∀ other ∈ others, ∀ v, other.snapshot = some v → snapshot ≤ v) :
    InOrderAnswered s (.resume waiting others) := by
  refine ⟨fun other hother _ v hv older holder => ?_, nofun⟩
  obtain rfl := Option.some_inj.mp (hanswered.symm.trans hv)
  exact hnewer other hother older holder

def exampleEmit (snapshot : ℕ) : Waiting := ⟨makerChannel '0', .emit 0, some snapshot⟩

/-- A subscription to two channels, which waits for the snapshot of the first one. -/
def exampleFirstWait : Waiting := ⟨makerChannel '0', .subscribe 0 [makerChannel '1'], none⟩

def exampleSecondWait : Waiting := ⟨makerChannel '1', .subscribe 0 [], none⟩

/-- Two changes were emitted. -/
def exampleEmits : State := (exampleSubscribing.emitted (makerChannel '0') 0).emitted (makerChannel '0') 0

/-- The first emit has gone on, then the second one. -/
def exampleEarlier : State :=
  resume (fun _ => false) { exampleEmits with waiting := [exampleFirstWait, exampleEmit 2] } (exampleEmit 1) 1

def exampleLater : State :=
  resume (fun _ => false) { exampleEarlier with waiting := [exampleFirstWait] } (exampleEmit 2) 2

/-- The subscription has gone on with its first channel, then with the second one. -/
def exampleNext : State :=
  resume (fun _ => false) { exampleLater with waiting := [] } { exampleFirstWait with snapshot := some 2 } 2

def exampleEnded : State :=
  resume (fun _ => false) { exampleNext with waiting := [] } { exampleSecondWait with snapshot := some 0 } 0

theorem exampleLater_runs : Runs exampleRealtimeLimits InOrderAnswered State.initial exampleLater := by
  have hsubscribing : Runs exampleRealtimeLimits InOrderAnswered State.initial exampleSubscribing :=
    exampleSubscribing_runs InOrderAnswered (fun s _ _ => inOrderAnswered_of_new s _ nofun nofun)
      fun s _ _ => inOrderAnswered_of_new s _ nofun nofun
  obtain ⟨hset, hsockets, -⟩ := makerChannel_set
  have hne : exampleSubscribing.sets 0 ≠ [] := by simp [hsockets]
  have hemits : Runs exampleRealtimeLimits InOrderAnswered State.initial exampleEmits :=
    (hsubscribing.trans (emitted_runs inOrderAnswered_of_new hset hne)).trans
      (emitted_runs inOrderAnswered_of_new hset hne)
  have hearlier : Step exampleRealtimeLimits InOrderAnswered exampleEmits exampleEarlier := by
    refine .resume exampleEmits [exampleFirstWait] [exampleEmit 2] (exampleEmit 1) 1 (fun _ => false) ?_ rfl
      (inOrderAnswered_resume rfl ?_)
    · decide +kernel
    · simp [exampleFirstWait, exampleEmit]
  have hlater : Step exampleRealtimeLimits InOrderAnswered exampleEarlier exampleLater := by
    refine .resume exampleEarlier [exampleFirstWait] [] (exampleEmit 2) 2 (fun _ => false) ?_ rfl
      (inOrderAnswered_resume rfl ?_)
    · decide +kernel
    · simp [exampleFirstWait]
  exact (hemits.tail hearlier).tail hlater

theorem exampleEnded_runs : Runs exampleRealtimeLimits InOrderAnswered State.initial exampleEnded := by
  have hnext : Runs exampleRealtimeLimits InOrderAnswered State.initial exampleNext := by
    have hread : Step exampleRealtimeLimits InOrderAnswered exampleLater
        { exampleLater with waiting := [{ exampleFirstWait with snapshot := some 2 }] } := by
      refine .read exampleLater [] [] exampleFirstWait ?_ rfl (inOrderAnswered_of_new _ _ nofun nofun)
      decide +kernel
    refine (exampleLater_runs.tail hread).tail (.resume _ [] [] { exampleFirstWait with snapshot := some 2 } 2
      (fun _ => false) rfl rfl (inOrderAnswered_resume rfl ?_))
    exact fun _ h => (List.not_mem_nil h).elim
  have hread : Step exampleRealtimeLimits InOrderAnswered exampleNext
      { exampleNext with waiting := [{ exampleSecondWait with snapshot := some 0 }] } := by
    refine .read exampleNext [] [] exampleSecondWait ?_ rfl (inOrderAnswered_of_new _ _ nofun nofun)
    decide +kernel
  refine (hnext.tail hread).tail (.resume _ [] [] { exampleSecondWait with snapshot := some 0 } 0
    (fun _ => false) rfl rfl (inOrderAnswered_resume rfl ?_))
  exact fun _ h => (List.not_mem_nil h).elim

/-- Two updates and a snapshot of one channel, in order. -/
theorem messages_in_order_example :
    messagesOn exampleEnded 0 (makerChannel '0') = [⟨.snapshot, makerChannel '0', 3, 2⟩,
      ⟨.update, makerChannel '0', 2, 2⟩, ⟨.update, makerChannel '0', 1, 1⟩] ∧
    (∀ message ∈ messagesOn exampleEnded 0 (makerChannel '0'),
      ∀ message' ∈ messagesOn exampleEnded 0 (makerChannel '0'),
        message.sequence < message'.sequence → message.data ≤ message'.data) ∧
    ∃ message earlier, messagesOn exampleEnded 0 (makerChannel '0') = message :: earlier ∧
      message.data = exampleEnded.projection (makerChannel '0') := by
  have hturns : Step exampleRealtimeLimits InOrderAnswered ≤ Step exampleRealtimeLimits InOrder :=
    fun _ _ hstep => turn_mono (fun _ hturn => hturn.1) hstep
  have hinOrder : Runs exampleRealtimeLimits InOrder State.initial exampleEnded :=
    Relation.ReflTransGen.mono hturns _ _ exampleEnded_runs
  obtain ⟨hordered, hlast⟩ := messages_in_order exampleRealtimeLimits
  refine ⟨?_, hordered exampleEnded hinOrder 0 (makerChannel '0'),
    hlast exampleEnded exampleEnded_runs ?_ (fun _ => rfl) 0 (makerChannel '0') rfl ?_⟩
  · decide +kernel
  · decide +kernel
  · decide +kernel

theorem messages_out_of_order : ∃ after,
    Runs exampleRealtimeLimits (fun _ _ => True) State.initial after ∧
    messagesOn after 0 (makerChannel '0') =
      [⟨.update, makerChannel '0', 2, 1⟩, ⟨.update, makerChannel '0', 1, 2⟩] ∧
    ¬ ∀ message ∈ messagesOn after 0 (makerChannel '0'),
      ∀ message' ∈ messagesOn after 0 (makerChannel '0'),
        message.sequence < message'.sequence → message.data ≤ message'.data := by
  obtain ⟨hset, hsockets, hready, hsequence, hreceived, hprojection⟩ := makerChannel_set
  have hsubscribing := exampleSubscribing_runs (fun _ _ => True) (fun _ _ _ => trivial) fun _ _ _ => trivial
  obtain ⟨s, hs⟩ : ∃ s, s = exampleSubscribing := ⟨_, rfl⟩
  obtain ⟨channel, hchannel⟩ : ∃ channel, channel = makerChannel '0' := ⟨_, rfl⟩
  rw [← hs] at hset hsockets hready hsequence hreceived hprojection hsubscribing
  rw [← hchannel] at hset hsequence hprojection ⊢
  have hne : s.sets 0 ≠ [] := by simp [hsockets]
  have hfirst : Runs exampleRealtimeLimits (fun _ _ => True) s (s.emitted channel 0) :=
    emitted_runs (fun _ _ _ _ => trivial) hset hne
  have hsecond : Runs exampleRealtimeLimits (fun _ _ => True) (s.emitted channel 0)
      ((s.emitted channel 0).emitted channel 0) := emitted_runs (fun _ _ _ _ => trivial) hset hne
  have hwaiting : ((s.emitted channel 0).emitted channel 0).waiting =
      (s.waiting ++ [⟨channel, .emit 0, some 1⟩]) ++ ⟨channel, .emit 0, some 2⟩ :: [] := by
    simp [State.emitted, hprojection]
  -- the second emit goes on first
  let left : State := { (s.emitted channel 0).emitted channel 0 with
    waiting := s.waiting ++ [⟨channel, .emit 0, some 1⟩] }
  have hlater : Step exampleRealtimeLimits (fun _ _ => True) _ _ :=
    .resume ((s.emitted channel 0).emitted channel 0) (s.waiting ++ [⟨channel, .emit 0, some 1⟩]) []
      ⟨channel, .emit 0, some 2⟩ 2 (fun _ => false) hwaiting rfl trivial
  rw [List.append_nil, resume_emit_one (s := left) hsockets hready] at hlater
  let told : State := (left.number channel).push 0
    (.message ⟨.update, channel, nextSequence left channel, 2⟩)
  have hearlier : Step exampleRealtimeLimits (fun _ _ => True) told _ :=
    .resume told s.waiting [] ⟨channel, .emit 0, some 1⟩ 1 (fun _ => false) rfl rfl trivial
  have hsockets' : State.sets { told with waiting := s.waiting ++ [] } 0 = [0] := hsockets
  have hready' : State.ready { told with waiting := s.waiting ++ [] } 0 = true := hready
  rw [resume_emit_one hsockets' hready'] at hearlier
  let after : State := State.push (State.number { told with waiting := s.waiting ++ [] } channel) 0
    (.message ⟨.update, channel, nextSequence { told with waiting := s.waiting ++ [] } channel, 1⟩)
  have hmessages : messagesOn after 0 channel = [⟨.update, channel, 2, 1⟩, ⟨.update, channel, 1, 2⟩] := by
    simp [messagesOn, after, told, left, State.push, State.number, State.emitted, nextSequence,
      hsequence, hreceived]
  refine ⟨after, (((hsubscribing.trans hfirst).trans hsecond).tail hlater).tail hearlier, hmessages, ?_⟩
  rw [hmessages]
  simp

end CkbDex.Realtime
