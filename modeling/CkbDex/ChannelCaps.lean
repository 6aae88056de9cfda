import CkbDex.MessageOrder
import Mathlib.Data.Finset.Card

/-!
# The cap of channels

The cap is compared with the channels a connection has when its message comes,
while a handler still enters the others one by one. Handlers of earlier messages
may have channels before them as well: a message keeps the cap when these are
counted too.
-/
namespace CkbDex.Realtime

/-- The channels a handler has not come to. -/
def channelsToCome (socket : Socket) : Handler → List Channel
  | .subscribe other rest => if other = socket then rest else []
  | .emit _ => []

/-- The channels of a socket, once its handlers have come to the end. -/
def channelsAhead (s : State) (socket : Socket) : Finset Channel :=
  (s.owned socket).toFinset ∪
    (s.waiting.flatMap fun waiting => channelsToCome socket waiting.handler).toFinset

/-- A message that passes the checks of the handler. -/
structure Accepted (limits : RealtimeLimits) (s : State) (socket : Socket)
    (channels : List (Option String)) : Prop where
  some : channels ≠ []
  few : channels.length ≤ limits.maxChannelsPerMessage
  valid : ∀ channel ∈ channels, channel.any isValidChannel = true
  registered : socket ∈ s.registered
  fresh : (s.owned socket).length +
    ((channels.filterMap id).filter fun channel => channel ∉ s.owned socket).eraseDups.length ≤
      limits.maxChannelsPerSocket

/-- An accepted message keeps the cap together with the channels of the handlers
that are under way. -/
def CountsAhead (limits : RealtimeLimits) (s : State) : Turn → Prop
  | .message socket (.parsed (some channels)) => Accepted limits s socket channels →
      (channelsAhead s socket ∪ (channels.filterMap id).toFinset).card ≤ limits.maxChannelsPerSocket
  | _ => True

/-- A message is answered with an error or left, or its channels are entered. -/
theorem onMessage_eq (limits : RealtimeLimits) (s : State) (socket : Socket)
    (channels : List (Option String)) :
    Accepted limits s socket channels ∧ onMessage limits s socket (.parsed (some channels)) =
        enterChannels s socket (channels.filterMap id).eraseDups ∨
      ¬Accepted limits s socket channels ∧ ∃ received,
        onMessage limits s socket (.parsed (some channels)) = { s with received } := by
  simp only [onMessage]
  split_ifs with hnil hmany hinvalid hregistered hfull
  · exact Or.inr ⟨fun h => h.some hnil, sendError_eq s socket _⟩
  · exact Or.inr ⟨fun h => h.few.not_gt hmany, sendError_eq s socket _⟩
  · refine Or.inr ⟨fun h => ?_, sendError_eq s socket _⟩
    obtain ⟨channel, hmem, hbad⟩ := List.any_eq_true.mp hinvalid
    rw [h.valid channel hmem] at hbad
    cases hbad
  · exact Or.inr ⟨fun h => h.fresh.not_gt hfull, sendError_eq s socket _⟩
  · refine Or.inl ⟨⟨hnil, not_lt.mp hmany, fun channel hmem => ?_, hregistered, not_lt.mp hfull⟩, rfl⟩
    by_contra hbad
    exact hinvalid (List.any_eq_true.mpr ⟨channel, hmem, by simpa using hbad⟩)
  · exact Or.inr ⟨fun h => hregistered h.registered, _, rfl⟩

section
variable {s t : State} {socket other : Socket} {channel c : Channel} {rest : List Channel}
  {maximum : ℕ}

theorem mem_channelsAhead : c ∈ channelsAhead s socket ↔
    c ∈ s.owned socket ∨ ∃ waiting ∈ s.waiting, c ∈ channelsToCome socket waiting.handler := by
  simp [channelsAhead]

theorem mem_channelsToCome {handler : Handler} :
    c ∈ channelsToCome socket handler ↔ ∃ rest, handler = .subscribe socket rest ∧ c ∈ rest := by
  cases handler with
  | subscribe other rest =>
      by_cases hother : other = socket
      · simp [channelsToCome, hother]
      · simp [channelsToCome, hother]
  | emit address => simp [channelsToCome]

theorem channelsAhead_mono (howned : t.owned = s.owned)
    (hwaiting : ∀ waiting ∈ t.waiting, (∃ old ∈ s.waiting, old.handler = waiting.handler) ∨
      ∃ address, waiting.handler = .emit address) :
    channelsAhead t socket ⊆ channelsAhead s socket := by
  intro c hc
  rw [mem_channelsAhead] at hc ⊢
  rw [howned] at hc
  refine hc.imp_right fun ⟨waiting, hmem, hcome⟩ => ?_
  rcases hwaiting waiting hmem with ⟨old, hold, heq⟩ | ⟨address, heq⟩
  · exact ⟨old, hold, heq ▸ hcome⟩
  · rw [heq] at hcome
    cases hcome

/-- Entering a channel takes it, and what the loop has left, from those ahead. -/
theorem channelsAhead_enterChannel : channelsAhead (enterChannel s socket channel rest) other ⊆
    channelsAhead s other ∪ if other = socket then (channel :: rest).toFinset else ∅ := by
  intro c hc
  rw [mem_channelsAhead] at hc
  rw [Finset.mem_union, mem_channelsAhead]
  rcases hc with howned | ⟨waiting, hmem, hcome⟩
  · simp only [enterChannel] at howned
    by_cases hother : other = socket
    · subst hother
      rw [Function.update_self, mem_addTo] at howned
      rcases howned with rfl | howned
      · exact Or.inr (by simp)
      · exact Or.inl (Or.inl howned)
    · rw [Function.update_of_ne hother] at howned
      exact Or.inl (Or.inl howned)
  · rcases List.mem_append.mp hmem with hmem | hmem
    · exact Or.inl (Or.inr ⟨waiting, hmem, hcome⟩)
    · obtain rfl := List.mem_singleton.mp hmem
      obtain ⟨rest', heq, hc⟩ := mem_channelsToCome.mp hcome
      obtain ⟨rfl, rfl⟩ : socket = other ∧ rest = rest' := by simpa using heq
      exact Or.inr (by simp [hc])

theorem channelsAhead_enterChannels {channels : List Channel} :
    channelsAhead (enterChannels s socket channels) other ⊆
      channelsAhead s other ∪ if other = socket then channels.toFinset else ∅ := by
  cases channels with
  | nil => exact Finset.subset_union_left
  | cons channel rest => exact channelsAhead_enterChannel

/-- A socket is a member of channels it has, and these keep the cap together with
those ahead. -/
structure Capped (maximum : ℕ) (s : State) : Prop where
  ahead : ∀ socket, (channelsAhead s socket).card ≤ maximum
  owns : ∀ socket c, socket ∈ s.members c → c ∈ s.owned socket

theorem Capped.of_same (h : Capped maximum s) (howned : t.owned = s.owned)
    (hmembers : ∀ socket c, socket ∈ t.members c → socket ∈ s.members c)
    (hwaiting : ∀ waiting ∈ t.waiting, (∃ old ∈ s.waiting, old.handler = waiting.handler) ∨
      ∃ address, waiting.handler = .emit address) : Capped maximum t := by
  refine ⟨fun socket => ?_, fun socket c hmem => ?_⟩
  · exact (Finset.card_le_card (channelsAhead_mono howned hwaiting)).trans (h.ahead socket)
  · rw [howned]
    exact h.owns socket c (hmembers socket c hmem)

theorem Capped.enterChannels (h : Capped maximum s) (hwired : Wired s) {channels : List Channel}
    (hahead : (channelsAhead s socket ∪ channels.toFinset).card ≤ maximum) :
    Capped maximum (enterChannels s socket channels) := by
  refine ⟨fun other => ?_, fun other c hmem => ?_⟩
  · refine (Finset.card_le_card channelsAhead_enterChannels).trans ?_
    split_ifs with hother
    · subst hother
      exact hahead
    · rw [Finset.union_empty]
      exact h.ahead other
  · cases channels with
    | nil => exact h.owns other c hmem
    | cons channel rest =>
        simp only [Realtime.enterChannels, enterChannel]
        by_cases hother : other = socket
        · subst hother
          rw [Function.update_self, mem_addTo]
          exact ((mem_members_enterChannel hwired).mp hmem).imp And.left (h.owns other c)
        · rw [Function.update_of_ne hother]
          rcases (mem_members_enterChannel hwired).mp hmem with ⟨-, heq⟩ | hmem
          · exact (hother heq).elim
          · exact h.owns other c hmem

theorem Capped.step {limits : RealtimeLimits} (h : Capped limits.maxChannelsPerSocket s)
    (htraced : Traced s) (hstep : Step limits (CountsAhead limits) s t) :
    Capped limits.maxChannelsPerSocket t := by
  have hold : ∀ waiting ∈ s.waiting, (∃ old ∈ s.waiting, old.handler = waiting.handler) ∨
      ∃ address, waiting.handler = .emit address := fun waiting hmem => Or.inl ⟨waiting, hmem, rfl⟩
  cases hstep with
  | connect socket ip new turn =>
      unfold connect
      simp only
      split_ifs
      · exact h.of_same rfl (fun _ _ => id) hold
      · refine ⟨fun other => ?_, fun other c hmem => ?_⟩
        · refine (Finset.card_le_card fun c hc => ?_).trans (h.ahead other)
          rw [mem_channelsAhead] at hc ⊢
          refine hc.imp_left fun howned => ?_
          by_cases hother : other = socket
          · subst hother
            simp at howned
          · simpa [hother] using howned
        · have hother : other ≠ socket := by
            rintro rfl
            change other ∈ s.members c at hmem
            unfold State.members at hmem
            cases hsome : s.subscriptions c with
            | none => simp [hsome] at hmem
            | some address =>
                rw [hsome] at hmem
                exact new (htraced.opened address other hmem)
          simpa [hother] using h.owns other c hmem
  | message socket payload turn =>
      rcases payload with _ | _ | channels
      · obtain ⟨received, heq⟩ := sendError_eq s socket "Invalid websocket payload"
        rw [onMessage, heq]
        exact h.of_same rfl (fun _ _ => id) hold
      · obtain ⟨received, heq⟩ := sendError_eq s socket "Expected channels array"
        rw [onMessage, heq]
        exact h.of_same rfl (fun _ _ => id) hold
      · rcases onMessage_eq limits s socket channels with ⟨haccepted, heq⟩ | ⟨-, received, heq⟩
        · rw [heq]
          refine h.enterChannels htraced.wired ((Finset.card_le_card fun c hc => ?_).trans (turn haccepted))
          simpa using hc
        · rw [heq]
          exact h.of_same rfl (fun _ _ => id) hold
  | hangUp socket turn => exact h.of_same rfl (fun _ _ => id) hold
  | close socket registered ended turn =>
      obtain ⟨sets, subscriptions, sequenceByChannel, heq⟩ := leaveChannels_eq socket s
        (if socket ∈ s.registered then s.owned socket else [])
      refine h.of_same (by rw [release, heq]) (fun other c hmem => ?_) (by rw [release, heq]; exact hold)
      exact ((mem_members_leaveChannels htraced.wired).mp hmem).1
  | change channel turn => exact h.of_same rfl (fun _ _ => id) hold
  | emit channel turn =>
      rcases emit_cases s channel with ⟨heq, -⟩ | ⟨address, -, heq⟩
      · rw [heq]
        exact h.of_same rfl (fun _ _ => id) hold
      · rw [heq]
        refine h.of_same rfl (fun _ _ => id) fun waiting hmem => ?_
        rcases List.mem_append.mp hmem with hmem | hmem
        · exact hold waiting hmem
        · obtain rfl := List.mem_singleton.mp hmem
          exact Or.inr ⟨address, rfl⟩
  | read before after waiting waits unread turn =>
      refine h.of_same rfl (fun _ _ => id) fun w hw => ?_
      obtain ⟨old, hmem, heq, -⟩ := waiting_of_read waits hw
      exact Or.inl ⟨old, hmem, heq⟩
  | resume before after waiting snapshot overloaded waits answered turn =>
      have hrest : Capped limits.maxChannelsPerSocket { s with waiting := before ++ after } := by
        refine h.of_same rfl (fun _ _ => id) fun w hw => ?_
        obtain ⟨old, hmem, heq, -⟩ := waiting_of_mem waits hw
        exact Or.inl ⟨old, hmem, heq⟩
      cases hhandler : waiting.handler with
      | subscribe socket rest =>
          obtain ⟨ready, received, sequenceByChannel, heq⟩ :=
            resume_subscribe overloaded { s with waiting := before ++ after } snapshot hhandler
          have hwired : Wired { s with waiting := before ++ after } :=
            htraced.wired.of_waiting rfl rfl rfl fun w hw => waiting_of_mem waits hw
          have htold : Wired { s with waiting := before ++ after, ready, received, sequenceByChannel } :=
            hwired.of_same rfl rfl rfl hwired.captured
          rw [heq]
          refine Capped.enterChannels ?_ htold
            ((Finset.card_le_card fun c hc => ?_).trans (h.ahead socket))
          · exact hrest.of_same rfl (fun _ _ => id) fun w hw => Or.inl ⟨w, hw, rfl⟩
          · -- The channels that are left were ahead before.
            rw [Finset.mem_union, mem_channelsAhead, List.mem_toFinset] at hc
            rw [mem_channelsAhead, waits]
            rcases hc with (howned | ⟨w, hw, hcome⟩) | hc
            · exact Or.inl howned
            · exact Or.inr ⟨w, by
                rw [List.mem_append, List.mem_cons]
                rcases List.mem_append.mp hw with hw | hw
                · exact Or.inl hw
                · exact Or.inr (Or.inr hw), hcome⟩
            · exact Or.inr ⟨waiting, by simp, mem_channelsToCome.mpr ⟨rest, hhandler, hc⟩⟩
      | emit address =>
          obtain ⟨ready, received, sequenceByChannel, heq⟩ :=
            resume_emit overloaded { s with waiting := before ++ after } snapshot hhandler
          rw [heq]
          exact hrest.of_same rfl (fun _ _ => id) fun w hw => Or.inl ⟨w, hw, rfl⟩
  | reject before after waiting waits turn =>
      obtain ⟨received, heq⟩ := reject_eq { s with waiting := before ++ after } waiting.handler
      rw [heq]
      refine h.of_same rfl (fun _ _ => id) fun w hw => ?_
      obtain ⟨old, hmem, heq, -⟩ := waiting_of_mem waits hw
      exact Or.inl ⟨old, hmem, heq⟩

theorem capped_initial (maximum : ℕ) : Capped maximum State.initial :=
  ⟨fun socket => by simp [channelsAhead, State.initial], fun socket c hmem => by
    simp [State.members, State.initial] at hmem⟩

theorem runs_capped {limits : RealtimeLimits} {after : State}
    (h : Runs limits (CountsAhead limits) State.initial after) :
    Traced after ∧ Capped limits.maxChannelsPerSocket after := by
  induction h with
  | refl => exact ⟨traced_initial, capped_initial _⟩
  | tail _ hstep ih => exact ⟨ih.1.step hstep, ih.2.step ih.1 hstep⟩

end

/-- In every interleaving a connection has no more channels than the cap, and is
subscribed to no others, as long as every accepted message keeps the cap together
with the channels that the handlers of the connection have still to come to. -/
theorem channels_capped (limits : RealtimeLimits) :
    ∀ after, Runs limits (CountsAhead limits) State.initial after →
      ∀ socket, ∀ channels : Finset Channel, (∀ c ∈ channels, socket ∈ after.members c) →
        channels.card ≤ limits.maxChannelsPerSocket := by
  intro after hrun socket channels hchannels
  obtain ⟨-, hcapped⟩ := runs_capped hrun
  refine (Finset.card_le_card fun c hc => ?_).trans (hcapped.ahead socket)
  exact mem_channelsAhead.mpr (Or.inl (hcapped.owns socket c (hchannels c hc)))

def twoChannels : RealtimeLimits := ⟨1000, 20, 2, 2⟩

def exampleConnected : State := connect twoChannels State.initial 0 "127.0.0.1"

/-- The first message waits for the first of its two snapshots. -/
def exampleFirst : State :=
  enterChannel exampleConnected 0 (makerChannel '0') [makerChannel '1']

/-- The second message has come, with one channel. -/
def exampleSecond : State := enterChannel exampleFirst 0 (makerChannel '2') []

theorem makerChannels_valid : isValidChannel (makerChannel '2') = true ∧
    makerChannel '0' ≠ makerChannel '2' ∧ makerChannel '1' ≠ makerChannel '2' := by
  decide +kernel

theorem exampleConnected_owned : exampleConnected.owned 0 = [] ∧ 0 ∈ exampleConnected.registered := by
  decide

theorem exampleFirst_owned : exampleFirst.owned 0 = [makerChannel '0'] := by
  simp [exampleFirst, enterChannel, exampleConnected_owned, addTo]

theorem exampleFirst_accepted : Accepted twoChannels exampleConnected 0
    [some (makerChannel '0'), some (makerChannel '1')] := by
  obtain ⟨hfirst, hsecond, hne⟩ := makerChannel_valid
  refine ⟨by simp, le_rfl, by simp [hfirst, hsecond], exampleConnected_owned.2, ?_⟩
  simp [exampleConnected_owned, twoChannels, List.eraseDups_cons, hne.symm]

theorem exampleFirst_runs (permitted : State → Turn → Prop)
    (hpermitted : ∀ s turn, (∀ socket payload, turn ≠ .message socket payload) → permitted s turn)
    (hmessage : permitted exampleConnected
      (.message 0 (.parsed (some [some (makerChannel '0'), some (makerChannel '1')])))) :
    Runs twoChannels permitted State.initial exampleFirst := by
  have hnames : [makerChannel '0', makerChannel '1'].eraseDups = [makerChannel '0', makerChannel '1'] := by
    simp [List.eraseDups_cons, makerChannel_valid.2.2.symm]
  have hfirst : onMessage twoChannels exampleConnected 0
      (.parsed (some [some (makerChannel '0'), some (makerChannel '1')])) = exampleFirst := by
    rcases onMessage_eq twoChannels exampleConnected 0 [some (makerChannel '0'), some (makerChannel '1')]
      with ⟨-, heq⟩ | ⟨hno, -⟩
    · rw [heq]
      simp only [List.filterMap_cons, List.filterMap_nil, id]
      rw [hnames]
      rfl
    · exact (hno exampleFirst_accepted).elim
  have hconnect : Step twoChannels permitted State.initial exampleConnected :=
    .connect State.initial 0 "127.0.0.1" (by simp [State.initial]) (hpermitted _ _ nofun)
  refine (Relation.ReflTransGen.single hconnect).tail ?_
  rw [← hfirst]
  exact .message _ 0 _ hmessage

theorem channels_capped_example :
    Runs twoChannels (CountsAhead twoChannels) State.initial exampleFirst ∧
      ({makerChannel '0'} : Finset Channel).card ≤ twoChannels.maxChannelsPerSocket := by
  have hruns := exampleFirst_runs (CountsAhead twoChannels) (fun s turn hturn => by
    cases turn with
    | message socket payload => exact (hturn socket payload rfl).elim
    | _ => trivial) fun _ => by
      have hahead : channelsAhead exampleConnected 0 = ∅ := by
        simp [channelsAhead, exampleConnected, connect, twoChannels,
          State.initial]
      rw [hahead, Finset.empty_union]
      exact (List.toFinset_card_le _).trans le_rfl
  refine ⟨hruns, channels_capped twoChannels _ hruns 0 _ fun c hc => ?_⟩
  rw [Finset.mem_singleton] at hc
  subst hc
  simp [State.members, exampleFirst, enterChannel, mem_addTo]

/-- The first handler has its snapshot. -/
def exampleSnapshot : Waiting := ⟨makerChannel '0', .subscribe 0 [makerChannel '1'], some 0⟩

/-- A message comes between two channels of the one before; the connection gets
three channels where two are allowed. -/
theorem channels_exceed_cap : ∃ after, Runs twoChannels (fun _ _ => True) State.initial after ∧
    ∃ channels : Finset Channel, (∀ c ∈ channels, 0 ∈ after.members c) ∧
      twoChannels.maxChannelsPerSocket < channels.card := by
  obtain ⟨-, -, hfirst⟩ := makerChannel_valid
  obtain ⟨hvalid, hsecond, hthird⟩ := makerChannels_valid
  have hruns := exampleFirst_runs (fun _ _ => True) (fun _ _ _ => trivial) trivial
  have haccepted : Accepted twoChannels exampleFirst 0 [some (makerChannel '2')] := by
    refine ⟨by simp, by decide, by simp [hvalid], ?_, ?_⟩
    · exact exampleConnected_owned.2
    · simp [exampleFirst_owned, hsecond.symm, List.eraseDups_cons, twoChannels]
  have hmessage : onMessage twoChannels exampleFirst 0 (.parsed (some [some (makerChannel '2')])) =
      exampleSecond := by
    rcases onMessage_eq twoChannels exampleFirst 0 [some (makerChannel '2')] with ⟨-, heq⟩ | ⟨hno, -⟩
    · rw [heq]
      rfl
    · exact (hno haccepted).elim
  have hcame : Runs twoChannels (fun _ _ => True) State.initial exampleSecond :=
    hruns.tail (hmessage ▸ .message exampleFirst 0 _ trivial)
  let second : Waiting := ⟨makerChannel '2', .subscribe 0 [], none⟩
  let read : State := { exampleSecond with waiting := [] ++ exampleSnapshot :: [second] }
  have hread : Step twoChannels (fun _ _ => True) exampleSecond read :=
    .read _ [] [second] ⟨makerChannel '0', .subscribe 0 [makerChannel '1'], none⟩ rfl rfl trivial
  have hresume : Step twoChannels (fun _ _ => True) read
      (resume (fun _ => false) { read with waiting := [second] } exampleSnapshot 0) :=
    .resume read [] [second] exampleSnapshot 0 _ rfl rfl trivial
  have hwired : Wired exampleSecond := runs_wired hcame
  have hhandler : exampleSnapshot.handler = .subscribe 0 [makerChannel '1'] := rfl
  obtain ⟨ready, received, sequenceByChannel, heq⟩ := resume_subscribe (fun _ => false)
    { read with waiting := [second] } 0 hhandler
  refine ⟨_, (hcame.tail hread).tail hresume, {makerChannel '0', makerChannel '1', makerChannel '2'},
    fun c hc => ?_, ?_⟩
  · have hleft : Wired { read with waiting := [second], ready, received, sequenceByChannel } :=
      hwired.of_same rfl rfl rfl fun waiting hmem => hwired.captured waiting (by
        obtain rfl := List.mem_singleton.mp hmem
        exact List.mem_append_right _ List.mem_cons_self)
    have hentered : Wired exampleFirst := runs_wired hruns
    have hconnect : Step twoChannels (fun _ _ => True) State.initial exampleConnected :=
      .connect State.initial 0 "127.0.0.1" (by simp [State.initial]) trivial
    have hfirstEntered : Wired exampleConnected := wired_initial.step hconnect
    rw [heq, enterChannels, mem_members_enterChannel hleft]
    have hmembers : 0 ∈ exampleSecond.members c ↔ c = makerChannel '2' ∨ c = makerChannel '0' := by
      rw [exampleSecond, mem_members_enterChannel hentered, exampleFirst,
        mem_members_enterChannel hfirstEntered]
      simp [exampleConnected, connect, twoChannels, State.initial, State.members]
    have hsame : State.members { read with waiting := [second], ready, received, sequenceByChannel } c =
        exampleSecond.members c := rfl
    rw [hsame, hmembers]
    simp only [Finset.mem_insert, Finset.mem_singleton] at hc
    rcases hc with hzero | hone | htwo
    · exact Or.inr (Or.inr hzero)
    · exact Or.inl ⟨hone, rfl⟩
    · exact Or.inr (Or.inl htwo)
  · rw [Finset.card_eq_three.mpr ⟨_, _, _, hfirst, hsecond, hthird, rfl⟩]
    decide

end CkbDex.Realtime
