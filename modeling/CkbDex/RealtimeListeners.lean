import CkbDex.RealtimeConnections

/-!
# What the listeners know

Nothing that is listened to is forgotten, and when all is quiet every listener
has seen the last change, unless it only joined others.
-/
namespace CkbDex.RealtimeClient
open Realtime

/-- The messages among some frames, as `messagesOn`. -/
def messagesIn (frames : List Frame) (channel : Channel) : List RealtimeMessage :=
  messagesOn { State.initial with received := fun _ => frames } 0 channel

/-- The listener was added to a channel that others listened to while this
connection was open, and no message of the channel was read from it since. -/
def Joined (s : System) (socket : Socket) (c : Channel) (listener : Listener) : Prop :=
  ∃ frames later, s.joined c listener = some (socket, frames) ∧ s.read socket = later ++ frames ∧
    messagesIn later c = []

/-- The listeners know the last message of the channel that was read, except those
that only joined others. -/
structure Informed (s : System) (socket : Socket) (c : Channel) : Prop where
  last : ∃ message earlier,
    messagesIn (s.read socket) c = message :: earlier ∧ s.last c = some message.data
  called : ∀ listener ∈ s.client.listeners c, s.heard c listener = none → Joined s socket c listener

/-- The channel was asked for, will be shown, or is subscribed to; then the
listeners are informed unless there are other messages to be read. -/
def Attended (s : System) (socket : Socket) (c : Channel) : Prop :=
  (∃ channels ∈ s.requests socket, c ∈ channels) ∨ Pending s.server socket c ∨
    socket ∈ s.server.members c ∧ ∃ unread, s.server.received socket = unread ++ s.read socket ∧
      (messagesIn unread c = [] → Informed s socket c)

/-- While the connection is open, every channel with listeners is attended to. -/
def Attentive (s : System) : Prop :=
  ∀ socket, s.client.socket = some socket → s.client.isOpen = true → s.server.ready socket = true →
    ∀ c, s.client.listeners c ≠ [] → Attended s socket c

theorem messagesOn_eq (s : State) (socket : Socket) (c : Channel) :
    messagesOn s socket c = messagesIn (s.received socket) c := rfl

theorem messagesIn_append (frames others : List Frame) (c : Channel) :
    messagesIn (frames ++ others) c = messagesIn frames c ++ messagesIn others c :=
  List.filterMap_append

theorem messagesIn_message (message : RealtimeMessage) (frames : List Frame) :
    messagesIn (.message message :: frames) message.channel =
      message :: messagesIn frames message.channel := by
  simp [messagesIn, messagesOn]

theorem messagesIn_other {message : RealtimeMessage} {c : Channel} (h : message.channel ≠ c)
    (frames : List Frame) : messagesIn (.message message :: frames) c = messagesIn frames c := by
  simp [messagesIn, messagesOn, h]

section
variable {limits : RealtimeLimits} {s t : System} {u : State} {socket fresh : Socket}
  {channel c : Channel} {channels : List Channel} {onData : Listener}

/-- A turn that keeps the socket keeps what is attended to. -/
theorem Attended.kept (h : Attended s socket c) (hread : s.read socket <:+ s.server.received socket)
    (hkept : Kept s.server u socket) (hready : u.ready socket = true) :
    Attended { s with server := u } socket c := by
  rcases h with hrequested | hpending | ⟨hmem, unread, hreceived, hknown⟩
  · exact Or.inl hrequested
  · rcases hkept.pending hready c hpending with hpending | ⟨hmem, message, hreceived, hc⟩
    · exact Or.inr (Or.inl hpending)
    · obtain ⟨unread, hunread⟩ := hread
      refine Or.inr (Or.inr ⟨hmem, .message message :: unread, ?_, fun hnone => ?_⟩)
      · rw [hreceived, ← hunread]
        rfl
      · rw [← hc, messagesIn_message] at hnone
        cases hnone
  · obtain ⟨more, hmore⟩ := hkept.received
    refine Or.inr (Or.inr ⟨hkept.members hready c hmem, more ++ unread, ?_, fun hnone => ?_⟩)
    · rw [← hmore, hreceived, List.append_assoc]
    · rw [messagesIn_append] at hnone
      have hinformed : Informed s socket c := hknown (List.append_eq_nil_iff.mp hnone).2
      exact ⟨hinformed.last, hinformed.called⟩

theorem Attended.requested {requests : Socket → List (List Channel)} {asked : Socket → Finset Channel}
    (h : Attended s socket c) (hgrown : ∀ channels ∈ s.requests socket, channels ∈ requests socket) :
    Attended { s with requests, asked } socket c := by
  rcases h with ⟨channels, hmem, hc⟩ | hpending | ⟨hmem, unread, hreceived, hknown⟩
  · exact Or.inl ⟨channels, hgrown channels hmem, hc⟩
  · exact Or.inr (Or.inl hpending)
  · exact Or.inr (Or.inr ⟨hmem, unread, hreceived, fun hnone => ⟨(hknown hnone).last, (hknown hnone).called⟩⟩)

/-- A change of the listeners keeps what is attended to, when it keeps who is
informed. -/
theorem Attended.of_informed (h : Attended s socket c) (hserver : t.server = s.server)
    (hrequests : t.requests = s.requests) (hread : t.read = s.read)
    (hinformed : Informed s socket c → Informed t socket c) : Attended t socket c := by
  unfold Attended
  rw [hserver, hrequests, hread]
  rcases h with hrequested | hpending | ⟨hmem, unread, hreceived, hknown⟩
  · exact Or.inl hrequested
  · exact Or.inr (Or.inl hpending)
  · exact Or.inr (Or.inr ⟨hmem, unread, hreceived, fun hnone => hinformed (hknown hnone)⟩)

theorem Attentive.turn (h : Attentive s) (hlinked : Linked limits s)
    (hstep : Realtime.Step limits InOrderAnswered s.server u) : Attentive { s with server := u } := by
  intro socket hsocket hopen hready c hlistens
  have hkept : Kept s.server u socket :=
    .step hlinked.traced (fun _ hturn => hturn.2) (hlinked.opened socket hsocket hopen) hstep
  exact (h socket hsocket hopen (hkept.ready hready) c hlistens).kept (hlinked.read socket) hkept hready

/-- The channels of a request that comes are going to be shown. -/
theorem Attentive.arrive (h : Attentive s) (hlinked : Linked limits s) (hmodest : Modest limits s)
    {later : List (List Channel)} (hfirst : s.requests socket = channels :: later) : Attentive
      { s with
        requests := Function.update s.requests socket later
        server := onMessage limits s.server socket (.parsed (some (channels.map some))) } := by
  intro other hother hopen hready c hlistens
  have hkept : Kept s.server
      (onMessage limits s.server socket (.parsed (some (channels.map some)))) other :=
    .onMessage limits hlinked.traced.wired _
  have hopened := hkept.ready hready
  have hattended := (h other hother hopen hopened c hlistens).kept (hlinked.read other) hkept hready
  by_cases hsame : other = socket
  · subst hsame
    rcases hattended with ⟨request, hmem, hc⟩ | hpending | ⟨hmem, unread, hreceived, hknown⟩
    · change request ∈ s.requests other at hmem
      rw [hfirst] at hmem
      rcases List.mem_cons.mp hmem with rfl | hmem
      · have haccepted := hlinked.accepted (hmodest.capped other)
          (by rw [hfirst]; exact List.mem_cons_self) hopened
        rcases onMessage_eq limits s.server other (request.map some) with ⟨-, heq⟩ | ⟨hnot, -⟩
        · refine Or.inr (Or.inl ?_)
          change Pending (onMessage limits s.server other _) other c
          rw [heq]
          exact pending_enterChannels (by simpa using hc)
        · exact (hnot haccepted).elim
      · exact Or.inl ⟨request, by simpa using hmem, hc⟩
    · exact Or.inr (Or.inl hpending)
    · exact Or.inr (Or.inr ⟨hmem, unread, hreceived, fun hnone =>
        ⟨(hknown hnone).last, (hknown hnone).called⟩⟩)
  · refine Attended.requested hattended fun request hmem => ?_
    simpa [hsame] using hmem

/-- On an open connection a request is under way once it is sent. -/
theorem Attentive.send (h : ∀ socket, s.client.socket = some socket → s.client.isOpen = true →
    s.server.ready socket = true → ∀ c, s.client.listeners c ≠ [] →
      c ∈ channels ∨ Attended s socket c) :
    Attentive (RealtimeClient.send s channels) := by
  intro socket hsocket hopen hready c hlistens
  obtain ⟨requests, asked, heq⟩ := send_eq s channels
  rw [heq] at hsocket hopen hready hlistens
  change s.client.socket = some socket at hsocket
  change s.client.isOpen = true at hopen
  rcases h socket hsocket hopen hready c hlistens with hc | hattended
  · rw [send_open hsocket hopen (List.ne_nil_of_mem hc)]
    exact Or.inl ⟨channels, by simp, hc⟩
  · by_cases hchannels : channels = []
    · have hkept : RealtimeClient.send s channels = s := by
        simp only [RealtimeClient.send, hchannels, ne_eq, not_true_eq_false, and_false, if_false]
        split <;> rfl
      rwa [hkept]
    · rw [send_open hsocket hopen hchannels]
      exact hattended.requested fun request hmem => by simp [hmem]

theorem listeners_addListener (hlistens : (addListener s channel onData).client.listeners c ≠ []) :
    c = channel ∨ s.client.listeners c ≠ [] := by
  by_cases hc : c = channel
  · exact Or.inl hc
  · right
    simpa [addListener, hc] using hlistens

/-- Whoever is added to a channel that others listen to has joined them. -/
theorem Informed.addListener (h : Informed s socket c) (hsocket : s.client.socket = some socket)
    (hopen : s.client.isOpen = true) (hothers : c = channel → s.client.listeners channel ≠ []) :
    Informed (RealtimeClient.addListener s channel onData) socket c := by
  refine ⟨h.last, fun listener hmem hnone => ?_⟩
  by_cases hadded : c = channel ∧ listener = onData
  · obtain ⟨rfl, rfl⟩ := hadded
    refine ⟨s.read socket, [], ?_, rfl, rfl⟩
    simp [RealtimeClient.addListener, hopen, hothers rfl, hsocket]
  · have hheard : (RealtimeClient.addListener s channel onData).heard c listener = s.heard c listener := by
      by_cases hc : c = channel
      · subst hc
        have hother : listener ≠ onData := fun hsame => hadded ⟨rfl, hsame⟩
        simp [RealtimeClient.addListener, hother]
      · simp [RealtimeClient.addListener, hc]
    have hjoined : (RealtimeClient.addListener s channel onData).joined c listener = s.joined c listener := by
      by_cases hc : c = channel
      · subst hc
        have hother : listener ≠ onData := fun hsame => hadded ⟨rfl, hsame⟩
        simp [RealtimeClient.addListener, hother]
      · simp [RealtimeClient.addListener, hc]
    have hlistens : listener ∈ s.client.listeners c := by
      by_cases hc : c = channel
      · subst hc
        simp only [RealtimeClient.addListener, Function.update_self] at hmem
        exact (mem_addTo.mp hmem).resolve_left fun hsame => hadded ⟨rfl, hsame⟩
      · simpa [RealtimeClient.addListener, hc] using hmem
    obtain ⟨frames, later, hsome, hread⟩ := h.called listener hlistens (hheard.symm.trans hnone)
    exact ⟨frames, later, hjoined.trans hsome, hread⟩

theorem Informed.deleteListener (h : Informed s socket c) :
    Informed (RealtimeClient.deleteListener s channel onData) socket c :=
  ⟨h.last, fun listener hmem hnone => h.called listener (mem_listeners_deleteListener.mp hmem).1 hnone⟩

theorem Attentive.subscribe (h : Attentive s) :
    Attentive (RealtimeClient.subscribe s channel onData fresh) := by
  unfold RealtimeClient.subscribe
  simp only
  split_ifs with hnone hnew
  · intro socket hsocket hopen
    cases hopen
  · apply Attentive.send
    intro socket hsocket hopen hready c hlistens
    by_cases hc : c = channel
    · exact Or.inl (List.mem_singleton.mpr hc)
    · right
      have hattended := h socket hsocket hopen hready c ((listeners_addListener hlistens).resolve_left hc)
      exact hattended.of_informed rfl rfl rfl fun hinformed =>
        hinformed.addListener hsocket hopen fun hsame => (hc hsame).elim
  · intro socket hsocket hopen hready c hlistens
    have hothers : s.client.listeners c ≠ [] := by
      rcases listeners_addListener hlistens with rfl | hothers
      · exact hnew
      · exact hothers
    exact (h socket hsocket hopen hready c hothers).of_informed rfl rfl rfl fun hinformed =>
      hinformed.addListener hsocket hopen fun _ => hnew

theorem Attentive.unsubscribe (h : Attentive s) :
    Attentive (RealtimeClient.unsubscribe s channel onData) := by
  unfold RealtimeClient.unsubscribe
  simp only
  split_ifs
  · intro socket hsocket
    cases hsocket
  · intro socket hsocket hopen hready c hlistens
    obtain ⟨listener, hmem⟩ := List.exists_mem_of_ne_nil _ hlistens
    have hattended := h socket hsocket hopen hready c
      (List.ne_nil_of_mem (mem_listeners_deleteListener.mp hmem).1)
    exact hattended.of_informed rfl rfl rfl Informed.deleteListener

theorem Attentive.onopen (hlistening : Listening s) : Attentive (RealtimeClient.onopen s) := by
  apply Attentive.send
  intro socket hsocket hopen hready c hlistens
  exact Or.inl ((hlistening.keys c).mpr hlistens)

theorem Attentive.onclose : Attentive (RealtimeClient.onclose s) := by
  intro socket hsocket
  unfold RealtimeClient.onclose at hsocket
  split_ifs at hsocket

theorem Joined.read {listener : Listener} {frame : Frame} (h : Joined s socket c listener)
    (hframe : messagesIn [frame] c = []) (hjoined : t.joined = s.joined)
    (hread : t.read socket = frame :: s.read socket) : Joined t socket c listener := by
  obtain ⟨frames, later, hsome, hold, hnone⟩ := h
  refine ⟨frames, frame :: later, by rw [hjoined, hsome], by rw [hread, hold, List.cons_append], ?_⟩
  rw [← List.singleton_append, messagesIn_append, hframe, hnone, List.append_nil]

theorem onmessage_eq (s : System) (socket : Socket) (frame : Frame) : ∃ last heard,
    onmessage s socket frame =
      { s with read := Function.update s.read socket (frame :: s.read socket), last, heard } := by
  cases frame with
  | error text => exact ⟨_, _, rfl⟩
  | message message =>
      simp only [onmessage]
      split_ifs <;> exact ⟨_, _, rfl⟩

/-- A frame without a message of a channel leaves the channel's listeners alone. -/
theorem onmessage_kept {frame : Frame} (hframe : messagesIn [frame] c = []) :
    (onmessage s socket frame).client = s.client ∧ (onmessage s socket frame).joined = s.joined ∧
      (onmessage s socket frame).last c = s.last c ∧ (onmessage s socket frame).heard c = s.heard c := by
  cases frame with
  | error text => exact ⟨rfl, rfl, rfl, rfl⟩
  | message message =>
      have hc : c ≠ message.channel := by
        rintro rfl
        rw [messagesIn_message] at hframe
        cases hframe
      simp only [onmessage]
      split_ifs
      · exact ⟨rfl, rfl, rfl, rfl⟩
      · exact ⟨rfl, rfl, Function.update_of_ne hc .., Function.update_of_ne hc ..⟩

/-- What the listeners know after a frame was read. -/
theorem informed_onmessage {frame : Frame} (hlistens : s.client.listeners c ≠ [])
    (h : messagesIn [frame] c = [] → Informed s socket c) :
    Informed (onmessage s socket frame) socket c := by
  have hread : (onmessage s socket frame).read socket = frame :: s.read socket := by
    obtain ⟨last, heard, heq⟩ := onmessage_eq s socket frame
    rw [heq]
    exact Function.update_self ..
  have hmessages : messagesIn (frame :: s.read socket) c =
      messagesIn [frame] c ++ messagesIn (s.read socket) c := messagesIn_append [frame] (s.read socket) c
  by_cases hframe : messagesIn [frame] c = []
  · obtain ⟨hclient, hjoined, hlast, hheard⟩ := @onmessage_kept s socket c frame hframe
    obtain ⟨newest, earlier, hold, hdata⟩ := (h hframe).last
    refine ⟨⟨newest, earlier, ?_, hlast.trans hdata⟩, fun listener hmem hnone => ?_⟩
    · rw [hread, hmessages, hframe, hold, List.nil_append]
    · rw [hclient] at hmem
      rw [hheard] at hnone
      exact ((h hframe).called listener hmem hnone).read hframe hjoined hread
  · cases frame with
    | error text => exact (hframe rfl).elim
    | message message =>
        have hc : message.channel = c := by
          by_contra hother
          exact hframe (messagesIn_other hother [])
        -- every listener of the channel is called
        subst hc
        refine ⟨⟨message, messagesIn (s.read socket) message.channel, ?_, ?_⟩, fun listener hmem hnone => ?_⟩
        · rw [hread, messagesIn_message]
        · simp [onmessage, hlistens]
        · have hlistener : listener ∈ s.client.listeners message.channel := by
            simpa [onmessage, hlistens] using hmem
          simp [onmessage, hlistens, hlistener] at hnone

theorem Attentive.onmessage (h : Attentive s) (hcurrent : s.client.socket = some socket) {frame : Frame}
    {later : List Frame} (hnext : s.server.received socket = later ++ frame :: s.read socket) :
    Attentive (RealtimeClient.onmessage s socket frame) := by
  intro other hother hopen hready c hlistens
  have hinformed := @informed_onmessage s socket c frame
  obtain ⟨last, heard, heq⟩ := onmessage_eq s socket frame
  rw [heq] at hother hopen hready hlistens hinformed ⊢
  obtain rfl : socket = other := Option.some_inj.mp (hcurrent.symm.trans hother)
  rcases h socket hother hopen hready c hlistens with
    hrequested | hpending | ⟨hmem, unread, hreceived, hknown⟩
  · exact Or.inl hrequested
  · exact Or.inr (Or.inl hpending)
  · refine Or.inr (Or.inr ⟨hmem, later, ?_, fun hnone => hinformed hlistens fun hframe => hknown ?_⟩)
    · simpa using hnext
    · have hunread : unread = later ++ [frame] := by
        apply List.append_cancel_right
        rw [← hreceived, hnext, List.append_assoc]
        rfl
      rw [hunread, messagesIn_append, hnone, hframe, List.append_nil]

theorem Attentive.step (h : Attentive s) (hlinked : Linked limits s) (hlistening : Listening s)
    (hmodest : Modest limits s) (hstep : Step limits s t) : Attentive t := by
  cases hstep with
  | serve u turn => exact h.turn hlinked (turn_mono (fun _ hturn => hturn.1) turn)
  | accept socket ip dialled new =>
      exact h.turn hlinked (.connect s.server socket ip new ⟨trivial, fun _ hturn => by cases hturn⟩)
  | arrive socket channels later first => exact h.arrive hlinked hmodest first
  | subscribe channel onData fresh undialled unopened => exact h.subscribe
  | unsubscribe channel onData listens => exact h.unsubscribe
  | opened socket current connecting accepted => exact .onopen hlistening
  | deliver socket frame later current isOpen next => exact h.onmessage current next
  | lost socket current => exact .onclose
  | reconnect fresh delay timer undialled unopened =>
      intro socket hsocket hopen
      cases hopen

end

theorem runs_sound {limits : RealtimeLimits} {s : System} (h : Runs limits s) :
    Modest limits s ∧ Listening s ∧ Linked limits s ∧ Attentive s := by
  induction h with
  | refl =>
      have horderly : Orderly State.initial := ⟨nofun, fun _ => List.nodup_nil, fun _ _ => rfl⟩
      refine ⟨⟨nofun, Nat.zero_le _, fun _ => Nat.zero_le _⟩, ⟨fun c => ?_, fun hne => (hne rfl).elim,
        fun _ => rfl, nofun, nofun⟩, ⟨.refl, horderly, nofun, nofun, fun _ _ => ⟨rfl, rfl, rfl⟩,
        nofun, nofun, fun _ => List.nil_suffix⟩, nofun⟩
      exact iff_of_false List.not_mem_nil (not_not.mpr rfl)
  | tail _ hstep ih =>
      obtain ⟨hmodest, hlistening, hlinked, hattentive⟩ := ih
      exact ⟨hstep.2, hlistening.step hstep.1, hlinked.step hstep.2 hstep.1,
        hattentive.step hlinked hlistening hmodest hstep.1⟩

/-- Nothing is under way on a connection, and all changes were emitted. -/
structure Quiet (s : System) (socket : Socket) : Prop where
  requests : s.requests socket = []
  due : ∀ c, s.server.due c = 0
  waiting : s.server.waiting = []
  read : s.read socket = s.server.received socket

/-- **Nothing that is listened to is forgotten.** Whatever connections are lost, a
client that listens is connected or waits at most thirty seconds to connect
again. On an open connection every channel with listeners was asked for, is
going to be shown or is subscribed to, and when all is quiet the listeners of the
channel were last called with the last change, except those that joined others on
this connection and since then no message of the channel came. -/
theorem listeners_up_to_date (limits : RealtimeLimits) {s : System} (h : Runs limits s) :
    (s.client.channels ≠ [] → s.client.socket ≠ none ∨
      ∃ delay, s.client.reconnectTimer = some delay ∧ 1000 ≤ delay ∧ delay ≤ 30000) ∧
    ∀ socket, s.client.socket = some socket → s.client.isOpen = true → s.server.ready socket = true →
      ∀ c, s.client.listeners c ≠ [] →
        ((∃ channels ∈ s.requests socket, c ∈ channels) ∨ Pending s.server socket c ∨
          socket ∈ s.server.members c) ∧
        (Quiet s socket → s.last c = some (s.server.projection c) ∧
          ∀ listener ∈ s.client.listeners c, s.heard c listener = some (s.server.projection c) ∨
            s.heard c listener = none ∧ Joined s socket c listener) := by
  obtain ⟨-, hlistening, hlinked, hattentive⟩ := runs_sound h
  constructor
  · intro hchannels
    rcases hlistening.connected hchannels with hsocket | htimer
    · exact Or.inl hsocket
    · obtain ⟨delay, hdelay⟩ := Option.ne_none_iff_exists'.mp htimer
      exact Or.inr ⟨delay, hdelay, hlistening.delays delay hdelay⟩
  · intro socket hsocket hopen hready c hlistens
    have hattended := hattentive socket hsocket hopen hready c hlistens
    refine ⟨hattended.imp_right (Or.imp_right And.left), fun hquiet => ?_⟩
    have hread : socket ∈ s.server.members c ∧ Informed s socket c := by
      rcases hattended with
        ⟨channels, hmem, -⟩ | ⟨waiting, hmem, -⟩ | ⟨hmem, unread, hreceived, hknown⟩
      · rw [hquiet.requests] at hmem
        cases hmem
      · rw [hquiet.waiting] at hmem
        cases hmem
      · have hnone : unread = [] := by
          rw [hquiet.read] at hreceived
          exact List.self_eq_append_left.mp hreceived
        exact ⟨hmem, hknown (by rw [hnone]; rfl)⟩
    obtain ⟨hmem, hinformed⟩ := hread
    have hlast : s.last c = some (s.server.projection c) := by
      obtain ⟨message, earlier, hmessages, hdata⟩ := hinformed.last
      rw [hdata]
      rcases runs_fresh hlinked.reached socket c hready hmem with hdue | ⟨waiting, hw, -⟩ | hshown
      · exact (hdue (hquiet.due c)).elim
      · rw [hquiet.waiting] at hw
        cases hw
      · obtain ⟨newest, older, hnewest, hshows⟩ := hshown
        rw [messagesOn_eq, ← hquiet.read, hmessages] at hnewest
        rw [(List.cons.inj hnewest).1, hshows]
    refine ⟨hlast, fun listener hlistener => ?_⟩
    rcases hlistening.heard c listener hlistener with hnone | hheard
    · exact Or.inr ⟨hnone, hinformed.called listener hlistener hnone⟩
    · exact Or.inl (hheard.trans hlast)

def exampleListening : System := subscribe System.initial (makerChannel '0') 7 0

def exampleAccepted : System :=
  { exampleListening with
    server := Realtime.connect exampleRealtimeLimits exampleListening.server 0 "127.0.0.1" }

def exampleOpen : System := onopen exampleAccepted

/-- The request has come, and its handler waits for the snapshot. -/
def exampleArrived : System :=
  { exampleOpen with
    requests := Function.update exampleOpen.requests 0 []
    server := enterChannel exampleOpen.server 0 (makerChannel '0') [] }

def exampleSnapshot : Waiting := ⟨makerChannel '0', .subscribe 0 [], some 0⟩

def exampleRead : State := { exampleArrived.server with waiting := [exampleSnapshot] }

def exampleShown : System :=
  { exampleArrived with
    server := resume (fun _ => false) { exampleRead with waiting := [] } exampleSnapshot 0 }

def exampleHeard : System := onmessage exampleShown 0 (.message ⟨.snapshot, makerChannel '0', 1, 0⟩)

theorem modest_of_one {s : System} (hchannels : s.client.channels = [makerChannel '0'])
    (hasked : ∀ socket, s.asked socket ⊆ {makerChannel '0'}) : Modest exampleRealtimeLimits s where
  valid := by
    rw [hchannels]
    intro c hc
    rw [List.mem_singleton.mp hc]
    exact makerChannel_valid.1
  few := by
    rw [hchannels]
    decide
  capped := fun socket => (Finset.card_le_card (hasked socket)).trans (by decide)

theorem exampleOpen_asked (socket : Socket) : exampleOpen.asked socket ⊆ {makerChannel '0'} := by
  have hasked : exampleOpen.asked =
      Function.update (fun _ => ∅) 0 (∅ ∪ [makerChannel '0'].toFinset) := rfl
  rw [hasked]
  by_cases hsame : socket = 0
  · subst hsame
    simp
  · simp [hsame]

theorem exampleHeard_runs : Runs exampleRealtimeLimits exampleHeard := by
  have hlistening : Runs exampleRealtimeLimits exampleListening := by
    refine Relation.ReflTransGen.single ⟨.subscribe _ _ _ 0 ?_ ?_, modest_of_one rfl fun _ => ?_⟩
    · exact List.not_mem_nil
    · exact List.not_mem_nil
    · exact Finset.empty_subset _
  have haccepted : Runs exampleRealtimeLimits exampleAccepted := by
    refine hlistening.tail ⟨.accept _ 0 _ ?_ ?_, modest_of_one rfl fun _ => ?_⟩
    · exact List.mem_cons_self
    · exact List.not_mem_nil
    · exact Finset.empty_subset _
  have hopen : Runs exampleRealtimeLimits exampleOpen := by
    refine haccepted.tail ⟨.opened _ 0 rfl rfl ?_, modest_of_one rfl exampleOpen_asked⟩
    decide
  have harrived : Runs exampleRealtimeLimits exampleArrived := by
    have hmessage : onMessage exampleRealtimeLimits exampleOpen.server 0
        (.parsed (some ([makerChannel '0'].map some))) =
          enterChannel exampleOpen.server 0 (makerChannel '0') [] := by
      obtain ⟨hmodest, -, hlinked, -⟩ := runs_sound hopen
      have haccepted := hlinked.accepted (hmodest.capped 0) (List.mem_singleton_self [makerChannel '0']) rfl
      rcases onMessage_eq exampleRealtimeLimits exampleOpen.server 0 ([makerChannel '0'].map some) with
        ⟨-, heq⟩ | ⟨hnot, -⟩
      · rw [heq]
        rfl
      · exact (hnot haccepted).elim
    have hstep : Step exampleRealtimeLimits exampleOpen _ :=
      .arrive exampleOpen 0 [makerChannel '0'] [] (by decide)
    rw [hmessage] at hstep
    exact hopen.tail ⟨hstep, modest_of_one rfl exampleOpen_asked⟩
  have hread : Runs exampleRealtimeLimits { exampleArrived with server := exampleRead } := by
    refine harrived.tail ⟨.serve _ _ (.read _ [] [] ⟨makerChannel '0', .subscribe 0 [], none⟩ ?_ rfl
      ⟨⟨trivial, nofun⟩, trivial⟩), modest_of_one rfl exampleOpen_asked⟩
    decide
  have hshown : Runs exampleRealtimeLimits exampleShown := by
    refine hread.tail ⟨.serve _ _ (.resume _ [] [] exampleSnapshot 0 (fun _ => false) rfl rfl
      ⟨⟨?_, nofun⟩, trivial⟩), modest_of_one rfl exampleOpen_asked⟩
    intro other hother
    cases hother
  refine hshown.tail ⟨.deliver _ 0 _ [] rfl rfl ?_, modest_of_one rfl exampleOpen_asked⟩
  decide

/-- A second listener joins the first one. -/
def exampleJoined : System := subscribe exampleHeard (makerChannel '0') 8 1

theorem exampleJoined_runs : Runs exampleRealtimeLimits exampleJoined := by
  refine exampleHeard_runs.tail ⟨.subscribe _ _ _ 1 ?_ ?_, modest_of_one rfl exampleOpen_asked⟩
  · decide
  · decide

/-- The first listener knows the projection, and the second one has not been called. -/
theorem listeners_up_to_date_example : Runs exampleRealtimeLimits exampleJoined ∧
    exampleJoined.last (makerChannel '0') = some (exampleJoined.server.projection (makerChannel '0')) ∧
    exampleJoined.heard (makerChannel '0') 7 = exampleJoined.last (makerChannel '0') ∧
    Joined exampleJoined 0 (makerChannel '0') 8 := by
  have hquiet : Quiet exampleJoined 0 := by
    refine ⟨?_, fun _ => rfl, ?_, ?_⟩ <;> decide
  obtain ⟨hlast, hlisteners⟩ := ((listeners_up_to_date exampleRealtimeLimits exampleJoined_runs).2 0 rfl rfl
    (by decide) (makerChannel '0') (by decide)).2 hquiet
  refine ⟨exampleJoined_runs, hlast, ?_, ?_⟩
  · rcases hlisteners 7 (by decide) with hheard | ⟨hnone, -⟩
    · exact hheard.trans hlast.symm
    · cases hnone
  · rcases hlisteners 8 (by decide) with hheard | ⟨-, hjoined⟩
    · cases hheard
    · exact hjoined

end CkbDex.RealtimeClient
