import CkbDex.RealtimeTurns

/-!
# The realtime client

The user interface keeps one connection to the broadcaster for all its
listeners. It opens the connection again when it is lost, and asks for its
channels anew. A connection hands on requests and frames in their order, and can
be lost at any time.
-/
namespace CkbDex.RealtimeClient
open Realtime

/-- A callback. -/
abbrev Listener := ℕ

/-- The variables of the client's module. -/
structure Client where
  /-- The keys of `listeners`, in their order. -/
  channels : List Channel
  listeners : Channel → List Listener
  socket : Option Socket
  /-- The `readyState` of the socket is OPEN. -/
  isOpen : Bool
  retry : ℕ
  /-- The delay of the timer, while it is set. -/
  reconnectTimer : Option ℕ

/-- A client, the broadcaster and what is between them. -/
structure System where
  server : State
  client : Client
  /-- The connections that the client has opened. -/
  dialled : List Socket
  /-- The requests under way on a connection, the first one first. -/
  requests : Socket → List (List Channel)
  /-- All channels that were asked for on a connection. -/
  asked : Socket → Finset Channel
  /-- The frames that the client was handed, the last one first. -/
  read : Socket → List Frame
  /-- What the listeners of a channel were last called with. -/
  last : Channel → Option ℕ
  /-- What a listener was called with since it was added. -/
  heard : Channel → Listener → Option ℕ
  /-- The open connection on which a listener was added to a channel that others
  listened to, and what was read from it by then. -/
  joined : Channel → Listener → Option (Socket × List Frame)

def System.initial : System where
  server := State.initial
  client := ⟨[], fun _ => [], none, false, 0, none⟩
  dialled := []
  requests := fun _ => []
  asked := fun _ => ∅
  read := fun _ => []
  last := fun _ => none
  heard := fun _ _ => none
  joined := fun _ _ => none

def send (s : System) (channels : List Channel) : System :=
  match s.client.socket with
  | none => s
  | some socket =>
      if s.client.isOpen = true ∧ channels ≠ [] then
        { s with
          requests := Function.update s.requests socket (s.requests socket ++ [channels])
          asked := Function.update s.asked socket (s.asked socket ∪ channels.toFinset) }
      else s

/-- The address of the broadcaster is dialled on a new socket. -/
def connect (s : System) (socket : Socket) : System :=
  { s with
    client := { s.client with reconnectTimer := none, socket := some socket, isOpen := false }
    dialled := socket :: s.dialled }

def onopen (s : System) : System :=
  send { s with client := { s.client with isOpen := true, retry := 0 } } s.client.channels

def onmessage (s : System) (socket : Socket) (frame : Frame) : System :=
  let s := { s with read := Function.update s.read socket (frame :: s.read socket) }
  match frame with
  | .error _ => s
  | .message message =>
      if s.client.listeners message.channel = [] then s
      else
        { s with
          last := Function.update s.last message.channel (some message.data)
          heard := Function.update s.heard message.channel fun listener =>
            if listener ∈ s.client.listeners message.channel then some message.data
            else s.heard message.channel listener }

/-- In milliseconds. -/
def reconnectDelay (retry : ℕ) : ℕ := min 30000 (1000 * 2 ^ retry)

def onclose (s : System) : System :=
  if s.client.channels = [] then
    { s with client := { s.client with socket := none, isOpen := false } }
  else
    { s with client := { s.client with
        socket := none
        isOpen := false
        retry := s.client.retry + 1
        reconnectTimer := some (reconnectDelay s.client.retry) } }

/-- A callback is added to the set of its channel. -/
def addListener (s : System) (channel : Channel) (onData : Listener) : System :=
  { s with
    client := { s.client with
      channels := addTo s.client.channels channel
      listeners := Function.update s.client.listeners channel
        (addTo (s.client.listeners channel) onData) }
    heard := Function.update s.heard channel (Function.update (s.heard channel) onData none)
    joined := Function.update s.joined channel (Function.update (s.joined channel) onData
      (if s.client.isOpen = true ∧ s.client.listeners channel ≠ [] then
        s.client.socket.map fun socket => (socket, s.read socket)
      else none)) }

/-- `subscribe`, with the socket that is opened if there is none. -/
def subscribe (s : System) (channel : Channel) (onData : Listener) (fresh : Socket) : System :=
  let listening := addListener s channel onData
  if s.client.socket = none then connect listening fresh
  else if s.client.listeners channel = [] then send listening [channel]
  else listening

/-- A callback is taken out of the set of its channel, and an empty set out of
the table. -/
def deleteListener (s : System) (channel : Channel) (onData : Listener) : System :=
  let set := (s.client.listeners channel).filter fun other => other ≠ onData
  { s with client := { s.client with
      channels :=
        if set = [] then s.client.channels.filter fun other => other ≠ channel else s.client.channels
      listeners := Function.update s.client.listeners channel set } }

/-- The function that `subscribe` returns. -/
def unsubscribe (s : System) (channel : Channel) (onData : Listener) : System :=
  let left := deleteListener s channel onData
  if left.client.channels = [] ∧ left.client.socket ≠ none then
    { left with client := { left.client with socket := none, isOpen := false } }
  else left

/-- The turns of the broadcaster that are not about the client's connections. -/
def Foreign (dialled : List Socket) : Turn → Prop
  | .connect socket _ => socket ∉ dialled
  | .message socket _ => socket ∉ dialled
  | _ => True

/-- What happens next, at the broadcaster, between the two or in the client. The
broadcaster answers every snapshot, in the order they were read. A connection is
lost at any time, which the broadcaster notices by a turn of its own. -/
inductive Step (limits : RealtimeLimits) : System → System → Prop
  | serve (s : System) (t : State)
      (turn : Realtime.Step limits (fun state turn => InOrderAnswered state turn ∧
        Foreign s.dialled turn) s.server t) : Step limits s { s with server := t }
  | accept (s : System) (socket : Socket) (ip : String) (dialled : socket ∈ s.dialled)
      (new : socket ∉ s.server.opened) :
      Step limits s { s with server := Realtime.connect limits s.server socket ip }
  | arrive (s : System) (socket : Socket) (channels : List Channel) (later : List (List Channel))
      (first : s.requests socket = channels :: later) :
      Step limits s
        { s with
          requests := Function.update s.requests socket later
          server := onMessage limits s.server socket (.parsed (some (channels.map some))) }
  | subscribe (s : System) (channel : Channel) (onData : Listener) (fresh : Socket)
      (undialled : fresh ∉ s.dialled) (unopened : fresh ∉ s.server.opened) :
      Step limits s (subscribe s channel onData fresh)
  | unsubscribe (s : System) (channel : Channel) (onData : Listener)
      (listens : onData ∈ s.client.listeners channel) :
      Step limits s (unsubscribe s channel onData)
  | opened (s : System) (socket : Socket) (current : s.client.socket = some socket)
      (connecting : s.client.isOpen = false) (accepted : socket ∈ s.server.opened) :
      Step limits s (onopen s)
  | deliver (s : System) (socket : Socket) (frame : Frame) (later : List Frame)
      (current : s.client.socket = some socket) (isOpen : s.client.isOpen = true)
      (next : s.server.received socket = later ++ frame :: s.read socket) :
      Step limits s (onmessage s socket frame)
  | lost (s : System) (socket : Socket) (current : s.client.socket = some socket) :
      Step limits s (onclose s)
  | reconnect (s : System) (fresh : Socket) (delay : ℕ)
      (timer : s.client.reconnectTimer = some delay) (undialled : fresh ∉ s.dialled)
      (unopened : fresh ∉ s.server.opened) : Step limits s (connect s fresh)

/-- The client listens to no more channels than one request may name, and asks
one connection for no more than it may have. -/
structure Modest (limits : RealtimeLimits) (s : System) : Prop where
  valid : ∀ c ∈ s.client.channels, isValidChannel c = true
  few : s.client.channels.length ≤ limits.maxChannelsPerMessage
  capped : ∀ socket, (s.asked socket).card ≤ limits.maxChannelsPerSocket

abbrev Runs (limits : RealtimeLimits) : System → Prop :=
  Relation.ReflTransGen (fun s t => Step limits s t ∧ Modest limits t) System.initial

section
variable {s t : System} {socket fresh : Socket} {channel c : Channel} {channels : List Channel}
  {onData : Listener}

/-- The tables agree, a client that listens is connected or about to be, and
listeners were called with what came last. -/
structure Listening (s : System) : Prop where
  keys : ∀ c, c ∈ s.client.channels ↔ s.client.listeners c ≠ []
  connected : s.client.channels ≠ [] → s.client.socket ≠ none ∨ s.client.reconnectTimer ≠ none
  single : s.client.socket ≠ none → s.client.reconnectTimer = none
  delays : ∀ delay, s.client.reconnectTimer = some delay → 1000 ≤ delay ∧ delay ≤ 30000
  heard : ∀ c, ∀ listener ∈ s.client.listeners c,
    s.heard c listener = none ∨ s.heard c listener = s.last c

theorem Listening.of_same (h : Listening s) (hclient : t.client = s.client) (hlast : t.last = s.last)
    (hheard : t.heard = s.heard) : Listening t := by
  refine ⟨?_, ?_, ?_, ?_, ?_⟩
  · rw [hclient]
    exact h.keys
  · rw [hclient]
    exact h.connected
  · rw [hclient]
    exact h.single
  · rw [hclient]
    exact h.delays
  · rw [hclient, hlast, hheard]
    exact h.heard

/-- A request is sent on an open connection. -/
theorem send_eq (s : System) (channels : List Channel) : ∃ requests asked,
    send s channels = { s with requests, asked } := by
  unfold send
  cases s.client.socket with
  | none => exact ⟨_, _, rfl⟩
  | some socket =>
      simp only
      split_ifs <;> exact ⟨_, _, rfl⟩

theorem send_open (hsocket : s.client.socket = some socket) (hopen : s.client.isOpen = true)
    (hchannels : channels ≠ []) : send s channels =
      { s with
        requests := Function.update s.requests socket (s.requests socket ++ [channels])
        asked := Function.update s.asked socket (s.asked socket ∪ channels.toFinset) } := by
  simp only [send, hsocket]
  exact if_pos ⟨hopen, hchannels⟩

theorem Listening.send (h : Listening s) (channels : List Channel) :
    Listening (RealtimeClient.send s channels) := by
  obtain ⟨requests, asked, heq⟩ := send_eq s channels
  rw [heq]
  exact h.of_same rfl rfl rfl

theorem reconnectDelay_bounds (retry : ℕ) :
    1000 ≤ reconnectDelay retry ∧ reconnectDelay retry ≤ 30000 := by
  have hpos : 1 ≤ 2 ^ retry := Nat.one_le_two_pow
  unfold reconnectDelay
  omega

theorem Listening.connect (hkeys : ∀ c, c ∈ s.client.channels ↔ s.client.listeners c ≠ [])
    (hheard : ∀ c, ∀ listener ∈ s.client.listeners c, s.heard c listener = none ∨
      s.heard c listener = s.last c) (fresh : Socket) : Listening (RealtimeClient.connect s fresh) where
  keys := hkeys
  connected := fun _ => Or.inl (by simp [RealtimeClient.connect])
  single := fun _ => rfl
  delays := fun delay hdelay => by cases hdelay
  heard := hheard

theorem mem_channels_addListener (h : Listening s) :
    c ∈ (addListener s channel onData).client.channels ↔
      (addListener s channel onData).client.listeners c ≠ [] := by
  simp only [addListener, mem_addTo]
  by_cases hc : c = channel
  · subst hc
    have hmem : onData ∈ addTo (s.client.listeners c) onData := mem_addTo.mpr (Or.inl rfl)
    simp [List.ne_nil_of_mem hmem]
  · simp [hc, h.keys c]

theorem heard_addListener (h : Listening s) :
    ∀ listener ∈ (addListener s channel onData).client.listeners c,
      (addListener s channel onData).heard c listener = none ∨
        (addListener s channel onData).heard c listener = s.last c := by
  intro listener hmem
  simp only [addListener] at hmem ⊢
  by_cases hc : c = channel
  · subst hc
    rw [Function.update_self] at hmem ⊢
    by_cases hsame : listener = onData
    · simp [hsame]
    · rw [Function.update_of_ne hsame]
      exact h.heard c listener ((mem_addTo.mp hmem).resolve_left hsame)
  · rw [Function.update_of_ne hc] at hmem ⊢
    exact h.heard c listener hmem

theorem Listening.subscribe (h : Listening s) :
    Listening (RealtimeClient.subscribe s channel onData fresh) := by
  unfold RealtimeClient.subscribe
  simp only
  split_ifs with hnone hnew
  · exact .connect (fun _ => mem_channels_addListener h) (fun _ => heard_addListener h) fresh
  · exact Listening.send ⟨fun _ => mem_channels_addListener h, fun _ => Or.inl hnone, h.single, h.delays,
      fun _ => heard_addListener h⟩ [channel]
  · exact ⟨fun _ => mem_channels_addListener h, fun _ => Or.inl hnone, h.single, h.delays,
      fun _ => heard_addListener h⟩

theorem mem_listeners_deleteListener {listener : Listener} :
    listener ∈ (deleteListener s channel onData).client.listeners c ↔
      listener ∈ s.client.listeners c ∧ (c = channel → listener ≠ onData) := by
  simp only [deleteListener]
  by_cases hc : c = channel
  · subst hc
    simp
  · simp [hc]

theorem Listening.deleteListener (h : Listening s) :
    Listening (RealtimeClient.deleteListener s channel onData) := by
  have hkeys : ∀ c, c ∈ (RealtimeClient.deleteListener s channel onData).client.channels ↔
      (RealtimeClient.deleteListener s channel onData).client.listeners c ≠ [] := by
    intro c
    by_cases hc : c = channel
    · subst hc
      simp only [RealtimeClient.deleteListener, Function.update_self]
      split_ifs with hempty
      · exact iff_of_false (fun hmem => by simpa using (List.mem_filter.mp hmem).2) (not_not.mpr hempty)
      · rw [h.keys c]
        exact iff_of_true (fun hnil => hempty (by rw [hnil]; rfl)) hempty
    · simp only [RealtimeClient.deleteListener, Function.update_of_ne hc, ← h.keys c]
      split_ifs
      · simp [hc]
      · rfl
  refine ⟨hkeys, fun hchannels => h.connected fun hnil => hchannels ?_, h.single, h.delays,
    fun c listener hmem => h.heard c listener (mem_listeners_deleteListener.mp hmem).1⟩
  simp only [RealtimeClient.deleteListener]
  split_ifs
  · rw [hnil]
    rfl
  · exact hnil

theorem Listening.unsubscribe (h : Listening s) :
    Listening (RealtimeClient.unsubscribe s channel onData) := by
  have hleft : Listening (RealtimeClient.deleteListener s channel onData) := h.deleteListener
  unfold RealtimeClient.unsubscribe
  simp only
  split_ifs with hlast
  · exact ⟨hleft.keys, fun hchannels => (hchannels hlast.1).elim, fun hsocket => (hsocket rfl).elim,
      hleft.delays, hleft.heard⟩
  · exact hleft

theorem Listening.onopen (h : Listening s) : Listening (RealtimeClient.onopen s) := by
  apply Listening.send
  exact ⟨h.keys, h.connected, h.single, h.delays, h.heard⟩

theorem Listening.onclose (h : Listening s) : Listening (RealtimeClient.onclose s) := by
  unfold RealtimeClient.onclose
  split_ifs with hnone
  · exact ⟨h.keys, fun hchannels => (hchannels hnone).elim, fun hsocket => (hsocket rfl).elim, h.delays,
      h.heard⟩
  · refine ⟨h.keys, fun _ => Or.inr (by simp), fun hsocket => (hsocket rfl).elim, ?_, h.heard⟩
    intro delay hdelay
    rw [← Option.some_inj.mp hdelay]
    exact reconnectDelay_bounds _

theorem Listening.onmessage (h : Listening s) (socket : Socket) (frame : Frame) :
    Listening (RealtimeClient.onmessage s socket frame) := by
  cases frame with
  | error text => exact h.of_same rfl rfl rfl
  | message message =>
      simp only [RealtimeClient.onmessage]
      split_ifs
      · exact h.of_same rfl rfl rfl
      · refine ⟨h.keys, h.connected, h.single, h.delays, fun c listener hmem => ?_⟩
        by_cases hc : c = message.channel
        · subst hc
          have hlistens : listener ∈ s.client.listeners message.channel := hmem
          simp [hlistens]
        · simpa [hc] using h.heard c listener hmem

theorem Listening.step {limits : RealtimeLimits} (h : Listening s) (hstep : Step limits s t) :
    Listening t := by
  cases hstep with
  | serve t turn => exact h.of_same rfl rfl rfl
  | accept socket ip dialled new => exact h.of_same rfl rfl rfl
  | arrive socket channels later first => exact h.of_same rfl rfl rfl
  | subscribe channel onData fresh undialled unopened => exact h.subscribe
  | unsubscribe channel onData listens => exact h.unsubscribe
  | opened socket current connecting accepted => exact h.onopen
  | deliver socket frame later current isOpen next => exact h.onmessage socket frame
  | lost socket current => exact h.onclose
  | reconnect fresh delay timer undialled unopened => exact .connect h.keys h.heard fresh

end

end CkbDex.RealtimeClient
