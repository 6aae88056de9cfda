import CkbDex.Text
import Mathlib.Data.List.Basic
import Mathlib.Logic.Function.Basic
import Mathlib.Logic.Relation

/-!
# The realtime broadcaster

The tables of the broadcaster and its handlers, cut where they wait for a
snapshot: what runs between two waits is one turn. A set of subscribers is an
object of its own that a handler may hold on to while the table moves on, so
sets have addresses. A snapshot of a channel shows its projection at the moment
it is read; the projection is counted by the changes committed to it.
-/
namespace CkbDex.Realtime
open Text

abbrev Channel := String
abbrev Socket := ℕ

def isHashText (cs : List Char) : Bool :=
  cs.length = 66 && cs.take 2 = ['0', 'x'] && (cs.drop 2).all fun c => (hexDigit c).isSome

/-- `CHANNEL_PATTERN`; the names it admits have fewer than 100 characters. -/
def isValidChannel (value : String) : Bool :=
  let cs := value.toList
  (cs.take 7 = "market:".toList && isHashText ((cs.drop 7).take 66) &&
      (cs.drop 73 = ":orderbook".toList || cs.drop 73 = ":trades".toList)) ||
    (cs.take 6 = "maker:".toList && isHashText ((cs.drop 6).take 66) && cs.drop 72 = ":orders".toList)

inductive MessageType where
  | snapshot | update
  deriving DecidableEq, Repr

structure RealtimeMessage where
  type : MessageType
  channel : Channel
  sequence : ℕ
  /-- How many changes of the channel's projection the rows show. -/
  data : ℕ
  deriving DecidableEq, Repr

/-- What a socket is sent. -/
inductive Frame where
  | message (message : RealtimeMessage)
  | error (message : String)
  deriving DecidableEq, Repr

structure RealtimeLimits where
  maxConnections : ℕ
  maxConnectionsPerIp : ℕ
  maxChannelsPerMessage : ℕ
  maxChannelsPerSocket : ℕ

/-- A handler that waits for a snapshot. -/
inductive Handler where
  /-- A message handler, with the channels it has not come to. -/
  | subscribe (socket : Socket) (rest : List Channel)
  /-- An `emit`, with the address of the set it read. -/
  | emit (subscribers : ℕ)
  deriving DecidableEq

structure Waiting where
  channel : Channel
  handler : Handler
  /-- The projection that was read, while the answer is under way. -/
  snapshot : Option ℕ
  deriving DecidableEq

structure State where
  /-- The sockets that were ever opened. -/
  opened : List Socket
  /-- The sockets whose `readyState` is open. -/
  ready : Socket → Bool
  received : Socket → List Frame
  ipOf : Socket → String
  connectionsByIp : String → Option ℕ
  /-- The keys of `channelsBySocket`. -/
  registered : List Socket
  /-- The set a socket was registered with, which outlives its entry. -/
  owned : Socket → List Channel
  subscriptions : Channel → Option ℕ
  sets : ℕ → List Socket
  /-- How many sets were created; the next address. -/
  created : ℕ
  sequenceByChannel : Channel → Option ℕ
  projection : Channel → ℕ
  /-- Calls of `emit` that committed changes have still to make. -/
  due : Channel → ℕ
  waiting : List Waiting

def State.initial : State where
  opened := []
  ready := fun _ => false
  received := fun _ => []
  ipOf := fun _ => ""
  connectionsByIp := fun _ => none
  registered := []
  owned := fun _ => []
  subscriptions := fun _ => none
  sets := fun _ => []
  created := 0
  sequenceByChannel := fun _ => none
  projection := fun _ => 0
  due := fun _ => 0
  waiting := []

/-- `Set.add` -/
def addTo {α : Type} [DecidableEq α] (set : List α) (a : α) : List α :=
  if a ∈ set then set else set ++ [a]

/-- The sockets in `subscriptions[channel]`. -/
def State.members (s : State) (channel : Channel) : List Socket :=
  match s.subscriptions channel with
  | some address => s.sets address
  | none => []

def State.push (s : State) (socket : Socket) (frame : Frame) : State :=
  { s with received := Function.update s.received socket (frame :: s.received socket) }

def State.terminate (s : State) (socket : Socket) : State :=
  { s with ready := Function.update s.ready socket false }

def sendError (s : State) (socket : Socket) (message : String) : State :=
  if s.ready socket then s.push socket (.error message) else s

/-- A socket is overloaded when its unsent data exceeds the limit. -/
def sendToSocket (overloaded : Socket → Bool) (message : RealtimeMessage) (s : State) (socket : Socket) :
    State :=
  if !s.ready socket then s
  else if overloaded socket then s.terminate socket
  else s.push socket (.message message)

def nextSequence (s : State) (channel : Channel) : ℕ := (s.sequenceByChannel channel).getD 0 + 1

def State.number (s : State) (channel : Channel) : State :=
  { s with sequenceByChannel :=
      Function.update s.sequenceByChannel channel (some (nextSequence s channel)) }

def connect (limits : RealtimeLimits) (s : State) (socket : Socket) (ip : String) : State :=
  let perIp := (s.connectionsByIp ip).getD 0
  if limits.maxConnections ≤ s.registered.length || limits.maxConnectionsPerIp ≤ perIp then
    { s with opened := socket :: s.opened }
  else
    { s with
      opened := socket :: s.opened
      ready := Function.update s.ready socket true
      ipOf := Function.update s.ipOf socket ip
      connectionsByIp := Function.update s.connectionsByIp ip (some (perIp + 1))
      registered := socket :: s.registered
      owned := Function.update s.owned socket [] }

/-- The channel's set of subscribers, a new one if there is none. -/
def State.setOf (s : State) (channel : Channel) : ℕ := (s.subscriptions channel).getD s.created

/-- One round of the subscription loop, up to the snapshot. -/
def enterChannel (s : State) (socket : Socket) (channel : Channel) (rest : List Channel) : State :=
  { s with
    owned := Function.update s.owned socket (addTo (s.owned socket) channel)
    subscriptions := Function.update s.subscriptions channel (some (s.setOf channel))
    created := if s.subscriptions channel = none then s.created + 1 else s.created
    sets := Function.update s.sets (s.setOf channel) (addTo (s.sets (s.setOf channel)) socket)
    waiting := s.waiting ++ [⟨channel, .subscribe socket rest, none⟩] }

def enterChannels (s : State) (socket : Socket) : List Channel → State
  | [] => s
  | channel :: rest => enterChannel s socket channel rest

/-- A parsed frame: its `channels`, where a member that is no string is nothing. -/
inductive Payload where
  | malformed
  | parsed (channels : Option (List (Option String)))

def onMessage (limits : RealtimeLimits) (s : State) (socket : Socket) : Payload → State
  | .malformed => sendError s socket "Invalid websocket payload"
  | .parsed none => sendError s socket "Expected channels array"
  | .parsed (some channels) =>
      if channels = [] then sendError s socket "Expected channels array"
      else if limits.maxChannelsPerMessage < channels.length then
        sendError s socket s!"At most {limits.maxChannelsPerMessage} channels per message"
      else if (channels.any fun channel => !channel.any isValidChannel) then
        sendError s socket "Invalid channel name"
      else if socket ∉ s.registered then s
      else
        let names := channels.filterMap id
        let fresh := names.filter fun channel => channel ∉ s.owned socket
        if limits.maxChannelsPerSocket < (s.owned socket).length + fresh.eraseDups.length then
          sendError s socket s!"At most {limits.maxChannelsPerSocket} channels per connection"
        else enterChannels s socket names.eraseDups

/-- A handler goes on with its snapshot. -/
def resume (overloaded : Socket → Bool) (s : State) (waiting : Waiting) (snapshot : ℕ) : State :=
  let channel := waiting.channel
  let sequence := nextSequence s channel
  match waiting.handler with
  | .subscribe socket rest =>
      enterChannels
        (sendToSocket overloaded ⟨.snapshot, channel, sequence, snapshot⟩ (s.number channel) socket)
        socket rest
  | .emit subscribers =>
      (s.sets subscribers).foldl (sendToSocket overloaded ⟨.update, channel, sequence, snapshot⟩)
        (s.number channel)

/-- The handler whose snapshot query failed ends. -/
def reject (s : State) : Handler → State
  | .subscribe socket _ => sendError s socket "Unable to process message"
  | .emit _ => s

def emit (s : State) (channel : Channel) : State :=
  let s := { s with due := Function.update s.due channel (s.due channel - 1) }
  match s.subscriptions channel with
  | none => s
  | some address =>
      if s.sets address = [] then s
      else { s with waiting := s.waiting ++ [⟨channel, .emit address, none⟩] }

/-- One round of the loop in `release`. -/
def leaveChannel (socket : Socket) (s : State) (channel : Channel) : State :=
  match s.subscriptions channel with
  | none => s
  | some address =>
      let left := (s.sets address).filter fun other => other ≠ socket
      if left = [] then
        { s with
          sets := Function.update s.sets address left
          subscriptions := Function.update s.subscriptions channel none
          sequenceByChannel := Function.update s.sequenceByChannel channel none }
      else { s with sets := Function.update s.sets address left }

def leaveChannels (socket : Socket) (s : State) : List Channel → State :=
  List.foldl (leaveChannel socket) s

def release (s : State) (socket : Socket) : State :=
  let ip := s.ipOf socket
  let remaining := (s.connectionsByIp ip).getD 1 - 1
  let s := leaveChannels socket s (if socket ∈ s.registered then s.owned socket else [])
  { s with
    registered := s.registered.filter fun other => other ≠ socket
    connectionsByIp := Function.update s.connectionsByIp ip (if remaining = 0 then none else some remaining) }

/-- What the event loop turns to. -/
inductive Turn where
  | connect (socket : Socket) (ip : String)
  | message (socket : Socket) (payload : Payload)
  | hangUp (socket : Socket)
  | close (socket : Socket)
  | change (channel : Channel)
  | emit (channel : Channel)
  | read (waiting : Waiting)
  | resume (waiting : Waiting) (others : List Waiting)
  | reject (waiting : Waiting)

/-- One turn of the event loop, or a moment of the database. A socket is closed
once it is no longer open. -/
inductive Step (limits : RealtimeLimits) (permitted : State → Turn → Prop) : State → State → Prop
  | connect (s : State) (socket : Socket) (ip : String) (new : socket ∉ s.opened)
      (turn : permitted s (.connect socket ip)) : Step limits permitted s (connect limits s socket ip)
  | message (s : State) (socket : Socket) (payload : Payload)
      (turn : permitted s (.message socket payload)) :
      Step limits permitted s (onMessage limits s socket payload)
  | hangUp (s : State) (socket : Socket) (turn : permitted s (.hangUp socket)) :
      Step limits permitted s (s.terminate socket)
  | close (s : State) (socket : Socket) (registered : socket ∈ s.registered)
      (ended : s.ready socket = false) (turn : permitted s (.close socket)) :
      Step limits permitted s (release s socket)
  | change (s : State) (channel : Channel) (turn : permitted s (.change channel)) :
      Step limits permitted s { s with
        projection := Function.update s.projection channel (s.projection channel + 1)
        due := Function.update s.due channel (s.due channel + 1) }
  | emit (s : State) (channel : Channel) (turn : permitted s (.emit channel)) :
      Step limits permitted s (emit s channel)
  | read (s : State) (before after : List Waiting) (waiting : Waiting)
      (waits : s.waiting = before ++ waiting :: after) (unread : waiting.snapshot = none)
      (turn : permitted s (.read waiting)) :
      Step limits permitted s { s with waiting :=
        before ++ { waiting with snapshot := some (s.projection waiting.channel) } :: after }
  | resume (s : State) (before after : List Waiting) (waiting : Waiting) (snapshot : ℕ)
      (overloaded : Socket → Bool) (waits : s.waiting = before ++ waiting :: after)
      (answered : waiting.snapshot = some snapshot)
      (turn : permitted s (.resume waiting (before ++ after))) :
      Step limits permitted s
        (resume overloaded { s with waiting := before ++ after } waiting snapshot)
  | reject (s : State) (before after : List Waiting) (waiting : Waiting)
      (waits : s.waiting = before ++ waiting :: after) (turn : permitted s (.reject waiting)) :
      Step limits permitted s (reject { s with waiting := before ++ after } waiting.handler)

abbrev Runs (limits : RealtimeLimits) (permitted : State → Turn → Prop) : State → State → Prop :=
  Relation.ReflTransGen (Step limits permitted)

theorem turn_mono {limits : RealtimeLimits} {permitted allowed : State → Turn → Prop} {s t : State}
    (hallowed : ∀ turn, permitted s turn → allowed s turn) (hstep : Step limits permitted s t) :
    Step limits allowed s t := by
  cases hstep with
  | connect socket ip new turn => exact .connect s socket ip new (hallowed _ turn)
  | message socket payload turn => exact .message s socket payload (hallowed _ turn)
  | hangUp socket turn => exact .hangUp s socket (hallowed _ turn)
  | close socket registered ended turn => exact .close s socket registered ended (hallowed _ turn)
  | change channel turn => exact .change s channel (hallowed _ turn)
  | emit channel turn => exact .emit s channel (hallowed _ turn)
  | read before after waiting waits unread turn =>
      exact .read s before after waiting waits unread (hallowed _ turn)
  | resume before after waiting snapshot overloaded waits answered turn =>
      exact .resume s before after waiting snapshot overloaded waits answered (hallowed _ turn)
  | reject before after waiting waits turn => exact .reject s before after waiting waits (hallowed _ turn)

end CkbDex.Realtime
