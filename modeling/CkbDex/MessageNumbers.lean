import CkbDex.SubscriptionTables
import Mathlib.Data.List.Nodup

/-!
# The numbers of messages

Numbers are given when a handler goes on, snapshots are read before. Messages
are in the order of their snapshots as long as a handler goes on only when no
other one of its channel waits with an older snapshot.
-/
namespace CkbDex.Realtime

/-- The messages a socket was sent on a channel, the last one first. -/
def messagesOn (s : State) (socket : Socket) (channel : Channel) : List RealtimeMessage :=
  (s.received socket).filterMap fun
    | .message message => if message.channel = channel then some message else none
    | .error _ => none

/-- A handler goes on when no other of its channel holds an older snapshot. -/
def InOrder (_ : State) : Turn → Prop
  | .resume waiting others => ∀ other ∈ others, other.channel = waiting.channel →
      ∀ v, waiting.snapshot = some v → ∀ older, other.snapshot = some older → v ≤ older
  | _ => True

/-- Besides, every snapshot is answered. -/
def InOrderAnswered (s : State) (turn : Turn) : Prop :=
  InOrder s turn ∧ ∀ waiting, turn ≠ .reject waiting

/-- Sends a numbered message to some sockets. -/
def deliver (overloaded : Socket → Bool) (s : State) (type : MessageType) (channel : Channel)
    (snapshot : ℕ) (targets : List Socket) : State :=
  targets.foldl (sendToSocket overloaded ⟨type, channel, nextSequence s channel, snapshot⟩)
    (s.number channel)

section
variable {s t : State} {socket : Socket} {channel c : Channel} {overloaded : Socket → Bool}
  {message : RealtimeMessage} {type : MessageType} {snapshot : ℕ} {targets : List Socket}

theorem received_sendToSockets (hnodup : targets.Nodup) :
    (targets.foldl (sendToSocket overloaded message) s).received socket =
      if socket ∈ targets ∧ s.ready socket = true ∧ overloaded socket = false then
        .message message :: s.received socket
      else s.received socket := by
  induction targets generalizing s with
  | nil => simp
  | cons target targets ih =>
      obtain ⟨hnew, hnodup⟩ := List.nodup_cons.mp hnodup
      rw [List.foldl_cons, ih hnodup, sendToSocket]
      by_cases hsame : socket = target
      · subst hsame
        rw [if_neg (fun h => hnew h.1)]
        cases hready : s.ready socket <;> cases hover : overloaded socket <;>
          simp [State.push, State.terminate]
      · cases hready : s.ready target <;> cases hover : overloaded target <;>
          simp [State.push, State.terminate, hsame]

theorem ready_sendToSockets (targets : List Socket)
    (h : (targets.foldl (sendToSocket overloaded message) s).ready socket = true) :
    s.ready socket = true ∧ (socket ∈ targets → overloaded socket = false) := by
  induction targets generalizing s with
  | nil => exact ⟨h, nofun⟩
  | cons target targets ih =>
      rw [List.foldl_cons] at h
      obtain ⟨hready, hrest⟩ := ih h
      rw [sendToSocket] at hready
      split_ifs at hready with hnot hover
      · refine ⟨hready, fun hmem => ?_⟩
        rcases List.mem_cons.mp hmem with rfl | hmem
        · simp [hready] at hnot
        · exact hrest hmem
      · have hne : socket ≠ target := by
          rintro rfl
          simp [State.terminate] at hready
        simp only [State.terminate, Function.update_of_ne hne] at hready
        refine ⟨hready, fun hmem => hrest ((List.mem_cons.mp hmem).resolve_left hne)⟩
      · refine ⟨hready, fun hmem => ?_⟩
        rcases List.mem_cons.mp hmem with rfl | hmem
        · simpa using hover
        · exact hrest hmem

/-- A delivered message comes before the earlier ones of its channel. -/
theorem messagesOn_deliver (hnodup : targets.Nodup) :
    messagesOn (deliver overloaded s type channel snapshot targets) socket c =
      if c = channel ∧ socket ∈ targets ∧ s.ready socket = true ∧ overloaded socket = false then
        ⟨type, channel, nextSequence s channel, snapshot⟩ :: messagesOn s socket c
      else messagesOn s socket c := by
  unfold messagesOn deliver
  rw [received_sendToSockets hnodup]
  have hready : (s.number channel).ready = s.ready := rfl
  have hreceived : (s.number channel).received = s.received := rfl
  rw [hready, hreceived]
  by_cases htold : socket ∈ targets ∧ s.ready socket = true ∧ overloaded socket = false
  · rw [if_pos htold]
    by_cases hc : c = channel
    · subst hc
      simp [htold]
    · have hne : channel ≠ c := Ne.symm hc
      simp [hc, hne]
  · rw [if_neg htold, if_neg (fun h => htold h.2)]

theorem deliver_eq (overloaded : Socket → Bool) (s : State) (type : MessageType) (channel : Channel)
    (snapshot : ℕ) (targets : List Socket) :
    ∃ ready received, deliver overloaded s type channel snapshot targets =
      { s.number channel with ready, received } :=
  sendToSockets_eq _ _ _ _

theorem resume_subscribe_deliver {waiting : Waiting} {rest : List Channel}
    (h : waiting.handler = .subscribe socket rest) :
    resume overloaded s waiting snapshot =
      enterChannels (deliver overloaded s .snapshot waiting.channel snapshot [socket]) socket rest := by
  simp only [resume, h]
  rfl

theorem resume_emit_deliver {waiting : Waiting} {address : ℕ} (h : waiting.handler = .emit address) :
    resume overloaded s waiting snapshot =
      deliver overloaded s .update waiting.channel snapshot (s.sets address) := by
  simp only [resume, h]
  rfl

end

/-- Subscribers are found through the tables of channels, and a socket that was
never opened is nowhere. -/
structure Traced (s : State) : Prop where
  wired : Wired s
  nodup : ∀ address, (s.sets address).Nodup
  loops : ∀ waiting ∈ s.waiting, ∀ socket rest, waiting.handler = .subscribe socket rest →
    socket ∈ s.opened ∧ (s.ready socket = true → socket ∈ s.members waiting.channel)
  opened : ∀ address, ∀ socket ∈ s.sets address, socket ∈ s.opened
  registered : ∀ socket ∈ s.registered, socket ∈ s.opened
  unopened : ∀ socket, socket ∉ s.opened → s.ready socket = false ∧ s.received socket = []

/-- The messages of a channel have rising numbers and data, and what waits is
no older. -/
structure Ordered (s : State) : Prop where
  sorted : ∀ socket c, (messagesOn s socket c).Pairwise fun later earlier =>
    earlier.sequence < later.sequence ∧ earlier.data ≤ later.data
  past : ∀ socket c, ∀ message ∈ messagesOn s socket c, message.data ≤ s.projection c
  waits : ∀ waiting ∈ s.waiting, ∀ snapshot, waiting.snapshot = some snapshot →
    snapshot ≤ s.projection waiting.channel ∧
      ∀ socket, ∀ message ∈ messagesOn s socket waiting.channel, message.data ≤ snapshot
  numbered : ∀ socket c, s.ready socket = true → ∀ message ∈ messagesOn s socket c,
    socket ∈ s.members c ∧ message.sequence ≤ (s.sequenceByChannel c).getD 0

section
variable {s t : State} {socket : Socket} {channel c : Channel} {overloaded : Socket → Bool}
  {type : MessageType} {snapshot : ℕ} {targets : List Socket} {rest : List Channel}

theorem nodup_addTo {α : Type} [DecidableEq α] {set : List α} {a : α} (h : set.Nodup) :
    (addTo set a).Nodup := by
  unfold addTo
  split_ifs with hmem
  · exact h
  · exact List.Nodup.append h (List.nodup_singleton a) (by simpa using hmem)

theorem mem_members_enterChannel (h : Wired s) {other : Socket} :
    other ∈ (enterChannel s socket channel rest).members c ↔
      c = channel ∧ other = socket ∨ other ∈ s.members c := by
  rw [members_enterChannel h]
  split_ifs with hc
  · subst hc
    rw [mem_addTo]
    tauto
  · tauto

theorem Traced.enterChannel (h : Traced s) (hsocket : socket ∈ s.opened) :
    Traced (enterChannel s socket channel rest) := by
  have hsets : ∀ address other, other ∈ (Realtime.enterChannel s socket channel rest).sets address →
      other = socket ∨ other ∈ s.sets address := by
    intro address other hother
    simp only [Realtime.enterChannel] at hother
    by_cases haddress : address = s.setOf channel
    · subst haddress
      rw [Function.update_self, mem_addTo] at hother
      exact hother
    · rw [Function.update_of_ne haddress] at hother
      exact Or.inr hother
  refine ⟨h.wired.enterChannel, fun address => ?_, fun waiting hmem other rest' hhandler => ?_,
    fun address other hother => ?_, h.registered, h.unopened⟩
  · simp only [Realtime.enterChannel]
    by_cases haddress : address = s.setOf channel
    · subst haddress
      rw [Function.update_self]
      exact nodup_addTo (h.nodup _)
    · rw [Function.update_of_ne haddress]
      exact h.nodup address
  · rcases List.mem_append.mp hmem with hmem | hmem
    · obtain ⟨hopened, hready⟩ := h.loops waiting hmem other rest' hhandler
      exact ⟨hopened, fun hr => (mem_members_enterChannel h.wired).mpr (Or.inr (hready hr))⟩
    · obtain rfl := List.mem_singleton.mp hmem
      obtain ⟨rfl, -⟩ : socket = other ∧ rest = rest' := by simpa using hhandler
      exact ⟨hsocket, fun _ => (mem_members_enterChannel h.wired).mpr (Or.inl ⟨rfl, rfl⟩)⟩
  · rcases hsets address other hother with rfl | hold
    · exact hsocket
    · exact h.opened address other hold

theorem Ordered.enterChannel (h : Ordered s) (hwired : Wired s) :
    Ordered (enterChannel s socket channel rest) := by
  refine ⟨h.sorted, h.past, fun waiting hmem snapshot hsnapshot => ?_, fun other c hready message hmem => ?_⟩
  · rcases List.mem_append.mp hmem with hmem | hmem
    · exact h.waits waiting hmem snapshot hsnapshot
    · obtain rfl := List.mem_singleton.mp hmem
      cases hsnapshot
  · obtain ⟨hmember, hsequence⟩ := h.numbered other c hready message hmem
    exact ⟨(mem_members_enterChannel hwired).mpr (Or.inr hmember), hsequence⟩

/-- A message that is no older than those before it, and no newer than those
that wait. -/
theorem Ordered.deliver (h : Ordered s) (hnodup : targets.Nodup)
    (htargets : ∀ socket ∈ targets, s.ready socket = true → socket ∈ s.members channel)
    (hprojection : snapshot ≤ s.projection channel)
    (hpast : ∀ socket, ∀ message ∈ messagesOn s socket channel, message.data ≤ snapshot)
    (hwaits : ∀ waiting ∈ s.waiting, waiting.channel = channel → ∀ other,
      waiting.snapshot = some other → snapshot ≤ other) :
    Ordered (deliver overloaded s type channel snapshot targets) := by
  obtain ⟨ready, received, heq⟩ :=
    deliver_eq overloaded s type channel snapshot targets
  have hmessages : ∀ socket c, ∀ message ∈
      messagesOn (Realtime.deliver overloaded s type channel snapshot targets) socket c,
      message ∈ messagesOn s socket c ∨ c = channel ∧ message.data = snapshot ∧
        message.sequence = nextSequence s channel ∧ socket ∈ targets ∧ s.ready socket = true := by
    intro socket c message hmem
    rw [messagesOn_deliver hnodup] at hmem
    split_ifs at hmem with htold
    · rcases List.mem_cons.mp hmem with rfl | hmem
      · exact Or.inr ⟨htold.1, rfl, rfl, htold.2.1, htold.2.2.1⟩
      · exact Or.inl hmem
    · exact Or.inl hmem
  have hprojection' : (Realtime.deliver overloaded s type channel snapshot targets).projection =
      s.projection := by rw [heq]; rfl
  have hwaiting : (Realtime.deliver overloaded s type channel snapshot targets).waiting = s.waiting := by
    rw [heq]; rfl
  have hmembers : ∀ c, (Realtime.deliver overloaded s type channel snapshot targets).members c =
      s.members c := by
    intro c
    rw [heq]
    rfl
  have hsequence : (Realtime.deliver overloaded s type channel snapshot targets).sequenceByChannel =
      Function.update s.sequenceByChannel channel (some (nextSequence s channel)) := by rw [heq]; rfl
  refine ⟨fun socket c => ?_, fun socket c message hmem => ?_,
    fun waiting hmem other hother => ?_, fun socket c hready message hmem => ?_⟩
  · rw [messagesOn_deliver hnodup]
    split_ifs with htold
    · obtain ⟨rfl, -, hready, -⟩ := htold
      refine List.pairwise_cons.mpr ⟨fun earlier hearlier => ⟨?_, hpast socket earlier hearlier⟩,
        h.sorted socket c⟩
      exact Nat.lt_succ_of_le (h.numbered socket c hready earlier hearlier).2
    · exact h.sorted socket c
  · rw [hprojection']
    rcases hmessages socket c message hmem with hold | ⟨rfl, hdata, -⟩
    · exact h.past socket c message hold
    · exact hdata.trans_le hprojection
  · rw [hwaiting] at hmem
    obtain ⟨hle, hpast'⟩ := h.waits waiting hmem other hother
    rw [hprojection']
    refine ⟨hle, fun socket message hmessage => ?_⟩
    rcases hmessages socket _ message hmessage with hold | ⟨hchannel, hdata, -⟩
    · exact hpast' socket message hold
    · exact hdata.trans_le (hwaits waiting hmem hchannel other hother)
  · rw [hmembers, hsequence]
    have hready' : s.ready socket = true := (ready_sendToSockets targets hready).1
    rcases hmessages socket c message hmem with hold | ⟨rfl, -, hnumber, htarget, -⟩
    · obtain ⟨hmember, hle⟩ := h.numbered socket c hready' message hold
      refine ⟨hmember, ?_⟩
      by_cases hc : c = channel
      · subst hc
        rw [Function.update_self]
        exact hle.trans (Nat.le_succ _)
      · rw [Function.update_of_ne hc]
        exact hle
    · rw [Function.update_self]
      exact ⟨htargets socket htarget hready', hnumber.le⟩

end

end CkbDex.Realtime
