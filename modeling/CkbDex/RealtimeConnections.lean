import CkbDex.RealtimeClient

/-!
# The connections of the client

What both ends know of a connection: what was asked for on it, what the
broadcaster will show on it, and how far the client has read.
-/
namespace CkbDex.RealtimeClient
open Realtime

/-- What holds of the client's connections at both ends. -/
structure Linked (limits : RealtimeLimits) (s : System) : Prop where
  reached : Realtime.Runs limits InOrderAnswered State.initial s.server
  orderly : Orderly s.server
  dialled : ∀ socket, s.client.socket = some socket → socket ∈ s.dialled
  opened : ∀ socket, s.client.socket = some socket → s.client.isOpen = true → socket ∈ s.server.opened
  fresh : ∀ socket, socket ∉ s.dialled ∨ socket ∉ s.server.opened →
    s.requests socket = [] ∧ s.asked socket = ∅ ∧ s.read socket = []
  requests : ∀ socket, ∀ channels ∈ s.requests socket, channels ≠ [] ∧
    channels.length ≤ limits.maxChannelsPerMessage ∧
      ∀ c ∈ channels, isValidChannel c = true ∧ c ∈ s.asked socket
  ahead : ∀ socket ∈ s.dialled, channelsAhead s.server socket ⊆ s.asked socket
  read : ∀ socket, s.read socket <:+ s.server.received socket

section
variable {limits : RealtimeLimits} {s t : System} {u : State} {socket fresh : Socket}
  {channel c : Channel} {channels : List Channel} {onData : Listener}

theorem Linked.traced (h : Linked limits s) : Traced s.server :=
  (runs_ordered (fun _ _ hturn => hturn.1) h.reached).1

/-- A turn of the broadcaster keeps the connections, when the channels of a
socket were asked for. -/
theorem Linked.turn (h : Linked limits s) (hstep : Realtime.Step limits InOrderAnswered s.server u)
    (hahead : ∀ socket ∈ s.dialled, channelsAhead u socket ⊆ s.asked socket) :
    Linked limits { s with server := u } := by
  have htraced := h.traced
  refine ⟨h.reached.tail hstep, h.orderly.step htraced hstep, h.dialled,
    fun socket hsocket hopen => opened_step hstep (h.opened socket hsocket hopen), fun socket hnew => ?_,
    h.requests, hahead, fun socket => ?_⟩
  · exact h.fresh socket (hnew.imp_right fun hnot hold => hnot (opened_step hstep hold))
  · by_cases hopened : socket ∈ s.server.opened
    · have hkept : Kept s.server u socket :=
        .step htraced (fun _ hturn => hturn.2) hopened hstep
      exact (h.read socket).trans hkept.received
    · rw [(h.fresh socket (Or.inr hopened)).2.2]
      exact List.nil_suffix

theorem Linked.serve (h : Linked limits s) (hstep : Realtime.Step limits (fun state turn =>
    InOrderAnswered state turn ∧ Foreign s.dialled turn) s.server u) :
    Linked limits { s with server := u } := by
  apply h.turn (turn_mono (fun _ hturn => hturn.1) hstep)
  intro socket hdialled
  have hahead : channelsAhead u socket ⊆ channelsAhead s.server socket :=
    channelsAhead_step (fun _ hturn => hturn.2 hdialled) hstep
  exact hahead.trans (h.ahead socket hdialled)

theorem Linked.accept (h : Linked limits s) (ip : String) (hnew : socket ∉ s.server.opened) :
    Linked limits { s with server := Realtime.connect limits s.server socket ip } := by
  apply h.turn (.connect s.server socket ip hnew ⟨trivial, fun _ hturn => by cases hturn⟩)
  intro other hdialled
  have hstep : Realtime.Step limits (fun _ turn => ∃ socket ip, turn = .connect socket ip) s.server
      (Realtime.connect limits s.server socket ip) := .connect s.server socket ip hnew ⟨socket, ip, rfl⟩
  have hahead : channelsAhead (Realtime.connect limits s.server socket ip) other ⊆
      channelsAhead s.server other := by
    apply channelsAhead_step _ hstep
    intro payload hturn
    obtain ⟨_, _, heq⟩ := hturn
    cases heq
  exact hahead.trans (h.ahead other hdialled)

theorem channelsAhead_onMessage (u : State) (socket other : Socket) (channels : List Channel) :
    channelsAhead (onMessage limits u socket (.parsed (some (channels.map some)))) other ⊆
      channelsAhead u other ∪ if other = socket then channels.toFinset else ∅ := by
  rcases onMessage_eq limits u socket (channels.map some) with ⟨-, heq⟩ | ⟨-, received, heq⟩
  · rw [heq]
    apply channelsAhead_enterChannels.trans
    apply Finset.union_subset_union_right
    split_ifs
    · intro c hc
      simpa using hc
    · rfl
  · rw [heq]
    exact (channelsAhead_mono (t := { u with received := received }) rfl
      fun waiting hmem => Or.inl ⟨waiting, hmem, rfl⟩).trans Finset.subset_union_left

theorem Linked.arrive (h : Linked limits s) {later : List (List Channel)}
    (hfirst : s.requests socket = channels :: later) : Linked limits
      { s with
        requests := Function.update s.requests socket later
        server := onMessage limits s.server socket (.parsed (some (channels.map some))) } := by
  have hdialled : socket ∈ s.dialled := by
    by_contra hnot
    rw [(h.fresh socket (Or.inl hnot)).1] at hfirst
    cases hfirst
  have hfits := (h.requests socket channels (by rw [hfirst]; exact List.mem_cons_self)).2.2
  have hkept : ∀ other, ∀ request ∈ Function.update s.requests socket later other,
      request ∈ s.requests other := by
    intro other request hmem
    by_cases hsame : other = socket
    · subst hsame
      rw [Function.update_self] at hmem
      rw [hfirst]
      exact List.mem_cons_of_mem _ hmem
    · rwa [Function.update_of_ne hsame] at hmem
  have htaken : Linked limits { s with requests := Function.update s.requests socket later } := by
    refine ⟨h.reached, h.orderly, h.dialled, h.opened, fun other hnew => ?_,
      fun other request hmem => h.requests other request (hkept other request hmem), h.ahead, h.read⟩
    have hold := h.fresh other hnew
    refine ⟨List.eq_nil_iff_forall_not_mem.mpr fun request hmem => ?_, hold.2⟩
    have hmem' := hkept other request hmem
    rw [hold.1] at hmem'
    cases hmem'
  refine htaken.turn (.message s.server socket _ ⟨trivial, fun _ hturn => by cases hturn⟩) ?_
  intro other hother
  refine (channelsAhead_onMessage s.server socket other channels).trans
    (Finset.union_subset (h.ahead other hother) ?_)
  split_ifs with hsame
  · intro c hc
    rw [hsame]
    exact (hfits c (List.mem_toFinset.mp hc)).2
  · exact Finset.empty_subset _

theorem nodup_eraseDups {α : Type} [DecidableEq α] (as : List α) : as.eraseDups.Nodup := by
  induction hn : as.length using Nat.strong_induction_on generalizing as with
  | _ n ih =>
      cases as with
      | nil => exact List.nodup_nil
      | cons a as =>
          have hlt : (as.filter fun b => !b == a).length < n := by
            have := List.length_filter_le (fun b => !b == a) as
            rw [List.length_cons] at hn
            omega
          rw [List.eraseDups_cons, List.nodup_cons]
          exact ⟨by simp, ih _ hlt _ rfl⟩

/-- A request that comes to a socket the broadcaster holds open is accepted. -/
theorem Linked.accepted (h : Linked limits s)
    (hcapped : (s.asked socket).card ≤ limits.maxChannelsPerSocket)
    (hmem : channels ∈ s.requests socket) (hready : s.server.ready socket = true) :
    Accepted limits s.server socket (channels.map some) := by
  have hdialled : socket ∈ s.dialled := by
    by_contra hnot
    rw [(h.fresh socket (Or.inl hnot)).1] at hmem
    cases hmem
  obtain ⟨hsome, hfew, hfits⟩ := h.requests socket channels hmem
  refine ⟨?_, ?_, ?_, h.orderly.registered socket hready, ?_⟩
  · simpa using hsome
  · rwa [List.length_map]
  · intro channel hchannel
    obtain ⟨c, hc, rfl⟩ := List.mem_map.mp hchannel
    exact (hfits c hc).1
  · -- What the socket has and what is new to it was asked for.
    have hnew : ((channels.map some).filterMap id).filter (fun c => c ∉ s.server.owned socket) =
        channels.filter fun c => c ∉ s.server.owned socket := by simp
    have hnodup : (s.server.owned socket ++
        (channels.filter fun c => c ∉ s.server.owned socket).eraseDups).Nodup := by
      refine List.Nodup.append (h.orderly.nodup socket) (nodup_eraseDups _) fun c howned hc => ?_
      simpa [howned] using List.mem_eraseDups.mp hc
    rw [hnew, ← List.length_append, ← List.toFinset_card_of_nodup hnodup]
    refine (Finset.card_le_card fun c hc => ?_).trans hcapped
    rcases List.mem_append.mp (List.mem_toFinset.mp hc) with howned | hc
    · exact h.ahead socket hdialled (mem_channelsAhead.mpr (Or.inl howned))
    · exact (hfits c (List.mem_of_mem_filter (List.mem_eraseDups.mp hc))).2

theorem Linked.send (h : Linked limits s) (hvalid : ∀ c ∈ channels, isValidChannel c = true)
    (hfew : channels.length ≤ limits.maxChannelsPerMessage) :
    Linked limits (RealtimeClient.send s channels) := by
  cases hsocket : s.client.socket with
  | none => simpa only [RealtimeClient.send, hsocket] using h
  | some socket =>
      by_cases hsends : s.client.isOpen = true ∧ channels ≠ []
      · have hopened := h.opened socket hsocket hsends.1
        have hdialled := h.dialled socket hsocket
        rw [send_open hsocket hsends.1 hsends.2]
        refine ⟨h.reached, h.orderly, h.dialled, h.opened, fun other hnew => ?_,
          fun other request hmem => ?_, fun other hother => ?_, h.read⟩
        · have hne : other ≠ socket := by
            rintro rfl
            exact hnew.elim (fun hnot => hnot hdialled) fun hnot => hnot hopened
          simpa only [Function.update_of_ne hne] using h.fresh other hnew
        · by_cases hsame : other = socket
          · subst hsame
            simp only [Function.update_self] at hmem ⊢
            rcases List.mem_append.mp hmem with hmem | hmem
            · obtain ⟨hne, hlength, hfits⟩ := h.requests other request hmem
              exact ⟨hne, hlength, fun c hc =>
                ⟨(hfits c hc).1, Finset.mem_union_left _ (hfits c hc).2⟩⟩
            · obtain rfl := List.mem_singleton.mp hmem
              refine ⟨hsends.2, hfew, fun c hc => ⟨hvalid c hc, ?_⟩⟩
              exact Finset.mem_union_right _ (List.mem_toFinset.mpr hc)
          · simp only [Function.update_of_ne hsame] at hmem ⊢
            exact h.requests other request hmem
        · refine (h.ahead other hother).trans ?_
          by_cases hsame : other = socket
          · subst hsame
            simp
          · simp [hsame]
      · have hkept : RealtimeClient.send s channels = s := by
          simp only [RealtimeClient.send, hsocket]
          exact if_neg hsends
        rw [hkept]
        exact h

theorem Linked.of_client (h : Linked limits s) {client : Client} {last : Channel → Option ℕ}
    {heard : Channel → Listener → Option ℕ} {joined : Channel → Listener → Option (Socket × List Frame)}
    (hsocket : ∀ socket, client.socket = some socket → s.client.socket = some socket ∧
      (client.isOpen = true → s.client.isOpen = true ∨ socket ∈ s.server.opened)) :
    Linked limits { s with client, last, heard, joined } := by
  refine ⟨h.reached, h.orderly, fun socket hcurrent => h.dialled socket (hsocket socket hcurrent).1,
    fun socket hcurrent hopen => ?_, h.fresh, h.requests, h.ahead, h.read⟩
  rcases (hsocket socket hcurrent).2 hopen with hopen | hopened
  · exact h.opened socket (hsocket socket hcurrent).1 hopen
  · exact hopened

theorem Linked.connect (h : Linked limits s) (hunopened : fresh ∉ s.server.opened) :
    Linked limits (RealtimeClient.connect s fresh) := by
  refine ⟨h.reached, h.orderly, fun socket hsocket => ?_, fun socket _ hopen => ?_,
    fun socket hnew => h.fresh socket (hnew.imp_left List.not_mem_of_not_mem_cons), h.requests,
    fun socket hmem => ?_, h.read⟩
  · rw [← Option.some_inj.mp hsocket]
    exact List.mem_cons_self
  · cases hopen
  · rcases List.mem_cons.mp hmem with rfl | hmem
    · -- A socket that was not opened has no channels, nor handlers.
      intro c hc
      rw [mem_channelsAhead] at hc
      rcases hc with howned | ⟨waiting, hwaiting, hcome⟩
      · change c ∈ s.server.owned socket at howned
        rw [h.orderly.unopened socket hunopened] at howned
        cases howned
      · obtain ⟨rest, hhandler, -⟩ := mem_channelsToCome.mp hcome
        exact (hunopened (h.traced.loops waiting hwaiting socket rest hhandler).1).elim
    · exact h.ahead socket hmem

theorem Linked.addListener (h : Linked limits s) :
    Linked limits (RealtimeClient.addListener s channel onData) :=
  h.of_client fun _ hsocket => ⟨hsocket, Or.inl⟩

theorem Linked.subscribe (h : Linked limits s) (hunopened : fresh ∉ s.server.opened)
    (hmodest : Modest limits (RealtimeClient.subscribe s channel onData fresh)) :
    Linked limits (RealtimeClient.subscribe s channel onData fresh) := by
  have hmem : channel ∈ (RealtimeClient.addListener s channel onData).client.channels :=
    mem_addTo.mpr (Or.inl rfl)
  unfold RealtimeClient.subscribe at hmodest ⊢
  simp only at hmodest ⊢
  split_ifs at hmodest ⊢ with hnone hnew
  · exact h.addListener.connect hunopened
  · obtain ⟨requests, asked, heq⟩ := send_eq (RealtimeClient.addListener s channel onData) [channel]
    rw [heq] at hmodest
    refine h.addListener.send (fun c hc => ?_) ?_
    · rw [List.mem_singleton.mp hc]
      exact hmodest.valid channel hmem
    · exact (List.length_pos_of_mem hmem).trans_le hmodest.few
  · exact h.addListener

theorem Linked.unsubscribe (h : Linked limits s) :
    Linked limits (RealtimeClient.unsubscribe s channel onData) := by
  unfold RealtimeClient.unsubscribe
  simp only
  split_ifs
  · exact h.of_client fun _ hsocket => by cases hsocket
  · exact h.of_client fun _ hsocket => ⟨hsocket, Or.inl⟩

theorem Linked.onopen (h : Linked limits s) (hsocket : s.client.socket = some socket)
    (hopened : socket ∈ s.server.opened) (hmodest : Modest limits (RealtimeClient.onopen s)) :
    Linked limits (RealtimeClient.onopen s) := by
  have hopen : Linked limits { s with client := { s.client with isOpen := true, retry := 0 } } := by
    refine h.of_client fun other hother => ⟨hother, fun _ => Or.inr ?_⟩
    rwa [Option.some_inj.mp (hother.symm.trans hsocket)]
  obtain ⟨requests, asked, heq⟩ :=
    send_eq { s with client := { s.client with isOpen := true, retry := 0 } } s.client.channels
  unfold RealtimeClient.onopen at hmodest ⊢
  rw [heq] at hmodest
  exact hopen.send hmodest.valid hmodest.few

theorem Linked.onclose (h : Linked limits s) : Linked limits (RealtimeClient.onclose s) := by
  unfold RealtimeClient.onclose
  split_ifs
  · exact h.of_client fun _ hsocket => by cases hsocket
  · exact h.of_client fun _ hsocket => by cases hsocket

theorem Linked.onmessage (h : Linked limits s) (hsocket : s.client.socket = some socket)
    (hopen : s.client.isOpen = true) {frame : Frame} {later : List Frame}
    (hnext : s.server.received socket = later ++ frame :: s.read socket) :
    Linked limits (RealtimeClient.onmessage s socket frame) := by
  have hread : Linked limits { s with read := Function.update s.read socket (frame :: s.read socket) } := by
    refine ⟨h.reached, h.orderly, h.dialled, h.opened, fun other hnew => ?_, h.requests, h.ahead,
      fun other => ?_⟩
    · have hne : other ≠ socket := by
        rintro rfl
        exact hnew.elim (fun hnot => hnot (h.dialled other hsocket))
          fun hnot => hnot (h.opened other hsocket hopen)
      simpa only [Function.update_of_ne hne] using h.fresh other hnew
    · by_cases hsame : other = socket
      · subst hsame
        simp only [Function.update_self, hnext]
        exact List.suffix_append _ _
      · simp only [Function.update_of_ne hsame]
        exact h.read other
  cases frame with
  | error text => exact hread
  | message message =>
      simp only [RealtimeClient.onmessage]
      split_ifs
      · exact hread
      · exact hread.of_client fun _ hcurrent => ⟨hcurrent, Or.inl⟩

theorem Linked.step (h : Linked limits s) (hmodest : Modest limits t) (hstep : Step limits s t) :
    Linked limits t := by
  cases hstep with
  | serve u turn => exact h.serve turn
  | accept socket ip dialled new => exact h.accept ip new
  | arrive socket channels later first => exact h.arrive first
  | subscribe channel onData fresh undialled unopened => exact h.subscribe unopened hmodest
  | unsubscribe channel onData listens => exact h.unsubscribe
  | opened socket current connecting accepted => exact h.onopen current accepted hmodest
  | deliver socket frame later current isOpen next => exact h.onmessage current isOpen next
  | lost socket current => exact h.onclose
  | reconnect fresh delay timer undialled unopened => exact h.connect unopened

end

end CkbDex.RealtimeClient
