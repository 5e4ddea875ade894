import Mum.Client.Ready
import Mum.Client.Subscribers
import Mum.Network.PingCounters
import Mum.Network.VoicePackets
import Mum.State.ChannelTree
import Mum.State.Messages
import Mum.State.ReloadConfig

/-!
# What stops a task

A task that panics or never returns takes the daemon with it.  `Safe` is what each step of a
`System` needs for that not to happen, in terms of the state before it, and it is exactly
this.  The tasks that a `System` leaves out come in `Mum.Daemon.Faults`.

Most steps need nothing.  A command needs the tree of channels when it shows it or looks a
channel up by name, and our own user for a message to the channel that we are in.  A packet
needs what the unwraps of its handler rely on, and what the event that is resolved with it
tells to whoever waits.  No step needs that controllers have stayed since the one before.

## Strategy

First the functions of the state: `handleCommand` and `handlePacket` are cut at their binds,
and each unwrap gives one condition.  A step of a task is such a function followed by the
responses that it sends.  That these reach somebody is no condition, since `Ready` says that
whoever waits is still there; and `Joining`, that whoever waits for a login waits while we
connect.  So under these two invariants a step fails exactly where its function does.
-/

namespace Mum

open Library Library.Eval Library.ParentChain Msgs
open Mumlib (AudioConfig ChannelTarget Command MessageTarget Response)

/-! ## Commands -/

/-- The root is there, and the way from every channel to the top ends. -/
def Channels.Shown (channels : Channels) : Prop := 0 ∈ channels ∧ channels.PathsEnd

theorem ConnectedServer.channelName_returns_iff_pathsEnd {s : ConnectedServer}
    {toLowercase : String → String} {name : String} :
    Returns (s.channelName toLowercase name) ↔ s.channels.PathsEnd :=
  channelName_returns_iff.trans Channels.pathsEnd_iff.symm

theorem ConnectedServer.toMumlib_returns_iff {order : HashOrder} {s : ConnectedServer} :
    Returns (s.toMumlib order) ↔ s.channels.Shown := by
  exact (returns_bind_iff fun _ _ => ⟨_, rfl⟩).trans
    (intoChannel_returns_iff order s.channels s.users)

namespace State

variable {host : Host} {state : State} {s : ConnectedServer}

/-- The sounds that the configuration names can be read and played. -/
def LoadsSounds (host : Host) (state : State) : Prop :=
  ∀ soundEffects,
    (state.readConfig host).config.audio.bind AudioConfig.soundEffects = some soundEffects →
    ∀ event, ∃ data kind sound,
      host.sounds.decoded (overrideFor soundEffects event) = .ok (data, kind) ∧
      host.sounds.read kind data = .ok sound ∧ sound.2.Supported

theorem reloadConfig_returns : Returns (state.reloadConfig host) ↔ state.LoadsSounds host := by
  unfold reloadConfig LoadsSounds
  obtain ⟨hsame, -, houtput⟩ := applyVolumes_spec (state.readConfig host)
  dsimp only
  rw [hsame]
  cases (state.readConfig host).config.audio.bind AudioConfig.soundEffects with
  | none => exact iff_of_true (returns_ok _) fun _ h => nomatch h
  | some soundEffects =>
      rw [returns_bind_iff fun _ _ => returns_ok _, AudioOutput.loadSoundEffects_returns_iff,
        SoundHost.loadSoundEffects_returns_iff]
      simp only [SoundHost.samplesOf_returns_iff, Option.some.injEq, forall_eq']

/-- A channel is looked up by name before the message can be refused. -/
theorem not_pushChannels_returns {channels : List (ChannelTarget × Bool)} {name : String}
    {recursive : Bool} (hnamed : (.named name, recursive) ∈ channels)
    (hpaths : ¬ s.channels.PathsEnd) (msg : TextMessage) :
    ¬ Returns (pushChannels host s msg channels) := by
  induction channels generalizing msg with
  | nil => cases hnamed
  | cons target rest ih =>
      rintro ⟨result, h⟩
      obtain ⟨channel, recursive'⟩ := target
      unfold pushChannels at h
      obtain ⟨id, hid, h⟩ := bind_eq_ok.mp h
      cases channel with
      | named name' =>
          obtain ⟨found, hfound, -⟩ := bind_eq_ok.mp hid
          exact hpaths (ConnectedServer.channelName_returns_iff_pathsEnd.mp ⟨found, hfound⟩)
      | current =>
          obtain ⟨own, -, hid⟩ := bind_eq_ok.mp hid
          cases hid
          have hrest := (List.mem_cons.mp hnamed).resolve_left (by simp)
          exact ih hrest _ ⟨result, h⟩

/-- What a message needs of the server. -/
def SafeTargets (host : Host) (s : ConnectedServer) : MessageTarget → Prop
  | .channel channels =>
      (NamesChannel (.channel channels) → s.channels.PathsEnd) ∧
        (s.reachesCurrent host channels → s.KnowsOwnChannel)
  | .user _ => True

theorem sendMessage_returns_iff {message : String} {targets : MessageTarget} :
    Returns (state.sendMessage host s message targets) ↔ SafeTargets host s targets := by
  unfold sendMessage
  refine (returns_bind_iff fun msg _ => ?_).trans ?_
  · cases msg with
    | error e => exact returns_ok _
    | ok msg => exact returns_ok _
  cases targets with
  | user names => exact iff_of_true (returns_ok _) trivial
  | channel channels =>
      have hiff : (∀ name recursive, (.named name, recursive) ∈ channels →
          Returns (s.channelName host.toLowercase name)) →
          (Returns (pushChannels host s { message := some message } channels) ↔
            (s.reachesCurrent host channels → s.KnowsOwnChannel)) := by
        intro hnames
        rw [pushChannels_returns_iff hnames, ConnectedServer.currentChannel_returns_iff]
      by_cases hpaths : s.channels.PathsEnd
      · have hall := hiff fun _ _ _ => ConnectedServer.channelName_returns_iff_pathsEnd.mpr hpaths
        exact hall.trans (and_iff_right fun _ => hpaths).symm
      · by_cases hnamed : NamesChannel (.channel channels)
        · obtain ⟨name, recursive, hmem⟩ := hnamed
          exact iff_of_false (not_pushChannels_returns hmem hpaths _)
            fun h => hpaths (h.1 ⟨name, recursive, hmem⟩)
        · have hnone := hiff fun name recursive hmem => absurd ⟨name, recursive, hmem⟩ hnamed
          exact hnone.trans (and_iff_right fun h => absurd h hnamed).symm

/-- What a command needs. -/
def SafeCommand (host : Host) (state : State) : Command → Prop
  | .channelJoin _ => ∀ s ∈ state.server.connected?, s.channels.PathsEnd
  | .channelList | .status => ∀ s ∈ state.server.connected?, s.channels.Shown
  | .configReload => state.LoadsSounds host
  | .sendMessage _ targets => ∀ s ∈ state.server.connected?, SafeTargets host s targets
  | _ => True

/-- A command that asks something of a connected server only. -/
theorem returns_connected_iff {f : ConnectedServer → Eval Outcome} {P : ConnectedServer → Prop}
    (hf : ∀ s, state.server = .connected s → (Returns (f s) ↔ P s)) :
    Returns (match state.server with
      | .connected s => f s
      | _ => .ok (state.answer (.error .disconnected))) ↔
      ∀ s ∈ state.server.connected?, P s := by
  simp only [Server.mem_connected?]
  cases hserver : state.server with
  | connected s =>
      refine (hf s hserver).trans ⟨?_, fun h => h s rfl⟩
      rintro hP s' hs'
      cases hs'
      exact hP
  | connecting sb => exact iff_of_true (returns_ok _) fun s hs => by cases hs
  | disconnected => exact iff_of_true (returns_ok _) fun s hs => by cases hs

theorem returns_of_connected {f : ConnectedServer → Eval Outcome}
    (hf : ∀ s, state.server = .connected s → Returns (f s)) :
    Returns (match state.server with
      | .connected s => f s
      | _ => .ok (state.answer (.error .disconnected))) :=
  (returns_connected_iff fun s hserver => iff_of_true (hf s hserver) trivial).mpr
    fun _ _ => trivial

/-- Nothing that a sound does can fail. -/
theorem updateSelf_returns (action : Option (Bool × Bool))
    (response : UserState → Option Mumlib.CommandResponse) :
    Returns (state.updateSelf s action response) := by
  obtain ⟨audioOutput, -, houtcome⟩ := state.updateSelf_eq_ok s action response
  exact ⟨_, houtcome⟩

theorem serverDisconnect_returns (state : State) : Returns state.serverDisconnect := by
  refine (returns_bind_iff fun _ _ => returns_ok _).mpr ?_
  obtain ⟨audioOutput, hplay, -⟩ := State.playEffect_eq_ok
    (State.broadcastPhase { state with server := .disconnected } .disconnected) .serverDisconnect
  exact ⟨_, hplay⟩

/-- While we are connected, everybody has a name. -/
theorem pastMessages_returns (hserver : state.server = .connected s)
    (messages : List (Mumlib.NaiveDateTime × String × UInt32)) (buffer : _) :
    Returns ({ state with messageBuffer := buffer }.pastMessages messages) := by
  refine mapM_returns_iff.mpr fun message _ => (returns_bind_iff fun _ _ => ⟨_, rfl⟩).mpr ?_
  have hname : ({ state with messageBuffer := buffer }.getUserName message.2.2).isSome :=
    getUserName_isSome_iff.mpr (Server.kind_eq_connected.mpr ⟨s, hserver⟩)
  obtain ⟨user, huser⟩ := Option.isSome_iff_exists.mp hname
  exact ⟨user, unwrap_eq_ok.mpr huser⟩

end State

open State in
theorem handleCommand_returns_iff {host : Host} {state : State} {command : Command} :
    Returns (handleCommand host state command) ↔ state.SafeCommand host command := by
  cases command with
  | channelJoin name =>
      refine returns_connected_iff fun s _ => ?_
      rw [← ConnectedServer.channelName_returns_iff_pathsEnd]
      refine returns_bind_iff fun found _ => ?_
      cases found with
      | error e => exact ⟨_, rfl⟩
      | ok channel => exact ⟨_, rfl⟩
  | channelList =>
      exact returns_connected_iff fun s _ => (returns_bind_iff fun _ _ => ⟨_, rfl⟩).trans
        (intoChannel_returns_iff host.order s.channels s.users)
  | status =>
      exact returns_connected_iff fun s _ => (returns_bind_iff fun _ _ => ⟨_, rfl⟩).trans
        ConnectedServer.toMumlib_returns_iff
  | configReload => exact (returns_bind_iff fun _ _ => ⟨_, rfl⟩).trans reloadConfig_returns
  | sendMessage message targets => exact returns_connected_iff fun s _ => sendMessage_returns_iff
  | deafenSelf toggle =>
      exact iff_of_true (returns_of_connected fun s _ => updateSelf_returns _ _) trivial
  | muteSelf toggle =>
      exact iff_of_true (returns_of_connected fun s _ => updateSelf_returns _ _) trivial
  | muteOther username toggle =>
      exact iff_of_true (returns_of_connected fun s _ => returns_ok _) trivial
  | userVolumeSet username volume =>
      exact iff_of_true (returns_of_connected fun s _ => returns_ok _) trivial
  | serverDisconnect =>
      exact iff_of_true (returns_of_connected fun s _ => serverDisconnect_returns state) trivial
  | pastMessages block =>
      refine iff_of_true (returns_of_connected fun s hserver => ?_) trivial
      cases block with
      | true => exact returns_ok _
      | false =>
          refine (returns_bind_iff fun _ _ => ⟨_, rfl⟩).mpr ?_
          exact pastMessages_returns hserver state.messageBuffer []
  | serverConnect hostname port username password acceptInvalidCert =>
      refine iff_of_true ?_ trivial
      rw [handleCommand]
      split
      · exact returns_ok _
      · exact returns_ok _
  | events block =>
      refine iff_of_true ?_ trivial
      rw [handleCommand]
      split
      · exact returns_ok _
      · exact returns_ok _
  | inputVolumeSet | outputVolumeSet | ping | serverStatus => exact iff_of_true ⟨_, rfl⟩ trivial

/-! ## Packets -/

section Packets

variable {host : Host} {state : State} {listen : Listen}

/-- No counter of the packet has fallen, in a build that checks for overflow. -/
def Listen.SafePing (host : Host) (listen : Listen) (msg : Ping) : Prop :=
  host.overflowChecks → listen.lastLate ≤ msg.getLate ∧ listen.lastLost ≤ msg.getLost ∧
    listen.lastResync ≤ msg.getResync

theorem Host.checked_of_overflowChecks (h : host.overflowChecks) : host.checked = host := by
  cases host
  cases h
  rfl

theorem ping_returns {msg : Ping} :
    Returns (handlePacket host state listen (.ping msg)) ↔ listen.SafePing host msg := by
  unfold Listen.SafePing
  by_cases hchecks : host.overflowChecks
  · have hlast : listen.Holds
        ⟨some listen.lastLate, some listen.lastLost, some listen.lastResync⟩ := ⟨rfl, rfl, rfl⟩
    have hiff := @ping_returns_iff host state _ _ msg hlast
    rw [Host.checked_of_overflowChecks hchecks] at hiff
    exact hiff.trans ⟨fun h _ => h, fun h => h hchecks⟩
  · refine iff_of_true ?_ fun h => absurd h hchecks
    simp [handlePacket, subU32, addU32, hchecks]

/-- What the handler of a packet needs. -/
def State.SafePacket (host : Host) (state : State) (listen : Listen) : Clientbound → Prop
  | .udpTunnel (.audio sessionId _ payload) =>
      state.audioOutput.clientStreams.Decodes host.opus (.tcp, sessionId) payload
  | .ping msg => listen.SafePing host msg
  | packet => state.FitsPacket listen packet

theorem decodePacketPayload_returns_iff {output : AudioOutput F32} {opus : Opus F32}
    {streamType : VoiceStreamType} {sessionId : UInt32} {payload : VoicePacketPayload} :
    Returns (output.decodePacketPayload opus streamType sessionId payload) ↔
      output.clientStreams.Decodes opus (streamType, sessionId) payload :=
  (returns_bind_iff fun _ _ => returns_ok _).trans ClientStream.decodePacket_returns_iff

theorem handlePacket_returns_iff_safePacket {packet : Clientbound} :
    Returns (handlePacket host state listen packet) ↔ state.SafePacket host listen packet := by
  cases packet with
  | udpTunnel packet =>
      cases packet with
      | ping timestamp => exact iff_of_true (returns_ok _) trivial
      | audio sessionId seqNum payload =>
          exact (returns_bind_iff fun _ _ => returns_ok _).trans decodePacketPayload_returns_iff
  | ping msg => exact ping_returns
  | _ => exact handlePacket_returns_iff rfl

/-- The number of the next ping is a `u64`, in a build that checks for overflow. -/
def UdpSession.SafeTick (host : Host) (session : UdpSession) : Prop :=
  host.overflowChecks → session.lastPingRecv.toNat + 1 < UInt64.size

theorem tick_returns {session : UdpSession} {sent : Bool} :
    Returns (session.tick host state sent) ↔ session.SafeTick host := by
  unfold UdpSession.SafeTick
  by_cases hchecks : host.overflowChecks
  · have hiff := @tick_returns_iff host state session sent
    rw [Host.checked_of_overflowChecks hchecks] at hiff
    exact hiff.trans ⟨fun h _ => h, fun h => h hchecks⟩
  · refine iff_of_true ?_ fun h => absurd h hchecks
    simp [UdpSession.tick, addU64, hchecks]

end Packets

/-! ## A step -/

namespace System

variable {host : Host} {sys : System} {session : TcpSession} {packet : Clientbound}

/-- What the event of a packet needs. -/
def SafeEvent (sys : System) (listen : Listen) : Clientbound → Prop
  | .textMessage _ =>
      sys.eventQueue.listening .textMessage ≠ [] → sys.state.server.kind = .connected
  | .serverSync _ =>
      -- a crypt state may have to wait, and the event with it
      (listen.cryptStateSender → sys.cryptStates = []) →
        sys.eventQueue.unanswered .connected ≠ [] →
          ∀ sb, sys.state.server = .connecting sb → sb.channels.Shown
  | _ => True

/-- What a step needs. -/
def SafeLabel (host : Host) (sys : System) : Label → Prop
  | .command command => sys.state.SafeCommand host command
  | .tcp (.connect .ok) => ∀ info, sys.tcp = .connecting info → sys.state.server ≠ .disconnected
  | .tcp (.packet packet) => ∀ session, sys.tcp = .session session →
      sys.state.SafePacket host session.listen packet ∧ sys.SafeEvent session.listen packet
  | .udp (.packet (.audio sessionId _ payload)) => ∀ session, sys.udp = .session session →
      sys.state.audioOutput.clientStreams.Decodes host.opus (.udp, sessionId) payload
  | .udp (.tick _) => ∀ session, sys.udp = .session session → session.SafeTick host
  | _ => True

theorem some_ne_error_iff {x : Eval System} :
    (∀ fault, some x ≠ some (.error fault)) ↔ Returns x := by
  cases x with
  | ok sys => exact iff_of_true (by simp) (returns_ok sys)
  | error fault => exact iff_of_false (fun h => h fault rfl) (not_returns_error fault)

theorem sendResponses_returns (hopen : sys.mailbox.isOpen sys.requests)
    (responses : List Response) : Returns (sys.sendResponses responses) := by
  induction responses generalizing sys with
  | nil => exact returns_ok sys
  | cons response rest ih =>
      rw [sendResponses, if_pos hopen, Mailbox.send_of_isOpen hopen]
      exact ih hopen

theorem execute_returns (hopen : sys.mailbox.isOpen sys.requests) (context : ExecutionContext) :
    Returns (sys.execute host context) := by
  cases context with
  | tcpEventCallback => exact returns_ok _
  | tcpEventSubscriber => exact returns_ok _
  | now responses => exact sendResponses_returns hopen responses
  | ping hostname port =>
      rw [execute]
      split
      · exact returns_ok _
      · exact sendResponses_returns hopen _

theorem command_returns_iff (h : sys.Ready) {command : Command} :
    Returns (sys.command host command) ↔ sys.state.SafeCommand host command := by
  rw [← handleCommand_returns_iff]
  refine returns_bind_iff fun outcome _ => (returns_bind_iff fun _ _ => returns_ok _).mpr ?_
  refine execute_returns ?_ outcome.context
  exact h.isOpen_requests

/-- A packet is handled, and its event resolved unless the packet has to wait. -/
theorem listen_ne_error_iff :
    (∀ fault, sys.listen host session packet ≠ some (.error fault)) ↔
      ∃ handled, handlePacket host sys.state session.listen packet = .ok handled ∧
        (¬ (handled.cryptState.isSome ∧ sys.cryptStates ≠ []) → ∀ data ∈ handled.event,
          Returns (sys.eventQueue.resolve host handled.state sys.mailbox data)) := by
  unfold System.listen
  cases hhandled : handlePacket host sys.state session.listen packet with
  | error fault => exact iff_of_false (fun h => h fault rfl) (by simp)
  | ok handled =>
      simp only [Except.ok.injEq, exists_eq_left']
      by_cases hfull : handled.cryptState.isSome ∧ sys.cryptStates ≠ []
      · rw [if_pos hfull]
        exact iff_of_true (by simp) fun h => absurd hfull h
      · rw [if_neg hfull, some_ne_error_iff, forall_prop_of_true hfull]
        cases handled.event with
        | none => exact iff_of_true (returns_ok _) fun data hdata => by cases hdata
        | some data =>
            refine (returns_bind_iff fun _ _ => returns_ok _).trans ?_
            exact ⟨fun h _ hdata => by cases hdata; exact h, fun h => h data rfl⟩

/-- What a login tells about can be spelled out. -/
theorem connectResponse_returns_iff {state state' : State} {sb : ConnectingServer}
    {msg : ServerSync} (hserver : state.server = .connecting sb)
    (hsync : state.serverSync msg = .ok state') :
    Returns (connectResponse host state' (.connected (.ok msg))) ↔ sb.channels.Shown := by
  obtain ⟨audioOutput, hstate, -⟩ := State.serverSync_eq_ok hserver msg
  cases hstate.symm.trans hsync
  rw [connectResponse_of_connected rfl]
  exact (returns_bind_iff fun _ _ => returns_ok _).trans
    (ConnectedServer.toMumlib_returns_iff (s := sb.serverSync msg))

theorem serverSync_isSome_iff {listen : Listen} {state : State} {msg : ServerSync}
    {handled : Handled} (h : handlePacket host state listen (.serverSync msg) = .ok handled) :
    handled.cryptState.isSome ↔ listen.cryptStateSender := by
  rw [handlePacket] at h
  split at h
  next hsender =>
    obtain ⟨cryptState, -, h⟩ := bind_eq_ok.mp h
    obtain ⟨state', -, h⟩ := bind_eq_ok.mp h
    cases h
    exact iff_of_true rfl hsender
  next hsender =>
    obtain ⟨state', -, h⟩ := bind_eq_ok.mp h
    cases h
    exact iff_of_false (by simp) hsender

/-- Whoever waits for the login is told of the server that we were connecting to. -/
theorem Ready.safeEvent_serverSync (h : sys.Ready) (hjoining : sys.Joining) {msg : ServerSync}
    {handled : Handled}
    (hhandled : handlePacket host sys.state session.listen (.serverSync msg) = .ok handled) :
    (¬ (handled.cryptState.isSome ∧ sys.cryptStates ≠ []) →
        Returns (sys.eventQueue.resolve host handled.state sys.mailbox (.connected (.ok msg)))) ↔
      sys.SafeEvent session.listen (.serverSync msg) := by
  have hwaits : ¬ (handled.cryptState.isSome ∧ sys.cryptStates ≠ []) ↔
      (session.listen.cryptStateSender → sys.cryptStates = []) := by
    rw [serverSync_isSome_iff hhandled, not_and_not_right]
  rw [hwaits, h.resolve_returns_iff (by simp [TcpEventData.event])]
  have hsync := handlePacket_serverSync_eq_ok hhandled
  refine forall_congr' fun _ => forall_congr' fun hne => ?_
  obtain ⟨sb, hserver⟩ := Server.kind_eq_connecting.mp (hjoining.connecting hne)
  rw [connectResponse_returns_iff hserver hsync]
  constructor
  · rintro hshown sb' hserver'
    cases hserver.symm.trans hserver'
    exact hshown
  · exact fun hshown => hshown sb hserver

/-- A message has an author while we are connected. -/
theorem Ready.safeEvent_textMessage (h : sys.Ready) (host : Host) {listen : Listen}
    {msg : TextMessage} :
    Returns (sys.eventQueue.resolve host (sys.state.textMessage host msg) sys.mailbox
        (.textMessage msg)) ↔
      sys.SafeEvent listen (.textMessage msg) := by
  refine (TcpEventQueue.resolve_returns_iff h.queue.waiting_textMessage).trans ?_
  rw [messageResponse_returns_iff, State.server_textMessage]
  exact or_iff_not_imp_left

/-- What a packet needs. -/
theorem Ready.listen_ne_error_iff (h : sys.Ready) (hjoining : sys.Joining) :
    (∀ fault, sys.listen host session packet ≠ some (.error fault)) ↔
      sys.state.SafePacket host session.listen packet ∧ sys.SafeEvent session.listen packet := by
  rw [System.listen_ne_error_iff, ← handlePacket_returns_iff_safePacket]
  have hevent : ∀ handled, handlePacket host sys.state session.listen packet = .ok handled →
      ((¬ (handled.cryptState.isSome ∧ sys.cryptStates ≠ []) → ∀ data ∈ handled.event,
        Returns (sys.eventQueue.resolve host handled.state sys.mailbox data)) ↔
      sys.SafeEvent session.listen packet) := by
    intro handled hhandled
    rw [handlePacket_event hhandled]
    cases packet with
    | serverSync msg =>
        rw [← h.safeEvent_serverSync hjoining hhandled]
        exact forall_congr' fun _ => ⟨fun h => h _ rfl, fun h _ hdata => by cases hdata; exact h⟩
    | textMessage msg =>
        cases (show handlePacket host sys.state session.listen (.textMessage msg) = .ok _
          from rfl).symm.trans hhandled
        rw [← h.safeEvent_textMessage host]
        exact ⟨fun h => h (by simp) _ rfl, fun h _ _ hdata => by cases hdata; exact h⟩
    | reject msg =>
        refine iff_of_true (fun _ data hdata => ?_) trivial
        obtain ⟨-, hdata⟩ := Option.ite_none_right_eq_some.mp hdata
        cases hdata
        exact (h.resolve_returns_iff (by simp [TcpEventData.event])).mpr fun _ => ⟨_, rfl⟩
    | _ => exact iff_of_true (fun _ _ hdata => by cases hdata) trivial
  constructor
  · rintro ⟨handled, hhandled, hresolve⟩
    exact ⟨⟨handled, hhandled⟩, (hevent handled hhandled).mp hresolve⟩
  · rintro ⟨⟨handled, hhandled⟩, hsafe⟩
    exact ⟨handled, hhandled, (hevent handled hhandled).mpr hsafe⟩

theorem username_returns_iff : Returns (unwrap sys.state.username) ↔
    sys.state.server ≠ .disconnected := by
  unfold State.username
  cases sys.state.server with
  | disconnected => exact iff_of_false (not_returns_error _) fun h => h rfl
  | connecting sb => exact iff_of_true (returns_ok _) (by simp)
  | connected s => exact iff_of_true (returns_ok _) (by simp)

/-- All who wait are told of the end of a session. -/
theorem Ready.endSession_ne_error (h : sys.Ready) (state : State) (reason : DisconnectedReason)
    (fault : Fault) :
    System.endSession host { sys with state := state } reason ≠ .error fault := by
  obtain ⟨eventQueue, mailbox, hend⟩ := h.exists_endSession host state reason
  rw [hend]
  simp

/-- All other steps of the TCP task need nothing. -/
theorem Ready.tcpStep_ne_error (h : sys.Ready) {label : TcpLabel} (hconnect : label ≠ .connect .ok)
    (hpacket : ∀ packet, label ≠ .packet packet) (fault : Fault) :
    sys.tcpStep host label ≠ some (.error fault) := by
  have hend : ∀ state reason, some (System.endSession host { sys with state := state } reason) ≠
      some (.error fault) := fun state reason hfault =>
    h.endSession_ne_error state reason fault (Option.some.inj hfault)
  have hsession : ∀ {f : TcpSession → Option (Eval System)},
      (∀ session, f session ≠ some (.error fault)) → sys.inSession f ≠ some (.error fault) := by
    intro f hf hfault
    obtain ⟨session, -, hfault⟩ := inSession_eq_some.mp hfault
    exact hf session hfault
  cases label with
  | packet packet => exact absurd rfl (hpacket packet)
  | takeInfo =>
      simp only [tcpStep]
      split
      · split
        · simp
        · cases sys.connectionInfo.value <;> simp
      · simp
  | connect result =>
      simp only [tcpStep]
      split
      · cases result with
        | ok => exact absurd rfl hconnect
        | tlsConnectError => exact hend _ _
        | error => simp
      · simp
  | authenticate sent =>
      simp only [tcpStep]
      split
      · split <;> simp
      · simp
  | poll =>
      refine hsession fun session => ?_
      split
      · simp
      · simp
      · exact hend sys.state _
  | streamGone => exact hsession fun _ => hend _ _
  | invalidPacket => exact hsession fun _ => by simp
  | ping => exact hsession fun _ => by simp
  | voicePoll => exact hsession fun _ => by simp
  | voice frame => exact hsession fun _ => by split <;> simp
  | takePacket => exact hsession fun _ => by split <;> simp
  | packetSent sent =>
      refine hsession fun session => ?_
      split
      · simp
      · split
        · simp
        · exact hend sys.state _

theorem Ready.tcpStep_ne_error_iff (h : sys.Ready) (hjoining : sys.Joining) {label : TcpLabel} :
    (∀ fault, sys.tcpStep host label ≠ some (.error fault)) ↔ SafeLabel host sys (.tcp label) := by
  by_cases hconnect : label = .connect .ok
  · subst hconnect
    cases htcp : sys.tcp with
    | connecting info =>
        simp only [tcpStep, htcp, some_ne_error_iff]
        refine (returns_bind_iff fun _ _ => returns_ok _).trans ?_
        rw [username_returns_iff]
        exact ⟨fun h _ _ => h, fun h => h info htcp⟩
    | _ => exact iff_of_true (by simp [tcpStep, htcp]) (by simp [SafeLabel, htcp])
  · by_cases hpacket : ∃ packet, label = .packet packet
    · obtain ⟨packet, rfl⟩ := hpacket
      cases htcp : sys.tcp with
      | session session =>
          simp only [tcpStep, inSession, htcp, h.listen_ne_error_iff hjoining]
          exact ⟨fun h _ htcp' => by cases htcp.symm.trans htcp'; exact h, fun h => h session htcp⟩
      | _ => exact iff_of_true (by simp [tcpStep, inSession, htcp]) (by simp [SafeLabel, htcp])
    · refine iff_of_true (h.tcpStep_ne_error hconnect fun packet heq => hpacket ⟨packet, heq⟩) ?_
      cases label with
      | packet packet => exact absurd ⟨packet, rfl⟩ hpacket
      | connect result =>
          cases result with
          | ok => exact absurd rfl hconnect
          | _ => exact trivial
      | _ => exact trivial

theorem udpStep_ne_error_iff {label : UdpLabel} :
    (∀ fault, sys.udpStep host label ≠ some (.error fault)) ↔ SafeLabel host sys (.udp label) := by
  cases label with
  | packet packet =>
      cases hudp : sys.udp with
      | session session =>
          simp only [udpStep, hudp, some_ne_error_iff]
          refine (returns_bind_iff fun _ _ => returns_ok _).trans ?_
          cases packet with
          | ping timestamp => exact iff_of_true (returns_ok _) trivial
          | audio sessionId seqNum payload =>
              refine ((returns_bind_iff fun _ _ => returns_ok _).trans
                decodePacketPayload_returns_iff).trans ?_
              exact ⟨fun h _ _ => h, fun h => h session hudp⟩
      | _ =>
          refine iff_of_true (by simp [udpStep, hudp]) ?_
          cases packet with
          | ping timestamp => exact trivial
          | audio sessionId seqNum payload => simp [SafeLabel, hudp]
  | tick sent =>
      cases hudp : sys.udp with
      | session session =>
          simp only [udpStep, hudp, some_ne_error_iff]
          refine ((returns_bind_iff fun _ _ => returns_ok _).trans tick_returns).trans ?_
          exact ⟨fun h _ hudp' => by cases hudp.symm.trans hudp'; exact h, fun h => h session hudp⟩
      | _ => exact iff_of_true (by simp [udpStep, hudp]) (by simp [SafeLabel, hudp])
  | takeInfo =>
      refine iff_of_true (fun fault => ?_) trivial
      simp only [udpStep]
      split
      · split
        · simp
        · cases sys.connectionInfo.value <;> simp
      · simp
  | bind bound =>
      refine iff_of_true (fun fault => ?_) trivial
      simp only [udpStep]
      split
      · split <;> simp
      · simp
  | connect => exact iff_of_true (fun fault => by simp only [udpStep]; split <;> simp) trivial
  | poll =>
      refine iff_of_true (fun fault => ?_) trivial
      simp only [udpStep]
      split
      · split <;> simp
      · simp
  | newCryptState => exact iff_of_true (fun fault => by simp only [udpStep]; split <;> simp) trivial

/-- A step of these tasks neither panics nor runs for ever. -/
def NoFault (sys : System) (label : Host × Label) : Prop :=
  ∀ fault, sys.step label.1 label.2 ≠ some (.error fault)

/-- What a step needs is there. -/
def Safe (sys : System) (label : Host × Label) : Prop :=
  sys.running → SafeLabel label.1 sys label.2

theorem Ready.noFault_iff_safe (h : sys.Ready) (hjoining : sys.Joining) (label : Host × Label) :
    sys.NoFault label ↔ sys.Safe label := by
  obtain ⟨host, label⟩ := label
  unfold NoFault Safe
  by_cases hrunning : sys.running
  · rw [forall_prop_of_true hrunning]
    cases label with
    | command command =>
        simp only [System.step, hrunning, if_true, some_ne_error_iff]
        exact command_returns_iff h
    | controllerGone request =>
        refine iff_of_true (fun fault => ?_) trivial
        simp only [System.step]
        split <;> simp
    | tcp label =>
        simp only [System.step, hrunning, if_true]
        exact h.tcpStep_ne_error_iff hjoining
    | udp label =>
        simp only [System.step, hrunning, if_true]
        exact udpStep_ne_error_iff
  · refine iff_of_true (fun fault => ?_) fun h => absurd h hrunning
    cases label <;> simp [System.step, hrunning]

end System

end Mum
