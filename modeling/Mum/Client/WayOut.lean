import Mum.Client.Faults
import Mum.Client.VoiceKeys

/-!
# The ways out of `Connecting`

While the daemon connects, a login is the only way out: `ServerDisconnect` is refused.
A login needs a TCP task that works for the server, or is yet to take its connection
info.  It also needs room for one crypt state, since the first `ServerSync` of a session
waits until its crypt state is on the channel; if the crypt state of an earlier session
is still there, it needs a UDP task that will take it.

`Stuck` and `Blocked` are the states in which the one or the other is missing for good.
In all others there is a way: `CanReach` follows the tasks up to the login, and the
packets that the server may send for it.

That there is none is an invariant again (`NoWayOut.step`).  That there is one otherwise is
a schedule in five stages, each a lemma from one kind of state to the next:

1. `canReach_arrived`: the TCP task gets to a session for the server;
2. `canReach_seated`: the UDP task makes room on the channel of crypt states;
3. `canReach_removed` and `canReach_shown`: the server sends a tree of channels that can be
   shown;
4. `canReach_keyed`: the keys come;
5. `Seated.login`: the `ServerSync`, whose unwraps find what they need.

`Underway` is what all of them keep, and it is kept by every step of the two tasks
(`Underway.step`), so that a stage says only what it changes.
-/

namespace Mum

open Library Library.Eval Library.ParentChain Msgs
open Mumlib (Command)

namespace System

variable {host : Host} {label : Label} {sys sys' : System}

/-! ## Where there is no way -/

/-- A crypt state is in the way: the UDP task will not take it, and whatever session logs
in next has to put another one on the channel first. -/
structure Blocked (sys : System) : Prop where
  full : sys.cryptStates ≠ []
  udp : sys.udp = .waiting
  seen : sys.connectionInfo.version = sys.udpSeen
  sender : ∀ session, sys.tcp = .session session → session.listen.cryptStateSender

theorem Blocked.not_udp (h : sys.Blocked) {udp : UdpLabel} :
    ¬ Step sys (host, .udp udp) sys' := by
  intro hstep
  obtain ⟨-, hstep⟩ := Option.ite_none_right_eq_some.mp (step_eq_ok hstep)
  have hnone : sys.udpStep host udp = none := by
    cases udp <;> simp [udpStep, h.udp, h.seen]
  cases hnone.symm.trans hstep

/-- The `ServerSync` of the session waits. -/
theorem Blocked.not_serverSync (h : sys.Blocked) {msg : ServerSync} :
    ¬ Step sys (host, .tcp (.packet (.serverSync msg))) sys' := by
  intro hstep
  obtain ⟨-, hstep⟩ := Option.ite_none_right_eq_some.mp (step_eq_ok hstep)
  obtain ⟨session, htcp, hlisten⟩ := inSession_eq_some.mp hstep
  unfold listen at hlisten
  split at hlisten
  · cases hlisten
  next handled hhandled =>
    have hsender : session.listen.cryptStateSender = true := h.sender session htcp
    rw [handlePacket, if_pos hsender] at hhandled
    obtain ⟨cryptState, -, hhandled⟩ := bind_eq_ok.mp hhandled
    obtain ⟨state', -, hhandled⟩ := bind_eq_ok.mp hhandled
    cases hhandled
    rw [if_pos ⟨rfl, h.full⟩] at hlisten
    cases hlisten

/-- While we connect, no connection info is published. -/
theorem connectionInfo_of_connecting {state : State} {command : Command} {outcome : Outcome}
    (hconnecting : state.server.kind = .connecting)
    (h : handleCommand host state command = .ok outcome) : outcome.connectionInfo = none := by
  cases handleCommand_cases h with
  | keeps hstate hinfo => exact hinfo
  | mutes hserver | disconnects hserver | connects hserver =>
      rw [hserver] at hconnecting
      cases hconnecting

theorem Blocked.step_tcp (h : sys.Blocked) {label : TcpLabel} (hcase : TcpCase host sys label sys')
    (hpacket : ∀ packet, label ≠ .packet packet) : sys'.Blocked := by
  refine ⟨?_, ?_, ?_, fun session htcp' => ?_⟩
  · cases hcase with
    | packet => exact absurd rfl (hpacket _)
    | _ => exact h.full
  · cases hcase with
    | _ => exact h.udp
  · cases hcase with
    | _ => exact h.seen
  · cases hcase with
    | packet => exact absurd rfl (hpacket _)
    | authenticate =>
        cases htcp'
        rfl
    | seen htcp | voicePoll htcp | takePacket htcp | packetSent htcp =>
        have hsender := h.sender _ htcp
        cases htcp'
        exact hsender
    | ignoreInfo | invalidPacket | ping | voice | connectError | authenticateError =>
        exact h.sender session htcp'
    | takeInfo | connect | tlsConnectError | stopped | streamGone | sendError => cases htcp'

theorem Blocked.step_packet (h : sys.Blocked) {packet : Clientbound}
    (hne : ∀ msg, packet ≠ .serverSync msg) (hstep : Step sys (host, .tcp (.packet packet)) sys') :
    sys'.Blocked := by
  obtain ⟨-, hstep⟩ := Option.ite_none_right_eq_some.mp (step_eq_ok hstep)
  obtain ⟨session, htcp, hlisten⟩ := inSession_eq_some.mp hstep
  obtain ⟨handled, eventQueue, mailbox, hhandled, rfl⟩ := listen_eq_ok hlisten
  refine ⟨List.append_ne_nil_of_left_ne_nil h.full _, h.udp, h.seen, fun session' htcp' => ?_⟩
  cases htcp'
  rcases cryptState_handlePacket hhandled with ⟨-, hsame⟩ | ⟨⟨msg, heq⟩, -, -⟩
  · rw [hsame]
    exact h.sender session htcp
  · exact absurd heq (hne msg)

theorem Blocked.step (h : sys.Blocked) (hconnecting : sys.state.server.kind = .connecting)
    (hstep : Step sys (host, label) sys') :
    sys'.Blocked ∧ sys'.state.server.kind = .connecting := by
  rcases connecting_step hstep hconnecting with hkind | ⟨msg, rfl⟩
  · refine ⟨?_, hkind⟩
    by_cases hpacket : ∃ packet, label = .tcp (.packet packet)
    · obtain ⟨packet, rfl⟩ := hpacket
      refine h.step_packet ?_ hstep
      rintro msg rfl
      exact h.not_serverSync hstep
    · cases step_cases hstep with
      | command houtcome =>
          rw [connectionInfo_of_connecting hconnecting houtcome]
          exact ⟨h.full, h.udp, h.seen, h.sender⟩
      | controllerGone => exact ⟨h.full, h.udp, h.seen, h.sender⟩
      | tcp hcase => exact h.step_tcp hcase fun packet heq => hpacket ⟨packet, heq ▸ rfl⟩
      | udp => exact absurd hstep h.not_udp
  · exact absurd hstep h.not_serverSync

/-- Nothing leads out of these states, nor goes on when `client::handle` has returned. -/
def NoWayOut (sys : System) : Prop :=
  ¬ sys.running ∨ sys.view.Stuck ∨ sys.Blocked

theorem NoWayOut.step (h : sys.NoWayOut) (hconnecting : sys.state.server.kind = .connecting)
    (hstep : Step sys (host, label) sys') :
    sys'.NoWayOut ∧ sys'.state.server.kind = .connecting := by
  rcases h with hrunning | hstuck | hblocked
  · exact absurd (running_of_step hstep) hrunning
  · have hstuck' := hstuck.step (step_view hstep)
    exact ⟨.inr (.inl hstuck'), hstuck'.server⟩
  · obtain ⟨hblocked', hkind⟩ := hblocked.step hconnecting hstep
    exact ⟨.inr (.inr hblocked'), hkind⟩

/-! ## Up to a session -/

/-- A step that no controller asks for. -/
def TaskStep (sys : System) (label : Host × Label) (sys' : System) : Prop :=
  Step sys label sys' ∧ ∀ command, label.2 ≠ .command command

theorem taskStep_of_tcpStep (hrunning : sys.running) {label : TcpLabel}
    (h : sys.tcpStep host label = some (.ok sys')) : TaskStep sys (host, .tcp label) sys' :=
  ⟨by simp only [Step, next, step, hrunning, if_true, h], by simp⟩

theorem taskStep_of_udpStep (hrunning : sys.running) {label : UdpLabel}
    (h : sys.udpStep host label = some (.ok sys')) : TaskStep sys (host, .udp label) sys' :=
  ⟨by simp only [Step, next, step, hrunning, if_true, h], by simp⟩

variable {session : TcpSession} {sb sb' : ConnectingServer}

/-- A daemon that is connecting. -/
structure Underway (sys : System) (sb : ConnectingServer) : Prop where
  running : sys.running
  ready : sys.Ready
  server : sys.state.server = .connecting sb

theorem Underway.connecting (h : sys.Underway sb) : sys.state.server.kind = .connecting :=
  Server.kind_eq_connecting.mpr ⟨sb, h.server⟩

/-- The channel for crypt states is empty, or the UDP task will come for it. -/
def Room (sys : System) : Prop :=
  sys.cryptStates = [] ∨ sys.udp ≠ .waiting ∨ sys.connectionInfo.version ≠ sys.udpSeen

theorem Underway.step (h : sys.Underway sb) (hstep : TaskStep sys (host, label) sys')
    (hrunning : sys'.running = sys.running) (hstate : sys'.state = sys.state) :
    sys'.Underway sb :=
  ⟨hrunning ▸ h.running, h.ready.step hstep.1, hstate ▸ h.server⟩

/-- A session that there will be room for. -/
structure Arrived (sb : ConnectingServer) (sys : System) : Prop extends sys.Underway sb where
  room : sys.Room
  session : ∃ session, sys.tcp = .session session

theorem canReach_of_authenticating (host : Host) (h : sys.Underway sb) (hroom : sys.Room)
    {msg : Authenticate} (htcp : sys.tcp = .authenticating msg) :
    CanReach TaskStep (Arrived sb) sys := by
  have hstep : TaskStep sys (host, .tcp (.authenticate true)) _ :=
    taskStep_of_tcpStep h.running (by simp only [tcpStep, htcp, if_true]; rfl)
  exact .cons hstep (.here ⟨h.step hstep rfl rfl, hroom, _, rfl⟩)

theorem canReach_of_connecting (host : Host) (h : sys.Underway sb) (hroom : sys.Room)
    {info : ConnectionInfo} (htcp : sys.tcp = .connecting info) :
    CanReach TaskStep (Arrived sb) sys := by
  have husername : sys.state.username = some sb.username := by rw [State.username, h.server]
  have hstep : TaskStep sys (host, .tcp (.connect .ok)) _ :=
    taskStep_of_tcpStep h.running (by
      simp only [tcpStep, htcp, husername, unwrap_some, ok_bind]
      rfl)
  exact .cons hstep (canReach_of_authenticating host (h.step hstep rfl rfl) hroom rfl)

/-- A daemon that is not stuck gets to a session. -/
theorem canReach_arrived (host : Host) (h : sys.Underway sb) (hroom : sys.Room)
    (hstuck : ¬ sys.view.Stuck) : CanReach TaskStep (Arrived sb) sys := by
  cases htcp : sys.tcp with
  | session session => exact .here ⟨h, hroom, session, htcp⟩
  | authenticating msg => exact canReach_of_authenticating host h hroom htcp
  | connecting info => exact canReach_of_connecting host h hroom htcp
  | waiting =>
      have hunseen : sys.connectionInfo.version ≠ sys.tcpSeen := by
        intro heq
        exact hstuck ⟨h.connecting, TcpTask.kind_eq_waiting.mpr htcp, by simp [view, heq]⟩
      obtain ⟨info, hinfo⟩ := h.ready.exists_info h.ready.tcpSeen hunseen
      have hstep : TaskStep sys (host, .tcp .takeInfo) _ :=
        taskStep_of_tcpStep h.running (by simp only [tcpStep, htcp, if_neg hunseen, hinfo]; rfl)
      exact .cons hstep (canReach_of_connecting host (h.step hstep rfl rfl) hroom rfl)

/-! ## Up to the login -/

/-- A session of a daemon that is connecting, with room for the crypt state that it is
yet to send. -/
structure Seated (sys : System) (session : TcpSession) (sb : ConnectingServer) : Prop
    extends sys.Underway sb where
  tcp : sys.tcp = .session session
  room : session.listen.cryptStateSender → sys.cryptStates = []

/-- A UDP session takes all crypt states that are there. -/
theorem canReach_of_udpSession (host : Host) (h : sys.Underway sb)
    (htcp : sys.tcp = .session session) {udp : UdpSession} (hudp : sys.udp = .session udp) :
    CanReach TaskStep (fun sys' => sys'.Seated session sb) sys := by
  induction hcrypt : sys.cryptStates generalizing sys with
  | nil => exact .here ⟨h, htcp, fun _ => hcrypt⟩
  | cons cryptState rest ih =>
      have hstep : TaskStep sys (host, .udp .newCryptState) _ :=
        taskStep_of_udpStep h.running (by simp only [udpStep, hudp, hcrypt]; rfl)
      exact .cons hstep (ih (h.step hstep rfl rfl) htcp rfl rfl)

theorem canReach_of_udpConnecting (host : Host) (h : sys.Underway sb)
    (htcp : sys.tcp = .session session) {info : ConnectionInfo}
    (hudp : sys.udp = .connecting info) (hfull : sys.cryptStates ≠ []) :
    CanReach TaskStep (fun sys' => sys'.Seated session sb) sys := by
  obtain ⟨cryptState, rest, hcrypt⟩ := List.exists_cons_of_ne_nil hfull
  have hstep : TaskStep sys (host, .udp .connect) _ :=
    taskStep_of_udpStep h.running (by simp only [udpStep, hudp, hcrypt]; rfl)
  exact .cons hstep (canReach_of_udpSession host (h.step hstep rfl rfl) htcp rfl)

theorem canReach_of_udpBinding (host : Host) (h : sys.Underway sb)
    (htcp : sys.tcp = .session session) {info : ConnectionInfo}
    (hudp : sys.udp = .binding info) (hfull : sys.cryptStates ≠ []) :
    CanReach TaskStep (fun sys' => sys'.Seated session sb) sys := by
  have hstep : TaskStep sys (host, .udp (.bind true)) _ :=
    taskStep_of_udpStep h.running (by simp only [udpStep, hudp, if_true]; rfl)
  exact .cons hstep (canReach_of_udpConnecting host (h.step hstep rfl rfl) htcp rfl hfull)

/-- The UDP task makes room. -/
theorem canReach_seated (host : Host) (h : sys.Underway sb) (hroom : sys.Room)
    (htcp : sys.tcp = .session session) :
    CanReach TaskStep (fun sys' => sys'.Seated session sb) sys := by
  by_cases hfull : sys.cryptStates = []
  · exact .here ⟨h, htcp, fun _ => hfull⟩
  · cases hudp : sys.udp with
    | session udp => exact canReach_of_udpSession host h htcp hudp
    | connecting info => exact canReach_of_udpConnecting host h htcp hudp hfull
    | binding info => exact canReach_of_udpBinding host h htcp hudp hfull
    | waiting =>
        have hunseen : sys.connectionInfo.version ≠ sys.udpSeen :=
          (hroom.resolve_left hfull).resolve_left (not_not_intro hudp)
        obtain ⟨info, hinfo⟩ := h.ready.exists_info h.ready.udpSeen hunseen
        have hstep : TaskStep sys (host, .udp .takeInfo) _ :=
          taskStep_of_udpStep h.running (by simp only [udpStep, hudp, if_neg hunseen, hinfo]; rfl)
        exact .cons hstep
          (canReach_of_udpBinding host (h.step hstep rfl rfl) htcp rfl hfull)

/-- A packet that brings no event and no crypt state. -/
theorem step_quietPacket (h : sys.Seated session sb) {packet : Clientbound} {state : State}
    {listen : Listen}
    (hhandled : handlePacket host sys.state session.listen packet =
      .ok { state := state, listen := listen }) :
    TaskStep sys (host, .tcp (.packet packet)) { sys with
      state := state
      tcp := .session { session with listen := listen } } := by
  refine taskStep_of_tcpStep h.running ?_
  simp [tcpStep, inSession, h.tcp, System.listen, hhandled]

theorem Seated.packet (h : sys.Seated session sb) {packet : Clientbound} {state : State}
    {listen : Listen}
    (hhandled : handlePacket host sys.state session.listen packet =
      .ok { state := state, listen := listen })
    (hserver : state.server = .connecting sb')
    (hsender : listen.cryptStateSender = session.listen.cryptStateSender) :
    ∃ sys', TaskStep sys (host, .tcp (.packet packet)) sys' ∧
      sys'.Seated { session with listen := listen } sb' :=
  have hstep := step_quietPacket h hhandled
  ⟨_, hstep, ⟨h.running, h.ready.step hstep.1, hserver⟩, rfl, fun h' => h.room (hsender ▸ h')⟩

theorem Seated.channelRemove (host : Host) (h : sys.Seated session sb) (msg : ChannelRemove) :
    ∃ sys', TaskStep sys (host, .tcp (.packet (.channelRemove msg))) sys' ∧
      sys'.Seated session (sb.channelRemove msg) :=
  h.packet (by rw [handlePacket, State.channelRemove, h.server]) rfl rfl

theorem Seated.channelState (host : Host) (h : sys.Seated session sb) (msg : ChannelState) :
    ∃ sys', TaskStep sys (host, .tcp (.packet (.channelState msg))) sys' ∧
      sys'.Seated session (sb.channelState msg) :=
  h.packet (by rw [handlePacket, State.channelState, h.server]) rfl rfl

/-- The same login, whatever is known of the channels and the users. -/
def SameLogin (sb sb' : ConnectingServer) : Prop :=
  sb'.host = sb.host ∧ sb'.username = sb.username

/-- The server may remove any channels. -/
theorem canReach_removed (host : Host) (ids : List UInt32) (h : sys.Seated session sb) :
    CanReach TaskStep (fun sys' => ∃ sb', sys'.Seated session sb' ∧ SameLogin sb sb' ∧
      ∀ id ∈ sb'.channels, id ∈ sb.channels ∧ id ∉ ids) sys := by
  induction ids generalizing sys sb with
  | nil => exact .here ⟨sb, h, ⟨rfl, rfl⟩, fun id hid => ⟨hid, List.not_mem_nil⟩⟩
  | cons first rest ih =>
      obtain ⟨sys', hstep, h'⟩ := h.channelRemove host { channelId := some first }
      refine .cons hstep ((ih h').trans ?_)
      rintro sys'' ⟨sb', h'', hsame, hgone⟩
      refine .here ⟨sb', h'', hsame, fun id hid => ?_⟩
      obtain ⟨hold, hnot⟩ := hgone id hid
      have herased : id ∈ sb.channels.erase first := hold
      rw [AList.mem_erase] at herased
      exact ⟨herased.2, fun hmem => (List.mem_cons.mp hmem).elim herased.1 hnot⟩

/-- A root alone. -/
theorem shown_channelState (hempty : ∀ id, sb.channels.lookup id = none) :
    (sb.channelState { channelId := some 0 }).channels.Shown := by
  have hlookup : ∀ id, (sb.channelState { channelId := some 0 }).channels.lookup id =
      if id = 0 then some (Channel.new { channelId := some 0 }) else none := by
    intro id
    refine (HashMap.lookup_upsert ..).trans ?_
    rw [hempty, hempty]
    rfl
  have hroot : ∀ id ∈ (sb.channelState { channelId := some 0 }).channels, id = 0 := by
    intro id hid
    obtain ⟨channel, hchannel⟩ := HashMap.mem_iff_lookup.mp hid
    rw [hlookup] at hchannel
    by_contra hne
    rw [if_neg hne] at hchannel
    cases hchannel
  refine ⟨HashMap.mem_iff_lookup.mpr ⟨_, (hlookup 0).trans (if_pos rfl)⟩, fun id hid => ?_⟩
  rw [hroot id hid]
  exact ⟨[], 0, .top (Channels.parentOf_eq_some.mpr ⟨_, (hlookup 0).trans (if_pos rfl), rfl⟩)⟩

/-- Whatever channels there are, the server may replace them by a root. -/
theorem canReach_shown (host : Host) (h : sys.Seated session sb) :
    CanReach TaskStep (fun sys' => ∃ sb', sys'.Seated session sb' ∧ SameLogin sb sb' ∧
      sb'.channels.Shown) sys := by
  refine (canReach_removed host sb.channels.keys h).trans ?_
  rintro sys' ⟨sb', h', hsame, hgone⟩
  obtain ⟨sys'', hstep, h''⟩ := h'.channelState host { channelId := some 0 }
  refine .cons hstep (.here ⟨_, h'', hsame, shown_channelState fun id => ?_⟩)
  refine AList.lookup_eq_none.mpr fun hid => ?_
  obtain ⟨hold, hnot⟩ := hgone id hid
  exact hnot (AList.mem_keys.mpr hold)

/-- The server may send keys. -/
theorem canReach_keyed (host : Host) (h : sys.Seated session sb) :
    CanReach TaskStep (fun sys' => ∃ session', sys'.Seated session' sb ∧
      session'.listen.cryptState.isSome) sys := by
  let block : Block := ⟨List.replicate 16 0, rfl⟩
  let listen : Listen := { session.listen with cryptState := some ⟨block, block, block⟩ }
  have hhandled : handlePacket host sys.state session.listen
      (.cryptSetup ⟨some block.1, some block.1, some block.1⟩) =
        .ok { state := sys.state, listen := listen } := rfl
  obtain ⟨sys', hstep, h'⟩ := h.packet hhandled h.server rfl
  exact .cons hstep (.here ⟨_, h', rfl⟩)

/-- A packet that can be handled and whose event can be resolved. -/
theorem exists_step_packet (hrunning : sys.running) (htcp : sys.tcp = .session session)
    {packet : Clientbound} {handled : Handled}
    (hhandled : handlePacket host sys.state session.listen packet = .ok handled)
    (hroom : handled.cryptState.isSome → sys.cryptStates = [])
    (hresolve : ∀ data ∈ handled.event,
      Returns (sys.eventQueue.resolve host handled.state sys.mailbox data)) :
    ∃ sys', TaskStep sys (host, .tcp (.packet packet)) sys' ∧ sys'.running ∧
      sys'.tcp = .session { session with listen := handled.listen } ∧
      sys'.state = handled.state := by
  have hnotfull : ¬ (handled.cryptState.isSome ∧ sys.cryptStates ≠ []) :=
    fun h => h.2 (hroom h.1)
  have hlisten : sys.tcpStep host (.packet packet) = sys.listen host session packet := by
    simp only [tcpStep, inSession, htcp]
  unfold System.listen at hlisten
  simp only [hhandled, if_neg hnotfull] at hlisten
  cases hevent : handled.event with
  | none =>
      rw [hevent] at hlisten
      exact ⟨_, taskStep_of_tcpStep hrunning hlisten, hrunning, rfl, rfl⟩
  | some data =>
      obtain ⟨⟨eventQueue, mailbox⟩, hqueue⟩ := hresolve data hevent
      rw [hevent, Option.elim_some, System.resolve] at hlisten
      simp only [hqueue, ok_bind] at hlisten
      exact ⟨_, taskStep_of_tcpStep hrunning hlisten, hrunning, rfl, rfl⟩

/-- We are connected to a server, under a name. -/
structure Joined (hostname username : String) (sys : System) : Prop where
  running : sys.running
  ready : sys.Ready
  session : ∃ session, sys.tcp = .session session
  server : ∃ s, sys.state.server = .connected s ∧ s.host = hostname ∧ s.username = username

/-- The server lets us in. -/
theorem Seated.login (host : Host) (h : sys.Seated session sb) (hshown : sb.channels.Shown)
    (hkey : session.listen.cryptState.isSome) (msg : ServerSync) :
    ∃ sys', TaskStep sys (host, .tcp (.packet (.serverSync msg))) sys' ∧
      Joined sb.host sb.username sys' := by
  obtain ⟨audioOutput, hsync, -⟩ := State.serverSync_eq_ok h.server msg
  obtain ⟨cryptState, hcrypt⟩ := Option.isSome_iff_exists.mp hkey
  obtain ⟨handled, hhandled, hserver, hevent, hroom⟩ : ∃ handled,
      handlePacket host sys.state session.listen (.serverSync msg) = .ok handled ∧
      handled.state.server = .connected (sb.serverSync msg) ∧
      handled.event = some (.connected (.ok msg)) ∧
      (handled.cryptState.isSome → sys.cryptStates = []) := by
    by_cases hsender : session.listen.cryptStateSender
    · rw [handlePacket, if_pos hsender, hcrypt, unwrap_some, ok_bind, hsync, ok_bind]
      exact ⟨_, rfl, rfl, rfl, fun _ => h.room hsender⟩
    · rw [handlePacket, if_neg hsender, hsync, ok_bind]
      exact ⟨_, rfl, rfl, rfl, by simp⟩
  have hresolve : ∀ data ∈ handled.event,
      Returns (sys.eventQueue.resolve host handled.state sys.mailbox data) := by
    rw [hevent]
    rintro data hdata
    cases hdata
    refine (h.ready.resolve_returns_iff (by simp [TcpEventData.event])).mpr fun _ => ?_
    exact (connectResponse_returns_iff h.server (handlePacket_serverSync_eq_ok hhandled)).mpr hshown
  obtain ⟨sys', hstep, hrunning, htcp, hstate⟩ :=
    exists_step_packet h.running h.tcp hhandled hroom hresolve
  exact ⟨sys', hstep, hrunning, h.ready.step hstep.1, ⟨_, htcp⟩,
    _, hstate ▸ hserver, rfl, rfl⟩

theorem canReach_of_seated (host : Host) (h : sys.Seated session sb) :
    CanReach TaskStep (Joined sb.host sb.username) sys := by
  refine (canReach_shown host h).trans ?_
  rintro sys₁ ⟨sb', h₁, ⟨hhost, husername⟩, hshown⟩
  refine (canReach_keyed host h₁).trans ?_
  rintro sys₂ ⟨session', h₂, hkey⟩
  obtain ⟨sys₃, hstep, hjoined⟩ := h₂.login host hshown hkey {}
  rw [hhost, husername] at hjoined
  exact .cons hstep (.here hjoined)

/-- There is a way out of all other states. -/
theorem canReach_joined (host : Host) (h : sys.Underway sb) (hway : ¬ sys.NoWayOut) :
    CanReach TaskStep (Joined sb.host sb.username) sys := by
  obtain ⟨-, hstuck, hblocked⟩ : sys.running ∧ ¬ sys.view.Stuck ∧ ¬ sys.Blocked := by
    simpa [NoWayOut] using hway
  by_cases hroom : sys.Room
  · refine (canReach_arrived host h hroom hstuck).trans fun sys₁ h₁ => ?_
    obtain ⟨session, htcp⟩ := h₁.session
    exact (canReach_seated host h₁.toUnderway h₁.room htcp).trans
      fun sys₂ h₂ => canReach_of_seated host h₂
  · -- the crypt state stays where it is, but the session needs no room
    obtain ⟨hfull, hudp, hseen⟩ : sys.cryptStates ≠ [] ∧ sys.udp = .waiting ∧
        sys.connectionInfo.version = sys.udpSeen := by
      simpa [Room] using hroom
    obtain ⟨session, htcp, hsender⟩ : ∃ session, sys.tcp = .session session ∧
        ¬ session.listen.cryptStateSender := by
      by_contra hnone
      refine hblocked ⟨hfull, hudp, hseen, fun session htcp => ?_⟩
      by_contra hsender
      exact hnone ⟨session, htcp, hsender⟩
    exact canReach_of_seated host ⟨h, htcp, fun hs => absurd hs hsender⟩

/-! ## All states -/

theorem ready_of_run {state : State} {trace : List ((Host × Label) × System)}
    (hrun : Run Step (start state) trace) : (final (start state) trace).Ready :=
  hrun.inv_final Ready (ready_start state) fun _ _ _ h hstep => h.step hstep

/-- **When a login is still possible.**  A daemon that is connecting can still be let in,
unless `client::handle` has returned, or nobody works for the server, or a crypt state is in
the way. -/
theorem canReach_connected_iff {state : State} {trace : List ((Host × Label) × System)}
    (hrun : Run Step (start state) trace)
    (hconnecting : (final (start state) trace).state.server.kind = .connecting) :
    CanReach Step (fun sys => sys.state.server.kind = .connected) (final (start state) trace) ↔
      ¬ (final (start state) trace).NoWayOut := by
  generalize hsys : final (start state) trace = sys at hconnecting
  have hready : sys.Ready := hsys ▸ ready_of_run hrun
  constructor
  · rintro hreach hno
    obtain ⟨sys', ⟨-, hkind⟩, hconnected⟩ := hreach.exists_of_inv
      (fun sys => sys.NoWayOut ∧ sys.state.server.kind = .connecting) ⟨hno, hconnecting⟩
      fun sys label sys' hinv hstep => hinv.1.step hinv.2 hstep
    cases hkind.symm.trans hconnected
  · intro hway
    obtain ⟨sb, hserver⟩ := Server.kind_eq_connecting.mp hconnecting
    have hrunning : sys.running := by
      by_contra hnot
      exact hway (.inl hnot)
    have hreach := canReach_joined .offline ⟨hrunning, hready, hserver⟩ hway
    refine (hreach.of_step fun _ _ _ h => h.1).trans fun sys' h => ?_
    obtain ⟨s, hconnected, -⟩ := h.server
    exact .here (Server.kind_eq_connected.mpr ⟨s, hconnected⟩)

/-- What a server sends to let us in. -/
def lettingIn : List Label :=
  let block : Bytes := List.replicate 16 0
  [.tcp (.packet (.cryptSetup ⟨some block, some block, some block⟩)),
    .tcp (.packet (.channelState { channelId := some 0, name := some "Root" })),
    .tcp (.packet (.serverSync { session := some 1 }))]

/-- We leave one server for another, and the TCP task is still in the old session. -/
def change (hostname : String) : List Label :=
  [.command .serverDisconnect, .command (.serverConnect hostname 64738 "me" none false)]

/-- Our first server lets us in for the second as well, and the second for the third.  Then
the UDP task has taken the crypt state of the first with the address of the third, and that
of the second stays on the channel. -/
def leftover : List Label :=
  login "first" ++ change "second" ++ lettingIn ++
  [.tcp .streamGone, .tcp .takeInfo, .tcp (.connect .ok), .tcp (.authenticate true)] ++
  change "third" ++ [.udp .takeInfo, .udp (.bind true), .udp .connect] ++ lettingIn ++
  [.tcp .streamGone, .udp .poll]

theorem follow_leftover :
    ∃ trace, Library.follow next (start .idle) (leftover.map (.online, ·) ++
        (change "nowhere").map (.offline, ·)) = some trace ∧
      (final (start .idle) trace).state.server.kind = .connecting ∧
      (final (start .idle) trace).view.unseen ∧
      (final (start .idle) trace).tcp = .waiting ∧ (final (start .idle) trace).udp = .waiting ∧
      (final (start .idle) trace).connectionInfo.version = (final (start .idle) trace).udpSeen ∧
      (final (start .idle) trace).cryptStates ≠ [] :=
  ⟨Option.get _ (by decide +kernel), (Option.some_get _).symm, by decide +kernel,
    by decide +kernel, by decide +kernel, by decide +kernel, by decide +kernel, by decide +kernel⟩

/-- After a `ServerConnect` that does not resolve, the TCP task still has the third server
to connect to, but nobody can let us in. -/
theorem canReach_connected_iff_leftover :
    ∃ trace, Run Step (start .idle) trace ∧ ¬ (final (start .idle) trace).view.Stuck ∧
      ¬ CanReach Step (fun sys => sys.state.server.kind = .connected)
        (final (start .idle) trace) := by
  obtain ⟨trace, htrace, hkind, hunseen, htcp, hudp, hseen, hfull⟩ := follow_leftover
  have hrun : Run Step (start .idle) trace := Library.run_follow (fun _ _ _ h => h) htrace
  refine ⟨trace, hrun, fun hstuck => ?_, fun hreach => ?_⟩
  · exact Bool.false_ne_true (hstuck.seen.symm.trans hunseen)
  · refine (canReach_connected_iff hrun hkind).mp hreach (.inr (.inr ⟨hfull, hudp, hseen, ?_⟩))
    rintro session hsession
    cases htcp.symm.trans hsession

end System

end Mum
