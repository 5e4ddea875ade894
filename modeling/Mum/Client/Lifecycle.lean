import Mum.Client.Changes
import Mum.Client.Steps

/-!
# The life of a connection

How a connection comes and goes, without what is sent over it.  A `View` is what
the daemon shows of this: the kind of the server, the phase, where the TCP task
stands, and which servers the connection info is for.  Few of the daemon's steps
mean anything here; these are the events, and `View.Step` is what they do.

`step_view` says that the daemon is an instance: each of its steps is its event
on the view.

`step_view` is put together from one lemma for each task (`view_command`, `view_tcp`,
`view_udp`) and one for packets (`view_packet`).  For commands and packets it is enough to
know the kind of the server before and after, which decides what the event is
(`event_of_kind`, `event_of_packet_kind`).  Properties of connections are then proved over
`View.Step`, whose cases are few, and hold of the daemon by this lemma alone.
-/

namespace Mum

open Library Library.Eval Msgs
open Mumlib (Command)

/-- Where the TCP task stands. -/
inductive TcpKind
  | waiting
  | attempt
  | session
deriving DecidableEq, Repr

def TcpTask.kind : TcpTask → TcpKind
  | waiting => .waiting
  | connecting _ => .attempt
  | authenticating _ => .attempt
  | session _ => .session

theorem TcpTask.kind_eq_waiting {tcp : TcpTask} : tcp.kind = .waiting ↔ tcp = .waiting := by
  cases tcp <;> simp [kind]

structure View where
  running : Bool
  server : ServerKind
  phase : StatePhase
  tcp : TcpKind
  /-- There is connection info that the TCP task has not seen. -/
  unseen : Bool
  servers : ℕ
  published : ℕ
  joined : ℕ
deriving DecidableEq

/-- What a step of the daemon means for the connection. -/
inductive Event
  | quiet
  /-- `ServerConnect` makes a server and publishes connection info if the address
  resolves. -/
  | serverMade (resolved : Bool)
  | serverLeft
  | infoIgnored
  | infoTaken
  | tlsFailed
  /-- `client::handle` returns. -/
  | stopped
  | sessionBegan
  /-- `run_until` sees the phase `Disconnected`. -/
  | sessionStopped
  | streamGone
  | sendFailed
  | loggedIn
  /-- UDP pings tell which way voice goes. -/
  | voicePhase (stream : VoiceStreamType)
deriving DecidableEq, Repr

/-- What an event does. -/
inductive View.Step (v : View) : Event → View → Prop
  | quiet : Step v .quiet v
  | serverMade {resolved unseen : Bool} (hserver : v.server = .disconnected)
      (hunseen : resolved = false → unseen = v.unseen) :
      Step v (.serverMade resolved) { v with
        server := .connecting
        phase := .connecting
        unseen := unseen
        servers := v.servers + 1
        published := if resolved then v.servers + 1 else v.published }
  | serverLeft (hserver : v.server = .connected) :
      Step v .serverLeft { v with server := .disconnected, phase := .disconnected }
  | infoIgnored (htcp : v.tcp = .waiting) : Step v .infoIgnored { v with unseen := false }
  | infoTaken (htcp : v.tcp = .waiting) (hunseen : v.unseen) :
      Step v .infoTaken { v with tcp := .attempt, unseen := false, joined := v.published }
  | tlsFailed (htcp : v.tcp = .attempt) :
      Step v .tlsFailed { v with phase := .disconnected, tcp := .waiting }
  | stopped : Step v .stopped { v with running := false }
  | sessionBegan (htcp : v.tcp = .attempt) : Step v .sessionBegan { v with tcp := .session }
  | sessionStopped (htcp : v.tcp = .session) (hphase : v.phase = .disconnected) :
      Step v .sessionStopped { v with tcp := .waiting }
  | streamGone (htcp : v.tcp = .session) :
      Step v .streamGone { v with phase := .disconnected, tcp := .waiting }
  | sendFailed (htcp : v.tcp = .session) : Step v .sendFailed { v with tcp := .waiting }
  | loggedIn (htcp : v.tcp = .session) (hserver : v.server = .connecting) :
      Step v .loggedIn { v with server := .connected, phase := .connected .tcp }
  | voicePhase {stream : VoiceStreamType} :
      Step v (.voicePhase stream) { v with phase := .connected stream }

theorem View.Step.of_eq {v w w' : View} {event : Event} (h : v.Step event w) (heq : w = w') :
    v.Step event w' :=
  heq ▸ h

namespace System

def view (sys : System) : View where
  running := sys.running
  server := sys.state.server.kind
  phase := sys.state.phaseWatcher.value
  tcp := sys.tcp.kind
  unseen := sys.connectionInfo.version ≠ sys.tcpSeen
  servers := sys.history.servers
  published := sys.history.published
  joined := sys.history.joined

/-- What a step means for the connection. -/
def event (host : Host) (sys : System) : Label → Event
  | .command (.serverConnect hostname port _ _ _) =>
      if sys.state.server.kind = .disconnected then .serverMade (host.resolve hostname port).isSome
      else .quiet
  | .command .serverDisconnect =>
      if sys.state.server.kind = .connected then .serverLeft else .quiet
  | .command _ => .quiet
  | .controllerGone _ => .quiet
  | .tcp .takeInfo => if sys.connectionInfo.value = none then .infoIgnored else .infoTaken
  | .tcp (.connect .ok) => .quiet
  | .tcp (.connect .tlsConnectError) => .tlsFailed
  | .tcp (.connect .error) => .stopped
  | .tcp (.authenticate sent) => if sent then .sessionBegan else .stopped
  | .tcp .poll =>
      if sys.state.phaseWatcher.value = .disconnected then .sessionStopped else .quiet
  | .tcp .streamGone => .streamGone
  | .tcp (.packet (.serverSync _)) =>
      if sys.state.server.kind = .connecting then .loggedIn else .quiet
  | .tcp (.packetSent sent) => if sent then .quiet else .sendFailed
  | .tcp _ => .quiet
  | .udp (.bind bound) => if bound then .quiet else .stopped
  | .udp (.packet (.ping _)) => .voicePhase .udp
  | .udp (.tick _) =>
      match sys.udp with
      | .session session => if session.pingLost then .voicePhase .tcp else .quiet
      | _ => .quiet
  | .udp _ => .quiet

/-! ## Every step is its event -/

variable {host : Host} {sys sys' : System}

/-- The view of a step that keeps what it shows. -/
theorem quiet_view (hrunning : sys'.running = sys.running)
    (hserver : sys'.state.server.kind = sys.state.server.kind)
    (hphase : sys'.state.phaseWatcher.value = sys.state.phaseWatcher.value)
    (htcp : sys'.tcp.kind = sys.tcp.kind) (hinfo : sys'.connectionInfo = sys.connectionInfo)
    (hseen : sys'.tcpSeen = sys.tcpSeen) (hhistory : sys'.history = sys.history) :
    sys.view.Step .quiet sys'.view := by
  have hview : sys'.view = sys.view := by
    simp only [view, hrunning, hserver, hphase, htcp, hinfo, hseen, hhistory]
  rw [hview]
  exact .quiet

theorem made_of_kind {history : History} {server : Server} {outcome : Outcome}
    (h : outcome.state.server.kind = server.kind) :
    History.made history server outcome = history := by
  unfold History.made
  rw [if_neg]
  rintro ⟨hserver, hne⟩
  rw [hserver] at h
  exact hne (Server.kind_eq_disconnected.mp h)

/-- A command that keeps the kind of the server means nothing. -/
theorem event_of_kind {command : Command} {outcome : Outcome}
    (houtcome : handleCommand host sys.state command = .ok outcome)
    (hkind : outcome.state.server.kind = sys.state.server.kind) :
    sys.event host (.command command) = .quiet := by
  cases command with
  | serverConnect hostname port username password acceptInvalidCert =>
      refine if_neg fun hdisconnected => ?_
      rw [handleCommand, Server.kind_eq_disconnected.mp hdisconnected] at houtcome
      cases houtcome
      obtain ⟨sb, hstate, -⟩ := sys.state.serverConnect_eq host hostname port username password
        acceptInvalidCert
      rw [hstate, hdisconnected] at hkind
      cases hkind
  | serverDisconnect =>
      refine if_neg fun hconnected => ?_
      obtain ⟨s, hserver⟩ := Server.kind_eq_connected.mp hconnected
      rw [handleCommand, hserver] at houtcome
      obtain ⟨audioOutput, rfl⟩ := State.serverDisconnect_eq_ok houtcome
      cases hkind.trans hconnected
  | _ => rfl

theorem view_command {command : Command} {outcome : Outcome} {eventQueue : TcpEventQueue}
    {mailbox : Mailbox} {pingRequests : List (ℕ × SocketAddr)}
    (houtcome : handleCommand host sys.state command = .ok outcome) :
    sys.view.Step (sys.event host (.command command)) (view { sys.send outcome.packets with
      state := outcome.state
      connectionInfo := outcome.connectionInfo.elim sys.connectionInfo
        fun info => sys.connectionInfo.send (some info)
      eventQueue := eventQueue
      mailbox := mailbox
      requests := sys.requests + 1
      pingRequests := pingRequests
      history := History.made sys.history sys.state.server outcome }) := by
  cases handleCommand_cases houtcome with
  | keeps hstate hinfo =>
      rw [event_of_kind houtcome hstate.kind]
      exact quiet_view rfl hstate.kind (congrArg Watch.value hstate.phase) rfl (by rw [hinfo]; rfl)
        rfl (made_of_kind hstate.kind)
  | mutes hserver huser hne htoggle hstate hinfo =>
      have hkind : outcome.state.server.kind = sys.state.server.kind := by
        rw [hstate, hserver]
        rfl
      exact quiet_view rfl hkind (by rw [hstate]) rfl (by rw [hinfo]; rfl) rfl (made_of_kind hkind)
  | disconnects hserver hdisconnected hphase hinfo =>
      have hconnected : sys.state.server.kind = .connected :=
        Server.kind_eq_connected.mpr ⟨_, hserver⟩
      rw [event, if_pos hconnected]
      refine .of_eq (.serverLeft hconnected) ?_
      have hmade : History.made sys.history sys.state.server outcome = sys.history := by
        simp [History.made, hserver]
      simp only [view, hdisconnected, hphase, hinfo, hmade]
      rfl
  | @connects hostname username port password acceptInvalidCert hserver =>
      obtain ⟨sb, hstate, -, hinfo⟩ := sys.state.serverConnect_eq host hostname port username
        password acceptInvalidCert
      have hdisconnected : sys.state.server.kind = .disconnected :=
        Server.kind_eq_disconnected.mpr hserver
      rw [event, if_pos hdisconnected]
      -- connection info is published only when the address resolves
      cases haddr : host.resolve hostname port with
      | none =>
          rw [haddr] at hinfo
          refine .of_eq (.serverMade hdisconnected fun _ => rfl) ?_
          simp [view, hstate, hinfo, History.made, hserver, System.send, Server.kind]
      | some addr =>
          rw [haddr] at hinfo
          refine .of_eq (@View.Step.serverMade sys.view true
            (sys.connectionInfo.version + 1 ≠ sys.tcpSeen) hdisconnected (by simp)) ?_
          simp [view, hstate, hinfo, History.made, hserver, System.send, Server.kind]

/-- A packet that keeps the kind of the server means nothing. -/
theorem event_of_packet_kind {session : TcpSession} {packet : Clientbound} {handled : Handled}
    (hhandled : handlePacket host sys.state session.listen packet = .ok handled)
    (hkind : handled.state.server.kind = sys.state.server.kind) :
    sys.event host (.tcp (.packet packet)) = .quiet := by
  cases packet with
  | serverSync msg =>
      refine if_neg fun hconnecting => ?_
      obtain ⟨sb, hserver⟩ := Server.kind_eq_connecting.mp hconnecting
      obtain ⟨audioOutput, hstate, -⟩ := State.serverSync_eq_ok hserver msg
      have hstate' := handlePacket_serverSync_eq_ok hhandled
      rw [← Except.ok.inj (hstate.symm.trans hstate'), hconnecting] at hkind
      cases hkind
  | _ => rfl

theorem view_packet {session : TcpSession} {packet : Clientbound} {handled : Handled}
    {cryptStates : List ClientCryptState} {eventQueue : TcpEventQueue} {mailbox : Mailbox}
    (htcp : sys.tcp = .session session)
    (hhandled : handlePacket host sys.state session.listen packet = .ok handled) :
    sys.view.Step (sys.event host (.tcp (.packet packet))) (view { sys with
      state := handled.state
      tcp := .session { session with listen := handled.listen }
      cryptStates := cryptStates
      eventQueue := eventQueue
      mailbox := mailbox }) := by
  have htcpKind : sys.tcp.kind = .session := by
    rw [htcp]
    rfl
  have hquiet : handled.state.server.kind = sys.state.server.kind →
      handled.state.phaseWatcher = sys.state.phaseWatcher →
      sys.view.Step (sys.event host (.tcp (.packet packet))) (view { sys with
        state := handled.state
        tcp := .session { session with listen := handled.listen }
        cryptStates := cryptStates
        eventQueue := eventQueue
        mailbox := mailbox }) := by
    intro hkind hphase
    rw [event_of_packet_kind hhandled hkind]
    exact quiet_view rfl hkind (congrArg Watch.value hphase) htcpKind.symm rfl rfl rfl
  -- only the login shows in the view
  cases handlePacket_cases hhandled with
  | keeps hstate => exact hquiet hstate.kind hstate.phase
  | userState _ hkind hphase _ _ => exact hquiet hkind hphase
  | userRemove hkind hphase _ _ => exact hquiet hkind hphase
  | login hserver hconnected hphase _ =>
      have hconnecting : sys.state.server.kind = .connecting :=
        Server.kind_eq_connecting.mpr ⟨_, hserver⟩
      rw [event, if_pos hconnecting]
      refine .of_eq (.loggedIn htcpKind hconnecting) ?_
      simp [view, hconnected, hphase, Server.kind, TcpTask.kind, htcp]

theorem view_tcp {label : TcpLabel} (hcase : TcpCase host sys label sys') :
    sys.view.Step (sys.event host (.tcp label)) sys'.view := by
  cases hcase with
  | ignoreInfo htcp hvalue =>
      rw [event, if_pos hvalue]
      refine .of_eq (.infoIgnored (TcpTask.kind_eq_waiting.mpr htcp)) ?_
      simp [view]
  | takeInfo htcp hunseen hvalue =>
      rw [event, if_neg (by simp [hvalue])]
      have hwaiting : sys.view.tcp = .waiting := TcpTask.kind_eq_waiting.mpr htcp
      refine .of_eq (.infoTaken hwaiting (by simpa [view] using hunseen)) ?_
      simp [view, TcpTask.kind]
  | connect htcp => exact quiet_view rfl rfl rfl (by rw [htcp]; rfl) rfl rfl rfl
  | tlsConnectError htcp => exact .tlsFailed (by rw [view, htcp]; rfl)
  | connectError htcp => exact .stopped
  | authenticate htcp => exact .sessionBegan (by rw [view, htcp]; rfl)
  | authenticateError htcp => exact .stopped
  | seen htcp hphase =>
      rw [event, if_neg hphase]
      exact quiet_view rfl rfl rfl (by rw [htcp]; rfl) rfl rfl rfl
  | stopped htcp hphase =>
      rw [event, if_pos hphase]
      exact .sessionStopped (by rw [view, htcp]; rfl) hphase
  | streamGone htcp => exact .streamGone (by rw [view, htcp]; rfl)
  | invalidPacket => exact quiet_view rfl rfl rfl rfl rfl rfl rfl
  | packet htcp hhandled => exact view_packet htcp hhandled
  | ping htcp => exact quiet_view rfl rfl rfl rfl rfl rfl rfl
  | voicePoll htcp => exact quiet_view rfl rfl rfl (by rw [htcp]; rfl) rfl rfl rfl
  | voice htcp => exact quiet_view rfl rfl rfl rfl rfl rfl rfl
  | takePacket htcp => exact quiet_view rfl rfl rfl (by rw [htcp]; rfl) rfl rfl rfl
  | packetSent htcp => exact quiet_view rfl rfl rfl (by rw [htcp]; rfl) rfl rfl rfl
  | sendError htcp => exact .sendFailed (by rw [view, htcp]; rfl)

theorem view_udp {label : UdpLabel} (hcase : UdpCase sys label sys') :
    sys.view.Step (sys.event host (.udp label)) sys'.view := by
  cases hcase with
  | bindError => exact .stopped
  | pong => exact .voicePhase
  | pingLost hudp hlost =>
      simp only [event, hudp, if_pos hlost]
      exact .voicePhase
  | tick hudp hlost =>
      simp only [event, hudp, if_neg hlost]
      exact quiet_view rfl rfl rfl rfl rfl rfl rfl
  | takeInfo | bind | connect | poll | audio | newCryptState =>
      exact quiet_view rfl rfl rfl rfl rfl rfl rfl

/-- Every step of the daemon is its event. -/
theorem step_view {label : Label} (hstep : Step sys (host, label) sys') :
    sys.view.Step (sys.event host label) sys'.view := by
  cases step_cases hstep with
  | command houtcome => exact view_command houtcome
  | controllerGone => exact quiet_view rfl rfl rfl rfl rfl rfl rfl
  | tcp hcase => exact view_tcp hcase
  | udp hcase => exact view_udp hcase

end System

end Mum
