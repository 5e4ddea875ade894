import Mum.Client

/-!
# The steps one by one

`tcpStep` and `udpStep` read backwards: what was the case before a step, and what
exactly is the case after it.

Each case has the guard of its step, and the state after it as an update of the state
before; what nobody asks about, such as the event queue after a session, is left open.
-/

namespace Mum.System

open Library Library.Eval Msgs
open Mumlib (Command)

/-- A step of the TCP task. -/
inductive TcpCase (host : Host) (sys : System) : TcpLabel → System → Prop
  | ignoreInfo (htcp : sys.tcp = .waiting) (hvalue : sys.connectionInfo.value = none) :
      TcpCase host sys .takeInfo { sys with tcpSeen := sys.connectionInfo.version }
  | takeInfo {info : ConnectionInfo} (htcp : sys.tcp = .waiting)
      (hunseen : sys.connectionInfo.version ≠ sys.tcpSeen)
      (hvalue : sys.connectionInfo.value = some info) :
      TcpCase host sys .takeInfo { sys with
        tcpSeen := sys.connectionInfo.version
        tcp := .connecting info
        history := { sys.history with joined := sys.history.published } }
  | connect {info : ConnectionInfo} {msg : Authenticate} (htcp : sys.tcp = .connecting info) :
      TcpCase host sys (.connect .ok) { sys with tcp := .authenticating msg }
  | tlsConnectError {info : ConnectionInfo} {eventQueue : TcpEventQueue} {mailbox : Mailbox}
      (htcp : sys.tcp = .connecting info) :
      TcpCase host sys (.connect .tlsConnectError) { sys with
        state := sys.state.broadcastPhase .disconnected
        tcp := .waiting
        eventQueue := eventQueue
        mailbox := mailbox }
  | connectError {info : ConnectionInfo} (htcp : sys.tcp = .connecting info) :
      TcpCase host sys (.connect .error) { sys with running := false }
  | authenticate {msg : Authenticate} (htcp : sys.tcp = .authenticating msg) :
      TcpCase host sys (.authenticate true) { sys with
        tcp := .session .new
        history := { sys.history with
          sessions := sys.history.sessions + 1
          leftover := sys.packets.length } }
  | authenticateError {msg : Authenticate} (htcp : sys.tcp = .authenticating msg) :
      TcpCase host sys (.authenticate false) { sys with running := false }
  | seen {session : TcpSession} {version : ℕ} (htcp : sys.tcp = .session session)
      (hphase : sys.state.phaseWatcher.value ≠ .disconnected) :
      TcpCase host sys .poll { sys with tcp := .session { session with phaseSeen := version } }
  | stopped {session : TcpSession} {eventQueue : TcpEventQueue} {mailbox : Mailbox}
      (htcp : sys.tcp = .session session)
      (hphase : sys.state.phaseWatcher.value = .disconnected) :
      TcpCase host sys .poll { sys with
        tcp := .waiting
        eventQueue := eventQueue
        mailbox := mailbox }
  | streamGone {session : TcpSession} {eventQueue : TcpEventQueue} {mailbox : Mailbox}
      (htcp : sys.tcp = .session session) :
      TcpCase host sys .streamGone { sys with
        state := sys.state.broadcastPhase .disconnected
        tcp := .waiting
        eventQueue := eventQueue
        mailbox := mailbox }
  | invalidPacket : TcpCase host sys .invalidPacket sys
  | packet {session : TcpSession} {packet : Clientbound} {handled : Handled}
      {cryptStates : List ClientCryptState} {eventQueue : TcpEventQueue} {mailbox : Mailbox}
      (htcp : sys.tcp = .session session)
      (hhandled : handlePacket host sys.state session.listen packet = .ok handled) :
      TcpCase host sys (.packet packet) { sys with
        state := handled.state
        tcp := .session { session with listen := handled.listen }
        cryptStates := cryptStates
        eventQueue := eventQueue
        mailbox := mailbox }
  | ping {session : TcpSession} (htcp : sys.tcp = .session session) :
      TcpCase host sys .ping (sys.send [.ping {}])
  | voicePoll {session : TcpSession} {voice : VoiceTask} (htcp : sys.tcp = .session session) :
      TcpCase host sys .voicePoll { sys with tcp := .session { session with voice := voice } }
  | voice {session : TcpSession} {frame : VoicePacket Unit} (htcp : sys.tcp = .session session) :
      TcpCase host sys (.voice frame) (sys.send [.udpTunnel frame])
  | takePacket {session : TcpSession} {packet : Queued} {packets : List Queued}
      (htcp : sys.tcp = .session session) (hidle : session.inFlight = none)
      (hpackets : sys.packets = packet :: packets) :
      TcpCase host sys .takePacket { sys with
        packets := packets
        tcp := .session { session with inFlight := some packet } }
  | packetSent {session : TcpSession} {packet : Queued} (htcp : sys.tcp = .session session)
      (hinFlight : session.inFlight = some packet) :
      TcpCase host sys (.packetSent true)
        { sys with tcp := .session { session with inFlight := none } }
  | sendError {session : TcpSession} {eventQueue : TcpEventQueue} {mailbox : Mailbox}
      (htcp : sys.tcp = .session session) :
      TcpCase host sys (.packetSent false) { sys with
        tcp := .waiting
        eventQueue := eventQueue
        mailbox := mailbox }

theorem tcpStep_cases {host : Host} {sys sys' : System} {label : TcpLabel}
    (h : sys.tcpStep host label = some (.ok sys')) : TcpCase host sys label sys' := by
  cases label with
  | takeInfo =>
      rw [tcpStep] at h
      split at h
      next htcp =>
        split at h
        · cases h
        next hunseen =>
          cases hvalue : sys.connectionInfo.value with
          | none =>
              -- the value that the channel was made with
              simp only [hvalue] at h
              cases h
              exact .ignoreInfo htcp hvalue
          | some info =>
              simp only [hvalue] at h
              cases h
              exact .takeInfo htcp hunseen hvalue
      · cases h
  | connect result =>
      cases result with
      | ok =>
          rw [tcpStep] at h
          split at h
          next info htcp =>
            obtain ⟨username, -, h⟩ := bind_eq_ok.mp (Option.some.inj h)
            cases h
            exact .connect htcp
          · cases h
      | tlsConnectError =>
          rw [tcpStep] at h
          split at h
          next info htcp =>
            obtain ⟨eventQueue, mailbox, rfl⟩ := endSession_eq_ok (Option.some.inj h)
            exact .tlsConnectError htcp
          · cases h
      | error =>
          rw [tcpStep] at h
          split at h
          next info htcp =>
            cases h
            exact .connectError htcp
          · cases h
  | authenticate sent =>
      rw [tcpStep] at h
      split at h
      next msg htcp =>
        cases sent with
        | true =>
            cases h
            exact .authenticate htcp
        | false =>
            cases h
            exact .authenticateError htcp
      · cases h
  | poll =>
      obtain ⟨session, htcp, h⟩ := inSession_eq_some.mp h
      cases hpoll : runUntil (fun phase => phase = .disconnected) sys.state.phaseWatcher
          session.phaseSeen with
      | pending => simp [hpoll] at h
      | seen version =>
          simp only [hpoll] at h
          cases h
          exact .seen htcp (by simpa using runUntil_seen hpoll)
      | stopped =>
          simp only [hpoll] at h
          obtain ⟨eventQueue, mailbox, rfl⟩ := endSession_eq_ok (Option.some.inj h)
          exact .stopped htcp (by simpa using runUntil_stopped hpoll)
  | streamGone =>
      obtain ⟨session, htcp, h⟩ := inSession_eq_some.mp h
      obtain ⟨eventQueue, mailbox, rfl⟩ := endSession_eq_ok (Option.some.inj h)
      exact .streamGone htcp
  | invalidPacket =>
      obtain ⟨session, htcp, h⟩ := inSession_eq_some.mp h
      cases h
      exact .invalidPacket
  | packet packet =>
      obtain ⟨session, htcp, h⟩ := inSession_eq_some.mp h
      obtain ⟨handled, eventQueue, mailbox, hhandled, rfl⟩ := listen_eq_ok h
      exact .packet htcp hhandled
  | ping =>
      obtain ⟨session, htcp, h⟩ := inSession_eq_some.mp h
      cases h
      exact .ping htcp
  | voicePoll =>
      obtain ⟨session, htcp, h⟩ := inSession_eq_some.mp h
      obtain ⟨voice, -, h⟩ := Option.map_eq_some_iff.mp h
      cases h
      exact .voicePoll htcp
  | voice frame =>
      obtain ⟨session, htcp, h⟩ := inSession_eq_some.mp h
      obtain ⟨-, h⟩ := Option.ite_none_right_eq_some.mp h
      cases h
      exact .voice htcp
  | takePacket =>
      obtain ⟨session, htcp, h⟩ := inSession_eq_some.mp h
      cases hinFlight : session.inFlight with
      | some packet => simp [hinFlight] at h
      | none =>
          cases hpackets : sys.packets with
          | nil => simp [hinFlight, hpackets] at h
          | cons packet packets =>
              simp only [hinFlight, hpackets] at h
              cases h
              exact .takePacket htcp hinFlight hpackets
  | packetSent sent =>
      obtain ⟨session, htcp, h⟩ := inSession_eq_some.mp h
      cases hinFlight : session.inFlight with
      | none => simp [hinFlight] at h
      | some packet =>
          simp only [hinFlight] at h
          cases sent with
          | true =>
              cases h
              exact .packetSent htcp hinFlight
          | false =>
              obtain ⟨eventQueue, mailbox, rfl⟩ := endSession_eq_ok (Option.some.inj h)
              exact .sendError htcp

/-- A step of the UDP task. -/
inductive UdpCase (sys : System) : UdpLabel → System → Prop
  | takeInfo {udp : UdpTask} {udpSeen : ℕ} :
      UdpCase sys .takeInfo { sys with udpSeen := udpSeen, udp := udp }
  | bind {udp : UdpTask} : UdpCase sys (.bind true) { sys with udp := udp }
  | bindError : UdpCase sys (.bind false) { sys with running := false }
  | connect {udp : UdpTask} {cryptStates : List ClientCryptState} :
      UdpCase sys .connect { sys with cryptStates := cryptStates, udp := udp }
  | poll {udp : UdpTask} : UdpCase sys .poll { sys with udp := udp }
  | pong {timestamp : UInt64} {udp : UdpTask} :
      UdpCase sys (.packet (.ping timestamp)) { sys with
        state := sys.state.broadcastPhase (.connected .udp)
        udp := udp }
  | audio {sessionId : UInt32} {seqNum : UInt64} {payload : VoicePacketPayload} {udp : UdpTask}
      {audioOutput : AudioOutput F32}
      (hvolumes : audioOutput.userVolumes = sys.state.audioOutput.userVolumes) :
      UdpCase sys (.packet (.audio sessionId seqNum payload)) { sys with
        state := { sys.state with audioOutput := audioOutput }
        udp := udp }
  | pingLost {sent : Bool} {session : UdpSession} {udp : UdpTask}
      (hudp : sys.udp = .session session) (hlost : session.pingLost) :
      UdpCase sys (.tick sent) { sys with
        state := sys.state.broadcastPhase (.connected .tcp)
        udp := udp }
  | tick {sent : Bool} {session : UdpSession} {udp : UdpTask} (hudp : sys.udp = .session session)
      (hlost : ¬ session.pingLost) : UdpCase sys (.tick sent) { sys with udp := udp }
  | newCryptState {cryptStates : List ClientCryptState} :
      UdpCase sys .newCryptState { sys with cryptStates := cryptStates }

theorem udpStep_cases {host : Host} {sys sys' : System} {label : UdpLabel}
    (h : sys.udpStep host label = some (.ok sys')) : UdpCase sys label sys' := by
  cases label with
  | takeInfo =>
      rw [udpStep] at h
      split at h
      · split at h
        · cases h
        · cases hvalue : sys.connectionInfo.value with
          | none =>
              simp only [hvalue] at h
              cases h
              exact .takeInfo
          | some info =>
              simp only [hvalue] at h
              cases h
              exact .takeInfo
      · cases h
  | bind bound =>
      rw [udpStep] at h
      split at h
      · cases bound with
        | true =>
            cases h
            exact .bind
        | false =>
            cases h
            exact .bindError
      · cases h
  | connect =>
      rw [udpStep] at h
      split at h
      · cases h
        exact .connect
      · cases h
  | poll =>
      rw [udpStep] at h
      split at h
      · split at h
        · cases h
        · cases h
          exact .poll
        · cases h
          exact .poll
      · cases h
  | packet packet =>
      rw [udpStep] at h
      split at h
      next session hudp =>
        obtain ⟨⟨state, session'⟩, hlisten, h⟩ := bind_eq_ok.mp (Option.some.inj h)
        cases h
        cases packet with
        | ping timestamp =>
            cases hlisten
            exact .pong
        | audio sessionId seqNum payload =>
            obtain ⟨audioOutput, haudio, hlisten⟩ := bind_eq_ok.mp hlisten
            cases hlisten
            exact .audio (AudioOutput.userVolumes_decodePacketPayload haudio)
      · cases h
  | tick sent =>
      rw [udpStep] at h
      split at h
      next session hudp =>
        obtain ⟨⟨state, session'⟩, htick, h⟩ := bind_eq_ok.mp (Option.some.inj h)
        cases h
        obtain ⟨timestamp, -, htick⟩ := bind_eq_ok.mp htick
        cases htick
        by_cases hlost : session.pingLost
        · rw [if_pos hlost]
          exact .pingLost hudp hlost
        · rw [if_neg hlost]
          exact .tick hudp hlost
      · cases h
  | newCryptState =>
      rw [udpStep] at h
      split at h
      · cases h
        exact .newCryptState
      · cases h

/-- A step of the daemon. -/
inductive StepCase (host : Host) (sys : System) : Label → System → Prop
  | command {command : Command} {outcome : Outcome} {eventQueue : TcpEventQueue}
      {mailbox : Mailbox} {pingRequests : List (ℕ × SocketAddr)}
      (houtcome : handleCommand host sys.state command = .ok outcome) :
      StepCase host sys (.command command) { sys.send outcome.packets with
        state := outcome.state
        connectionInfo := outcome.connectionInfo.elim sys.connectionInfo
          fun info => sys.connectionInfo.send (some info)
        eventQueue := eventQueue
        mailbox := mailbox
        requests := sys.requests + 1
        pingRequests := pingRequests
        history := History.made sys.history sys.state.server outcome }
  | controllerGone {request : Request} {mailbox : Mailbox} :
      StepCase host sys (.controllerGone request) { sys with mailbox := mailbox }
  | tcp {label : TcpLabel} {sys' : System} (h : TcpCase host sys label sys') :
      StepCase host sys (.tcp label) sys'
  | udp {label : UdpLabel} {sys' : System} (h : UdpCase sys label sys') :
      StepCase host sys (.udp label) sys'

/-- Nothing happens after `client::handle` has returned. -/
theorem running_of_step {host : Host} {sys sys' : System} {label : Label}
    (h : Step sys (host, label) sys') : sys.running := by
  have h := step_eq_ok h
  unfold step at h
  cases label with
  | command command => exact (Option.ite_none_right_eq_some.mp h).1
  | controllerGone request => exact (Option.ite_none_right_eq_some.mp h).1.1
  | tcp label => exact (Option.ite_none_right_eq_some.mp h).1
  | udp label => exact (Option.ite_none_right_eq_some.mp h).1

/-- What a step does is one of the cases. -/
theorem step_cases {host : Host} {sys sys' : System} {label : Label}
    (h : Step sys (host, label) sys') : StepCase host sys label sys' := by
  have h := step_eq_ok h
  unfold step at h
  cases label with
  | command command =>
      obtain ⟨-, h⟩ := Option.ite_none_right_eq_some.mp h
      obtain ⟨outcome, eventQueue, mailbox, pingRequests, houtcome, rfl⟩ :=
        command_eq_ok (Option.some.inj h)
      exact .command houtcome
  | controllerGone request =>
      obtain ⟨-, h⟩ := Option.ite_none_right_eq_some.mp h
      cases h
      exact .controllerGone
  | tcp label =>
      obtain ⟨-, h⟩ := Option.ite_none_right_eq_some.mp h
      exact .tcp (tcpStep_cases h)
  | udp label =>
      obtain ⟨-, h⟩ := Option.ite_none_right_eq_some.mp h
      exact .udp (udpStep_cases h)

end Mum.System
