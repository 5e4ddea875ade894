import Mum.Library.Transition
import Mum.Network.Tcp
import Mum.Network.Udp

/-!
# The client

`mum/src/client.rs`: the tasks of the daemon and what they share.  A `System` is
a state of all of them; a step is one task going from one await point to the
next.  The tasks run on one thread, so that steps do not overlap, but any task
that can go on may be next.

The command task is `mum/src/command.rs`, the others are `handle` of
`mum/src/network/tcp.rs` and of `mum/src/network/udp.rs`.  A step that panics
takes the daemon down: no step follows it.

What a `System` has of `handle_pings` is its queue of requests; `Mum.Daemon` has both.  Nor
is it followed what a connection task does while a step is under way, which is what
`Mum.Client.Responses` is about.  Voice that is sent over UDP, and the sockets of
`handle_pings` and of `new_crypt_state`, have no steps here.  Their errors are unwrapped, and
come in `Mum.Daemon.Faults`.

A step is given by a function, `System.step`, so that runs may be computed.  The lemmas at
the end read it backwards, one monadic bind at a time; `Mum.Client.Steps` goes on from there.
-/

namespace Mum

open Library Library.Eval Msgs
open Mumlib (Command Response)

/-- A packet on the packet channel, and the session in which it was put there. -/
structure Queued where
  packet : Serverbound
  producedIn : Option ℕ
deriving DecidableEq

/-- The local variables of a TCP session. -/
structure TcpSession where
  /-- The phase that `run_until` saw last. -/
  phaseSeen : ℕ
  listen : Listen
  voice : VoiceTask
  /-- The packet that `send_packets` has taken and is writing. -/
  inFlight : Option Queued
deriving DecidableEq

def TcpSession.new : TcpSession := ⟨0, .new, .new, none⟩

/-- Where `tcp::handle` stands. -/
inductive TcpTask
  /-- Waits for connection info. -/
  | waiting
  | connecting (info : ConnectionInfo)
  | authenticating (msg : Authenticate)
  | session (session : TcpSession)
deriving DecidableEq

/-- What happened so far.  No task reads any of it. -/
structure History where
  /-- How many servers were made by `ServerConnect`. -/
  servers : ℕ
  /-- The server for which connection info was published last. -/
  published : ℕ
  /-- The server whose connection info the TCP task took last. -/
  joined : ℕ
  /-- How many TCP sessions began. -/
  sessions : ℕ
  /-- How many packets were on the packet channel when the last of them began. -/
  leftover : ℕ
deriving DecidableEq

structure System where
  /-- Whether `client::handle` has not returned. -/
  running : Bool
  state : State
  connectionInfo : Watch (Option ConnectionInfo)
  /-- The channel for crypt states, which has room for one. -/
  cryptStates : List ClientCryptState
  packets : List Queued
  eventQueue : TcpEventQueue
  mailbox : Mailbox
  /-- How many commands were handled. -/
  requests : ℕ
  pingRequests : List (ℕ × SocketAddr)
  tcp : TcpTask
  /-- The connection info that the TCP task saw last. -/
  tcpSeen : ℕ
  udp : UdpTask
  /-- The connection info that the UDP task saw last. -/
  udpSeen : ℕ
  history : History

/-- How `connect` ends. -/
inductive ConnectResult
  | ok
  | tlsConnectError
  | error
deriving DecidableEq, Repr

/-- The steps of the TCP task. -/
inductive TcpLabel
  | takeInfo
  | connect (result : ConnectResult)
  | authenticate (sent : Bool)
  | poll
  /-- The stream is at its end, or has an invalid packet, or a packet. -/
  | streamGone
  | invalidPacket
  | packet (packet : Clientbound)
  | ping
  | voicePoll
  | voice (frame : VoicePacket Unit)
  | takePacket
  | packetSent (sent : Bool)
deriving DecidableEq, Repr

/-- The steps of the UDP task. -/
inductive UdpLabel
  | takeInfo
  | bind (bound : Bool)
  | connect
  | poll
  | packet (packet : VoicePacket UInt32)
  | tick (sent : Bool)
  | newCryptState
deriving DecidableEq, Repr

/-- What can happen. -/
inductive Label
  | command (command : Command)
  /-- The controller of a request is gone, which shows when a response is written
  to it. -/
  | controllerGone (request : Request)
  | tcp (label : TcpLabel)
  | udp (label : UdpLabel)

namespace System

/-- The daemon when it has started. -/
def start (state : State) : System where
  running := true
  state := state
  connectionInfo := .new none
  cryptStates := []
  packets := []
  eventQueue := .new
  mailbox := ⟨[], []⟩
  requests := 0
  pingRequests := []
  tcp := .waiting
  tcpSeen := 0
  udp := .waiting
  udpSeen := 0
  history := ⟨0, 0, 0, 0, 0⟩

/-- The TCP session that is going on, by its number. -/
def session (sys : System) : Option ℕ :=
  match sys.tcp with
  | .session _ => some sys.history.sessions
  | _ => none

/-- Puts packets on the packet channel. -/
def send (sys : System) (packets : List Serverbound) : System :=
  { sys with packets := sys.packets ++ packets.map (⟨·, sys.session⟩) }

def resolve (host : Host) (sys : System) (data : TcpEventData) : Eval System := do
  let (eventQueue, mailbox) ← sys.eventQueue.resolve host sys.state sys.mailbox data
  .ok { sys with eventQueue := eventQueue, mailbox := mailbox }

/-! ## Commands -/

/-- `response_sender.send(..).unwrap()` for each response. -/
def sendResponses (sys : System) : List Response → Eval System
  | [] => .ok sys
  | response :: rest =>
      if sys.mailbox.isOpen sys.requests then
        sendResponses { sys with mailbox := sys.mailbox.send sys.requests response } rest
      else .error .panic

/-- What `command::handle` does with an `ExecutionContext`. -/
def execute (host : Host) (sys : System) : ExecutionContext → Eval System
  | .tcpEventCallback =>
      let eventQueue := sys.eventQueue.registerCallback .connected sys.requests
      .ok { sys with
        eventQueue := eventQueue.registerCallback (.disconnected .invalidTls) sys.requests }
  | .tcpEventSubscriber =>
      .ok { sys with eventQueue := sys.eventQueue.registerSubscriber .textMessage sys.requests }
  | .now responses => sys.sendResponses responses
  | .ping hostname port =>
      match host.toSocketAddrs hostname port with
      | some (addr :: _) =>
          .ok { sys with pingRequests := sys.pingRequests ++ [(sys.pingRequests.length, addr)] }
      | _ => sys.sendResponses [.error (.invalidServerAddr hostname port)]

/-- A server was made by the command. -/
def History.made (history : History) (server : Server) (outcome : Outcome) : History :=
  if server = .disconnected ∧ outcome.state.server ≠ .disconnected then
    { history with
      servers := history.servers + 1
      published :=
        if outcome.connectionInfo.isSome then history.servers + 1 else history.published }
  else history

@[simp] theorem History.sessions_made (history : History) (server : Server) (outcome : Outcome) :
    (History.made history server outcome).sessions = history.sessions := by
  unfold History.made
  split <;> rfl

@[simp] theorem History.leftover_made (history : History) (server : Server) (outcome : Outcome) :
    (History.made history server outcome).leftover = history.leftover := by
  unfold History.made
  split <;> rfl

/-- Handles a command of a controller. -/
def command (host : Host) (sys : System) (command : Command) : Eval System := do
  let outcome ← handleCommand host sys.state command
  let sys := { sys.send outcome.packets with
    state := outcome.state
    connectionInfo := outcome.connectionInfo.elim sys.connectionInfo
      fun info => sys.connectionInfo.send (some info)
    history := History.made sys.history sys.state.server outcome }
  let sys ← sys.execute host outcome.context
  .ok { sys with requests := sys.requests + 1 }

/-! ## The TCP task -/

/-- A step of a session. -/
def inSession (sys : System) (f : TcpSession → Option (Eval System)) : Option (Eval System) :=
  match sys.tcp with
  | .session session => f session
  | _ => none

/-- The session is over and the task waits for connection info again. -/
def endSession (host : Host) (sys : System) (reason : DisconnectedReason) : Eval System :=
  resolve host { sys with tcp := .waiting } (.disconnected reason)

/-- Handles a packet of the server; waits while it has a crypt state to send and
there is no room for it. -/
def listen (host : Host) (sys : System) (session : TcpSession) (packet : Clientbound) :
    Option (Eval System) :=
  match handlePacket host sys.state session.listen packet with
  | .error fault => some (.error fault)
  | .ok handled =>
      if handled.cryptState.isSome ∧ sys.cryptStates ≠ [] then none
      else
        let sys := { sys with
          state := handled.state
          tcp := .session { session with listen := handled.listen }
          cryptStates := sys.cryptStates ++ handled.cryptState.toList }
        some (handled.event.elim (.ok sys) (sys.resolve host))

/-- A step of the TCP task. -/
def tcpStep (host : Host) (sys : System) : TcpLabel → Option (Eval System)
  | .takeInfo =>
      match sys.tcp with
      | .waiting =>
          if sys.connectionInfo.version = sys.tcpSeen then none
          else
            let sys := { sys with tcpSeen := sys.connectionInfo.version }
            -- connection info that came in between is lost
            match sys.connectionInfo.value with
            | none => some (.ok sys)
            | some info => some (.ok { sys with
                tcp := .connecting info
                history := { sys.history with joined := sys.history.published } })
      | _ => none
  | .connect result =>
      match sys.tcp with
      | .connecting _ =>
          match result with
          | .ok => some do
              -- the server may be gone by now, and the name is unwrapped
              let username ← unwrap sys.state.username
              .ok { sys with tcp := .authenticating {
                username := some username, password := sys.state.password, opus := some true } }
          | .tlsConnectError =>
              some (endSession host { sys with state := sys.state.broadcastPhase .disconnected }
                .invalidTls)
          | .error =>
              -- the error leaves `tcp::handle`, and with it `client::handle`
              some (.ok { sys with running := false })
      | _ => none
  | .authenticate sent =>
      match sys.tcp with
      | .authenticating _ =>
          if sent then some (.ok { sys with
            tcp := .session .new
            history := { sys.history with
              sessions := sys.history.sessions + 1
              leftover := sys.packets.length } })
          else some (.ok { sys with running := false })
      | _ => none
  | .poll => sys.inSession fun session =>
      match runUntil (fun phase => phase = .disconnected) sys.state.phaseWatcher
          session.phaseSeen with
      | .pending => none
      | .seen version =>
          some (.ok { sys with tcp := .session { session with phaseSeen := version } })
      | .stopped => some (sys.endSession host .user)
  | .streamGone => sys.inSession fun _ =>
      some (endSession host { sys with state := sys.state.broadcastPhase .disconnected } .user)
  | .invalidPacket => sys.inSession fun _ =>
      -- the loop of `listen` goes on
      some (.ok sys)
  | .packet packet => sys.inSession fun session => sys.listen host session packet
  | .ping => sys.inSession fun _ => some (.ok (sys.send [.ping {}]))
  | .voicePoll => sys.inSession fun session =>
      (session.voice.poll sys.state.phaseWatcher).map fun voice =>
        .ok { sys with tcp := .session { session with voice := voice } }
  | .voice frame => sys.inSession fun session =>
      if session.voice.isSending then some (.ok (sys.send [.udpTunnel frame])) else none
  | .takePacket => sys.inSession fun session =>
      match session.inFlight, sys.packets with
      | none, packet :: packets => some (.ok { sys with
          packets := packets
          tcp := .session { session with inFlight := some packet } })
      | _, _ => none
  | .packetSent sent => sys.inSession fun session =>
      match session.inFlight with
      | none => none
      | some _ =>
          if sent then
            some (.ok { sys with tcp := .session { session with inFlight := none } })
          else
            -- unlike the end of the stream, this keeps the phase
            some (sys.endSession host .tcpError)

/-! ## The UDP task -/

/-- A step of the UDP task. -/
def udpStep (host : Host) (sys : System) : UdpLabel → Option (Eval System)
  | .takeInfo =>
      match sys.udp with
      | .waiting =>
          if sys.connectionInfo.version = sys.udpSeen then none
          else
            let sys := { sys with udpSeen := sys.connectionInfo.version }
            match sys.connectionInfo.value with
            | none => some (.ok sys)
            | some info => some (.ok { sys with udp := .binding info })
      | _ => none
  | .bind bound =>
      match sys.udp with
      | .binding info =>
          if bound then some (.ok { sys with udp := .connecting info })
          else some (.ok { sys with running := false })
      | _ => none
  | .connect =>
      match sys.udp, sys.cryptStates with
      | .connecting info, _ :: cryptStates => some (.ok { sys with
          cryptStates := cryptStates
          udp := .session (.new info) })
      | _, _ => none
  | .poll =>
      match sys.udp with
      | .session session =>
          match runUntil (fun phase => phase = .disconnected) sys.state.phaseWatcher
              session.phaseSeen with
          | .pending => none
          | .seen version =>
              some (.ok { sys with udp := .session { session with phaseSeen := version } })
          | .stopped => some (.ok { sys with udp := .waiting })
      | _ => none
  | .packet packet =>
      match sys.udp with
      | .session session => some do
          let (state, session) ← session.listen host sys.state packet
          .ok { sys with state := state, udp := .session session }
      | _ => none
  | .tick sent =>
      match sys.udp with
      | .session session => some do
          let (state, session) ← session.tick host sys.state sent
          .ok { sys with state := state, udp := .session session }
      | _ => none
  | .newCryptState =>
      match sys.udp, sys.cryptStates with
      | .session _, _ :: cryptStates => some (.ok { sys with cryptStates := cryptStates })
      | _, _ => none

/-! ## All tasks -/

/-- A step of the daemon, on a machine that is in a state of its own at every
step; `none` when the task cannot go on. -/
def step (host : Host) (sys : System) : Label → Option (Eval System)
  | .command command => if sys.running then some (sys.command host command) else none
  | .controllerGone request =>
      if sys.running ∧ request ∈ sys.mailbox.sent.map Prod.fst then some (.ok { sys with
        mailbox := { sys.mailbox with gone := request :: sys.mailbox.gone } })
      else none
  | .tcp label => if sys.running then sys.tcpStep host label else none
  | .udp label => if sys.running then sys.udpStep host label else none

/-- The daemon after a step. -/
def next (sys : System) (label : Host × Label) : Option System :=
  match sys.step label.1 label.2 with
  | some (.ok sys') => some sys'
  | _ => none

/-- A step that does not panic. -/
def Step (sys : System) (label : Host × Label) (sys' : System) : Prop :=
  sys.next label = some sys'

/-- The trace of labels that come on one machine. -/
def follow (host : Host) (sys : System) (labels : List Label) :
    Option (List ((Host × Label) × System)) :=
  Library.follow next sys (labels.map (host, ·))

theorem run_follow {host : Host} {sys : System} {labels : List Label}
    {trace : List ((Host × Label) × System)} (h : sys.follow host labels = some trace) :
    Run Step sys trace :=
  Library.run_follow (fun _ _ _ h => h) h

/-- A controller connects us to a server with one channel, and the server lets
us in. -/
def login (hostname : String) : List Label :=
  let block : Bytes := List.replicate 16 0
  [.command (.serverConnect hostname 64738 "me" none false),
    .tcp .takeInfo, .tcp (.connect .ok), .tcp (.authenticate true),
    .tcp (.packet (.cryptSetup ⟨some block, some block, some block⟩)),
    .tcp (.packet (.channelState { channelId := some 0, name := some "Root" })),
    .tcp (.packet (.userState { session := some 1, name := some "me" })),
    .tcp (.packet (.userState { session := some 2, name := some "you" })),
    .tcp (.packet (.serverSync { session := some 1 }))]

/-! ## What a step leaves alone -/

variable {host : Host} {sys sys' : System}

theorem step_eq_ok {label : Host × Label} (h : Step sys label sys') :
    sys.step label.1 label.2 = some (.ok sys') := by
  unfold Step next at h
  split at h
  next hstep =>
    cases h
    exact hstep
  · cases h

theorem resolve_eq_ok {data : TcpEventData} (h : sys.resolve host data = .ok sys') :
    ∃ eventQueue mailbox, sys' = { sys with eventQueue := eventQueue, mailbox := mailbox } := by
  obtain ⟨⟨eventQueue, mailbox⟩, -, h⟩ := bind_eq_ok.mp h
  cases h
  exact ⟨eventQueue, mailbox, rfl⟩

theorem endSession_eq_ok {reason : DisconnectedReason} (h : sys.endSession host reason = .ok sys') :
    ∃ eventQueue mailbox,
      sys' = { sys with tcp := .waiting, eventQueue := eventQueue, mailbox := mailbox } :=
  resolve_eq_ok h

theorem sendResponses_eq_ok {responses : List Response}
    (h : sys.sendResponses responses = .ok sys') :
    ∃ mailbox, sys' = { sys with mailbox := mailbox } := by
  induction responses generalizing sys with
  | nil =>
      cases h
      exact ⟨_, rfl⟩
  | cons response rest ih =>
      rw [sendResponses] at h
      split at h
      · obtain ⟨mailbox, hmailbox⟩ := ih h
        exact ⟨mailbox, hmailbox⟩
      · cases h

theorem execute_eq_ok {context : ExecutionContext} (h : sys.execute host context = .ok sys') :
    ∃ eventQueue mailbox pingRequests, sys' = { sys with
      eventQueue := eventQueue
      mailbox := mailbox
      pingRequests := pingRequests } := by
  cases context with
  | tcpEventCallback =>
      cases h
      exact ⟨_, sys.mailbox, sys.pingRequests, rfl⟩
  | tcpEventSubscriber =>
      cases h
      exact ⟨_, sys.mailbox, sys.pingRequests, rfl⟩
  | now responses =>
      obtain ⟨mailbox, hmailbox⟩ := sendResponses_eq_ok h
      exact ⟨sys.eventQueue, mailbox, sys.pingRequests, hmailbox⟩
  | ping hostname port =>
      rw [execute] at h
      split at h
      · cases h
        exact ⟨sys.eventQueue, sys.mailbox, _, rfl⟩
      · obtain ⟨mailbox, hmailbox⟩ := sendResponses_eq_ok h
        exact ⟨sys.eventQueue, mailbox, sys.pingRequests, hmailbox⟩

theorem command_eq_ok {command : Command} (h : sys.command host command = .ok sys') :
    ∃ outcome eventQueue mailbox pingRequests,
      handleCommand host sys.state command = .ok outcome ∧
      sys' = { sys.send outcome.packets with
        state := outcome.state
        connectionInfo := outcome.connectionInfo.elim sys.connectionInfo
          fun info => sys.connectionInfo.send (some info)
        eventQueue := eventQueue
        mailbox := mailbox
        requests := sys.requests + 1
        pingRequests := pingRequests
        history := History.made sys.history sys.state.server outcome } := by
  obtain ⟨outcome, houtcome, h⟩ := bind_eq_ok.mp h
  obtain ⟨executed, hexecuted, h⟩ := bind_eq_ok.mp h
  obtain ⟨eventQueue, mailbox, pingRequests, rfl⟩ := execute_eq_ok hexecuted
  cases h
  exact ⟨outcome, eventQueue, mailbox, pingRequests, houtcome, rfl⟩

theorem inSession_eq_some {f : TcpSession → Option (Eval System)} {result : Eval System} :
    sys.inSession f = some result ↔
      ∃ session, sys.tcp = .session session ∧ f session = some result := by
  unfold inSession
  cases sys.tcp <;> simp

/-- The packet is handled, and then the event that it brings is resolved. -/
theorem listen_handled {session : TcpSession} {packet : Clientbound}
    (h : sys.listen host session packet = some (.ok sys')) :
    ∃ handled, handlePacket host sys.state session.listen packet = .ok handled ∧
      let next := { sys with
        state := handled.state
        tcp := .session { session with listen := handled.listen }
        cryptStates := sys.cryptStates ++ handled.cryptState.toList }
      handled.event.elim (.ok next) (next.resolve host) = .ok sys' := by
  unfold listen at h
  cases hhandled : handlePacket host sys.state session.listen packet with
  | error fault =>
      rw [hhandled] at h
      cases h
  | ok handled =>
      simp only [hhandled] at h
      split at h
      · cases h
      · exact ⟨handled, rfl, Option.some.inj h⟩

theorem listen_eq_ok {session : TcpSession} {packet : Clientbound}
    (h : sys.listen host session packet = some (.ok sys')) :
    ∃ handled eventQueue mailbox,
      handlePacket host sys.state session.listen packet = .ok handled ∧
      sys' = { sys with
        state := handled.state
        tcp := .session { session with listen := handled.listen }
        cryptStates := sys.cryptStates ++ handled.cryptState.toList
        eventQueue := eventQueue
        mailbox := mailbox } := by
  obtain ⟨handled, hhandled, h⟩ := listen_handled h
  cases hevent : handled.event with
  | none =>
      rw [hevent] at h
      cases h
      exact ⟨handled, sys.eventQueue, sys.mailbox, hhandled, rfl⟩
  | some data =>
      rw [hevent] at h
      obtain ⟨eventQueue, mailbox, hsys'⟩ := resolve_eq_ok h
      exact ⟨handled, eventQueue, mailbox, hhandled, hsys'⟩

end System

end Mum
