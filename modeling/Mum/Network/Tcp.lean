import Mum.State.HandleCommand

/-!
# The TCP connection

`mum/src/network/tcp.rs`: the queue of callbacks for TCP events, and `listen`,
which handles the control packets of the server.

A callback answers with `connectResponse`, and a subscriber with `messageResponse`.
`Handles` lists what a packet comes to, for the proofs that go by packets.
-/

namespace Mum

open Library Library.Eval Msgs
open Mumlib (CommandResponse Response)

/-- Why the TCP was disconnected. -/
inductive DisconnectedReason
  | invalidTls
  | user
  | tcpError
deriving DecidableEq, Repr

/-- Something a callback can register to. -/
inductive TcpEvent
  | connected
  | disconnected (reason : DisconnectedReason)
  | textMessage
deriving DecidableEq, Repr

/-- When a `TcpEvent` occurs, this contains the data for the event. -/
inductive TcpEventData
  | connected (result : Except Mumlib.Error ServerSync)
  | disconnected (reason : DisconnectedReason)
  | textMessage (msg : TextMessage)

def TcpEventData.event : TcpEventData → TcpEvent
  | connected _ => .connected
  | disconnected reason => .disconnected reason
  | textMessage _ => .textMessage

/-! ## Callbacks -/

/-- A command that waits for events, by its number. -/
abbrev Request := ℕ

/-- The requests that registered for events.  The callbacks of one request share
a flag that lets only one of them run; `handled` holds the requests whose flag is
taken. -/
structure TcpEventQueue where
  callbacks : HashMap TcpEvent (List Request)
  subscribers : HashMap TcpEvent (List Request)
  handled : List Request
deriving DecidableEq

namespace TcpEventQueue

def new : TcpEventQueue := ⟨∅, ∅, []⟩

def registerCallback (queue : TcpEventQueue) (event : TcpEvent) (request : Request) :
    TcpEventQueue :=
  { queue with callbacks := queue.callbacks.upsert event [request] (· ++ [request]) }

def registerSubscriber (queue : TcpEventQueue) (event : TcpEvent) (request : Request) :
    TcpEventQueue :=
  { queue with subscribers := queue.subscribers.upsert event [request] (· ++ [request]) }

end TcpEventQueue

/-- What a `ServerConnect` answers when the event it waits for occurs. -/
def connectResponse (host : Host) (state : State) : TcpEventData → Eval Response
  | .connected (.ok msg) =>
      match state.server with
      | .connected s => do
          let serverState ← s.toMumlib host.order
          .ok (.ok (some (.serverConnect msg.welcomeText serverState)))
      | _ => .error .panic
  | .connected (.error e) => .ok (.error e)
  | .disconnected .invalidTls => .ok (.error .serverCertReject)
  | _ => .error .panic

/-- What a blocking `PastMessages` sends for an event. -/
def messageResponse (host : Host) (state : State) : TcpEventData → Eval Response
  | .textMessage msg => do
      let user ← unwrap (state.getUserName msg.getActor)
      .ok (.ok (some (.pastMessage host.now msg.getMessage user)))
  | _ => .error .panic

/-- Sends a response.  Nobody reads the responses of a request whose controller
is gone. -/
structure Mailbox where
  gone : List Request
  sent : List (Request × Response)

namespace Mailbox

/-- `sender.send(..).is_ok()`. -/
def isOpen (mailbox : Mailbox) (request : Request) : Bool := !mailbox.gone.contains request

def send (mailbox : Mailbox) (request : Request) (response : Response) : Mailbox :=
  if mailbox.isOpen request then { mailbox with sent := mailbox.sent ++ [(request, response)] }
  else mailbox

end Mailbox

namespace TcpEventQueue

/-- Runs the callbacks of an event, each if its request is still unhandled. -/
def runCallbacks (host : Host) (state : State) (data : TcpEventData) :
    List Request → List Request × Mailbox → Eval (List Request × Mailbox)
  | [], acc => .ok acc
  | request :: rest, (handled, mailbox) =>
      if request ∈ handled then runCallbacks host state data rest (handled, mailbox)
      else do
        let response ← connectResponse host state data
        if mailbox.isOpen request then
          runCallbacks host state data rest (request :: handled, mailbox.send request response)
        else
          -- the send is unwrapped, and the controller is gone
          .error .panic

/-- Runs the subscribers of an event and keeps those whose controller is there. -/
def runSubscribers (host : Host) (state : State) (data : TcpEventData) :
    List Request → Mailbox → Eval (List Request × Mailbox)
  | [], mailbox => .ok ([], mailbox)
  | request :: rest, mailbox => do
      let response ← messageResponse host state data
      let kept := mailbox.isOpen request
      let (subscribers, mailbox) ←
        runSubscribers host state data rest (mailbox.send request response)
      .ok (if kept then request :: subscribers else subscribers, mailbox)

/-- Fires all callbacks related to a TCP event and removes them; calls all
subscribers, but keeps them. -/
def resolve (host : Host) (state : State) (queue : TcpEventQueue) (mailbox : Mailbox)
    (data : TcpEventData) : Eval (TcpEventQueue × Mailbox) := do
  let old := (queue.callbacks.lookup data.event).getD []
  let (handled, mailbox) ← runCallbacks host state data old (queue.handled, mailbox)
  let queue := { queue with
    callbacks := queue.callbacks.replace data.event []
    handled := handled }
  let old := (queue.subscribers.lookup data.event).getD []
  let (subscribers, mailbox) ← runSubscribers host state data old mailbox
  .ok ({ queue with subscribers := queue.subscribers.replace data.event subscribers }, mailbox)

end TcpEventQueue

/-! ## Packets -/

/-- A key or a nonce of the voice encryption. -/
abbrev Block := { bytes : Bytes // bytes.length = 16 }

/-- `try_into::<[u8; 16]>`. -/
def Block.tryInto (bytes : Bytes) : Option Block :=
  if h : bytes.length = 16 then some ⟨bytes, h⟩ else none

structure ClientCryptState where
  key : Block
  clientNonce : Block
  serverNonce : Block
deriving DecidableEq

/-- The local variables of `listen`. -/
structure Listen where
  cryptState : Option ClientCryptState
  /-- Whether the sender for crypt states was not yet used. -/
  cryptStateSender : Bool
  lastLate : UInt32
  lastLost : UInt32
  lastResync : UInt32
deriving DecidableEq

def Listen.new : Listen := ⟨none, true, 0, 0, 0⟩

/-- What handling a packet does: the new state and variables, the crypt state
that is sent to the UDP task, and the event that is resolved. -/
structure Handled where
  state : State
  listen : Listen
  cryptState : Option ClientCryptState := none
  event : Option TcpEventData := none

/-- Subtraction on `u32`. -/
def subU32 (host : Host) (a b : UInt32) : Eval UInt32 :=
  if host.overflowChecks ∧ a < b then .error .panic else .ok (a - b)

/-- Addition on `u32`. -/
def addU32 (host : Host) (a b : UInt32) : Eval UInt32 :=
  if host.overflowChecks ∧ UInt32.size ≤ a.toNat + b.toNat then .error .panic else .ok (a + b)

/-- The event of a text message, if we know who sent it. -/
def textMessageNews (state : State) (msg : TextMessage) : Option Mumlib.MumbleEventKind :=
  match state.server with
  | .connected s =>
      (s.users.lookup msg.getActor).map fun user => .textMessageReceived user.name
  | _ => none

/-- `ServerSync` completes the login of a server that is connecting. -/
def State.serverSync (state : State) (msg : ServerSync) : Eval State :=
  match state.server with
  | .connecting sb => State.initialized { state with server := .connected (sb.serverSync msg) }
  | _ => .ok state

/-- The login completes when we are connecting. -/
theorem State.serverSync_eq_ok {state : State} {sb : ConnectingServer}
    (hserver : state.server = .connecting sb) (msg : ServerSync) :
    ∃ audioOutput, state.serverSync msg = .ok { state with
      server := .connected (sb.serverSync msg)
      phaseWatcher := state.phaseWatcher.send (.connected .tcp)
      audioOutput := audioOutput } ∧
      audioOutput.userVolumes = state.audioOutput.userVolumes := by
  obtain ⟨audioOutput, hplay, hvolumes⟩ := State.playEffect_eq_ok
    (State.broadcastPhase { state with server := .connected (sb.serverSync msg) }
      (.connected .tcp)) .serverConnect
  refine ⟨audioOutput, ?_, hvolumes⟩
  rw [State.serverSync, hserver]
  exact hplay

/-- `ChannelState` counts while we are connecting. -/
def State.channelState (state : State) (msg : ChannelState) : State :=
  match state.server with
  | .connecting sb => { state with server := .connecting (sb.channelState msg) }
  | _ => state

def State.channelRemove (state : State) (msg : ChannelRemove) : State :=
  match state.server with
  | .connecting sb => { state with server := .connecting (sb.channelRemove msg) }
  | .connected s => { state with server := .connected (s.channelRemove msg) }
  | .disconnected => state

/-- Handles a packet of the server. -/
def handlePacket (host : Host) (state : State) (listen : Listen) : Clientbound → Eval Handled
  | .textMessage msg =>
      let state := (textMessageNews state msg).elim state (state.pushEvent host)
      .ok {
        state := state.registerMessage host msg.getMessage msg.getActor
        listen := listen
        event := some (.textMessage msg) }
  | .cryptSetup msg => do
      let key ← unwrap (Block.tryInto msg.getKey)
      let clientNonce ← unwrap (Block.tryInto msg.getClientNonce)
      let serverNonce ← unwrap (Block.tryInto msg.getServerNonce)
      .ok {
        state := state
        listen := { listen with cryptState := some ⟨key, clientNonce, serverNonce⟩ } }
  | .serverSync msg =>
      -- the crypt state goes to the UDP task with the first `ServerSync` only
      if listen.cryptStateSender then do
        let cryptState ← unwrap listen.cryptState
        let state ← state.serverSync msg
        .ok {
          state := state
          listen := { listen with cryptState := none, cryptStateSender := false }
          cryptState := some cryptState
          event := some (.connected (.ok msg)) }
      else do
        let state ← state.serverSync msg
        .ok { state := state, listen := listen, event := some (.connected (.ok msg)) }
  | .reject msg =>
      match msg.getFieldType with
      | .wrongServerPW => .ok {
          state := state
          listen := listen
          event := some (.connected (.error .invalidServerPassword)) }
      | _ =>
          -- other types are only logged
          .ok { state := state, listen := listen }
  | .userState msg => do
      let state ← state.userState host msg
      .ok { state := state, listen := listen }
  | .userRemove msg => do
      let state ← state.removeUser host msg
      .ok { state := state, listen := listen }
  | .channelState msg => .ok { state := state.channelState msg, listen := listen }
  | .channelRemove msg => .ok { state := state.channelRemove msg, listen := listen }
  | .udpTunnel (.ping _) => .ok { state := state, listen := listen }
  | .udpTunnel (.audio sessionId _ payload) => do
      let audioOutput ← state.audioOutput.decodePacketPayload host.opus .tcp sessionId payload
      .ok { state := { state with audioOutput := audioOutput }, listen := listen }
  | .ping msg => do
      let late ← subU32 host msg.getLate listen.lastLate
      let lost ← subU32 host msg.getLost listen.lastLost
      let resync ← subU32 host msg.getResync listen.lastResync
      let lastLate ← addU32 host listen.lastLate late
      let lastLost ← addU32 host listen.lastLost lost
      let lastResync ← addU32 host listen.lastResync resync
      .ok {
        state := state
        listen := { listen with
          lastLate := lastLate
          lastLost := lastLost
          lastResync := lastResync } }
  | .authenticate _ => .ok { state := state, listen := listen }
  | .unhandled => .ok { state := state, listen := listen }

/-- What is left of the state by a packet that was handled, and the event that is resolved
with it. -/
inductive Handles (host : Host) (state : State) :
    Clientbound → State → Option TcpEventData → Prop
  | textMessage (msg : TextMessage) :
      Handles host state (.textMessage msg)
        (((textMessageNews state msg).elim state (state.pushEvent host)).registerMessage host
          msg.getMessage msg.getActor) (some (.textMessage msg))
  | cryptSetup (msg : CryptSetup) : Handles host state (.cryptSetup msg) state none
  | serverSync {msg : ServerSync} {state' : State} (hstate : state.serverSync msg = .ok state') :
      Handles host state (.serverSync msg) state' (some (.connected (.ok msg)))
  | wrongPassword {msg : Reject} (htype : msg.getFieldType = .wrongServerPW) :
      Handles host state (.reject msg) state (some (.connected (.error .invalidServerPassword)))
  | reject {msg : Reject} (htype : msg.getFieldType ≠ .wrongServerPW) :
      Handles host state (.reject msg) state none
  | userState {msg : UserState} {state' : State} (hstate : state.userState host msg = .ok state') :
      Handles host state (.userState msg) state' none
  | userRemove {msg : UserRemove} {state' : State}
      (hstate : state.removeUser host msg = .ok state') :
      Handles host state (.userRemove msg) state' none
  | channelState (msg : ChannelState) :
      Handles host state (.channelState msg) (state.channelState msg) none
  | channelRemove (msg : ChannelRemove) :
      Handles host state (.channelRemove msg) (state.channelRemove msg) none
  | voicePing (timestamp : UInt64) : Handles host state (.udpTunnel (.ping timestamp)) state none
  | audio {sessionId : UInt32} {payload : VoicePacketPayload} {audioOutput : AudioOutput F32}
      (seqNum : UInt64)
      (haudio : state.audioOutput.decodePacketPayload host.opus .tcp sessionId payload =
        .ok audioOutput) :
      Handles host state (.udpTunnel (.audio sessionId seqNum payload))
        { state with audioOutput := audioOutput } none
  | ping (msg : Ping) : Handles host state (.ping msg) state none
  | authenticate (msg : Authenticate) : Handles host state (.authenticate msg) state none
  | unhandled : Handles host state .unhandled state none

/-- Every packet that is handled is one of the cases. -/
theorem handles_of_handlePacket {host : Host} {state : State} {listen : Listen}
    {packet : Clientbound} {handled : Handled}
    (h : handlePacket host state listen packet = .ok handled) :
    Handles host state packet handled.state handled.event := by
  cases packet with
  | textMessage msg =>
      cases h
      exact .textMessage msg
  | cryptSetup msg =>
      obtain ⟨key, -, h⟩ := bind_eq_ok.mp h
      obtain ⟨clientNonce, -, h⟩ := bind_eq_ok.mp h
      obtain ⟨serverNonce, -, h⟩ := bind_eq_ok.mp h
      cases h
      exact .cryptSetup msg
  | serverSync msg =>
      rw [handlePacket] at h
      split at h
      · obtain ⟨cryptState, -, h⟩ := bind_eq_ok.mp h
        obtain ⟨state', hstate, h⟩ := bind_eq_ok.mp h
        cases h
        exact .serverSync hstate
      · obtain ⟨state', hstate, h⟩ := bind_eq_ok.mp h
        cases h
        exact .serverSync hstate
  | reject msg =>
      rw [handlePacket] at h
      split at h
      next htype =>
        cases h
        exact .wrongPassword htype
      next htype =>
        cases h
        exact .reject htype
  | userState msg =>
      obtain ⟨state', hstate, h⟩ := bind_eq_ok.mp h
      cases h
      exact .userState hstate
  | userRemove msg =>
      obtain ⟨state', hstate, h⟩ := bind_eq_ok.mp h
      cases h
      exact .userRemove hstate
  | channelState msg =>
      cases h
      exact .channelState msg
  | channelRemove msg =>
      cases h
      exact .channelRemove msg
  | udpTunnel voice =>
      cases voice with
      | ping timestamp =>
          cases h
          exact .voicePing timestamp
      | audio sessionId seqNum payload =>
          obtain ⟨audioOutput, haudio, h⟩ := bind_eq_ok.mp h
          cases h
          exact .audio seqNum haudio
  | ping msg =>
      obtain ⟨late, -, h⟩ := bind_eq_ok.mp h
      obtain ⟨lost, -, h⟩ := bind_eq_ok.mp h
      obtain ⟨resync, -, h⟩ := bind_eq_ok.mp h
      obtain ⟨lastLate, -, h⟩ := bind_eq_ok.mp h
      obtain ⟨lastLost, -, h⟩ := bind_eq_ok.mp h
      obtain ⟨lastResync, -, h⟩ := bind_eq_ok.mp h
      cases h
      exact .ping msg
  | authenticate msg =>
      cases h
      exact .authenticate msg
  | unhandled =>
      cases h
      exact .unhandled

end Mum
