import Mum.State

/-!
# Commands

`handle_command` of `mum/src/state.rs`.  The closures of an `ExecutionContext`
are named by what they capture; running them is the business of the command
task.

`CommandOutcome` is the function read backwards, with one case for each way that a command
can go, and `ContextCase` keeps of it only how the command is answered.  What other modules
prove about all commands goes by these cases.
-/

namespace Mum

open Library Library.Eval Msgs
open Mumlib (ChannelTarget Command CommandResponse MessageTarget Response)

/-- What to answer to a command, and when. -/
inductive ExecutionContext
  /-- When we are connected, or when TLS fails. -/
  | tcpEventCallback
  /-- Whenever a text message comes in. -/
  | tcpEventSubscriber
  | now (responses : List Response)
  /-- When the server answers a ping, if its address resolves. -/
  | ping (host : String) (port : UInt16)
deriving Repr

/-- What a command does: the new state, the packets put on the packet channel,
the connection info published, and the answer. -/
structure Outcome where
  state : State
  packets : List Serverbound := []
  connectionInfo : Option ConnectionInfo := none
  context : ExecutionContext

namespace State

/-- An answer without any effect. -/
def answer (state : State) (response : Response) : Outcome :=
  { state := state, context := .now [response] }

/-! ## Muting and deafening ourselves -/

/-- The mute and deafen flags that `DeafenSelf` asks for, from its argument and
the present flags. -/
def deafenAction : Option Bool → Bool → Bool → Option (Bool × Bool)
  | some false, false, false => none
  | some false, false, true => some (false, false)
  | some false, true, false => none
  | some false, true, true => some (true, false)
  | some true, false, false => some (false, true)
  | some true, false, true => none
  | some true, true, false => some (true, true)
  | some true, true, true => none
  | none, false, false => some (false, true)
  | none, false, true => some (false, false)
  | none, true, false => some (true, true)
  | none, true, true => some (true, false)

/-- The mute and deafen flags that `MuteSelf` asks for. -/
def muteAction : Option Bool → Bool → Bool → Option (Bool × Bool)
  | some false, false, false => none
  | some false, false, true => some (false, false)
  | some false, true, false => some (false, false)
  | some false, true, true => some (false, false)
  | some true, false, false => some (true, false)
  | some true, false, true => none
  | some true, true, false => none
  | some true, true, true => none
  | none, false, false => some (true, false)
  | none, false, true => some (false, false)
  | none, true, false => some (false, false)
  | none, true, true => some (false, false)

/-- The sound of going from the present flags to the ones asked for. -/
def selfEffect (server : ConnectedServer) (mute deafen : Bool) : Option NotificationEvents :=
  if server.deafened ≠ deafen then some (if deafen then .deafen else .undeafen)
  else if server.muted ≠ mute then some (if mute then .mute else .unmute)
  else none

/-- The packet that tells the server about the flags asked for. -/
def selfMessage (server : ConnectedServer) (mute deafen : Bool) : UserState where
  selfMute :=
    if server.muted ≠ mute then some mute
    else if !mute && !deafen && server.deafened then some false
    else none
  selfDeaf := if server.deafened ≠ deafen then some deafen else none

/-- What `DeafenSelf` and `MuteSelf` have in common. -/
def updateSelf (state : State) (server : ConnectedServer) (action : Option (Bool × Bool))
    (response : UserState → Option CommandResponse) : Eval Outcome :=
  match action with
  | none => .ok (state.answer (.ok none))
  | some (mute, deafen) => do
      let state ← (selfEffect server mute deafen).elim (.ok state) state.playEffect
      let msg := selfMessage server mute deafen
      let server := { server with muted := mute, deafened := deafen }
      .ok {
        state := { state with server := .connected server }
        packets := [.userState msg]
        context := .now [.ok (response msg)] }

/-- Nothing is done, or the flags are stored and the server is told. -/
theorem updateSelf_eq_ok (state : State) (server : ConnectedServer)
    (action : Option (Bool × Bool)) (response : UserState → Option CommandResponse) :
    ∃ audioOutput, audioOutput.userVolumes = state.audioOutput.userVolumes ∧
      state.updateSelf server action response = .ok (match action with
        | none => state.answer (.ok none)
        | some (mute, deafen) => {
            state := { state with
              server := .connected { server with muted := mute, deafened := deafen }
              audioOutput := audioOutput }
            packets := [.userState (selfMessage server mute deafen)]
            context := .now [.ok (response (selfMessage server mute deafen))] }) := by
  rcases action with _ | ⟨mute, deafen⟩
  · exact ⟨_, rfl, rfl⟩
  · have hplay : ∃ audioOutput,
        (selfEffect server mute deafen).elim (.ok state) state.playEffect =
            .ok { state with audioOutput := audioOutput } ∧
          audioOutput.userVolumes = state.audioOutput.userVolumes := by
      cases selfEffect server mute deafen with
      | none => exact ⟨_, rfl, rfl⟩
      | some effect => exact state.playEffect_eq_ok effect
    obtain ⟨audioOutput, hplay, hvolumes⟩ := hplay
    refine ⟨audioOutput, hvolumes, ?_⟩
    simp only [updateSelf, hplay, ok_bind]

def deafenSelf (state : State) (server : ConnectedServer) (toggle : Option Bool) : Eval Outcome :=
  state.updateSelf server (deafenAction toggle server.muted server.deafened)
    fun msg => msg.selfDeaf.map .deafenStatus

def muteSelf (state : State) (server : ConnectedServer) (toggle : Option Bool) : Eval Outcome :=
  state.updateSelf server (muteAction toggle server.muted server.deafened)
    fun msg => msg.selfMute.map .muteStatus

/-! ## Users by name -/

/-- The first user with the name. -/
def findUser (users : Users) (username : String) : Option (UInt32 × User) :=
  users.iter.find? fun entry => entry.2.name = username

theorem findUser_eq_some {users : Users} {username : String} {id : UInt32} {user : User}
    (h : findUser users username = some (id, user)) :
    users.lookup id = some user ∧ user.name = username :=
  ⟨HashMap.mem_iter.mp (List.mem_of_find?_eq_some h), by simpa using List.find?_some h⟩

theorem findUser_eq_none_iff {users : Users} {username : String} :
    findUser users username = none ↔
      ∀ id user, users.lookup id = some user → user.name ≠ username := by
  simp [findUser, List.find?_eq_none, HashMap.mem_iter]

def muteOther (state : State) (server : ConnectedServer) (username : String)
    (toggle : Option Bool) : Outcome :=
  match findUser server.users username with
  | none => state.answer (.error (.invalidUsername username))
  | some (id, user) =>
      let action := match toggle with
        | some mute => if user.suppressed ≠ mute then some mute else none
        | none => some (!user.suppressed)
      match action with
      | none => state.answer (.ok none)
      | some action =>
          -- the flag is stored with the user and with the volumes
          let users := server.users.replace id (user.setSuppressed action)
          let state := { state with
            server := .connected { server with users := users }
            audioOutput := state.audioOutput.setMute id action }
          state.answer (.ok none)

def userVolumeSet (state : State) (server : ConnectedServer) (username : String) (volume : F32) :
    Outcome :=
  match findUser server.users username with
  | none => state.answer (.error (.invalidUsername username))
  | some (id, _) =>
      let state := { state with audioOutput := state.audioOutput.setUserVolume id volume }
      state.answer (.ok none)

/-! ## Text messages -/

/-- Adds the channels that a message is sent to, up to the first that is not
found. -/
def pushChannels (host : Host) (server : ConnectedServer) :
    TextMessage → List (ChannelTarget × Bool) → Eval (Except Mumlib.Error TextMessage)
  | msg, [] => .ok (.ok msg)
  | msg, (channel, recursive) :: rest => do
      let id ← (match channel with
        | .named name => do
            match ← server.channelName host.toLowercase name with
            | .ok channel => return .ok channel.1
            | .error e => return .error (.channelIdentifierError name e)
        | .current => do
            let channel ← server.currentChannel
            return .ok channel.1 : Eval (Except Mumlib.Error UInt32))
      match id with
      | .error e => .ok (.error e)
      | .ok id =>
          -- a recursive target goes to the whole tree below the channel
          let msg := if recursive then { msg with treeId := msg.treeId ++ [id] }
            else { msg with channelId := msg.channelId ++ [id] }
          pushChannels host server msg rest

/-- Adds the users that a message is sent to, up to the first that is not found. -/
def pushUsers (server : ConnectedServer) :
    TextMessage → List String → Except Mumlib.Error TextMessage
  | msg, [] => .ok msg
  | msg, name :: rest =>
      match findUser server.users name with
      | none => .error (.invalidUsername name)
      | some (id, _) => pushUsers server { msg with session := msg.session ++ [id] } rest

def sendMessage (host : Host) (state : State) (server : ConnectedServer) (message : String)
    (targets : MessageTarget) : Eval Outcome := do
  let msg : TextMessage := { message := some message }
  let msg ← (match targets with
    | .channel channels => pushChannels host server msg channels
    | .user names => .ok (pushUsers server msg names) : Eval (Except Mumlib.Error TextMessage))
  match msg with
  | .error e => .ok (state.answer (.error e))
  | .ok msg =>
      .ok { state := state, packets := [.textMessage msg], context := .now [.ok none] }

/-- The stored messages with the names of their senders. -/
def pastMessages (state : State) (messages : List (Mumlib.NaiveDateTime × String × UInt32)) :
    Eval (List Response) :=
  messages.mapM fun message => do
    let user ← unwrap (state.getUserName message.2.2)
    return .ok (some (.pastMessage message.1 message.2.1 user))

/-! ## Connecting -/

def serverConnect (host : Host) (state : State) (hostname : String) (port : UInt16)
    (username : String) (password : Option String) (acceptInvalidCert : Bool) : Outcome :=
  let server := ConnectingServer.new (hostname ++ ":" ++ toString port.toNat) username password
  -- both are set before the address is resolved
  let state := { state with server := .connecting server }
  let state := state.broadcastPhase .connecting
  match host.toSocketAddrs hostname port with
  | some (socketAddr :: _) =>
      { state := state
        connectionInfo := some ⟨socketAddr, hostname, acceptInvalidCert⟩
        context := .tcpEventCallback }
  | _ => state.answer (.error (.invalidServerAddr hostname port))

def serverDisconnect (state : State) : Eval Outcome := do
  let state := { state with server := .disconnected }
  let state ← (state.broadcastPhase .disconnected).playEffect .serverDisconnect
  .ok (state.answer (.ok none))

end State

open State in
/-- Handles a command. -/
def handleCommand (host : Host) (state : State) : Command → Eval Outcome
  | .channelJoin channelIdentifier =>
      match state.server with
      | .connected s => do
          match ← s.channelName host.toLowercase channelIdentifier with
          | .error e =>
              return state.answer (.error (.channelIdentifierError channelIdentifier e))
          | .ok channel =>
              return {
                state := state
                packets := [.userState
                  { session := some s.sessionId, channelId := some channel.1 }]
                context := .now [.ok none] }
      | _ => .ok (state.answer (.error .disconnected))
  | .channelList =>
      match state.server with
      | .connected s => do
          let list ← intoChannel host.order s.channels s.users
          return state.answer (.ok (some (.channelList list)))
      | _ => .ok (state.answer (.error .disconnected))
  | .configReload => do
      let state ← state.reloadConfig host
      return state.answer (.ok none)
  | .deafenSelf toggle =>
      match state.server with
      | .connected s => state.deafenSelf s toggle
      | _ => .ok (state.answer (.error .disconnected))
  | .events block =>
      if block then .ok (state.answer (.error .unimplemented))
      else .ok {
        state := state
        context := .now (state.events.map fun event => .ok (some (.event event))) }
  | .inputVolumeSet volume =>
      let state := { state with audioInput := state.audioInput.setVolume volume }
      .ok (state.answer (.ok none))
  | .muteOther username toggle =>
      match state.server with
      | .connected s => .ok (state.muteOther s username toggle)
      | _ => .ok (state.answer (.error .disconnected))
  | .muteSelf toggle =>
      match state.server with
      | .connected s => state.muteSelf s toggle
      | _ => .ok (state.answer (.error .disconnected))
  | .outputVolumeSet volume =>
      let state := { state with audioOutput := state.audioOutput.setVolume volume }
      .ok (state.answer (.ok none))
  | .ping => .ok (state.answer (.ok (some .pong)))
  | .serverConnect hostname port username password acceptInvalidCert =>
      match state.server with
      | .disconnected =>
          .ok (state.serverConnect host hostname port username password acceptInvalidCert)
      | _ => .ok (state.answer (.error .disconnected))
  | .serverDisconnect =>
      match state.server with
      | .connected _ => state.serverDisconnect
      | _ => .ok (state.answer (.error .disconnected))
  | .serverStatus hostname port => .ok { state := state, context := .ping hostname port }
  | .status =>
      match state.server with
      | .connected s => do
          let serverState ← s.toMumlib host.order
          return state.answer (.ok (some (.status serverState)))
      | _ => .ok (state.answer (.error .disconnected))
  | .userVolumeSet username volume =>
      match state.server with
      | .connected s => .ok (state.userVolumeSet s username volume)
      | _ => .ok (state.answer (.error .disconnected))
  | .pastMessages block =>
      match state.server with
      | .connected _ =>
          if block then .ok { state := state, context := .tcpEventSubscriber }
          else do
            let messages := state.messageBuffer
            let state := { state with messageBuffer := [] }
            let responses ← state.pastMessages messages
            return { state := state, context := .now responses }
      | _ => .ok (state.answer (.error .disconnected))
  | .sendMessage message targets =>
      match state.server with
      | .connected s => state.sendMessage host s message targets
      | _ => .ok (state.answer (.error .disconnected))

/-- Most commands do something for a connected client only, and are refused
otherwise. -/
theorem of_connected {state : State} {f : ConnectedServer → Eval Outcome} {outcome : Outcome}
    {P : Outcome → Prop}
    (h : (match state.server with
      | .connected s => f s
      | _ => .ok (state.answer (.error .disconnected))) = .ok outcome)
    (hanswer : P (state.answer (.error .disconnected)))
    (hf : ∀ s, state.server = .connected s → f s = .ok outcome → P outcome) : P outcome := by
  cases hserver : state.server with
  | connected s =>
      rw [hserver] at h
      exact hf s hserver h
  | disconnected =>
      rw [hserver] at h
      cases h
      exact hanswer
  | connecting sb =>
      rw [hserver] at h
      cases h
      exact hanswer

/-- What a command comes to once its lookups are done. -/
inductive CommandOutcome (host : Host) (state : State) : Command → Outcome → Prop
  /-- The answer is all: a refusal, a result, or nothing to be done. -/
  | answer {command : Command} (response : Response) :
      CommandOutcome host state command (state.answer response)
  | send {command : Command} (packet : Serverbound) :
      CommandOutcome host state command
        { state := state, packets := [packet], context := .now [.ok none] }
  | updateSelf {command : Command} {s : ConnectedServer} {action : Option (Bool × Bool)}
      {response : UserState → Option CommandResponse} {outcome : Outcome}
      (hserver : state.server = .connected s)
      (h : state.updateSelf s action response = .ok outcome) :
      CommandOutcome host state command outcome
  | configReload {state' : State} (h : state.reloadConfig host = .ok state') :
      CommandOutcome host state .configReload (state'.answer (.ok none))
  | events : CommandOutcome host state (.events false)
      { state := state
        context := .now (state.events.map fun event => .ok (some (.event event))) }
  | inputVolumeSet (volume : F32) :
      CommandOutcome host state (.inputVolumeSet volume)
        (State.answer { state with audioInput := state.audioInput.setVolume volume } (.ok none))
  | muteOther {s : ConnectedServer} (hserver : state.server = .connected s) (username : String)
      (toggle : Option Bool) :
      CommandOutcome host state (.muteOther username toggle) (state.muteOther s username toggle)
  | outputVolumeSet (volume : F32) :
      CommandOutcome host state (.outputVolumeSet volume)
        (State.answer { state with audioOutput := state.audioOutput.setVolume volume } (.ok none))
  | subscribe : CommandOutcome host state (.pastMessages true)
      { state := state, context := .tcpEventSubscriber }
  | pastMessages {responses : List Response}
      (h : State.pastMessages { state with messageBuffer := [] } state.messageBuffer =
        .ok responses) :
      CommandOutcome host state (.pastMessages false)
        { state := { state with messageBuffer := [] }, context := .now responses }
  | serverConnect (hserver : state.server = .disconnected) (hostname : String) (port : UInt16)
      (username : String) (password : Option String) (acceptInvalidCert : Bool) :
      CommandOutcome host state
        (.serverConnect hostname port username password acceptInvalidCert)
        (state.serverConnect host hostname port username password acceptInvalidCert)
  | serverDisconnect {s : ConnectedServer} {outcome : Outcome}
      (hserver : state.server = .connected s) (h : state.serverDisconnect = .ok outcome) :
      CommandOutcome host state .serverDisconnect outcome
  | serverStatus (hostname : String) (port : UInt16) :
      CommandOutcome host state (.serverStatus hostname port)
        { state := state, context := .ping hostname port }
  | userVolumeSet {s : ConnectedServer} (hserver : state.server = .connected s)
      (username : String) (volume : F32) :
      CommandOutcome host state (.userVolumeSet username volume)
        (state.userVolumeSet s username volume)

open CommandOutcome in
theorem handleCommand_eq_ok {host : Host} {state : State} {command : Command} {outcome : Outcome}
    (h : handleCommand host state command = .ok outcome) :
    CommandOutcome host state command outcome := by
  cases command with
  | channelJoin channelIdentifier =>
      refine of_connected h (answer _) fun s _ h => ?_
      obtain ⟨found, -, h⟩ := bind_eq_ok.mp h
      cases found with
      | error e =>
          cases h
          exact answer _
      | ok channel =>
          cases h
          exact send _
  | channelList =>
      refine of_connected h (answer _) fun s _ h => ?_
      obtain ⟨list, -, h⟩ := bind_eq_ok.mp h
      cases h
      exact answer _
  | configReload =>
      obtain ⟨state', hstate, h⟩ := bind_eq_ok.mp h
      cases h
      exact configReload hstate
  | deafenSelf toggle => exact of_connected h (answer _) fun s hserver h => updateSelf hserver h
  | events block =>
      cases block with
      | true =>
          cases h
          exact answer _
      | false =>
          cases h
          exact events
  | inputVolumeSet volume =>
      cases h
      exact inputVolumeSet volume
  | muteOther username toggle =>
      refine of_connected h (answer _) fun s hserver h => ?_
      cases h
      exact muteOther hserver username toggle
  | muteSelf toggle => exact of_connected h (answer _) fun s hserver h => updateSelf hserver h
  | outputVolumeSet volume =>
      cases h
      exact outputVolumeSet volume
  | pastMessages block =>
      refine of_connected h (answer _) fun s _ h => ?_
      cases block with
      | true =>
          cases h
          exact subscribe
      | false =>
          obtain ⟨responses, hresponses, h⟩ := bind_eq_ok.mp h
          cases h
          exact pastMessages hresponses
  | ping =>
      cases h
      exact answer _
  | sendMessage message targets =>
      refine of_connected h (answer _) fun s _ h => ?_
      obtain ⟨msg, -, h⟩ := bind_eq_ok.mp h
      cases msg with
      | error e =>
          cases h
          exact answer _
      | ok msg =>
          cases h
          exact send _
  | serverConnect hostname port username password acceptInvalidCert =>
      rw [handleCommand] at h
      cases hserver : state.server with
      | disconnected =>
          rw [hserver] at h
          cases h
          exact serverConnect hserver hostname port username password acceptInvalidCert
      | connecting sb =>
          rw [hserver] at h
          cases h
          exact answer _
      | connected s =>
          rw [hserver] at h
          cases h
          exact answer _
  | serverDisconnect =>
      exact of_connected h (answer _) fun s hserver h => serverDisconnect hserver h
  | serverStatus hostname port =>
      cases h
      exact serverStatus hostname port
  | status =>
      refine of_connected h (answer _) fun s _ h => ?_
      obtain ⟨serverState, -, h⟩ := bind_eq_ok.mp h
      cases h
      exact answer _
  | userVolumeSet username volume =>
      refine of_connected h (answer _) fun s hserver h => ?_
      cases h
      exact userVolumeSet hserver username volume

/-- How a command is answered. -/
inductive ContextCase (state : State) : Command → Outcome → Prop
  | response {command : Command} {outcome : Outcome} {response : Response}
      (hcontext : outcome.context = .now [response]) : ContextCase state command outcome
  | events {outcome : Outcome} {responses : List Response}
      (hcontext : outcome.context = .now responses) : ContextCase state (.events false) outcome
  | pastMessages {outcome : Outcome} {responses : List Response}
      (hcontext : outcome.context = .now responses) :
      ContextCase state (.pastMessages false) outcome
  | subscribe {outcome : Outcome} (hcontext : outcome.context = .tcpEventSubscriber) :
      ContextCase state (.pastMessages true) outcome
  | serverConnect {command : Command} {outcome : Outcome} {sb : ConnectingServer}
      (hserver : state.server = .disconnected) (hserver' : outcome.state.server = .connecting sb)
      (hcontext : outcome.context = .tcpEventCallback) : ContextCase state command outcome
  | serverStatus {hostname : String} {port : UInt16} {outcome : Outcome}
      (hcontext : outcome.context = .ping hostname port) :
      ContextCase state (.serverStatus hostname port) outcome

theorem CommandOutcome.context_cases {host : Host} {state : State} {command : Command}
    {outcome : Outcome} (h : CommandOutcome host state command outcome) :
    ContextCase state command outcome := by
  cases h with
  | answer | send | configReload | inputVolumeSet | outputVolumeSet => exact .response rfl
  | events => exact .events rfl
  | pastMessages => exact .pastMessages rfl
  | subscribe => exact .subscribe rfl
  | serverStatus => exact .serverStatus rfl
  | @updateSelf command s action response outcome hserver h =>
      obtain ⟨audioOutput, -, houtcome⟩ := state.updateSelf_eq_ok s action response
      cases houtcome.symm.trans h
      cases action with
      | none => exact .response rfl
      | some flags => exact .response rfl
  | muteOther hserver username toggle =>
      unfold State.muteOther
      split
      · exact .response rfl
      · dsimp only
        split
        · exact .response rfl
        · exact .response rfl
  | serverConnect hserver hostname port username password acceptInvalidCert =>
      unfold State.serverConnect
      split
      · exact .serverConnect hserver rfl rfl
      · exact .response rfl
  | serverDisconnect hserver h =>
      obtain ⟨state', -, h⟩ := bind_eq_ok.mp h
      cases h
      exact .response rfl
  | userVolumeSet hserver username volume =>
      unfold State.userVolumeSet
      split
      · exact .response rfl
      · exact .response rfl

end Mum
