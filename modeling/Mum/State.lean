import Mum.Audio
import Mum.Library.Watch
import Mum.Mumlib.Command
import Mum.State.Server

/-!
# The state of the daemon

`mum/src/state.rs` up to the commands: the state that all tasks share, and what
`UserState` and `UserRemove` packets do to it.  Desktop notifications and log
lines are left out.
-/

namespace Mum

open Library Library.Eval Msgs
open Mumlib (MumbleEvent MumbleEventKind NaiveDateTime)

/-- What the daemon asks the machine it runs on. -/
structure Host where
  /-- `Local::now`. -/
  now : NaiveDateTime
  /-- `to_socket_addrs`; `none` when the name does not resolve. -/
  toSocketAddrs : String → UInt16 → Option (List SocketAddr)
  /-- `str::to_lowercase`. -/
  toLowercase : String → String
  /-- The text of the configuration file. -/
  configFile : Option String
  /-- The parser for configuration files. -/
  fromStr : String → Option Mumlib.Config
  sounds : SoundHost
  opus : Opus F32
  /-- The iteration order of the hash maps that are made on the way. -/
  order : HashOrder
  /-- Whether overflow of an integer operation panics. -/
  overflowChecks : Bool

/-- A machine without network and files. -/
def Host.offline : Host where
  now := 0
  toSocketAddrs := fun _ _ => none
  toLowercase := String.toLower
  configFile := none
  fromStr := fun _ => none
  sounds := .silent
  opus := emptyFrames
  order := .insertion
  overflowChecks := false

/-- A machine on which all names resolve. -/
def Host.online : Host :=
  { Host.offline with toSocketAddrs := fun _ port => some [⟨0, port⟩] }

inductive StatePhase
  | disconnected
  | connecting
  | connected (voice : VoiceStreamType)
deriving DecidableEq, Repr

structure State where
  config : Mumlib.Config
  server : Server
  audioInput : AudioInput
  audioOutput : AudioOutput F32
  messageBuffer : List (NaiveDateTime × String × UInt32)
  phaseWatcher : Watch StatePhase
  events : List MumbleEvent

namespace State

/-- A daemon that nothing has happened to yet, at a server. -/
def fresh (server : Server) (phase : StatePhase) : State where
  config := {}
  server := server
  audioInput := ⟨F32.one⟩
  audioOutput := .silent
  messageBuffer := []
  phaseWatcher := .new phase
  events := []

/-- A daemon that is connected to a server. -/
def onServer (s : ConnectedServer) : State := fresh (.connected s) (.connected .tcp)

/-- A daemon that was just started. -/
def idle : State := fresh .disconnected .disconnected

end State

namespace State

/-- Stores a new event. -/
def pushEvent (host : Host) (state : State) (kind : MumbleEventKind) : State :=
  { state with events := state.events ++ [⟨host.now, kind⟩] }

def broadcastPhase (state : State) (phase : StatePhase) : State :=
  { state with phaseWatcher := state.phaseWatcher.send phase }

def playEffect (state : State) (effect : NotificationEvents) : Eval State := do
  let audioOutput ← state.audioOutput.playEffect effect
  .ok { state with audioOutput := audioOutput }

def initialized (state : State) : Eval State :=
  (state.broadcastPhase (.connected .tcp)).playEffect .serverConnect

def registerMessage (host : Host) (state : State) (message : String) (user : UInt32) : State :=
  { state with messageBuffer := state.messageBuffer ++ [(host.now, message, user)] }

/-- Our own name at the server. -/
def username (state : State) : Option String :=
  match state.server with
  | .disconnected => none
  | .connecting sb => some sb.username
  | .connected s => some s.username

def password (state : State) : Option String :=
  match state.server with
  | .disconnected => none
  | .connecting sb => sb.password
  | .connected _ => none

/-- The name of a user of the server that we are connected to. -/
def getUserName (state : State) (user : UInt32) : Option String :=
  match state.server with
  | .disconnected => none
  | .connecting _ => none
  | .connected s =>
      some (((s.users.lookup user).map User.name).getD
        ("Unknown user " ++ toString user.toNat))

/-! ## Configuration -/

/-- The configuration of the file, if it can be read. -/
def readConfig (host : Host) (state : State) : State :=
  match Mumlib.readCfg host.fromStr host.configFile with
  | some config => { state with config := config }
  | none => state

/-- The volumes that the configuration sets. -/
def applyVolumes (state : State) : State :=
  let state := match state.config.audio.bind Mumlib.AudioConfig.inputVolume with
    | some volume => { state with audioInput := state.audioInput.setVolume volume }
    | none => state
  match state.config.audio.bind Mumlib.AudioConfig.outputVolume with
  | some volume => { state with audioOutput := state.audioOutput.setVolume volume }
  | none => state

/-- Reads the configuration again; what it does not set stays as it is. -/
def reloadConfig (host : Host) (state : State) : Eval State :=
  let state := (state.readConfig host).applyVolumes
  match state.config.audio.bind Mumlib.AudioConfig.soundEffects with
  | some soundEffects => do
      let audioOutput ← state.audioOutput.loadSoundEffects host.sounds soundEffects
      .ok { state with audioOutput := audioOutput }
  | none => .ok state

/-- `none` when the configuration file does not parse. -/
def new (host : Host) : Eval (Option State) :=
  match Mumlib.readCfg host.fromStr host.configFile with
  | none => .ok none
  | some config => do
      let inputVolume := (config.audio.bind Mumlib.AudioConfig.inputVolume).getD F32.one
      let outputVolume := (config.audio.bind Mumlib.AudioConfig.outputVolume).getD F32.one
      let audioOutput ← AudioOutput.new host.sounds outputVolume
      let state ← State.reloadConfig host {
        config := config
        server := .disconnected
        audioInput := ⟨inputVolume⟩
        audioOutput := audioOutput
        messageBuffer := []
        phaseWatcher := .new .disconnected
        events := [] }
      .ok (some state)

end State

/-! ## Users come, move and go -/

namespace ConnectedServer

/-- The name of a channel in an event. -/
def eventChannelName (s : ConnectedServer) (channel : UInt32) : String :=
  ((s.channels.lookup channel).map Channel.name).getD "<unnamed channel>"

/-- What is told about a known user who moves between our channel and another. -/
def moveNews (s : ConnectedServer) (user : User) (thisChannel toChannel : UInt32) :
    List MumbleEventKind × Option NotificationEvents :=
  if user.channel = toChannel then ([], none)
  else if user.channel = thisChannel then
    -- the sound is played even if we do not know the other channel
    ((s.channels.lookup toChannel).toList.map fun channel =>
      .userLeftChannel user.name channel.name, some .userLeftChannel)
  else if toChannel = thisChannel then
    ((s.channels.lookup user.channel).toList.map fun channel =>
      .userJoinedChannel user.name channel.name, some .userJoinedChannel)
  else ([], none)

/-- How a change of `self_mute` and `self_deaf` is told. -/
def muteMessage (name : String) (mute deaf : Option Bool) : String :=
  let s := match mute with
    | some mute => name ++ (if mute then " muted" else " unmuted")
    | none => name
  let s := if mute.isSome ∧ deaf.isSome then s ++ " and" else s
  let s := match deaf with
    | some deaf => s ++ (if deaf then " deafened" else " undeafened")
    | none => s
  s ++ " themselves"

/-- What is told about a known user who changed whether they hear and speak. -/
def muteNews (user : User) (msg : UserState) : List MumbleEventKind :=
  let mute := if msg.selfMute.isSome ∧ user.selfMute ≠ msg.getSelfMute then
    some msg.getSelfMute else none
  let deaf := if msg.selfDeaf.isSome ∧ user.selfDeaf ≠ msg.getSelfDeaf then
    some msg.getSelfDeaf else none
  if mute ≠ none ∨ deaf ≠ none then [.userMuteStateChanged (muteMessage user.name mute deaf)]
  else []

/-- What is told about a user who was not known before. -/
def newcomerNews (s : ConnectedServer) (msg : UserState) (thisChannel : UInt32) :
    List MumbleEventKind × Option NotificationEvents :=
  if thisChannel = msg.getChannelId then
    ([.userConnected msg.getName (s.eventChannelName thisChannel)], some .userConnected)
  else ([], none)

/-- The events of a `UserState` packet and the sound effect that goes with them. -/
def userStateNews (s : ConnectedServer) (msg : UserState) (thisChannel : UInt32) :
    List MumbleEventKind × Option NotificationEvents :=
  if msg.getSession = s.sessionId then ([], none)
  else
    match s.users.lookup msg.getSession with
    | some user =>
        let (events, effect) := s.moveNews user thisChannel msg.getChannelId
        (events ++ muteNews user msg, effect)
    | none => s.newcomerNews msg thisChannel

end ConnectedServer

namespace State

def userState (host : Host) (state : State) (msg : UserState) : Eval State :=
  match state.server with
  | .connecting sb => .ok { state with server := .connecting (sb.userState msg) }
  | .connected s => do
      -- the events are read off the user map before the packet
      let thisChannel ← s.usersChannel s.sessionId
      let (events, effect) := s.userStateNews msg thisChannel
      let state ← effect.elim (.ok state) state.playEffect
      let state := { state with server := .connected (s.userState msg) }
      .ok (events.foldl (pushEvent host) state)
  | .disconnected => .ok state

def removeUser (host : Host) (state : State) (msg : UserRemove) : Eval State :=
  match state.server with
  | .disconnected => .ok state
  | .connecting sb => .ok { state with server := .connecting (sb.userRemove msg) }
  | .connected s => do
      -- both lookups are unwrapped, also that of the user who leaves
      let thisChannel ← s.usersChannel s.sessionId
      let otherChannel ← s.usersChannel msg.getSession
      if thisChannel = otherChannel then do
        let userName := ((s.users.lookup msg.getSession).map User.name).getD "<unknown user>"
        let state ← state.playEffect .userDisconnected
        let state := { state with server := .connected (s.userRemove msg) }
        .ok (state.pushEvent host (.userDisconnected userName (s.eventChannelName thisChannel)))
      else .ok { state with server := .connected (s.userRemove msg) }

/-! ## What stays the same -/

@[simp] theorem server_broadcastPhase (state : State) (phase : StatePhase) :
    (state.broadcastPhase phase).server = state.server := rfl

@[simp] theorem phase_broadcastPhase (state : State) (phase : StatePhase) :
    (state.broadcastPhase phase).phaseWatcher.value = phase := rfl

theorem foldl_pushEvent (host : Host) (state : State) (kinds : List MumbleEventKind) :
    kinds.foldl (pushEvent host) state =
      { state with events := state.events ++ kinds.map (⟨host.now, ·⟩) } := by
  induction kinds generalizing state with
  | nil => simp
  | cons kind rest ih =>
      rw [List.foldl_cons, ih, pushEvent, List.map_cons]
      simp

/-- A sound effect changes nothing but the audio output. -/
theorem playEffect_eq_ok (state : State) (effect : NotificationEvents) :
    ∃ audioOutput, state.playEffect effect = .ok { state with audioOutput := audioOutput } ∧
      audioOutput.userVolumes = state.audioOutput.userVolumes := by
  obtain ⟨audioOutput, hplay, hvolumes⟩ := state.audioOutput.playEffect_eq_ok effect
  exact ⟨audioOutput, by rw [playEffect, hplay, ok_bind], hvolumes⟩

theorem usersChannel_eq_ok {s : ConnectedServer} {session : UInt32} {user : User}
    (h : s.users.lookup session = some user) : s.usersChannel session = .ok user.channel := by
  rw [ConnectedServer.usersChannel, h, unwrap_some, ok_bind]
  rfl

/-- A user whose channel could be looked up is there. -/
theorem lookup_of_usersChannel {s : ConnectedServer} {session channel : UInt32}
    (h : s.usersChannel session = .ok channel) : ∃ user, s.users.lookup session = some user := by
  obtain ⟨user, huser, -⟩ := bind_eq_ok.mp h
  exact ⟨user, unwrap_eq_ok.mp huser⟩

/-- What a `UserState` packet does while our own user is known. -/
theorem userState_eq_ok (host : Host) {state : State} {s : ConnectedServer} {own : User}
    (hserver : state.server = .connected s) (hown : s.users.lookup s.sessionId = some own)
    (msg : UserState) :
    ∃ audioOutput, state.userState host msg = .ok { state with
      server := .connected (s.userState msg)
      audioOutput := audioOutput
      events := state.events ++
        (s.userStateNews msg own.channel).1.map (⟨host.now, ·⟩) } ∧
      audioOutput.userVolumes = state.audioOutput.userVolumes := by
  simp only [userState, hserver, usersChannel_eq_ok hown, ok_bind]
  cases (s.userStateNews msg own.channel).2 with
  | none => exact ⟨state.audioOutput, by rw [Option.elim_none, ok_bind, foldl_pushEvent], rfl⟩
  | some effect =>
      obtain ⟨audioOutput, hplay, hvolumes⟩ := state.playEffect_eq_ok effect
      exact ⟨audioOutput, by rw [Option.elim_some, hplay, ok_bind, foldl_pushEvent], hvolumes⟩

/-- What a `UserRemove` packet does while our own user and the other are known. -/
theorem removeUser_eq_ok (host : Host) {state : State} {s : ConnectedServer} {own user : User}
    (hserver : state.server = .connected s) (hown : s.users.lookup s.sessionId = some own)
    {msg : UserRemove} (huser : s.users.lookup msg.getSession = some user) :
    ∃ audioOutput, state.removeUser host msg = .ok { state with
      server := .connected (s.userRemove msg)
      audioOutput := audioOutput
      events := state.events ++ (if own.channel = user.channel then
        [⟨host.now, .userDisconnected user.name (s.eventChannelName own.channel)⟩] else []) } ∧
      audioOutput.userVolumes = state.audioOutput.userVolumes := by
  simp only [removeUser, hserver, usersChannel_eq_ok hown, usersChannel_eq_ok huser, ok_bind]
  by_cases h : own.channel = user.channel
  · obtain ⟨audioOutput, hplay, hvolumes⟩ := state.playEffect_eq_ok .userDisconnected
    exact ⟨audioOutput, by rw [if_pos h, if_pos h, hplay, ok_bind, huser]; rfl, hvolumes⟩
  · exact ⟨state.audioOutput, by rw [if_neg h, if_neg h, List.append_nil], rfl⟩

/-- A `UserState` packet that has been handled while we are connected. -/
theorem userState_connected {host : Host} {state state' : State} {s : ConnectedServer}
    {msg : UserState} (hserver : state.server = .connected s)
    (h : state.userState host msg = .ok state') :
    ∃ own audioOutput, s.users.lookup s.sessionId = some own ∧
      state' = { state with
        server := .connected (s.userState msg)
        audioOutput := audioOutput
        events := state.events ++
          (s.userStateNews msg own.channel).1.map (⟨host.now, ·⟩) } ∧
      audioOutput.userVolumes = state.audioOutput.userVolumes := by
  obtain ⟨own, hown⟩ : ∃ own, s.users.lookup s.sessionId = some own := by
    rw [userState, hserver] at h
    obtain ⟨channel, hchannel, -⟩ := bind_eq_ok.mp h
    exact lookup_of_usersChannel hchannel
  obtain ⟨audioOutput, hstate, hvolumes⟩ := userState_eq_ok host hserver hown msg
  exact ⟨own, audioOutput, hown, Except.ok.inj (h.symm.trans hstate), hvolumes⟩

/-- A `UserRemove` packet that has been handled while we are connected. -/
theorem removeUser_connected {host : Host} {state state' : State} {s : ConnectedServer}
    {msg : UserRemove} (hserver : state.server = .connected s)
    (h : state.removeUser host msg = .ok state') :
    ∃ own user audioOutput, s.users.lookup s.sessionId = some own ∧
      s.users.lookup msg.getSession = some user ∧
      state' = { state with
        server := .connected (s.userRemove msg)
        audioOutput := audioOutput
        events := state.events ++ (if own.channel = user.channel then
          [⟨host.now, .userDisconnected user.name (s.eventChannelName own.channel)⟩] else []) } ∧
      audioOutput.userVolumes = state.audioOutput.userVolumes := by
  obtain ⟨⟨own, hown⟩, user, huser⟩ : (∃ own, s.users.lookup s.sessionId = some own) ∧
      ∃ user, s.users.lookup msg.getSession = some user := by
    rw [removeUser, hserver] at h
    obtain ⟨channel, hchannel, h⟩ := bind_eq_ok.mp h
    obtain ⟨channel', hchannel', -⟩ := bind_eq_ok.mp h
    exact ⟨lookup_of_usersChannel hchannel, lookup_of_usersChannel hchannel'⟩
  obtain ⟨audioOutput, hstate, hvolumes⟩ := removeUser_eq_ok host hserver hown huser
  exact ⟨own, user, audioOutput, hown, huser, Except.ok.inj (h.symm.trans hstate), hvolumes⟩

end State

end Mum
