import Mum.Network.Tcp

/-!
# What commands and packets change

The facts about `handle_command` and `listen` that the properties of whole runs
rest on.  Most commands and packets keep the kind of the server, the phase, the
user map and the mute flags; the few that do not are listed by
`handleCommand_cases` and `handlePacket_cases`.

`State.Keeps` is what most of them leave alone.  It is shown once for each function of
`mum/src/state.rs` that is called, and composed (`Keeps.trans`) where one calls another.
-/

namespace Mum

open Library Library.Eval Msgs
open Mumlib (Command)

/-- Whether we are at a server. -/
inductive ServerKind
  | disconnected
  | connecting
  | connected
deriving DecidableEq, Repr

namespace Server

def kind : Server → ServerKind
  | disconnected => .disconnected
  | connecting _ => .connecting
  | connected _ => .connected

/-- The user map; a client that is disconnected knows nobody. -/
def users : Server → Users
  | disconnected => ∅
  | connecting sb => sb.users
  | connected s => s.users

theorem kind_eq_disconnected {server : Server} :
    server.kind = .disconnected ↔ server = .disconnected := by
  cases server <;> simp [kind]

theorem kind_eq_connecting {server : Server} :
    server.kind = .connecting ↔ ∃ sb, server = .connecting sb := by
  cases server <;> simp [kind]

theorem kind_eq_connected {server : Server} :
    server.kind = .connected ↔ ∃ s, server = .connected s := by
  cases server <;> simp [kind]

end Server

/-- The mute flags are the same. -/
def SameMutes (state state' : State) : Prop :=
  ∀ session, state'.audioOutput.muted session = state.audioOutput.muted session

/-- The kind of the server, the phase, the user map and the mute flags are the
same. -/
structure Keeps (state state' : State) : Prop where
  kind : state'.server.kind = state.server.kind
  phase : state'.phaseWatcher = state.phaseWatcher
  users : state'.server.users = state.server.users
  mutes : SameMutes state state'

theorem sameMutes_of_userVolumes {state state' : State}
    (h : state'.audioOutput.userVolumes = state.audioOutput.userVolumes) :
    SameMutes state state' :=
  fun session => congrArg (fun volumes => (UserVolumes.of volumes session).2) h

theorem Keeps.refl (state : State) : Keeps state state := ⟨rfl, rfl, rfl, fun _ => rfl⟩

theorem Keeps.trans {state state' state'' : State} (h : Keeps state state')
    (h' : Keeps state' state'') : Keeps state state'' :=
  ⟨h'.kind.trans h.kind, h'.phase.trans h.phase, h'.users.trans h.users,
    fun session => (h'.mutes session).trans (h.mutes session)⟩

/-- A change of the audio output that keeps the mute flags. -/
theorem Keeps.audioOutput {state : State} {audioOutput : AudioOutput F32}
    (h : audioOutput.userVolumes = state.audioOutput.userVolumes) :
    Keeps state { state with audioOutput := audioOutput } :=
  ⟨rfl, rfl, rfl, sameMutes_of_userVolumes h⟩

/-- A server of the same kind with the same users. -/
theorem Keeps.server {state : State} {server server' : Server} (hserver : state.server = server)
    (hkind : server'.kind = server.kind) (husers : server'.users = server.users) :
    Keeps state { state with server := server' } := by
  subst hserver
  exact ⟨hkind, rfl, husers, fun _ => rfl⟩

/-- The address that a name resolves to. -/
def Host.resolve (host : Host) (hostname : String) (port : UInt16) : Option SocketAddr :=
  match host.toSocketAddrs hostname port with
  | some (addr :: _) => some addr
  | _ => none

/-! ## Commands -/

theorem State.serverDisconnect_eq_ok {state : State} {outcome : Outcome}
    (h : state.serverDisconnect = .ok outcome) :
    ∃ audioOutput, outcome = State.answer
      { state with
        server := .disconnected
        phaseWatcher := state.phaseWatcher.send .disconnected
        audioOutput := audioOutput } (.ok none) := by
  obtain ⟨state', hstate, h⟩ := bind_eq_ok.mp h
  cases h
  obtain ⟨audioOutput, hplay, -⟩ := State.playEffect_eq_ok
    (State.broadcastPhase { state with server := .disconnected } .disconnected) .serverDisconnect
  cases hplay.symm.trans hstate
  exact ⟨audioOutput, rfl⟩

theorem State.serverConnect_eq (host : Host) (state : State) (hostname : String) (port : UInt16)
    (username : String) (password : Option String) (acceptInvalidCert : Bool) :
    ∃ sb, (state.serverConnect host hostname port username password acceptInvalidCert).state =
        State.broadcastPhase { state with server := .connecting sb } .connecting ∧
      sb.users = ∅ ∧
      (state.serverConnect host hostname port username password acceptInvalidCert).connectionInfo =
        (host.resolve hostname port).map (⟨·, hostname, acceptInvalidCert⟩) := by
  unfold State.serverConnect Host.resolve
  cases host.toSocketAddrs hostname port with
  | none => exact ⟨_, rfl, rfl, rfl⟩
  | some addrs =>
      cases addrs with
      | nil => exact ⟨_, rfl, rfl, rfl⟩
      | cons addr rest => exact ⟨_, rfl, rfl, rfl⟩

/-- What a command can do. -/
inductive CommandCase (host : Host) (state : State) : Command → Outcome → Prop
  | keeps {command : Command} {outcome : Outcome} (hstate : Keeps state outcome.state)
      (hinfo : outcome.connectionInfo = none) : CommandCase host state command outcome
  | mutes {s : ConnectedServer} {username : String} {toggle : Option Bool} {id : UInt32}
      {user : User} {mute : Bool} {outcome : Outcome} (hserver : state.server = .connected s)
      (huser : State.findUser s.users username = some (id, user)) (hne : user.suppressed ≠ mute)
      (htoggle : toggle.getD mute = mute)
      (hstate : outcome.state = { state with
        server := .connected { s with users := s.users.replace id (user.setSuppressed mute) }
        audioOutput := state.audioOutput.setMute id mute })
      (hinfo : outcome.connectionInfo = none) :
      CommandCase host state (.muteOther username toggle) outcome
  | connects {hostname username : String} {port : UInt16} {password : Option String}
      {acceptInvalidCert : Bool} (hserver : state.server = .disconnected) :
      CommandCase host state (.serverConnect hostname port username password acceptInvalidCert)
        (state.serverConnect host hostname port username password acceptInvalidCert)
  | disconnects {s : ConnectedServer} {outcome : Outcome} (hserver : state.server = .connected s)
      (hdisconnected : outcome.state.server = .disconnected)
      (hphase : outcome.state.phaseWatcher = state.phaseWatcher.send .disconnected)
      (hinfo : outcome.connectionInfo = none) :
      CommandCase host state .serverDisconnect outcome

namespace CommandCase

variable {host : Host} {state : State} {command : Command} {outcome : Outcome}

theorem answer (response : Mumlib.Response) :
    CommandCase host state command (state.answer response) :=
  .keeps (.refl state) rfl

theorem updateSelf {s : ConnectedServer} {action : Option (Bool × Bool)}
    {response : UserState → Option Mumlib.CommandResponse} (hserver : state.server = .connected s)
    (h : state.updateSelf s action response = .ok outcome) :
    CommandCase host state command outcome := by
  obtain ⟨audioOutput, hvolumes, houtcome⟩ := state.updateSelf_eq_ok s action response
  cases houtcome.symm.trans h
  cases action with
  | none => exact answer _
  | some flags =>
      have hkeeps : Keeps state { state with audioOutput := audioOutput } := .audioOutput hvolumes
      refine .keeps ⟨?_, hkeeps.phase, ?_, hkeeps.mutes⟩ rfl
      · rw [hserver]
        rfl
      · rw [hserver]
        rfl

theorem muteOther {s : ConnectedServer} (hserver : state.server = .connected s)
    (username : String) (toggle : Option Bool) :
    CommandCase host state (.muteOther username toggle) (state.muteOther s username toggle) := by
  unfold State.muteOther
  cases huser : State.findUser s.users username with
  | none => exact answer _
  | some entry =>
      obtain ⟨id, user⟩ := entry
      dsimp only
      split
      · exact answer _
      next mute haction =>
        have hwanted : toggle.getD mute = mute ∧ user.suppressed ≠ mute := by
          cases toggle with
          | none =>
              cases haction
              exact ⟨rfl, by simp⟩
          | some wanted =>
              obtain ⟨hne, hwanted⟩ := Option.ite_none_right_eq_some.mp haction
              cases hwanted
              exact ⟨rfl, hne⟩
        exact .mutes hserver huser hwanted.2 hwanted.1 rfl rfl

theorem readConfig (host : Host) (state : State) : Keeps state (state.readConfig host) := by
  unfold State.readConfig
  cases Mumlib.readCfg host.fromStr host.configFile with
  | none => exact .refl state
  | some config => exact ⟨rfl, rfl, rfl, fun _ => rfl⟩

theorem applyVolumes (state : State) : Keeps state state.applyVolumes := by
  unfold State.applyVolumes
  cases state.config.audio.bind Mumlib.AudioConfig.inputVolume with
  | none =>
      dsimp only
      cases state.config.audio.bind Mumlib.AudioConfig.outputVolume with
      | none => exact .refl state
      | some volume => exact .audioOutput rfl
  | some volume =>
      dsimp only
      cases state.config.audio.bind Mumlib.AudioConfig.outputVolume with
      | none => exact ⟨rfl, rfl, rfl, fun _ => rfl⟩
      | some volume => exact ⟨rfl, rfl, rfl, fun _ => rfl⟩

theorem reloadConfig {state' : State} (h : state.reloadConfig host = .ok state') :
    Keeps state state' := by
  have hvolumes := (readConfig host state).trans (applyVolumes _)
  unfold State.reloadConfig at h
  dsimp only at h
  split at h
  · obtain ⟨audioOutput, hload, h⟩ := bind_eq_ok.mp h
    cases h
    exact hvolumes.trans (.audioOutput (AudioOutput.userVolumes_loadSoundEffects hload))
  · cases h
    exact hvolumes

end CommandCase

open CommandCase in
/-- What a command does is one of the cases. -/
theorem handleCommand_cases {host : Host} {state : State} {command : Command} {outcome : Outcome}
    (h : handleCommand host state command = .ok outcome) :
    CommandCase host state command outcome := by
  cases handleCommand_eq_ok h with
  | answer response => exact answer response
  | send | events | subscribe | serverStatus => exact .keeps (.refl state) rfl
  | updateSelf hserver h => exact updateSelf hserver h
  | configReload hstate => exact .keeps (CommandCase.reloadConfig hstate) rfl
  | inputVolumeSet | pastMessages => exact .keeps ⟨rfl, rfl, rfl, fun _ => rfl⟩ rfl
  | muteOther hserver username toggle => exact CommandCase.muteOther hserver username toggle
  | outputVolumeSet => exact .keeps (.audioOutput rfl) rfl
  | serverConnect hserver => exact .connects hserver
  | serverDisconnect hserver h =>
      obtain ⟨audioOutput, rfl⟩ := State.serverDisconnect_eq_ok h
      exact .disconnects hserver rfl rfl rfl
  | userVolumeSet hserver username volume =>
      unfold State.userVolumeSet
      split
      · exact answer _
      · exact .keeps ⟨rfl, rfl, rfl, fun session => by simp [State.answer]⟩ rfl

/-! ## The beginning -/

/-- A daemon starts disconnected, and nobody is muted. -/
theorem State.new_eq_ok {host : Host} {state : State}
    (h : State.new host = .ok (some state)) :
    state.server = .disconnected ∧ state.phaseWatcher = .new .disconnected ∧
      ∀ session, state.audioOutput.muted session = false := by
  rw [State.new] at h
  split at h
  · cases h
  · obtain ⟨audioOutput, haudio, h⟩ := bind_eq_ok.mp h
    obtain ⟨state', hload, h⟩ := bind_eq_ok.mp h
    cases h
    have hkeeps := CommandCase.reloadConfig hload
    refine ⟨Server.kind_eq_disconnected.mp hkeeps.kind, hkeeps.phase, fun session => ?_⟩
    rw [hkeeps.mutes session, AudioOutput.muted, AudioOutput.userVolumes_new haudio]
    rfl

/-! ## Packets -/

/-- What a packet can do. -/
inductive PacketCase (state : State) : Clientbound → State → Prop
  | keeps {packet : Clientbound} {state' : State} (hstate : Keeps state state') :
      PacketCase state packet state'
  | login {msg : ServerSync} {sb : ConnectingServer} {state' : State}
      (hserver : state.server = .connecting sb)
      (hconnected : state'.server = .connected (sb.serverSync msg))
      (hphase : state'.phaseWatcher = state.phaseWatcher.send (.connected .tcp))
      (hmutes : SameMutes state state') : PacketCase state (.serverSync msg) state'
  | userState {msg : UserState} {state' : State} (hne : state.server ≠ .disconnected)
      (hkind : state'.server.kind = state.server.kind)
      (hphase : state'.phaseWatcher = state.phaseWatcher)
      (husers : state'.server.users = Mum.userState msg state.server.users)
      (hmutes : SameMutes state state') : PacketCase state (.userState msg) state'
  | userRemove {msg : UserRemove} {state' : State}
      (hkind : state'.server.kind = state.server.kind)
      (hphase : state'.phaseWatcher = state.phaseWatcher)
      (husers : state'.server.users = state.server.users.erase msg.getSession)
      (hmutes : SameMutes state state') : PacketCase state (.userRemove msg) state'

/-- A `UserState` packet changes the user map of a server. -/
theorem State.userState_changes {host : Host} {state state' : State} {msg : UserState}
    (h : state.userState host msg = .ok state') (hne : state.server ≠ .disconnected) :
    state'.server.kind = state.server.kind ∧ state'.phaseWatcher = state.phaseWatcher ∧
      state'.server.users = Mum.userState msg state.server.users ∧ SameMutes state state' := by
  cases hserver : state.server with
  | disconnected => exact absurd hserver hne
  | connecting sb =>
      rw [State.userState, hserver] at h
      cases h
      exact ⟨rfl, rfl, rfl, fun _ => rfl⟩
  | connected s =>
      obtain ⟨own, audioOutput, -, rfl, hvolumes⟩ := State.userState_connected hserver h
      exact ⟨rfl, rfl, rfl, sameMutes_of_userVolumes hvolumes⟩

namespace PacketCase

variable {host : Host} {state state' : State}

theorem of_userState {msg : UserState} (h : state.userState host msg = .ok state') :
    PacketCase state (.userState msg) state' := by
  by_cases hne : state.server = .disconnected
  · rw [State.userState, hne] at h
    cases h
    exact .keeps (.refl state)
  · obtain ⟨hkind, hphase, husers, hmutes⟩ := State.userState_changes h hne
    exact .userState hne hkind hphase husers hmutes

theorem of_removeUser {msg : UserRemove} (h : state.removeUser host msg = .ok state') :
    PacketCase state (.userRemove msg) state' := by
  cases hserver : state.server with
  | disconnected =>
      rw [State.removeUser, hserver] at h
      cases h
      exact .keeps (.refl state)
  | connecting sb =>
      rw [State.removeUser, hserver] at h
      cases h
      refine .userRemove ?_ rfl ?_ fun _ => rfl
      · rw [hserver]
        rfl
      · rw [hserver]
        rfl
  | connected s =>
      obtain ⟨own, user, audioOutput, -, -, rfl, hvolumes⟩ :=
        State.removeUser_connected hserver h
      refine .userRemove ?_ rfl ?_ (sameMutes_of_userVolumes hvolumes)
      · rw [hserver]
        rfl
      · rw [hserver]
        rfl

theorem of_serverSync {msg : ServerSync} (h : state.serverSync msg = .ok state') :
    PacketCase state (.serverSync msg) state' := by
  cases hserver : state.server with
  | connecting sb =>
      obtain ⟨audioOutput, hstate, hvolumes⟩ := State.serverSync_eq_ok hserver msg
      cases hstate.symm.trans h
      exact .login hserver rfl rfl (sameMutes_of_userVolumes hvolumes)
  | disconnected =>
      rw [State.serverSync, hserver] at h
      cases h
      exact .keeps (.refl state)
  | connected s =>
      rw [State.serverSync, hserver] at h
      cases h
      exact .keeps (.refl state)

theorem of_channelState (msg : ChannelState) :
    PacketCase state (.channelState msg) (state.channelState msg) := by
  unfold State.channelState
  cases hserver : state.server with
  | connecting sb => exact .keeps (.server hserver rfl rfl)
  | disconnected => exact .keeps (.refl state)
  | connected s => exact .keeps (.refl state)

theorem of_channelRemove (msg : ChannelRemove) :
    PacketCase state (.channelRemove msg) (state.channelRemove msg) := by
  unfold State.channelRemove
  cases hserver : state.server with
  | connecting sb => exact .keeps (.server hserver rfl rfl)
  | connected s => exact .keeps (.server hserver rfl rfl)
  | disconnected => exact .keeps (.refl state)

end PacketCase

theorem handlePacket_serverSync_eq_ok {host : Host} {state : State} {listen : Listen}
    {msg : ServerSync} {handled : Handled}
    (h : handlePacket host state listen (.serverSync msg) = .ok handled) :
    state.serverSync msg = .ok handled.state := by
  have hcase := handles_of_handlePacket h
  obtain ⟨state', listen', cryptState, event⟩ := handled
  cases hcase with
  | serverSync hstate => exact hstate

open PacketCase in
/-- What a packet does is one of the cases. -/
theorem handlePacket_cases {host : Host} {state : State} {listen : Listen} {packet : Clientbound}
    {handled : Handled} (h : handlePacket host state listen packet = .ok handled) :
    PacketCase state packet handled.state := by
  have hcase := handles_of_handlePacket h
  obtain ⟨state', listen', cryptState, event⟩ := handled
  cases hcase with
  | textMessage msg =>
      refine .keeps ?_
      cases textMessageNews state msg with
      | none => exact ⟨rfl, rfl, rfl, fun _ => rfl⟩
      | some kind => exact ⟨rfl, rfl, rfl, fun _ => rfl⟩
  | serverSync hstate => exact of_serverSync hstate
  | userState hstate => exact of_userState hstate
  | userRemove hstate => exact of_removeUser hstate
  | channelState msg => exact of_channelState msg
  | channelRemove msg => exact of_channelRemove msg
  | audio seqNum haudio =>
      exact .keeps (.audioOutput (AudioOutput.userVolumes_decodePacketPayload haudio))
  | _ => exact .keeps (.refl _)

end Mum
