import Mum.Client.Changes
import Mum.Client.OwnFlags
import Mum.Client.Steps
import Mum.Ctl.Status

/-!
# Our channel in the states that are sent

`Status` and `ServerConnect` answer with a copy of the server that has no session
ids.  Our name is fixed when we connect, and the names and channels of the users,
ours among them, are what the server last said: the packets that bring them, and
the `ServerSync` that says which session is ours, decide whether `parse_state`
finds our channel.

1. `State.findsUs_iff`: the copies are read back as what they are copies of, so a state
   finds us if and only if it `NamesUs`: our entry in the user map has our name, and nobody
   else in a channel before it has.
2. `State.showsSame_command`: a command changes no name and no channel of a server that we
   are connected to.
3. `State.namesUs_handlePacket`: after a packet `NamesUs` holds if and only if
   `NamesUsAfter` does, which looks at the packet and at the state before it.
-/

namespace Mum

open Library Library.Eval Msgs
open Mumlib (Command CommandResponse)

/-- The two servers show the same: the channels, and the names and channels of the
users. -/
structure ConnectedServer.ShowsSame (s s' : ConnectedServer) : Prop where
  channels : s'.channels = s.channels
  sessionId : s'.sessionId = s.sessionId
  username : s'.username = s.username
  users : ∀ session, (s'.users.lookup session).map (fun user => (user.name, user.channel)) =
    (s.users.lookup session).map (fun user => (user.name, user.channel))

namespace ConnectedServer.ShowsSame

variable {s s' : ConnectedServer}

theorem refl (s : ConnectedServer) : s.ShowsSame s := ⟨rfl, rfl, rfl, fun _ => rfl⟩

theorem symm (h : s.ShowsSame s') : s'.ShowsSame s :=
  ⟨h.channels.symm, h.sessionId.symm, h.username.symm, fun session => (h.users session).symm⟩

/-- A user of the one is one of the other. -/
theorem lookup (h : s.ShowsSame s') {session : UInt32} {user : User}
    (huser : s.users.lookup session = some user) :
    ∃ user', s'.users.lookup session = some user' ∧ user'.name = user.name ∧
      user'.channel = user.channel := by
  have hsame := h.users session
  rw [huser, Option.map_some] at hsame
  obtain ⟨user', huser', hpair⟩ := Option.map_eq_some_iff.mp hsame
  exact ⟨user', huser', congrArg Prod.fst hpair, congrArg Prod.snd hpair⟩

theorem namesUs (h : s.ShowsSame s') (hnames : s.NamesUs) : s'.NamesUs := by
  intro own' hown' hchannel' hchains'
  rw [h.sessionId] at hown'
  obtain ⟨own, hown, -, hchannel⟩ := h.symm.lookup hown'
  rw [h.channels, ← hchannel] at hchannel'
  rw [h.channels] at hchains'
  obtain ⟨hshown, ⟨session, user, huser, husersChannel, hname⟩, hothers⟩ :=
    hnames own hown hchannel' hchains'
  rw [h.channels, h.username, ← hchannel]
  refine ⟨hshown, ?_, ?_⟩
  · obtain ⟨user', huser', hname', hchannel''⟩ := h.lookup huser
    exact ⟨session, user', huser', hchannel''.trans husersChannel, hname'.trans hname⟩
  · intro session' user' huser' hname' hne
    obtain ⟨user, huser, hname'', hchannel''⟩ := h.symm.lookup huser'
    rw [← hchannel''] at hne ⊢
    exact hothers session' user huser (hname''.trans hname') hne

end ConnectedServer.ShowsSame

namespace State

/-- The state is part of the answer to a `Status`, or to the `ServerConnect` that
the login completes. -/
def Sends (host : Host) (state : State) (serverState : Mumlib.Server) : Prop :=
  (∃ outcome, handleCommand host state .status = .ok outcome ∧
    outcome.context = .now [.ok (some (.status serverState))]) ∨
  ∃ msg, connectResponse host state (.connected (.ok msg)) =
    .ok (.ok (some (.serverConnect msg.welcomeText serverState)))

/-- While our user and its channel are known, `parse_state` finds our channel in
what is sent, and prints. -/
def FindsUs (state : State) : Prop :=
  ∀ s own, state.server = .connected s → s.users.lookup s.sessionId = some own →
    own.channel ∈ s.channels → ∀ host serverState, state.Sends host serverState →
      s.Finds own serverState ∧ ∃ lines, Ctl.parseState serverState = .ok lines

/-- Users can be told by name who is in our channel. -/
def NamesUs (state : State) : Prop := ∀ s, state.server = .connected s → s.NamesUs

/-- What is sent is the server at that moment. -/
theorem sends_iff {host : Host} {state : State} {s : ConnectedServer}
    (hserver : state.server = .connected s) {serverState : Mumlib.Server} :
    state.Sends host serverState ↔ s.toMumlib host.order = .ok serverState := by
  constructor
  · rintro (⟨outcome, houtcome, hcontext⟩ | ⟨msg, hresponse⟩)
    · simp only [handleCommand, hserver] at houtcome
      obtain ⟨sent, hsent, houtcome⟩ := bind_eq_ok.mp houtcome
      cases houtcome
      cases hcontext
      exact hsent
    · simp only [connectResponse, hserver] at hresponse
      obtain ⟨sent, hsent, hresponse⟩ := bind_eq_ok.mp hresponse
      cases hresponse
      exact hsent
  · intro hsent
    refine Or.inl ⟨state.answer (.ok (some (.status serverState))), ?_, rfl⟩
    simp only [handleCommand, hserver, hsent, ok_bind]
    rfl

theorem findsUs_iff_of_connected {state : State} {s : ConnectedServer}
    (hserver : state.server = .connected s) : state.FindsUs ↔ s.NamesUs := by
  rw [← ConnectedServer.findsUs_iff]
  constructor
  · intro hfinds own hown hchannel order serverState hsent
    have hsends : state.Sends { Host.offline with order := order } serverState :=
      (sends_iff hserver).mpr hsent
    exact (hfinds s own hserver hown hchannel _ serverState hsends).1
  · intro hfinds s' own hserver' hown hchannel host serverState hsends
    cases hserver.symm.trans hserver'
    have hfound := hfinds own hown hchannel host.order serverState ((sends_iff hserver).mp hsends)
    obtain ⟨channel, walk, hchannel, -⟩ := id hfound
    exact ⟨hfound, Ctl.parseState_returns_iff.mpr ⟨channel, hchannel⟩⟩

theorem findsUs_iff (state : State) : state.FindsUs ↔ state.NamesUs := by
  constructor
  · intro hfinds s hserver
    exact (findsUs_iff_of_connected hserver).mp hfinds
  · intro hnames s own hserver
    exact (findsUs_iff_of_connected hserver).mpr (hnames s hserver) s own hserver

/-- A connected client shows what it showed before. -/
def ShowsSame (state state' : State) : Prop :=
  ∀ s', state'.server = .connected s' → ∃ s, state.server = .connected s ∧ s.ShowsSame s'

theorem ShowsSame.of_eq {state state' : State} (h : state'.server = state.server) :
    state.ShowsSame state' := by
  intro s' hserver'
  exact ⟨s', h.symm.trans hserver', .refl s'⟩

theorem ShowsSame.namesUs {state state' : State} (h : state.ShowsSame state')
    (hnames : state.NamesUs) : state'.NamesUs := by
  intro s' hserver'
  obtain ⟨s, hserver, hsame⟩ := h s' hserver'
  exact hsame.namesUs (hnames s hserver)

/-! ## Commands -/

theorem showsSame_updateSelf {state : State} {s : ConnectedServer}
    {action : Option (Bool × Bool)} {response : UserState → Option CommandResponse}
    {outcome : Outcome} (hserver : state.server = .connected s)
    (h : state.updateSelf s action response = .ok outcome) : state.ShowsSame outcome.state := by
  obtain ⟨audioOutput, -, houtcome⟩ := state.updateSelf_eq_ok s action response
  cases houtcome.symm.trans h
  rcases action with _ | ⟨mute, deafen⟩
  · exact .of_eq rfl
  · intro s' hserver'
    cases hserver'
    exact ⟨s, hserver, rfl, rfl, rfl, fun _ => rfl⟩

theorem showsSame_muteOther {state : State} {s : ConnectedServer}
    (hserver : state.server = .connected s) (username : String) (toggle : Option Bool) :
    state.ShowsSame (state.muteOther s username toggle).state := by
  unfold State.muteOther
  cases huser : State.findUser s.users username with
  | none => exact .of_eq rfl
  | some entry =>
      obtain ⟨id, user⟩ := entry
      dsimp only
      split
      · exact .of_eq rfl
      next mute haction =>
        intro s' hserver'
        cases hserver'
        refine ⟨s, hserver, rfl, rfl, rfl, fun session => ?_⟩
        dsimp only
        rw [HashMap.lookup_replace]
        split
        next hsession =>
          -- the flag of the user is set
          rw [hsession, (State.findUser_eq_some huser).1]
          rfl
        · rfl

theorem server_reloadConfig {host : Host} {state state' : State}
    (h : state.reloadConfig host = .ok state') : state'.server = state.server := by
  have hread : (state.readConfig host).server = state.server := by
    unfold State.readConfig
    cases Mumlib.readCfg host.fromStr host.configFile <;> rfl
  have hvolumes : ∀ state : State, state.applyVolumes.server = state.server := by
    intro state
    unfold State.applyVolumes
    cases state.config.audio.bind Mumlib.AudioConfig.inputVolume with
    | none =>
        dsimp only
        split <;> rfl
    | some volume =>
        dsimp only
        split <;> rfl
  unfold State.reloadConfig at h
  dsimp only at h
  split at h
  · obtain ⟨audioOutput, -, h⟩ := bind_eq_ok.mp h
    cases h
    exact (hvolumes _).trans hread
  · cases h
    exact (hvolumes _).trans hread

theorem showsSame_command {host : Host} {state : State} {command : Command} {outcome : Outcome}
    (h : handleCommand host state command = .ok outcome) : state.ShowsSame outcome.state := by
  cases handleCommand_eq_ok h with
  | answer | send | events | inputVolumeSet | outputVolumeSet | subscribe | pastMessages
  | serverStatus => exact .of_eq rfl
  | updateSelf hserver h => exact showsSame_updateSelf hserver h
  | configReload hstate => exact .of_eq (server_reloadConfig hstate)
  | muteOther hserver username toggle => exact showsSame_muteOther hserver username toggle
  | serverConnect hserver hostname port username password acceptInvalidCert =>
      intro s' hserver'
      obtain ⟨sb, hstate, -⟩ :=
        state.serverConnect_eq host hostname port username password acceptInvalidCert
      rw [hstate] at hserver'
      cases hserver'
  | serverDisconnect hserver h =>
      intro s' hserver'
      obtain ⟨audioOutput, rfl⟩ := State.serverDisconnect_eq_ok h
      cases hserver'
  | userVolumeSet hserver username volume =>
      unfold State.userVolumeSet
      split
      · exact .of_eq rfl
      · exact .of_eq rfl

/-! ## Packets -/

/-- The packets that change what a connected client shows leave it with our name
in our channel. -/
def NamesUsAfter (state : State) : Clientbound → Prop
  | .serverSync msg => ∀ sb, state.server = .connecting sb → (sb.serverSync msg).NamesUs
  | .userState msg => ∀ s, state.server = .connected s → (s.userState msg).NamesUs
  | .userRemove msg => ∀ s, state.server = .connected s → (s.userRemove msg).NamesUs
  | .channelRemove msg => ∀ s, state.server = .connected s → (s.channelRemove msg).NamesUs
  | _ => True

section Packets

variable {host : Host} {state state' : State}

/-- An update of the connected server, when the other kinds of servers stay. -/
theorem namesUs_iff_of_update (update : ConnectedServer → ConnectedServer)
    (hconnected : ∀ s, state.server = .connected s → state'.server = .connected (update s))
    (hkind : state'.server.kind = state.server.kind) :
    state'.NamesUs ↔ ∀ s, state.server = .connected s → (update s).NamesUs := by
  constructor
  · intro hnames s hserver
    exact hnames _ (hconnected s hserver)
  · intro hnames s' hserver'
    have hkind' : state.server.kind = .connected := by
      rw [← hkind, hserver']
      rfl
    obtain ⟨s, hserver⟩ := Server.kind_eq_connected.mp hkind'
    cases (hconnected s hserver).symm.trans hserver'
    exact hnames s hserver

theorem namesUs_serverSync {msg : ServerSync} (hnames : state.NamesUs)
    (h : state.serverSync msg = .ok state') :
    state'.NamesUs ↔ state.NamesUsAfter (.serverSync msg) := by
  cases hserver : state.server with
  | connecting sb =>
      obtain ⟨audioOutput, hstate, -⟩ := State.serverSync_eq_ok hserver msg
      cases hstate.symm.trans h
      constructor
      · intro hnames' sb' hserver'
        cases hserver.symm.trans hserver'
        exact hnames' _ rfl
      · intro hafter s' hserver'
        cases hserver'
        exact hafter sb hserver
  | disconnected | connected s =>
      rw [State.serverSync, hserver] at h
      cases h
      refine iff_of_true hnames fun sb hserver' => ?_
      cases hserver.symm.trans hserver'

theorem namesUs_userState {msg : UserState} (h : state.userState host msg = .ok state') :
    state'.NamesUs ↔ state.NamesUsAfter (.userState msg) := by
  refine namesUs_iff_of_update (·.userState msg) ?_ ?_
  · intro s hserver
    obtain ⟨own, audioOutput, -, rfl, -⟩ := State.userState_connected hserver h
    rfl
  · cases PacketCase.of_userState h with
    | keeps hstate => exact hstate.kind
    | userState hne hkind hphase husers hmutes => exact hkind

theorem namesUs_removeUser {msg : UserRemove} (h : state.removeUser host msg = .ok state') :
    state'.NamesUs ↔ state.NamesUsAfter (.userRemove msg) := by
  refine namesUs_iff_of_update (·.userRemove msg) ?_ ?_
  · intro s hserver
    obtain ⟨own, user, audioOutput, -, -, rfl, -⟩ := State.removeUser_connected hserver h
    rfl
  · cases PacketCase.of_removeUser h with
    | keeps hstate => exact hstate.kind
    | userRemove hkind hphase husers hmutes => exact hkind

theorem namesUs_channelRemove (msg : ChannelRemove) :
    (state.channelRemove msg).NamesUs ↔ state.NamesUsAfter (.channelRemove msg) := by
  refine namesUs_iff_of_update (·.channelRemove msg) ?_ ?_
  · intro s hserver
    rw [State.channelRemove, hserver]
  · have hcase : PacketCase state (.channelRemove msg) (state.channelRemove msg) :=
      PacketCase.of_channelRemove msg
    cases hcase with
    | keeps hstate => exact hstate.kind

theorem namesUs_channelState (hnames : state.NamesUs) (msg : ChannelState) :
    (state.channelState msg).NamesUs := by
  intro s hserver
  unfold State.channelState at hserver
  cases hserver' : state.server with
  | connecting sb =>
      rw [hserver'] at hserver
      cases hserver
  | disconnected | connected s' =>
      simp only [hserver'] at hserver
      exact hnames s (hserver'.trans hserver)

/-- The other packets change nothing that is shown. -/
theorem namesUs_handlePacket {listen : Listen} {packet : Clientbound} {handled : Handled}
    (hnames : state.NamesUs) (h : handlePacket host state listen packet = .ok handled) :
    handled.state.NamesUs ↔ state.NamesUsAfter packet := by
  have hcase := handles_of_handlePacket h
  obtain ⟨state', listen', cryptState, event⟩ := handled
  cases hcase with
  | textMessage msg =>
      refine iff_of_true ?_ trivial
      cases textMessageNews state msg with
      | none => exact hnames
      | some kind => exact hnames
  | serverSync hstate => exact namesUs_serverSync hnames hstate
  | userState hstate => exact namesUs_userState hstate
  | userRemove hstate => exact namesUs_removeUser hstate
  | channelState msg => exact iff_of_true (namesUs_channelState hnames msg) trivial
  | channelRemove msg => exact namesUs_channelRemove msg
  | _ => exact iff_of_true hnames trivial

end Packets

end State

namespace ConnectedServer

/-- Everybody is in the root channel, one of them with our name. -/
def AllAtRoot (s : ConnectedServer) : Prop :=
  (∀ entry ∈ s.users.iter, entry.2.channel = 0) ∧ ∃ entry ∈ s.users.iter, entry.2.name = s.username

instance (s : ConnectedServer) : Decidable s.AllAtRoot :=
  inferInstanceAs (Decidable (_ ∧ _))

theorem AllAtRoot.namesUs {s : ConnectedServer} (h : s.AllAtRoot) : s.NamesUs := by
  obtain ⟨hroot, ⟨session, named⟩, hnamed, hname⟩ := h
  have hchannel : ∀ session user, s.users.lookup session = some user → user.channel = 0 :=
    fun session user huser => hroot (session, user) (HashMap.mem_iter.mpr huser)
  intro own hown _ _
  rw [hchannel _ own hown]
  refine ⟨Or.inl rfl, ⟨session, named, HashMap.mem_iter.mp hnamed, hroot _ hnamed, hname⟩, ?_⟩
  intro session' user huser _ hne
  exact absurd (hchannel session' user huser) hne

end ConnectedServer

/-- Whoever is connected is at a server where everybody is in the root channel. -/
def Server.AllAtRoot : Server → Prop
  | .connected s => s.AllAtRoot
  | _ => True

instance : ∀ server : Server, Decidable server.AllAtRoot
  | .connected s => inferInstanceAs (Decidable s.AllAtRoot)
  | .connecting _ | .disconnected => .isTrue trivial

theorem State.namesUs_of_allAtRoot {state : State} (h : state.server.AllAtRoot) :
    state.NamesUs := by
  intro s hserver
  rw [hserver] at h
  exact ConnectedServer.AllAtRoot.namesUs h

/-! ## Runs -/

namespace System

/-- The packets that say who is where, and which session is ours, leave a user with
our name in our channel, and nobody with it in a channel that may be listed
before. -/
def NamesUsAfter (sys : System) : Label → Prop
  | .tcp (.packet packet) => sys.state.NamesUsAfter packet
  | _ => True

variable {sys sys' : System} {label : Host × Label}

/-- A step from a state in which we are found. -/
theorem findsUs_step (hnames : sys.state.NamesUs) (hstep : Step sys label sys') :
    sys'.state.FindsUs ↔ sys.NamesUsAfter label.2 := by
  rw [State.findsUs_iff]
  obtain ⟨host, label⟩ := label
  cases step_cases hstep with
  | command houtcome =>
      exact iff_of_true ((State.showsSame_command houtcome).namesUs hnames) trivial
  | controllerGone => exact iff_of_true hnames trivial
  | tcp hcase =>
      cases hcase with
      | packet htcp hhandled => exact State.namesUs_handlePacket hnames hhandled
      | _ => exact iff_of_true hnames trivial
  | udp hcase =>
      cases hcase with
      | _ => exact iff_of_true hnames trivial

/-- **Our channel in what is sent.**  In a run of the daemon, `parse_state` finds
our channel in every state that may be sent, exactly when every packet leaves a
user with our name in our channel and nobody with it in a channel that may be
listed before. -/
theorem findsUs_of_run {host : Host} {state : State} {trace : List ((Host × Label) × System)}
    (hnew : State.new host = .ok (some state)) (hrun : Run Step (start state) trace) :
    AllSteps (fun _ _ sys' => sys'.state.FindsUs) (start state) trace ↔
      AllSteps (fun sys label _ => sys.NamesUsAfter label.2) (start state) trace := by
  have hstart : (start state).state.NamesUs := by
    intro s hserver
    cases (State.new_eq_ok hnew).1.symm.trans hserver
  refine hrun.allSteps_iff (fun sys => sys.state.NamesUs) hstart ?_ ?_
  · intro sys label sys' hnames hstep
    exact findsUs_step hnames hstep
  · intro sys label sys' _ _ hfinds
    exact (State.findsUs_iff _).mp hfinds

theorem findsUs_of_run_login :
    ∃ trace, (start .idle).follow .online (login "localhost") = some trace ∧
      AllSteps (fun sys label _ => sys.NamesUsAfter label.2) (start .idle) trace := by
  have hnew : State.new .offline = .ok (some .idle) := rfl
  refine ⟨Option.get _ (by decide), (Option.some_get _).symm,
    (findsUs_of_run hnew (run_follow (Option.some_get _).symm)).mp ?_⟩
  refine AllSteps.mono (P := fun _ _ sys' => sys'.state.server.AllAtRoot) ?_ (by decide)
  intro _ _ sys' hroot
  exact (State.findsUs_iff _).mpr (State.namesUs_of_allAtRoot hroot)

/-- The server gives us another name.  We and our channel are known, and nobody in
the state that is sent has the name that we connected with. -/
theorem parseState_panics_renamed :
    ∃ trace outcome s own serverState,
      (start .idle).follow .online (login "localhost" ++
        [.tcp (.packet (.userState { session := some 1, name := some "meow" }))]) = some trace ∧
      (Library.final (start .idle) trace).state.server = .connected s ∧
      s.users.lookup s.sessionId = some own ∧ own.channel ∈ s.channels ∧
      handleCommand .online (Library.final (start .idle) trace).state .status = .ok outcome ∧
      outcome.context = .now [.ok (some (.status serverState))] ∧
      Ctl.parseState serverState = .error .panic := by
  refine ⟨Option.get _ (by decide), _, _, _, _, (Option.some_get _).symm, rfl, rfl, by decide,
    rfl, rfl, ?_⟩
  rw [Ctl.parseState, Ctl.ownChannel_eq]
  have hchildren : List.mergeSort (List.map Prod.snd (Host.online.order.apply
      ([] : List (UInt32 × (Int × Mumlib.Channel)))))
      (fun e e' => decide (childKey e ≤ childKey e')) = [] := List.mergeSort_nil
  simp only [hchildren]
  rfl

end System

end Mum
