import Mum.Client.OwnChannel
import Mum.Client.Requests
import Mum.Client.Subscribers

/-!
# Two ways to read text messages

`listen` stores a text message with the session of its author, for
`PastMessages` that do not block; they resolve the session to a name when they
read the message.  For those that block it is resolved when the message comes.

An observer writes down what either way tells, and of each message that waits whether
something has happened to its author: a rename, a `UserRemove`, somebody else who takes
the session id, or the end of the connection (`Label.disturbs`).

## Strategy

`Waits` says of one message that waits what was told of it when it came, and that its
author is still called the same unless something has happened.  A step that is neither a
read nor a text message leaves the text alone, and the name of an author that it does
not disturb (`getUserName_step`), so `Waits` is kept for each message by itself.
`Stored` lines the messages up with what was told and not read.  A read that does not
block then returns what was told if nothing has happened to the authors of what it
returns.
-/

namespace Mum

open Library Library.Eval Msgs
open Mumlib (Command Response)

/-! ## The message buffer -/

/-- The events and messages that are stored are the same. -/
structure State.KeepsTold (state state' : State) : Prop where
  events : state'.events = state.events
  messageBuffer : state'.messageBuffer = state.messageBuffer

theorem State.KeepsTold.refl (state : State) : state.KeepsTold state := ⟨rfl, rfl⟩

theorem State.keepsTold_reloadConfig {host : Host} {state state' : State}
    (h : state.reloadConfig host = .ok state') : state.KeepsTold state' := by
  have hvolumes : state.KeepsTold (state.readConfig host).applyVolumes := by
    unfold applyVolumes readConfig
    cases Mumlib.readCfg host.fromStr host.configFile with
    | none =>
        dsimp only
        split <;> split <;> exact ⟨rfl, rfl⟩
    | some config =>
        dsimp only
        split <;> split <;> exact ⟨rfl, rfl⟩
  unfold reloadConfig at h
  dsimp only at h
  split at h
  · obtain ⟨audioOutput, -, h⟩ := bind_eq_ok.mp h
    cases h
    exact ⟨hvolumes.events, hvolumes.messageBuffer⟩
  · cases h
    exact hvolumes

theorem State.messageBuffer_new {host : Host} {state : State}
    (h : State.new host = .ok (some state)) : state.messageBuffer = [] := by
  rw [State.new] at h
  split at h
  · cases h
  · obtain ⟨audioOutput, -, h⟩ := bind_eq_ok.mp h
    obtain ⟨state', hload, h⟩ := bind_eq_ok.mp h
    cases h
    exact (keepsTold_reloadConfig hload).messageBuffer

/-- Only a read of the messages changes what is stored. -/
theorem keepsTold_command {host : Host} {state : State} {command : Command} {outcome : Outcome}
    (h : handleCommand host state command = .ok outcome) :
    state.KeepsTold outcome.state ∨
      command = .pastMessages false ∧ outcome.state = { state with messageBuffer := [] } := by
  cases handleCommand_eq_ok h with
  | answer | send | events | inputVolumeSet | outputVolumeSet | subscribe | serverStatus =>
      exact .inl ⟨rfl, rfl⟩
  | pastMessages => exact .inr ⟨rfl, rfl⟩
  | configReload hstate => exact .inl (State.keepsTold_reloadConfig hstate)
  | @updateSelf command s action response outcome hserver h =>
      obtain ⟨audioOutput, -, houtcome⟩ := state.updateSelf_eq_ok s action response
      cases houtcome.symm.trans h
      cases action with
      | none => exact .inl (.refl state)
      | some flags => exact .inl ⟨rfl, rfl⟩
  | muteOther hserver username toggle =>
      left
      unfold State.muteOther
      split
      · exact .refl state
      · dsimp only
        split
        · exact .refl state
        · exact ⟨rfl, rfl⟩
  | serverConnect hserver =>
      left
      unfold State.serverConnect
      split
      · exact ⟨rfl, rfl⟩
      · exact ⟨rfl, rfl⟩
  | serverDisconnect hserver h =>
      obtain ⟨audioOutput, rfl⟩ := State.serverDisconnect_eq_ok h
      exact .inl ⟨rfl, rfl⟩
  | userVolumeSet hserver username volume =>
      left
      unfold State.userVolumeSet
      split
      · exact .refl state
      · exact ⟨rfl, rfl⟩

theorem State.messageBuffer_serverSync {state state' : State} {msg : ServerSync}
    (h : state.serverSync msg = .ok state') : state'.messageBuffer = state.messageBuffer := by
  cases hserver : state.server with
  | connecting sb =>
      obtain ⟨audioOutput, hstate, -⟩ := state.serverSync_eq_ok hserver msg
      rw [← Except.ok.inj (hstate.symm.trans h)]
  | disconnected =>
      rw [State.serverSync, hserver] at h
      rw [← Except.ok.inj h]
  | connected s =>
      rw [State.serverSync, hserver] at h
      rw [← Except.ok.inj h]

theorem State.messageBuffer_userState {host : Host} {state state' : State} {msg : UserState}
    (h : state.userState host msg = .ok state') : state'.messageBuffer = state.messageBuffer := by
  cases hserver : state.server with
  | connected s =>
      obtain ⟨own, audioOutput, -, rfl, -⟩ := State.userState_connected hserver h
      rfl
  | disconnected =>
      rw [State.userState, hserver] at h
      cases h
      rfl
  | connecting sb =>
      rw [State.userState, hserver] at h
      cases h
      rfl

theorem State.messageBuffer_removeUser {host : Host} {state state' : State} {msg : UserRemove}
    (h : state.removeUser host msg = .ok state') : state'.messageBuffer = state.messageBuffer := by
  cases hserver : state.server with
  | connected s =>
      obtain ⟨own, user, audioOutput, -, -, rfl, -⟩ := State.removeUser_connected hserver h
      rfl
  | disconnected =>
      rw [State.removeUser, hserver] at h
      cases h
      rfl
  | connecting sb =>
      rw [State.removeUser, hserver] at h
      cases h
      rfl

/-- Only a text message changes the message buffer. -/
theorem messageBuffer_packet {host : Host} {state : State} {listen : Listen}
    {packet : Clientbound} {handled : Handled}
    (h : handlePacket host state listen packet = .ok handled)
    (hne : ∀ msg, packet ≠ .textMessage msg) :
    handled.state.messageBuffer = state.messageBuffer := by
  have hcase := handles_of_handlePacket h
  obtain ⟨state', listen', cryptState, event⟩ := handled
  cases hcase with
  | textMessage msg => exact absurd rfl (hne msg)
  | serverSync hstate => exact State.messageBuffer_serverSync hstate
  | userState hstate => exact State.messageBuffer_userState hstate
  | userRemove hstate => exact State.messageBuffer_removeUser hstate
  | channelState msg =>
      show (state.channelState msg).messageBuffer = state.messageBuffer
      unfold State.channelState
      split
      · rfl
      · rfl
  | channelRemove msg =>
      show (state.channelRemove msg).messageBuffer = state.messageBuffer
      unfold State.channelRemove
      split
      · rfl
      · rfl
      · rfl
  | _ => rfl

/-! ## What is read -/

/-- A text and the name of its author. -/
abbrev Told := String × String

/-- What a response tells of a text message. -/
def told? : Response → Option Told
  | .ok (some (.pastMessage _ text user)) => some (text, user)
  | _ => none

/-- What the answer to a command tells of text messages. -/
def ExecutionContext.told : ExecutionContext → List Told
  | .now responses => responses.filterMap told?
  | _ => []

/-- What a subscriber tells when a text message comes; `none` when it panics. -/
def State.heard (host : Host) (state : State) (msg : TextMessage) : Option Told :=
  match messageResponse host state (.textMessage msg) with
  | .ok response => told? response
  | .error _ => none

theorem heard_eq (host : Host) (state : State) (msg : TextMessage) :
    state.heard host msg = (state.getUserName msg.getActor).map (msg.getMessage, ·) := by
  rw [State.heard, messageResponse]
  cases state.getUserName msg.getActor with
  | none => rfl
  | some user => rfl

/-- A read that does not block returns the stored messages, in order, with the names
that their authors have now. -/
theorem told_pastMessages {state : State}
    {messages : List (Mumlib.NaiveDateTime × String × UInt32)} {responses : List Response}
    (h : state.pastMessages messages = .ok responses) :
    (responses.filterMap told?).map some =
      messages.map fun message => (state.getUserName message.2.2).map (message.2.1, ·) := by
  have hall := mapM_eq_ok_iff.mp h
  clear h
  induction hall with
  | nil => rfl
  | cons hresponse _ ih =>
      obtain ⟨user, huser, hresponse⟩ := bind_eq_ok.mp hresponse
      cases hresponse
      rw [List.filterMap_cons, told?, List.map_cons, List.map_cons, ih, unwrap_eq_ok.mp huser]
      rfl

/-- The notes of an observer. -/
structure Readings where
  /-- What the reads that do not block have returned. -/
  read : List Told
  /-- What a subscriber that was there from the start would have been told. -/
  heard : List (Option Told)
  /-- For each message that waits, whether it came while we were connected, and nothing has
  happened to its author since. -/
  stays : List Bool
deriving DecidableEq

/-- A read that does not block. -/
def Label.reads : Label → Bool
  | .command (.pastMessages false) => true
  | _ => false

theorem Label.reads_iff {label : Label} : label.reads ↔ label = .command (.pastMessages false) := by
  constructor
  · intro h
    unfold reads at h
    split at h
    · rfl
    · cases h
  · rintro rfl
    rfl

/-- What happens to the author of a message at the server that we are connected to. -/
def Label.disturbs (s : ConnectedServer) (author : UInt32) : Label → Bool
  | .tcp (.packet (.userState msg)) =>
      -- a rename, or somebody else with the session id
      msg.session = some author && (s.users.lookup author).elim true fun user =>
        msg.name.any fun name => name ≠ user.name
  | .tcp (.packet (.userRemove msg)) => msg.getSession = author
  | .command .serverDisconnect => true
  | _ => false

namespace Readings

def note (readings : Readings) (sys : System) (label : Host × Label) (sys' : System) : Readings :=
  match label.2 with
  | .command (.pastMessages false) =>
      match handleCommand label.1 sys.state (.pastMessages false) with
      | .ok outcome => { readings with
          read := readings.read ++ outcome.context.told
          stays := if sys.state.server.kind = .connected then [] else readings.stays }
      | .error _ => readings
  | .tcp (.packet (.textMessage msg)) => { readings with
      heard := readings.heard ++ [sys'.state.heard label.1 msg]
      stays := readings.stays ++ [decide (sys.state.server.kind = .connected)] }
  | label => { readings with
      stays := List.zipWith (fun message stays =>
        stays && !sys.state.server.connected?.any fun s => label.disturbs s message.2.2)
        sys.state.messageBuffer readings.stays }

/-- A step of the daemon that is observed. -/
def Step (x : System × Readings) (label : Host × Label) (x' : System × Readings) : Prop :=
  observed System.next note x label = some x'

/-- After a read that does not block, all that was returned is what the subscriber
was told. -/
def Agree (x : System × Readings) (label : Host × Label) (x' : System × Readings) : Prop :=
  label.2.reads → x.1.state.server.kind = .connected → x'.2.read.map some = x'.2.heard

/-- Nothing has happened to the authors of the messages that are read. -/
def NamesStay (x : System × Readings) (label : Host × Label) : Prop :=
  label.2.reads → x.1.state.server.kind = .connected → ∀ stays ∈ x.2.stays, stays = true

/-- What was told of a message that waits, and what its author is called if nothing has
happened. -/
structure Waits (state : State) (message : Mumlib.NaiveDateTime × String × UInt32)
    (entry : Option Told × Bool) : Prop where
  connected : entry.2 → state.server.kind = .connected
  named : entry.2 → (state.getUserName message.2.2).map (message.2.1, ·) = entry.1

theorem Waits.of_server {state state' : State} {entry : Option Told × Bool}
    {message : Mumlib.NaiveDateTime × String × UInt32} (h : Waits state message entry)
    (hserver : state'.server = state.server) : Waits state' message entry := by
  have hname : state'.getUserName message.2.2 = state.getUserName message.2.2 := by
    rw [State.getUserName, State.getUserName, hserver]
  refine ⟨fun hstays => ?_, fun hstays => ?_⟩
  · rw [hserver]
    exact h.connected hstays
  · rw [hname]
    exact h.named hstays

/-- What was heard and not read yet is what is stored. -/
def Stored (x : System × Readings) : Prop :=
  ∃ unread : List (Option Told × Bool), x.2.heard = x.2.read.map some ++ unread.map Prod.fst ∧
    x.2.stays = unread.map Prod.snd ∧ List.Forall₂ (Waits x.1.state) x.1.state.messageBuffer unread

variable {x x' : System × Readings} {host : Host} {sys sys' : System}

/-- Nothing has happened to any author. -/
theorem names_eq {state : State} {messages : List (Mumlib.NaiveDateTime × String × UInt32)}
    {unread : List (Option Told × Bool)} (h : List.Forall₂ (Waits state) messages unread)
    (hstays : ∀ stays ∈ unread.map Prod.snd, stays = true) :
    messages.map (fun message => (state.getUserName message.2.2).map (message.2.1, ·)) =
      unread.map Prod.fst := by
  induction h with
  | nil => rfl
  | cons hwaits _ ih =>
      rw [List.map_cons, List.forall_mem_cons] at hstays
      rw [List.map_cons, List.map_cons, hwaits.named hstays.1, ih hstays.2]

/-- A read that does not block, while we are connected. -/
theorem read_connected {outcome : Outcome} (hkind : sys.state.server.kind = .connected)
    (h : handleCommand host sys.state (.pastMessages false) = .ok outcome) :
    outcome.state.messageBuffer = [] ∧ outcome.context.told.map some =
      sys.state.messageBuffer.map fun message =>
        (sys.state.getUserName message.2.2).map (message.2.1, ·) := by
  obtain ⟨s, hserver⟩ := Server.kind_eq_connected.mp hkind
  simp only [handleCommand, hserver] at h
  obtain ⟨responses, hresponses, h⟩ := bind_eq_ok.mp h
  cases h
  refine ⟨rfl, (told_pastMessages hresponses).trans ?_⟩
  simp only [State.getUserName, hserver]

/-- A read that does not block, while we are not connected. -/
theorem read_refused {outcome : Outcome} (hkind : sys.state.server.kind ≠ .connected)
    (h : handleCommand host sys.state (.pastMessages false) = .ok outcome) :
    outcome.state.messageBuffer = sys.state.messageBuffer ∧ outcome.context.told = [] := by
  cases hserver : sys.state.server with
  | connected s =>
      rw [hserver] at hkind
      exact absurd rfl hkind
  | disconnected =>
      simp only [handleCommand, hserver] at h
      cases h
      exact ⟨rfl, rfl⟩
  | connecting sb =>
      simp only [handleCommand, hserver] at h
      cases h
      exact ⟨rfl, rfl⟩

theorem messageBuffer_step {label : Label} (h : System.Step sys (host, label) sys')
    (hread : label.reads = false) (htext : label.textMessage? = none) :
    sys'.state.messageBuffer = sys.state.messageBuffer := by
  cases System.step_cases h with
  | command houtcome =>
      rcases keepsTold_command houtcome with hkeeps | ⟨rfl, -⟩
      · exact hkeeps.messageBuffer
      · cases hread
  | controllerGone => rfl
  | tcp hcase =>
      cases hcase with
      | packet htcp hhandled =>
          refine messageBuffer_packet hhandled ?_
          rintro msg rfl
          cases htext
      | _ => rfl
  | udp hcase => cases hcase <;> rfl

theorem messageBuffer_textMessage {msg : TextMessage}
    (h : System.Step sys (host, .tcp (.packet (.textMessage msg))) sys') :
    sys'.state.messageBuffer =
      sys.state.messageBuffer ++ [(host.now, msg.getMessage, msg.getActor)] := by
  rw [System.state_textMessage h, State.textMessage, State.registerMessage]
  cases textMessageNews sys.state msg <;> rfl

theorem state_command {command : Command} (h : System.Step sys (host, .command command) sys') :
    ∃ outcome, handleCommand host sys.state command = .ok outcome ∧
      sys'.state = outcome.state := by
  cases System.step_cases h with
  | command houtcome => exact ⟨_, houtcome, rfl⟩

/-- A packet that is neither a text message nor disturbs an author. -/
theorem getUserName_packet {state : State} {s : ConnectedServer} {listen : Listen}
    {packet : Clientbound} {handled : Handled} {author : UInt32}
    (hserver : state.server = .connected s)
    (h : handlePacket host state listen packet = .ok handled)
    (hquiet : Label.disturbs s author (.tcp (.packet packet)) = false) :
    handled.state.server.kind = .connected ∧
      handled.state.getUserName author = state.getUserName author := by
  have hsame : ∀ state' : State, state'.server = state.server →
      state'.server.kind = .connected ∧ state'.getUserName author = state.getUserName author := by
    intro state' hserver'
    rw [State.getUserName, State.getUserName, hserver', hserver]
    exact ⟨rfl, rfl⟩
  have hcase := handles_of_handlePacket h
  obtain ⟨state', listen', cryptState, event⟩ := handled
  cases hcase with
  | textMessage msg => exact hsame _ (State.server_textMessage host state msg)
  | serverSync hstate =>
      rw [State.serverSync, hserver] at hstate
      cases hstate
      exact hsame _ rfl
  | @userState msg _ hstate =>
      obtain ⟨own, audioOutput, -, rfl, -⟩ := State.userState_connected hserver hstate
      refine ⟨rfl, ?_⟩
      have hlookup : (s.userState msg).users.lookup author = _ :=
        lookup_userState msg s.users author
      simp only [State.getUserName, hserver, hlookup]
      split
      next hsession =>
        -- the name is not changed, or to what it is
        simp only [Label.disturbs, hsession, decide_true, Bool.true_and] at hquiet
        cases huser : s.users.lookup author with
        | none =>
            rw [huser] at hquiet
            cases hquiet
        | some user =>
            rw [huser] at hquiet
            have hname : (user.parseUserState msg).name = user.name := by
              show msg.name.getD user.name = user.name
              cases hnew : msg.name with
              | none => rfl
              | some name =>
                  rw [hnew] at hquiet
                  simpa using hquiet
            simp only [Option.elim_some, Option.map_some, hname]
      · rfl
  | @userRemove msg _ hstate =>
      obtain ⟨own, user, audioOutput, -, -, rfl, -⟩ := State.removeUser_connected hserver hstate
      refine ⟨rfl, ?_⟩
      have hne : author ≠ msg.getSession := by
        rintro rfl
        simp [Label.disturbs] at hquiet
      have hlookup : (s.userRemove msg).users.lookup author = s.users.lookup author :=
        AList.lookup_erase_ne hne
      simp only [State.getUserName, hserver, hlookup]
  | channelState msg => exact hsame _ (by simp only [hserver])
  | channelRemove msg =>
      simp only [State.getUserName, hserver]
      trivial
  | _ => exact hsame _ rfl

/-- A command that is no `ServerDisconnect`. -/
theorem getUserName_command {state : State} {s : ConnectedServer} {command : Command}
    {outcome : Outcome} (hserver : state.server = .connected s)
    (h : handleCommand host state command = .ok outcome) (hne : command ≠ .serverDisconnect)
    (author : UInt32) :
    outcome.state.server.kind = .connected ∧
      outcome.state.getUserName author = state.getUserName author := by
  have hkind : outcome.state.server.kind = .connected := by
    have hold : state.server.kind = .connected := Server.kind_eq_connected.mpr ⟨s, hserver⟩
    cases handleCommand_cases h with
    | keeps hkeeps => exact hkeeps.kind.trans hold
    | mutes _ _ _ _ hstate =>
        rw [hstate]
        rfl
    | connects hdisconnected => cases hserver.symm.trans hdisconnected
    | disconnects => exact absurd rfl hne
  refine ⟨hkind, ?_⟩
  obtain ⟨s', hserver'⟩ := Server.kind_eq_connected.mp hkind
  obtain ⟨s₀, hserver₀, hshows⟩ := State.showsSame_command h s' hserver'
  cases hserver.symm.trans hserver₀
  have hname : (s'.users.lookup author).map User.name = (s.users.lookup author).map User.name := by
    cases huser : s.users.lookup author with
    | none =>
        have hnone := hshows.users author
        rw [huser, Option.map_none, Option.map_eq_none_iff] at hnone
        rw [hnone]
    | some user =>
        obtain ⟨user', huser', hname, -⟩ := hshows.lookup huser
        rw [huser', Option.map_some, Option.map_some, hname]
  rw [State.getUserName, State.getUserName, hserver, hserver']
  dsimp only
  rw [hname]

/-- Who is not disturbed is called the same after the step. -/
theorem getUserName_step {label : Label} {s : ConnectedServer} {author : UInt32}
    (h : System.Step sys (host, label) sys') (hserver : sys.state.server = .connected s)
    (hquiet : label.disturbs s author = false) :
    sys'.state.server.kind = .connected ∧
      sys'.state.getUserName author = sys.state.getUserName author := by
  have hsame : ∀ state' : State, state'.server = sys.state.server →
      state'.server.kind = .connected ∧
        state'.getUserName author = sys.state.getUserName author := by
    intro state' hserver'
    rw [State.getUserName, State.getUserName, hserver', hserver]
    exact ⟨rfl, rfl⟩
  cases System.step_cases h with
  | command houtcome =>
      refine getUserName_command hserver houtcome ?_ author
      rintro rfl
      cases hquiet
  | controllerGone => exact hsame _ rfl
  | tcp hcase =>
      cases hcase with
      | packet htcp hhandled => exact getUserName_packet hserver hhandled hquiet
      | _ => exact hsame _ rfl
  | udp hcase =>
      cases hcase with
      | _ => exact hsame _ rfl

/-- The notes of other steps. -/
theorem note_eq {readings : Readings} {label : Host × Label} (hread : label.2.reads = false)
    (htext : label.2.textMessage? = none) : readings.note sys label sys' = { readings with
      stays := List.zipWith (fun message stays =>
        stays && !sys.state.server.connected?.any fun s => label.2.disturbs s message.2.2)
        sys.state.messageBuffer readings.stays } := by
  unfold note
  split
  next heq => rw [heq] at hread; cases hread
  next heq => rw [heq] at htext; cases htext
  · rfl

/-- What a read does to the notes. -/
theorem note_read {outcome : Outcome} {readings : Readings}
    (h : handleCommand host sys.state (.pastMessages false) = .ok outcome) :
    readings.note sys (host, .command (.pastMessages false)) sys' =
      { readings with
        read := readings.read ++ outcome.context.told
        stays := if sys.state.server.kind = .connected then [] else readings.stays } := by
  simp only [note, h]

theorem note_textMessage {readings : Readings} {msg : TextMessage} :
    readings.note sys (host, .tcp (.packet (.textMessage msg))) sys' =
      { readings with
        heard := readings.heard ++ [sys'.state.heard host msg]
        stays := readings.stays ++ [decide (sys.state.server.kind = .connected)] } := rfl

theorem agree_of_namesStay {label : Host × Label} (hstored : Stored x) (h : Step x label x')
    (hstays : NamesStay x label) : Agree x label x' := by
  intro hread hkind
  replace hstays := hstays hread hkind
  obtain ⟨host, label⟩ := label
  obtain rfl := Label.reads_iff.mp hread
  obtain ⟨hstep, hnote⟩ := observed_eq_some.mp h
  obtain ⟨outcome, houtcome, -⟩ := state_command hstep
  obtain ⟨-, htold⟩ := read_connected hkind houtcome
  obtain ⟨unread, hheard, hunread, hbuffer⟩ := hstored
  rw [hunread] at hstays
  rw [hnote, note_read houtcome]
  dsimp only
  rw [List.map_append, htold, hheard, names_eq hbuffer hstays]

/-- A message that waits through a step. -/
theorem Waits.step {label : Label} {message : Mumlib.NaiveDateTime × String × UInt32}
    {entry : Option Told × Bool} (hwaits : Waits sys.state message entry)
    (h : System.Step sys (host, label) sys') :
    Waits sys'.state message (entry.1, entry.2 &&
      !sys.state.server.connected?.any fun s => label.disturbs s message.2.2) := by
  have hboth : (entry.2 && !sys.state.server.connected?.any fun s =>
      label.disturbs s message.2.2) = true → entry.2 = true ∧
        sys'.state.server.kind = .connected ∧
          sys'.state.getUserName message.2.2 = sys.state.getUserName message.2.2 := by
    intro hstays
    obtain ⟨hold, hquiet⟩ := Bool.and_eq_true_iff.mp hstays
    obtain ⟨s, hserver⟩ := Server.kind_eq_connected.mp (hwaits.connected hold)
    rw [Server.mem_connected?.mpr hserver, Option.any_some, Bool.not_eq_true'] at hquiet
    exact ⟨hold, getUserName_step h hserver hquiet⟩
  refine ⟨fun hstays => (hboth hstays).2.1, fun hstays => ?_⟩
  obtain ⟨hold, -, hname⟩ := hboth hstays
  rw [hname]
  exact hwaits.named hold

/-- All messages that wait through a step. -/
theorem waits_step {label : Label} {messages : List (Mumlib.NaiveDateTime × String × UInt32)}
    {unread : List (Option Told × Bool)} (hall : List.Forall₂ (Waits sys.state) messages unread)
    (h : System.Step sys (host, label) sys') :
    ∃ unread', unread'.map Prod.fst = unread.map Prod.fst ∧
      unread'.map Prod.snd = List.zipWith (fun message stays =>
        stays && !sys.state.server.connected?.any fun s => label.disturbs s message.2.2)
        messages (unread.map Prod.snd) ∧
      List.Forall₂ (Waits sys'.state) messages unread' := by
  induction hall with
  | nil => exact ⟨[], rfl, rfl, .nil⟩
  | cons hwaits _ ih =>
      obtain ⟨unread', hheard, hstays, hall⟩ := ih
      refine ⟨_ :: unread', ?_, ?_, .cons (hwaits.step h) hall⟩
      · rw [List.map_cons, List.map_cons, hheard]
      · rw [List.map_cons, List.map_cons, List.zipWith_cons_cons, hstays]

/-- What is stored stays what was heard and not read. -/
theorem Stored.step {label : Host × Label} (hstored : Stored x) (h : Step x label x')
    (hagree : Agree x label x') : Stored x' := by
  obtain ⟨host, label⟩ := label
  obtain ⟨hstep, hnote⟩ := observed_eq_some.mp h
  obtain ⟨unread, hheard, hunread, hbuffer⟩ := hstored
  cases hread : label.reads with
  | true =>
      obtain rfl := Label.reads_iff.mp hread
      obtain ⟨outcome, houtcome, hstate⟩ := state_command hstep
      by_cases hkind : x.1.state.server.kind = .connected
      · -- everything is read
        obtain ⟨hempty, -⟩ := read_connected hkind houtcome
        refine ⟨[], ?_, ?_, ?_⟩
        · rw [hagree rfl hkind]
          exact (List.append_nil _).symm
        · rw [hnote, note_read houtcome]
          exact if_pos hkind
        · rw [hstate, hempty]
          exact .nil
      · obtain ⟨hsame, hnothing⟩ := read_refused hkind houtcome
        refine ⟨unread, ?_, ?_, ?_⟩
        · rw [hnote, note_read houtcome, hnothing]
          dsimp only
          rw [List.append_nil]
          exact hheard
        · rw [hnote, note_read houtcome]
          exact (if_neg hkind).trans hunread
        · rw [hstate, hsame]
          refine hbuffer.imp fun message entry hwaits => ⟨?_, ?_⟩
          · exact fun hstays => absurd (hwaits.connected hstays) hkind
          · exact fun hstays => absurd (hwaits.connected hstays) hkind
  | false =>
      cases htext : label.textMessage? with
      | none =>
          obtain ⟨unread', hheard', hstays', hbuffer'⟩ := waits_step hbuffer hstep
          refine ⟨unread', ?_, ?_, ?_⟩
          · rw [hnote, note_eq hread htext, hheard']
            exact hheard
          · rw [hnote, note_eq hread htext, hstays', hunread]
          · rw [messageBuffer_step hstep hread htext]
            exact hbuffer'
      | some msg =>
          obtain rfl := mem_textMessage?.mp htext
          have hserver : x'.1.state.server = x.1.state.server := by
            rw [System.state_textMessage hstep, State.server_textMessage]
          refine ⟨unread ++ [(x'.1.state.heard host msg,
            decide (x.1.state.server.kind = .connected))], ?_, ?_, ?_⟩
          · rw [hnote, note_textMessage, List.map_append, ← List.append_assoc]
            dsimp only
            rw [hheard]
            rfl
          · rw [hnote, note_textMessage, List.map_append]
            dsimp only
            rw [hunread]
            rfl
          · rw [messageBuffer_textMessage hstep]
            refine List.rel_append (hbuffer.imp fun _ _ hwaits => hwaits.of_server hserver)
              (.cons ⟨fun hstays => ?_, fun _ => ?_⟩ .nil)
            · rw [hserver]
              exact of_decide_eq_true hstays
            · exact (heard_eq host x'.1.state msg).symm

/-- **When the two ways to read agree.**  In a run of the daemon in which every message
that a read returns came while we were connected, and nothing has happened to its author
since, every read that does not block completes exactly what a subscriber was told. -/
theorem agree_of_run {state : State} {trace : List ((Host × Label) × (System × Readings))}
    (hnew : State.new host = .ok (some state))
    (hrun : Run Step (System.start state, ⟨[], [], []⟩) trace)
    (hstays : AllSteps (fun x label _ => NamesStay x label)
      (System.start state, ⟨[], [], []⟩) trace) :
    AllSteps Agree (System.start state, ⟨[], [], []⟩) trace := by
  have hstart : Stored (System.start state, ⟨[], [], []⟩) := by
    refine ⟨[], rfl, rfl, ?_⟩
    have hempty : (System.start state).state.messageBuffer = [] := State.messageBuffer_new hnew
    rw [hempty]
    exact .nil
  refine hrun.allSteps Stored hstart ?_ hstays
  intro x label x' hstored h hstays
  have hagree := agree_of_namesStay hstored h hstays
  exact ⟨hstored.step h hagree, hagree⟩

instance (x : System × Readings) (label : Host × Label) : Decidable (NamesStay x label) :=
  inferInstanceAs (Decidable (_ → _ → ∀ stays ∈ x.2.stays, stays = true))

instance (x : System × Readings) (label : Host × Label) (x' : System × Readings) :
    Decidable (Agree x label x') :=
  inferInstanceAs (Decidable (_ → _ → _ = _))

/-- The trace of labels that come on one machine. -/
def follow (host : Host) (labels : List Label) :
    Option (List ((Host × Label) × (System × Readings))) :=
  Library.follow (observed System.next note) (System.start .idle, ⟨[], [], []⟩)
    (labels.map (host, ·))

theorem run_follow {host : Host} {labels : List Label}
    {trace : List ((Host × Label) × (System × Readings))} (h : follow host labels = some trace) :
    Run Step (System.start .idle, ⟨[], [], []⟩) trace :=
  Library.run_follow (fun _ _ _ h => h) h

/-- What happens in between concerns other users, or another field. -/
theorem agree_twoReads :
    ∃ trace, follow .online (System.login "localhost" ++
        [.tcp (.packet (.textMessage { actor := some 2, message := some "hello" })),
          .tcp (.packet (.userState { session := some 2, selfMute := some true })),
          .tcp (.packet (.userState { session := some 3, name := some "they" })),
          .command (.pastMessages false),
          .tcp (.packet (.textMessage { actor := some 1, message := some "bye" })),
          .tcp (.packet (.userRemove { session := some 3 })),
          .command (.pastMessages false)]) = some trace ∧
      AllSteps Agree (System.start .idle, ⟨[], [], []⟩) trace := by
  have hnew : State.new .offline = .ok (some .idle) := rfl
  exact ⟨Option.get _ (by decide), (Option.some_get _).symm,
    agree_of_run hnew (run_follow (Option.some_get _).symm) (by decide)⟩

/-- An author who leaves before the message is read. -/
theorem not_agree_userRemove :
    ∃ trace, follow .online (System.login "localhost" ++
        [.tcp (.packet (.textMessage { actor := some 2, message := some "bye" })),
          .tcp (.packet (.userRemove { session := some 2 })),
          .command (.pastMessages false)]) = some trace ∧
      ¬ AllSteps Agree (System.start .idle, ⟨[], [], []⟩) trace :=
  ⟨Option.get _ (by decide), (Option.some_get _).symm, by decide⟩

end Readings

end Mum
