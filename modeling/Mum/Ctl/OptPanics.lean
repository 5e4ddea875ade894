import Mum.Ctl.EditPanics
import Mum.Ctl.MatchOpt
import Mum.Daemon.Answers

/-!
# When `mumctl` panics

`mumctl` is written for one daemon: an answer of another kind is an `unreachable!`.
`Served` says that its answers come from runs of the daemon, which sends no such
answer.  What can still go wrong are the unwraps of the file and of the port that is to
be stored, and the search for our channel in a state that does not show us (`Opt.Fits`).

## Strategy

Each command is compared with its own part of `Opt.Fits`.  `returns_bind_iff` cuts a
command at its unwraps, so that one equivalence is left for each: the tables of the
saved servers, the audio table, our channel.  Where a response is matched, `Served`
gives `Daemon.Serves`, and with it the kind of the response, so that the branch of the
`unreachable!` closes.
-/

namespace Mum.Ctl

open Library Library.Eval Library.Toml Mumlib

/-- All that comes in is sent by the daemon. -/
structure Terminal.Served (terminal : Terminal) : Prop where
  sendCommand : ∀ command response,
    terminal.sendCommand command = .ok response → Daemon.Serves command response
  spawned : ∀ i command response,
    terminal.spawned i command = .ok response → Daemon.Serves command response
  sendCommandMulti : ∀ command responses, terminal.sendCommandMulti command = .ok responses →
    ∀ response ∈ responses, Daemon.Serves command response

/-- The audio settings are a table, inline or not, or missing. -/
def HasAudioTable (document : Document) : Prop :=
  ∀ item, Entries.get document "audio" = some item →
    (∃ entries, item = .table entries) ∨ ∃ entries, item = .value (.inlineTable entries)

/-- A user has the name that we are connected with. -/
def ShowsUs (serverState : Mumlib.Server) : Prop :=
  ∃ channel ∈ serverState.channels.preorder, hasUser serverState.username channel

/-- What `config` asks of the daemon for a volume. -/
def volumeCommand : String → Option (F32 → Mumlib.Command)
  | "audio.input_volume" => some .inputVolumeSet
  | "audio.output_volume" => some .outputVolumeSet
  | _ => none

/-- The file has the shape that the command unwraps, and a state that is printed shows
us. -/
def Opt.Fits (floats : Floats) (terminal : Terminal) (document : Document) (config : Config) :
    Opt → Prop
  | edit (.server command) => command.Fits document config
  | edit (.config key value) => ∀ command volume response, volumeCommand key = some command →
      floats.parse value = some volume →
      terminal.sendCommand (command (floats.ofF64 volume)) = .ok (.ok response) →
      HasAudioTable document
  | connect host username password port acceptInvalidCert => ∀ command specified,
      connectCommand config host username password port acceptInvalidCert =
        .ok (command, specified) →
      ∀ welcomeMessage serverState, terminal.sendCommand command =
        .ok (.ok (some (.serverConnect welcomeMessage serverState))) → ShowsUs serverState
  | status => ∀ serverState,
      terminal.sendCommand .status = .ok (.ok (some (.status serverState))) → ShowsUs serverState
  | _ => True

/-! ### The unwraps -/

theorem returns_parseState_iff {serverState : Mumlib.Server} :
    Returns (parseState serverState) ↔ ShowsUs serverState := by
  refine parseState_returns_iff.trans ?_
  have hown := ownChannel_eq serverState
  constructor
  · rintro ⟨channel, hchannel⟩
    rw [hown, unwrap_eq_ok] at hchannel
    have hhas : hasUser serverState.username channel := by simpa using List.find?_some hchannel
    exact ⟨channel, List.mem_of_find?_eq_some hchannel, hhas⟩
  · rintro ⟨channel, hmem, hhas⟩
    have hsome : (serverState.channels.preorder.find? (hasUser serverState.username)).isSome :=
      List.find?_isSome.mpr ⟨channel, hmem, hhas⟩
    obtain ⟨found, hfound⟩ := Option.isSome_iff_exists.mp hsome
    rw [hown, hfound]
    exact ⟨found, rfl⟩

section Files

variable {floats : Floats} {terminal : Terminal} {file : File} {document : Document}
  {config : Config}

theorem setValue_isSome_iff {key : String} {v : Value F64} :
    (((Entries.get document "audio").getD (.table [])).setValue key v).isSome ↔
      HasAudioTable document := by
  unfold HasAudioTable
  cases Entries.get document "audio" with
  | none => exact iff_of_true rfl fun item h => nomatch h
  | some item =>
      cases item with
      | table entries =>
          refine iff_of_true rfl fun item h => .inl ⟨entries, ?_⟩
          exact (Option.some.inj h).symm
      | arrayOfTables tables =>
          refine iff_of_false (fun h => nomatch h) fun h => ?_
          rcases h _ rfl with ⟨_, h⟩ | ⟨_, h⟩
          · cases h
          · cases h
      | value v =>
          cases v with
          | inlineTable entries =>
              refine iff_of_true rfl fun item h => .inr ⟨entries, ?_⟩
              exact (Option.some.inj h).symm
          | _ =>
              refine iff_of_false (fun h => nomatch h) fun h => ?_
              rcases h _ rfl with ⟨_, h⟩ | ⟨_, h⟩
              · cases h
              · cases h

theorem returns_configVolume_iff {machine : Machine} {key value : String}
    {command : F32 → Mumlib.Command} :
    Returns (configVolume floats machine file document key command value) ↔
      ∀ volume response, floats.parse value = some volume →
        machine.sendCommand (command (floats.ofF64 volume)) = .ok (.ok response) →
        HasAudioTable document := by
  unfold configVolume
  cases floats.parse value with
  | none => exact iff_of_true (returns_ok _) fun _ _ h => nomatch h
  | some volume =>
      dsimp only
      cases hsend : machine.sendCommand (command (floats.ofF64 volume)) with
      | error e =>
          refine iff_of_true (returns_ok _) fun volume' response hvolume hresponse => ?_
          cases hvolume
          cases hsend.symm.trans hresponse
      | ok answer =>
          cases answer with
          | error e =>
              refine iff_of_true (returns_ok _) fun volume' response hvolume hresponse => ?_
              cases hvolume
              cases hsend.symm.trans hresponse
          | ok response =>
              refine (returns_bind_iff fun _ _ => returns_ok _).trans ?_
              have hset := @setValue_isSome_iff document key (.float volume)
              constructor
              · rintro ⟨audio, haudio⟩ volume' response' - -
                rw [unwrap_eq_ok] at haudio
                exact hset.mp (Option.isSome_iff_exists.mpr ⟨audio, haudio⟩)
              · intro h
                obtain ⟨audio, haudio⟩ := Option.isSome_iff_exists.mp (hset.mpr (h _ _ rfl hsend))
                exact ⟨audio, unwrap_eq_ok.mpr haudio⟩

theorem returns_matchConfig_iff {machine : Machine} {key value : String} :
    Returns (matchConfig floats machine file document key value) ↔
      ∀ command volume response, volumeCommand key = some command →
        floats.parse value = some volume →
        machine.sendCommand (command (floats.ofF64 volume)) = .ok (.ok response) →
        HasAudioTable document := by
  have hnone : ∀ {x : Eval Outcome}, Returns x → volumeCommand key = none →
      (Returns x ↔ ∀ command volume response, volumeCommand key = some command →
        floats.parse value = some volume →
        machine.sendCommand (command (floats.ofF64 volume)) = .ok (.ok response) →
        HasAudioTable document) := by
    intro x hx hkey
    refine iff_of_true hx fun command volume response hcommand => ?_
    rw [hkey] at hcommand
    cases hcommand
  have hsome : ∀ {name : String} {command : F32 → Mumlib.Command},
      volumeCommand key = some command →
      (Returns (configVolume floats machine file document name command value) ↔
        ∀ command volume response, volumeCommand key = some command →
          floats.parse value = some volume →
          machine.sendCommand (command (floats.ofF64 volume)) = .ok (.ok response) →
          HasAudioTable document) := by
    intro name command hkey
    rw [returns_configVolume_iff]
    constructor
    · rintro h command' volume response hcommand hvolume hresponse
      cases hkey.symm.trans hcommand
      exact h volume response hvolume hresponse
    · exact fun h volume response => h command volume response hkey
  unfold matchConfig
  split
  · exact hsome rfl
  · exact hsome rfl
  · refine hnone ?_ rfl
    split
    · exact returns_ok _
    · exact returns_ok _
  next hinput houtput _ =>
    refine hnone (returns_ok _) ?_
    unfold volumeCommand
    split
    next h => exact absurd rfl hinput
    next h => exact absurd rfl houtput
    · rfl

/-- A command that edits. -/
theorem returns_runEdit_iff (file : File)
    (hload : fromDocument floats document = some config) (command : Command) :
    Returns (runEdit floats terminal.toMachine file document config command) ↔
      (Opt.edit command).Fits floats terminal document config := by
  cases command with
  | server command => exact returns_matchServerCommand_iff terminal.toMachine file hload command
  | config key value => exact returns_matchConfig_iff

end Files

/-! ### The answers -/

section Answers

variable {terminal : Terminal}

theorem returns_printAll (hserved : terminal.Served) {file : File} {command : Mumlib.Command}
    {line : Response → Eval String}
    (hline : ∀ response, command.Answers response → Returns (line response)) :
    Returns (printAll terminal file command line) := by
  unfold printAll
  split
  · exact returns_ok _
  next responses hresponses =>
    refine (returns_bind_iff fun _ _ => returns_ok _).mpr (mapM_returns_iff.mpr ?_)
    intro response hmem
    exact hline response
      (hserved.sendCommandMulti command responses hresponses response hmem).answers

theorem returns_messageLine {format : NaiveDateTime → String} {block : Bool} {response : Response}
    (h : (Mumlib.Command.pastMessages block).Answers response) :
    Returns (messageLine format response) := by
  cases response with
  | error e => exact returns_ok _
  | ok response =>
      obtain ⟨timestamp, message, user, rfl⟩ := h
      exact returns_ok _

theorem returns_eventLine {format : NaiveDateTime → String} {block : Bool} {response : Response}
    (h : (Mumlib.Command.events block).Answers response) :
    Returns (eventLine format response) := by
  cases response with
  | error e => exact returns_ok _
  | ok response =>
      obtain ⟨-, event, rfl⟩ := h
      exact returns_ok _

/-- Every server is answered with its status or with nothing. -/
theorem returns_listServers {width : ℕ} {servers : List (ServerConfig × Except CliError Response)}
    (h : ∀ entry ∈ servers, ∀ response, entry.2 = .ok response →
      (statusQuery entry.1).Answers response) : Returns (listServers width servers) := by
  induction servers with
  | nil => exact returns_ok _
  | cons entry rest ih =>
      obtain ⟨server, answer⟩ := entry
      have hrest := ih fun entry hmem => h entry (List.mem_cons_of_mem _ hmem)
      have hanswer := h (server, answer) (List.mem_cons_self ..)
      cases answer with
      | error e => exact returns_ok _
      | ok response =>
          cases response with
          | error e => exact returns_ok _
          | ok response =>
              rcases hanswer _ rfl with rfl | ⟨version, users, maxUsers, bandwidth, rfl⟩
              · exact (returns_bind_iff fun _ _ => returns_ok _).mpr hrest
              · exact (returns_bind_iff fun _ _ => returns_ok _).mpr hrest

theorem returns_serverList (hserved : terminal.Served) (file : File) (config : Config) :
    Returns (serverList terminal file config) := by
  unfold serverList
  split
  · exact returns_ok _
  next hne =>
    have hlongest : Returns (longest config.saved) := by
      refine (returns_bind_iff fun _ _ => returns_ok _).mpr ?_
      have hsome : (config.saved.map fun s => s.name.utf8ByteSize).max?.isSome := by
        simp [hne]
      obtain ⟨bytes, hbytes⟩ := Option.isSome_iff_exists.mp hsome
      exact ⟨bytes, unwrap_eq_ok.mpr hbytes⟩
    refine (returns_bind_iff fun width _ => ?_).mpr hlongest
    refine (returns_bind_iff fun _ _ => returns_ok _).mpr (returns_listServers ?_)
    rintro ⟨server, answer⟩ hmem response rfl
    obtain ⟨i, hi, hget⟩ := List.mem_iff_getElem.mp hmem
    rw [List.getElem_zip, Prod.mk.injEq, List.getElem_mapIdx] at hget
    obtain ⟨rfl, hanswer⟩ := hget
    exact (hserved.spawned i _ response hanswer).answers

theorem returns_connect_iff (hserved : terminal.Served) {file : File} {host username : String}
    {port : UInt16} {password : Option String} {acceptInvalidCert specified : Bool} :
    Returns (connect terminal file
        (.serverConnect host port username password acceptInvalidCert) specified) ↔
      ∀ welcomeMessage serverState,
        terminal.sendCommand (.serverConnect host port username password acceptInvalidCert) =
          .ok (.ok (some (.serverConnect welcomeMessage serverState))) → ShowsUs serverState := by
  unfold connect
  cases hsend : terminal.sendCommand
      (.serverConnect host port username password acceptInvalidCert) with
  | error e => exact iff_of_true (returns_ok _) fun _ _ h => nomatch h
  | ok response =>
      have hanswer := (hserved.sendCommand _ response hsend).answers
      cases response with
      | error e =>
          refine iff_of_true ?_ fun _ _ h => nomatch h
          cases e <;> exact returns_ok _
      | ok response =>
          obtain ⟨welcomeMessage, serverState, rfl⟩ := hanswer
          refine (returns_bind_iff fun _ _ => returns_ok _).trans ?_
          rw [returns_parseState_iff]
          constructor
          · intro h welcomeMessage' serverState' heq
            cases heq
            exact h
          · exact fun h => h _ _ rfl

theorem returns_status_iff (hserved : terminal.Served) (floats : Floats) (file : File)
    (document : Document) (config : Config) :
    Returns (Opt.status.run floats terminal file document config) ↔
      ∀ serverState, terminal.sendCommand .status = .ok (.ok (some (.status serverState))) →
        ShowsUs serverState := by
  unfold Opt.run
  cases hsend : terminal.sendCommand .status with
  | error e => exact iff_of_true (returns_ok _) fun _ h => nomatch h
  | ok response =>
      have hanswer := (hserved.sendCommand _ response hsend).answers
      cases response with
      | error e => exact iff_of_true (returns_ok _) fun _ h => nomatch h
      | ok response =>
          obtain ⟨serverState, rfl⟩ := hanswer
          refine (returns_bind_iff fun _ _ => returns_ok _).trans ?_
          rw [returns_parseState_iff]
          constructor
          · intro h serverState' heq
            cases heq
            exact h
          · exact fun h => h _ rfl

theorem returns_channelList (hserved : terminal.Served) (floats : Floats) (file : File)
    (document : Document) (config : Config) (short : Bool) :
    Returns ((Opt.channel (.list short)).run floats terminal file document config) := by
  unfold Opt.run
  cases hsend : terminal.sendCommand .channelList with
  | error e => exact returns_ok _
  | ok response =>
      have hanswer := (hserved.sendCommand _ response hsend).answers
      cases response with
      | error e => exact returns_ok _
      | ok response =>
          obtain ⟨channels, rfl⟩ := hanswer
          exact returns_ok _

end Answers

/-- What `connect` sends is a `ServerConnect`. -/
theorem connectCommand_eq_ok {config : Config} {host : String} {username password : Option String}
    {port : Option UInt16} {acceptInvalidCert specified : Bool} {command : Mumlib.Command}
    (h : connectCommand config host username password port acceptInvalidCert =
      .ok (command, specified)) : ∃ host port username password acceptInvalidCert,
      command = .serverConnect host port username password acceptInvalidCert := by
  rw [connectCommand_eq] at h
  dsimp only at h
  split at h
  · cases h
  · cases h
    exact ⟨_, _, _, _, _, rfl⟩

/-- A command with a configuration that could be read. -/
theorem returns_run_iff {floats : Floats} {terminal : Terminal} {file : File}
    {document : Document} {config : Config} (hserved : terminal.Served)
    (hload : fromDocument floats document = some config) (opt : Opt) :
    Returns (opt.run floats terminal file document config) ↔
      opt.Fits floats terminal document config := by
  cases opt with
  | channel command =>
      cases command with
      | connect name => exact iff_of_true (returns_ok _) trivial
      | list short => exact iff_of_true (returns_channelList hserved ..) trivial
  | connect host username password port acceptInvalidCert =>
      simp only [Opt.run, Opt.Fits]
      cases hcommand : connectCommand config host username password port acceptInvalidCert with
      | error e => exact iff_of_true (returns_ok _) fun _ _ h => by cases h
      | ok sent =>
          obtain ⟨command, specified⟩ := sent
          obtain ⟨host, port, username, password, accept, rfl⟩ := connectCommand_eq_ok hcommand
          refine (returns_connect_iff hserved).trans ⟨fun h command' specified' heq => ?_, ?_⟩
          · cases heq
            exact h
          · exact fun h => h _ _ rfl
  | edit command =>
      refine (returns_bind_iff fun _ _ => returns_ok _).trans ?_
      exact returns_runEdit_iff file hload command
  | events follow =>
      refine iff_of_true (returns_printAll hserved fun response h => ?_) trivial
      exact returns_eventLine h
  | messages follow =>
      refine iff_of_true (returns_printAll hserved fun response h => ?_) trivial
      exact returns_messageLine h
  | mute user | unmute user => cases user <;> exact iff_of_true (returns_ok _) trivial
  | serverList => exact iff_of_true (returns_serverList hserved file config) trivial
  | status => exact returns_status_iff hserved floats file document config
  | volume user amount => cases amount <;> exact iff_of_true (returns_ok _) trivial
  | _ => exact iff_of_true (returns_ok _) trivial

/-- **When `mumctl` panics.**  If its answers come from the daemon, a command returns
exactly when the file has the shape that it unwraps, and every state that it prints
shows us.  No answer is of a kind that it does not expect. -/
theorem returns_matchOpt_iff {terminal : Terminal} (hserved : terminal.Served) (floats : Floats)
    (file : File) (opt : Opt) :
    Returns (opt.matchOpt floats terminal file) ↔
      ∀ document config, file.parse = some document → fromDocument floats document = some config →
        opt.Fits floats terminal document config := by
  unfold Opt.matchOpt
  cases hparse : file.parse with
  | none => exact iff_of_true (returns_ok _) fun _ _ h => nomatch h
  | some document =>
      dsimp only
      cases hload : fromDocument floats document with
      | none =>
          refine iff_of_true (returns_ok _) fun document' config hdocument hconfig => ?_
          cases hdocument
          cases hload.symm.trans hconfig
      | some config =>
          refine (returns_run_iff hserved hload opt).trans ?_
          constructor
          · intro h document' config' hdocument hconfig
            cases hdocument
            cases hload.symm.trans hconfig
            exact h
          · exact fun h => h document config rfl hload

/-- The certificate of one server is invalid, and nothing else is answered. -/
def Terminal.rejecting : Terminal :=
  .answering fun command =>
    if command = .serverConnect "b" 64738 "me" none false then .ok (.error .serverCertReject)
    else .error .connectionError

theorem Terminal.served_rejecting : Terminal.rejecting.Served where
  sendCommand := by
    intro command response hresponse
    unfold rejecting answering at hresponse
    dsimp only at hresponse
    split at hresponse
    next hcommand =>
      cases hcommand
      cases hresponse
      obtain ⟨trace, htrace, hrun⟩ := Daemon.run_twoPings
      have hget := Option.some.inj (htrace.symm.trans (Option.some_get (by decide)).symm)
      subst hget
      refine ⟨.idle, _, 1, hrun, by decide, List.mem_of_mem_head? ?_⟩
      rfl
    · cases hresponse
  spawned := fun _ _ _ h => nomatch h
  sendCommandMulti := fun _ _ h => nomatch h

/-- `mumctl connect b me` prints the rejection. -/
theorem returns_matchOpt_iff_rejecting :
    Returns
      ((Opt.connect "b" (some "me") none none false).matchOpt noFloats .rejecting .missing) := by
  refine (returns_matchOpt_iff Terminal.served_rejecting _ _ _).mpr ?_
  intro document config _ _ command specified _ welcomeMessage serverState hsend
  unfold Terminal.rejecting Terminal.answering at hsend
  dsimp only at hsend
  split at hsend
  · cases hsend
  · cases hsend

end Mum.Ctl
