import Mum.State.HandleCommand

/-!
# What a command may be answered with

`Command.Answers` says what a controller has to expect: the kinds of results that a
command has, and the errors, each with the part of the command that it names.  The
commands that are answered at once keep to it here; those that wait for an event or
for a ping do in `Mum.Daemon`.

The loops over targets are the only place where the errors need an induction
(`pushChannels_error`, `pushUsers_error`); for the rest, `handleCommand_contextFor` goes by
the branches of `handle_command`.
-/

namespace Mum

open Library Library.Eval Msgs
open Mumlib (ChannelTarget Command CommandResponse MessageTarget Response)

namespace Mumlib.Command

/-- The results of a command. -/
def Result : Command → Option CommandResponse → Prop
  | channelList, response => ∃ channels, response = some (.channelList channels)
  | deafenSelf _, response => response = none ∨ ∃ deaf, response = some (.deafenStatus deaf)
  | events block, response => block = false ∧ ∃ event, response = some (.event event)
  | muteSelf _, response => response = none ∨ ∃ mute, response = some (.muteStatus mute)
  | pastMessages _, response =>
      ∃ timestamp message user, response = some (.pastMessage timestamp message user)
  | ping, response => response = some .pong
  | serverConnect _ _ _ _ _, response =>
      ∃ welcomeMessage serverState, response = some (.serverConnect welcomeMessage serverState)
  | serverStatus _ _, response => response = none ∨
      ∃ version users maxUsers bandwidth,
        response = some (.serverStatus version users maxUsers bandwidth)
  | status, response => ∃ serverState, response = some (.status serverState)
  | _, response => response = none

/-- The errors of a command. -/
def Fails : Command → Mumlib.Error → Prop
  | channelJoin identifier, e =>
      e = .disconnected ∨ ∃ kind, e = .channelIdentifierError identifier kind
  | configReload, _ | inputVolumeSet _, _ | outputVolumeSet _, _ | ping, _ => False
  | events block, e => block = true ∧ e = .unimplemented
  | muteOther username _, e | userVolumeSet username _, e =>
      e = .disconnected ∨ e = .invalidUsername username
  | sendMessage _ (.channel channels), e => e = .disconnected ∨
      ∃ name kind recursive, (.named name, recursive) ∈ channels ∧
        e = .channelIdentifierError name kind
  | sendMessage _ (.user names), e => e = .disconnected ∨ ∃ name ∈ names, e = .invalidUsername name
  | serverConnect host port _ _ _, e => e = .disconnected ∨ e = .invalidServerAddr host port ∨
      e = .invalidServerPassword ∨ e = .serverCertReject
  | serverStatus host port, e => e = .invalidServerAddr host port
  | _, e => e = .disconnected

/-- The responses to a command. -/
def Answers (command : Command) : Response → Prop
  | .ok response => command.Result response
  | .error e => command.Fails e

/-- Any number of responses may come. -/
def isListing : Command → Bool
  | events block => !block
  | pastMessages _ => true
  | _ => false

end Mumlib.Command

/-! ## Answers at once -/

/-- How a command may be answered. -/
inductive ContextFor : Command → ExecutionContext → Prop
  | now {command : Command} {responses : List Response}
      (hanswers : ∀ response ∈ responses, command.Answers response)
      (hone : command.isListing = false → responses.length = 1) :
      ContextFor command (.now responses)
  | tcpEventCallback (host : String) (port : UInt16) (username : String)
      (password : Option String) (acceptInvalidCert : Bool) :
      ContextFor (.serverConnect host port username password acceptInvalidCert) .tcpEventCallback
  | tcpEventSubscriber : ContextFor (.pastMessages true) .tcpEventSubscriber
  | ping (host : String) (port : UInt16) : ContextFor (.serverStatus host port) (.ping host port)

variable {host : Host} {state : State} {command : Command} {outcome : Outcome}

/-- One response, and it is one of the command. -/
theorem ContextFor.answer {response : Response} (h : command.Answers response) :
    ContextFor command (.now [response]) :=
  .now (fun _ hmem => List.mem_singleton.mp hmem ▸ h) fun _ => rfl

theorem contextFor_updateSelf {s : ConnectedServer} {action : Option (Bool × Bool)}
    {response : UserState → Option CommandResponse} (h : state.updateSelf s action response =
      .ok outcome) (hnone : command.Result none) (hresult : ∀ msg, command.Result (response msg)) :
    ContextFor command outcome.context := by
  obtain ⟨audioOutput, -, houtcome⟩ := state.updateSelf_eq_ok s action response
  cases houtcome.symm.trans h
  cases action with
  | none => exact .answer hnone
  | some flags => exact .answer (hresult _)

/-- A channel that is not found is one that the message names. -/
theorem pushChannels_error {server : ConnectedServer} {msg : TextMessage}
    {channels : List (ChannelTarget × Bool)} {e : Mumlib.Error}
    (h : State.pushChannels host server msg channels = .ok (.error e)) :
    ∃ name kind recursive, (.named name, recursive) ∈ channels ∧
      e = .channelIdentifierError name kind := by
  induction channels generalizing msg with
  | nil => cases h
  | cons target rest ih =>
      obtain ⟨channel, recursive⟩ := target
      obtain ⟨id, hid, h⟩ := bind_eq_ok.mp h
      cases id with
      | ok id =>
          obtain ⟨name, kind, recursive', hmem, he⟩ := ih h
          exact ⟨name, kind, recursive', List.mem_cons_of_mem _ hmem, he⟩
      | error e' =>
          cases h
          cases channel with
          | current =>
              obtain ⟨current, -, hid⟩ := bind_eq_ok.mp hid
              cases hid
          | named name =>
              obtain ⟨found, -, hid⟩ := bind_eq_ok.mp hid
              cases found with
              | ok channel => cases hid
              | error kind =>
                  cases hid
                  exact ⟨name, kind, recursive, List.mem_cons_self, rfl⟩

theorem pushUsers_error {server : ConnectedServer} {msg : TextMessage} {names : List String}
    {e : Mumlib.Error} (h : State.pushUsers server msg names = .error e) :
    ∃ name ∈ names, e = .invalidUsername name := by
  induction names generalizing msg with
  | nil => cases h
  | cons name rest ih =>
      rw [State.pushUsers] at h
      split at h
      · cases h
        exact ⟨name, List.mem_cons_self, rfl⟩
      · obtain ⟨name', hmem, he⟩ := ih h
        exact ⟨name', List.mem_cons_of_mem _ hmem, he⟩

theorem contextFor_sendMessage {s : ConnectedServer} {message : String} {targets : MessageTarget}
    (h : State.sendMessage host state s message targets = .ok outcome) :
    ContextFor (.sendMessage message targets) outcome.context := by
  obtain ⟨msg, hmsg, h⟩ := bind_eq_ok.mp h
  cases msg with
  | ok msg =>
      cases h
      exact .answer rfl
  | error e =>
      cases h
      cases targets with
      | channel channels => exact .answer (.inr (pushChannels_error hmsg))
      | user names => exact .answer (.inr (pushUsers_error (Except.ok.inj hmsg)))

theorem answers_pastMessages {messages : List (Mumlib.NaiveDateTime × String × UInt32)}
    {responses : List Response} (h : state.pastMessages messages = .ok responses)
    (block : Bool) : ∀ response ∈ responses, (Command.pastMessages block).Answers response := by
  induction messages generalizing responses with
  | nil =>
      cases h
      exact fun _ hmem => nomatch hmem
  | cons message rest ih =>
      rw [State.pastMessages, List.mapM_cons] at h
      obtain ⟨response, hresponse, h⟩ := bind_eq_ok.mp h
      obtain ⟨responses', hresponses, h⟩ := bind_eq_ok.mp h
      obtain ⟨user, -, hresponse⟩ := bind_eq_ok.mp hresponse
      cases h
      cases hresponse
      rw [List.forall_mem_cons]
      exact ⟨⟨message.1, message.2.1, user, rfl⟩, ih hresponses⟩

/-- A command that needs a connection. -/
theorem contextFor_connected {f : ConnectedServer → Eval Outcome}
    (h : (match state.server with
      | .connected s => f s
      | _ => .ok (state.answer (.error .disconnected))) = .ok outcome)
    (hdisconnected : command.Fails .disconnected)
    (hf : ∀ s, f s = .ok outcome → ContextFor command outcome.context) :
    ContextFor command outcome.context :=
  of_connected (P := fun outcome => ContextFor command outcome.context) h
    (ContextFor.answer hdisconnected) fun s _ h => hf s h

/-- Every command is answered with one of its responses, or waits as such commands do. -/
theorem handleCommand_contextFor (h : handleCommand host state command = .ok outcome) :
    ContextFor command outcome.context := by
  cases command with
  | channelJoin identifier =>
      refine contextFor_connected h (.inl rfl) fun s h => ?_
      obtain ⟨found, -, h⟩ := bind_eq_ok.mp h
      cases found with
      | error kind =>
          cases h
          exact .answer (.inr ⟨kind, rfl⟩)
      | ok channel =>
          cases h
          exact .answer rfl
  | channelList =>
      refine contextFor_connected h rfl fun s h => ?_
      obtain ⟨list, -, h⟩ := bind_eq_ok.mp h
      cases h
      exact .answer ⟨list, rfl⟩
  | configReload =>
      obtain ⟨state', -, h⟩ := bind_eq_ok.mp h
      cases h
      exact .answer rfl
  | deafenSelf toggle =>
      refine contextFor_connected h rfl fun s h => contextFor_updateSelf h (.inl rfl) fun msg => ?_
      cases msg.selfDeaf with
      | none => exact .inl rfl
      | some deaf => exact .inr ⟨deaf, rfl⟩
  | events block =>
      cases block with
      | true =>
          cases h
          exact .answer ⟨rfl, rfl⟩
      | false =>
          cases h
          refine .now (fun response hmem => ?_) fun hlisting => nomatch hlisting
          obtain ⟨event, -, rfl⟩ := List.mem_map.mp hmem
          exact ⟨rfl, event, rfl⟩
  | inputVolumeSet volume | outputVolumeSet volume | ping =>
      cases h
      exact .answer rfl
  | muteOther username toggle =>
      refine contextFor_connected h (.inl rfl) fun s h => ?_
      cases h
      unfold State.muteOther
      split
      · exact .answer (.inr rfl)
      · dsimp only
        split
        · exact .answer rfl
        · exact .answer rfl
  | muteSelf toggle =>
      refine contextFor_connected h rfl fun s h => contextFor_updateSelf h (.inl rfl) fun msg => ?_
      cases msg.selfMute with
      | none => exact .inl rfl
      | some mute => exact .inr ⟨mute, rfl⟩
  | pastMessages block =>
      refine contextFor_connected h rfl fun s h => ?_
      cases block with
      | true =>
          cases h
          exact .tcpEventSubscriber
      | false =>
          obtain ⟨responses, hresponses, h⟩ := bind_eq_ok.mp h
          cases h
          exact .now (answers_pastMessages hresponses false) fun hlisting => nomatch hlisting
  | sendMessage message targets =>
      refine contextFor_connected h ?_ fun s h => contextFor_sendMessage h
      cases targets with
      | channel channels => exact .inl rfl
      | user names => exact .inl rfl
  | serverConnect hostname port username password acceptInvalidCert =>
      rw [handleCommand] at h
      split at h
      · cases h
        unfold State.serverConnect
        dsimp only
        split
        · exact .tcpEventCallback ..
        · exact .answer (.inr (.inl rfl))
      · cases h
        exact .answer (.inl rfl)
  | serverDisconnect =>
      refine contextFor_connected h rfl fun s h => ?_
      obtain ⟨state', -, h⟩ := bind_eq_ok.mp h
      cases h
      exact .answer rfl
  | serverStatus hostname port =>
      cases h
      exact .ping hostname port
  | status =>
      refine contextFor_connected h rfl fun s h => ?_
      obtain ⟨serverState, -, h⟩ := bind_eq_ok.mp h
      cases h
      exact .answer ⟨serverState, rfl⟩
  | userVolumeSet username volume =>
      refine contextFor_connected h (.inl rfl) fun s h => ?_
      cases h
      unfold State.userVolumeSet
      split
      · exact .answer (.inr rfl)
      · exact .answer rfl

end Mum
