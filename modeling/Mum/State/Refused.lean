import Mum.State.HandleCommand

/-!
# Commands that are refused

A command that is answered with an error should leave no trace.  Each command
looks up what it needs before it changes anything, but for `ServerConnect`, which
sets the server and the phase before it resolves the address.

`Unchanged` is what a refusal should leave, and the branches of `handle_command` are gone
through by `CommandOutcome`.  Those whose only answers are results have nothing to show.
-/

namespace Mum

open Library Library.Eval Msgs
open Mumlib (Command Response)

/-- The controller is answered with an error. -/
def ExecutionContext.AnswersErr (host : Host) : ExecutionContext → Prop
  | tcpEventCallback => False
  | tcpEventSubscriber => False
  | now responses => ∃ e, Except.error e ∈ responses
  | ping hostname port => ∀ addr rest, host.toSocketAddrs hostname port ≠ some (addr :: rest)

namespace Outcome

/-- Nothing has happened besides the answer. -/
structure Unchanged (outcome : Outcome) (state : State) : Prop where
  state_eq : outcome.state = state
  packets_eq : outcome.packets = []
  connectionInfo_eq : outcome.connectionInfo = none

/-- An answer with an error means that nothing has happened. -/
def Atomic (outcome : Outcome) (host : Host) (state : State) : Prop :=
  outcome.context.AnswersErr host → outcome.Unchanged state

theorem atomic_answer {host : Host} {state : State} {response : Response} :
    (state.answer response).Atomic host state :=
  fun _ => ⟨rfl, rfl, rfl⟩

theorem atomic_of_ok {outcome : Outcome} {host : Host} {state : State} {responses : List Response}
    (hcontext : outcome.context = .now responses) (hok : ∀ e, Except.error e ∉ responses) :
    outcome.Atomic host state := by
  intro herr
  rw [hcontext] at herr
  obtain ⟨e, he⟩ := herr
  exact absurd he (hok e)

/-- What is answered with a success may change anything. -/
theorem atomic_of_answer_ok {outcome : Outcome} {host : Host} {state : State}
    {response : Option Mumlib.CommandResponse} (hcontext : outcome.context = .now [.ok response]) :
    outcome.Atomic host state :=
  atomic_of_ok hcontext fun e he => by simp at he

end Outcome

/-! ## The commands one by one -/

namespace State

variable {host : Host} {state : State} {s : ConnectedServer} {outcome : Outcome}

theorem atomic_updateSelf {action : Option (Bool × Bool)}
    {response : UserState → Option Mumlib.CommandResponse}
    (h : state.updateSelf s action response = .ok outcome) : outcome.Atomic host state := by
  cases action with
  | none =>
      cases h
      exact Outcome.atomic_answer
  | some flags =>
      obtain ⟨state', -, h⟩ := bind_eq_ok.mp h
      cases h
      exact Outcome.atomic_of_answer_ok rfl

theorem atomic_muteOther (username : String) (toggle : Option Bool) :
    (state.muteOther s username toggle).Atomic host state := by
  unfold muteOther
  cases findUser s.users username with
  | none => exact Outcome.atomic_answer
  | some entry =>
      dsimp only
      split
      · exact Outcome.atomic_answer
      · exact Outcome.atomic_of_answer_ok rfl

theorem atomic_userVolumeSet (username : String) (volume : F32) :
    (state.userVolumeSet s username volume).Atomic host state := by
  unfold userVolumeSet
  cases findUser s.users username with
  | none => exact Outcome.atomic_answer
  | some entry => exact Outcome.atomic_of_answer_ok rfl

theorem atomic_serverDisconnect (h : state.serverDisconnect = .ok outcome) :
    outcome.Atomic host state := by
  obtain ⟨state', -, h⟩ := bind_eq_ok.mp h
  cases h
  exact Outcome.atomic_of_answer_ok rfl

theorem ok_of_mem_pastMessages {messages : List (Mumlib.NaiveDateTime × String × UInt32)}
    {responses : List Response} (h : state.pastMessages messages = .ok responses)
    (e : Mumlib.Error) : Except.error e ∉ responses := by
  intro he
  obtain ⟨message, -, hmessage⟩ := (mem_of_mapM_eq_ok h).mp he
  obtain ⟨user, -, hmessage⟩ := bind_eq_ok.mp hmessage
  cases hmessage

/-- The connection is refused when the address does not resolve, and then the
server and the phase have been set. -/
theorem atomic_serverConnect_iff {hostname username : String} {port : UInt16}
    {password : Option String} {acceptInvalidCert : Bool} (hserver : state.server = .disconnected) :
    (state.serverConnect host hostname port username password acceptInvalidCert).Atomic host state ↔
      ∃ addr rest, host.toSocketAddrs hostname port = some (addr :: rest) := by
  unfold serverConnect
  dsimp only
  split
  next addr rest haddr => exact ⟨fun _ => ⟨addr, rest, haddr⟩, fun _ herr => herr.elim⟩
  next hnone =>
    refine ⟨fun hatomic => ?_, fun ⟨addr, rest, haddr⟩ => absurd haddr (hnone addr rest)⟩
    have hstate := (hatomic ⟨_, List.mem_singleton.mpr rfl⟩).state_eq
    -- the server is no longer disconnected
    cases hserver.symm.trans (congrArg State.server hstate).symm

end State

/-- The command is a `ServerConnect` that finds us disconnected and whose
address does not resolve. -/
def Mumlib.Command.ConnectsToNowhere (host : Host) (state : State) (command : Command) : Prop :=
  ∃ hostname port username password acceptInvalidCert,
    command = .serverConnect hostname port username password acceptInvalidCert ∧
      state.server = .disconnected ∧
      ∀ addr rest, host.toSocketAddrs hostname port ≠ some (addr :: rest)

/-- All other commands look up what they need before they change anything. -/
theorem atomic_handleCommand {host : Host} {state : State} {command : Command} {outcome : Outcome}
    (h : handleCommand host state command = .ok outcome)
    (hconnect : ∀ hostname port username password acceptInvalidCert,
      command = .serverConnect hostname port username password acceptInvalidCert →
        state.server ≠ .disconnected) : outcome.Atomic host state := by
  cases handleCommand_eq_ok h with
  | answer response => exact Outcome.atomic_answer
  | send | configReload | inputVolumeSet | outputVolumeSet => exact Outcome.atomic_of_answer_ok rfl
  | updateSelf _ h => exact State.atomic_updateSelf h
  | events => exact Outcome.atomic_of_ok rfl fun e he => by simp at he
  | muteOther _ username toggle => exact State.atomic_muteOther username toggle
  | subscribe => exact fun herr => herr.elim
  | pastMessages hresponses =>
      -- the messages are taken, and none of the answers is an error
      exact Outcome.atomic_of_ok rfl (State.ok_of_mem_pastMessages hresponses)
  | serverConnect hserver => exact absurd hserver (hconnect _ _ _ _ _ rfl)
  | serverDisconnect _ h => exact State.atomic_serverDisconnect h
  | serverStatus => exact fun _ => ⟨rfl, rfl, rfl⟩
  | userVolumeSet _ username volume => exact State.atomic_userVolumeSet username volume

/-- **A refused command leaves no trace**, unless it is a `ServerConnect` to an
address that does not resolve. -/
theorem handleCommand_atomic_iff (host : Host) (state : State) (command : Command)
    (outcome : Outcome) (h : handleCommand host state command = .ok outcome) :
    (outcome.context.AnswersErr host → outcome.Unchanged state) ↔
      ¬ command.ConnectsToNowhere host state := by
  constructor
  · rintro hatomic ⟨hostname, port, username, password, acceptInvalidCert, rfl, hserver, hnone⟩
    rw [handleCommand, hserver] at h
    cases h
    obtain ⟨addr, rest, haddr⟩ := (State.atomic_serverConnect_iff hserver).mp hatomic
    exact hnone addr rest haddr
  · intro hnowhere
    by_cases hconnect : ∃ hostname port username password acceptInvalidCert,
        command = .serverConnect hostname port username password acceptInvalidCert ∧
          state.server = .disconnected
    · obtain ⟨hostname, port, username, password, acceptInvalidCert, rfl, hserver⟩ := hconnect
      rw [handleCommand, hserver] at h
      cases h
      refine (State.atomic_serverConnect_iff hserver).mpr (by_contra fun haddr => hnowhere ?_)
      exact ⟨_, _, _, _, _, rfl, hserver, fun addr rest h => haddr ⟨addr, rest, h⟩⟩
    · refine atomic_handleCommand h fun hostname port username password cert hcommand hserver =>
        hconnect ⟨hostname, port, username, password, cert, hcommand, hserver⟩

theorem handleCommand_atomic_serverDisconnect :
    ((ExecutionContext.now [.error .disconnected]).AnswersErr .offline →
        (State.idle.answer (.error .disconnected)).Unchanged .idle) ↔
      ¬ Command.serverDisconnect.ConnectsToNowhere .offline .idle :=
  handleCommand_atomic_iff .offline .idle .serverDisconnect _ rfl

/-- After a `ServerConnect` to an unknown host we count as connecting. -/
theorem not_unchanged_serverConnect : ∃ outcome,
    handleCommand .offline .idle (.serverConnect "nowhere" 64738 "me" none false) = .ok outcome ∧
      outcome.context.AnswersErr .offline ∧ ¬ outcome.Unchanged .idle := by
  refine ⟨_, rfl, ⟨_, List.mem_singleton.mpr rfl⟩, fun hunchanged => ?_⟩
  cases congrArg State.server hunchanged.state_eq

end Mum
