import Mum.Client.GoodServer
import Mum.Client.Responses
import Mum.Daemon
import Mum.Network.VoiceOrder

/-!
# What stops the daemon

A task that panics or never returns takes the daemon with it.  `Tasks` is the `Daemon` with
what is left of its tasks: `send_voice` of the UDP session, the sockets of `new_crypt_state`
and of `handle_pings`, and a controller that leaves in the middle of an answer.  Their errors
are unwrapped, so that the daemon depends on the machine that it runs on, on the address to
which somebody wants a ping to be sent, and on whoever asks for all events or messages.

## Strategy

`Safe` is what a step needs, in terms of the state before it.  For the tasks of a `System`
that is shown in `Mum.Client.Faults`, where it takes two invariants; a step of `Tasks` keeps
them, since it either is a step of the system or leaves the system alone (`step_cases`).
What the other tasks need is read off their definitions.  A server that behaves keeps
`System.Steady`, and that is enough for every step of the system.
-/

namespace Mum

open Library Library.Eval Msgs
open Mumlib (Command)

/-- A ping that is due has to be sent. -/
def Pings.SafeLabel (x : Pings) : Pings.Label → Prop
  | .send sent => x.sent = none → x.requests ≠ [] → sent
  | _ => True

/-- All tasks of `client::handle`, down to their sockets. -/
structure Tasks where
  daemon : Daemon
  /-- `send_voice` of the UDP session; the stream of frames and a frame in hand are left to
  `VoiceTasks`. -/
  voice : SendVoice Unit
  /-- `handle_pings` has its socket. -/
  pingSocket : Bool

namespace Tasks

inductive Label
  | system (host : Host) (label : Mum.Label)
  | pings (label : Pings.Label)
  /-- `handle_pings` begins. -/
  | bindPings (bound : Bool)
  | voicePoll
  /-- A frame is to be sent over UDP. -/
  | voice (sent : Bool)
  /-- `new_crypt_state` takes a crypt state, and there is no socket for it. -/
  | unbound
  /-- A controller is gone when the first response to its command was sent. -/
  | abandoned (host : Host) (command : Command)

def start (state : State) : Tasks := ⟨.start state, .new, false⟩

/-- The voice after a step; a UDP session begins with a task of its own. -/
def voiceAfter (x : Tasks) : Daemon.Label → SendVoice Unit
  | .system _ (.udp .connect) => .new
  | _ => x.voice

def daemonStep (x : Tasks) (label : Daemon.Label) : Option (Eval Tasks) :=
  (x.daemon.step label).map fun result => do
    let daemon ← result
    .ok { x with daemon := daemon, voice := x.voiceAfter label }

/-- The daemon runs, and a UDP session goes on. -/
def inSession (x : Tasks) : Bool :=
  x.daemon.system.running && match x.daemon.system.udp with
    | .session _ => true
    | _ => false

/-- A second response to the command is sent, and unwrapped like the first. -/
def sendsMore (host : Host) (state : State) (command : Command) : Bool :=
  match handleCommand host state command with
  | .ok outcome =>
      match outcome.context with
      | .now responses => 1 < responses.length
      | _ => false
  | .error _ => false

/-- A step of one of the tasks. -/
def step (x : Tasks) : Label → Option (Eval Tasks)
  | .system host label => x.daemonStep (.system host label)
  | .pings label => if x.pingSocket then x.daemonStep (.pings label) else none
  | .bindPings bound =>
      if x.daemon.system.running ∧ ¬ x.pingSocket then
        some (if bound then .ok { x with pingSocket := true } else .error .panic)
      else none
  | .voicePoll =>
      if x.inSession then
        (x.voice.poll .udp (fun _ => 0) () x.daemon.system.state.phaseWatcher).map fun voice =>
          .ok { x with voice := voice }
      else none
  | .voice sent =>
      if x.inSession ∧ x.voice.loop.isSome then some (if sent then .ok x else .error .panic)
      else none
  | .unbound =>
      if x.inSession ∧ x.daemon.system.cryptStates ≠ [] then some (.error .panic) else none
  | .abandoned host command =>
      if x.daemon.system.running ∧ sendsMore host x.daemon.system.state command then
        some (.error .panic)
      else none

def next (x : Tasks) (label : Label) : Option Tasks :=
  match x.step label with
  | some (.ok x') => some x'
  | _ => none

/-- No step panics or runs for ever. -/
def NoFault (x : Tasks) (label : Label) : Prop := ∀ fault, x.step label ≠ some (.error fault)

/-- What a step needs.  Whatever is sent over UDP has to be sent, sockets have to be bound,
and nobody leaves before the last response. -/
def Safe (x : Tasks) : Label → Prop
  | .system host label => x.daemon.system.Safe (host, label)
  | .pings label => x.daemon.system.running → x.pingSocket → x.daemon.pings.SafeLabel label
  | .bindPings bound => x.daemon.system.running → ¬ x.pingSocket → bound
  | .voice sent => x.inSession → x.voice.loop.isSome → sent
  | .unbound => x.inSession → x.daemon.system.cryptStates = []
  | .abandoned _ command =>
      x.daemon.system.running → Command.Brief x.daemon.system.state command
  | .voicePoll => True

/-! ## The steps -/

variable {x x' : Tasks}

/-- Which part takes a step. -/
inductive StepCase (x x' : Tasks) : Label → Prop
  | system {host : Host} {label : Mum.Label}
      (hstep : System.Step x.daemon.system (host, label) x'.daemon.system) :
      StepCase x x' (.system host label)
  | other {label : Label} (hsystem : x'.daemon.system = x.daemon.system) : StepCase x x' label

theorem next_eq_some {label : Label} : x.next label = some x' ↔ x.step label = some (.ok x') := by
  unfold next
  constructor
  · intro h
    split at h
    next hstep =>
      cases h
      exact hstep
    · cases h
  · intro h
    rw [h]

theorem daemonStep_eq_ok {label : Daemon.Label} (h : x.daemonStep label = some (.ok x')) :
    Daemon.Step x.daemon label x'.daemon := by
  obtain ⟨result, hresult, h⟩ := Option.map_eq_some_iff.mp h
  obtain ⟨daemon, rfl, h⟩ := bind_eq_ok.mp h
  cases h
  exact Daemon.next_eq_some.mpr hresult

theorem step_system {d d' : Daemon} {host : Host} {label : Mum.Label}
    (h : Daemon.Step d (.system host label) d') :
    System.Step d.system (host, label) d'.system := by
  cases Daemon.step_cases h with
  | system hstep => exact hstep

theorem system_of_pings {d d' : Daemon} {label : Pings.Label}
    (h : Daemon.Step d (.pings label) d') : d'.system = d.system := by
  cases Daemon.step_cases h with
  | pings => rfl

theorem step_cases {label : Label} (h : x.next label = some x') : StepCase x x' label := by
  have hstep := next_eq_some.mp h
  cases label with
  | system host label => exact .system (step_system (daemonStep_eq_ok hstep))
  | pings label =>
      obtain ⟨-, hstep⟩ := Option.ite_none_right_eq_some.mp hstep
      exact .other (system_of_pings (daemonStep_eq_ok hstep))
  | bindPings bound =>
      obtain ⟨-, hstep⟩ := Option.ite_none_right_eq_some.mp hstep
      cases bound with
      | true =>
          cases hstep
          exact .other rfl
      | false => cases hstep
  | voicePoll =>
      obtain ⟨-, hstep⟩ := Option.ite_none_right_eq_some.mp hstep
      obtain ⟨voice, -, hstep⟩ := Option.map_eq_some_iff.mp hstep
      cases hstep
      exact .other rfl
  | voice sent =>
      obtain ⟨-, hstep⟩ := Option.ite_none_right_eq_some.mp hstep
      cases sent with
      | true =>
          cases hstep
          exact .other rfl
      | false => cases hstep
  | unbound | abandoned host command =>
      obtain ⟨-, hstep⟩ := Option.ite_none_right_eq_some.mp hstep
      cases hstep

/-! ## What each needs -/

/-- Commands that may be answered with several responses do not panic. -/
theorem brief_of_error {host : Host} {state : State} {command : Command} {fault : Fault}
    (h : handleCommand host state command = .error fault) : Command.Brief state command := by
  have hnot : ¬ state.SafeCommand host command := by
    intro hsafe
    obtain ⟨outcome, houtcome⟩ := handleCommand_returns_iff.mpr hsafe
    cases h.symm.trans houtcome
  cases command with
  | events block => exact absurd trivial hnot
  | pastMessages block => exact absurd trivial hnot
  | _ => trivial

theorem sendsMore_iff {host : Host} {state : State} {command : Command} :
    sendsMore host state command ↔ ¬ Command.Brief state command := by
  unfold sendsMore
  cases houtcome : handleCommand host state command with
  | error fault =>
      exact iff_of_false Bool.false_ne_true (not_not.mpr (brief_of_error houtcome))
  | ok outcome =>
      rw [← single_iff_brief houtcome]
      obtain ⟨state', packets, connectionInfo, context⟩ := outcome
      cases context with
      | now responses => simp [Dialogs.Single]
      | _ => simp [Dialogs.Single]

theorem daemonStep_ne_error_iff {label : Daemon.Label} :
    (∀ fault, x.daemonStep label ≠ some (.error fault)) ↔
      ∀ fault, x.daemon.step label ≠ some (.error fault) := by
  unfold daemonStep
  cases x.daemon.step label with
  | none => simp
  | some result => cases result <;> simp

theorem noFault_system_iff {host : Host} {label : Mum.Label} :
    x.NoFault (.system host label) ↔ x.daemon.system.NoFault (host, label) := by
  refine daemonStep_ne_error_iff.trans ?_
  unfold System.NoFault Daemon.step
  dsimp only
  cases x.daemon.system.step host label with
  | none => simp
  | some result => cases result <;> simp

/-- Nothing else that `handle_pings` does can fail. -/
theorem pings_ne_error_iff {pings : Pings} {label : Pings.Label} :
    (∀ fault, pings.step label ≠ some (.error fault)) ↔ pings.SafeLabel label := by
  cases label with
  | send sent =>
      unfold Pings.step Pings.SafeLabel
      dsimp only
      cases pings.sent with
      | some request => simp
      | none =>
          cases pings.requests with
          | nil => simp
          | cons request requests => cases sent <;> simp
  | request socketAddr => exact iff_of_true (fun fault => by simp [Pings.step]) trivial
  | register =>
      refine iff_of_true (fun fault => ?_) trivial
      unfold Pings.step
      dsimp only
      split
      · simp
      · split <;> simp
  | receive packet =>
      refine iff_of_true (fun fault => ?_) trivial
      unfold Pings.step
      dsimp only
      split
      · split <;> simp
      · simp
  | receiveOther | receiveError =>
      refine iff_of_true (fun fault => ?_) trivial
      unfold Pings.step
      dsimp only
      split <;> simp
  | poll handle elapsed =>
      refine iff_of_true (fun fault => ?_) trivial
      unfold Pings.step
      dsimp only
      split
      · simp
      · simp
      · split
        · simp
        · split <;> simp

theorem daemon_pings_ne_error_iff {d : Daemon} {label : Pings.Label} :
    (∀ fault, d.step (.pings label) ≠ some (.error fault)) ↔
      (d.system.running → d.pings.SafeLabel label) := by
  have hstep : (∀ socketAddr, label ≠ .request socketAddr) → d.step (.pings label) =
      if d.system.running then (d.pings.step label).map fun result => (do
        let pings ← result
        .ok (d.answer pings) : Eval Daemon) else none := by
    intro hlabel
    cases label with
    | request socketAddr => exact absurd rfl (hlabel socketAddr)
    | _ => rfl
  by_cases hrequest : ∃ socketAddr, label = .request socketAddr
  · obtain ⟨socketAddr, rfl⟩ := hrequest
    exact iff_of_true (fun fault h => by cases h) fun _ => trivial
  · rw [hstep fun socketAddr heq => hrequest ⟨socketAddr, heq⟩]
    by_cases hrunning : d.system.running
    · rw [if_pos hrunning, forall_prop_of_true hrunning, ← pings_ne_error_iff]
      cases d.pings.step label with
      | none => simp
      | some result => cases result <;> simp
    · rw [if_neg hrunning]
      exact iff_of_true (fun fault h => by cases h) fun h => absurd h hrunning

theorem noFault_iff_safe (hready : x.daemon.system.Ready) (hjoining : x.daemon.system.Joining)
    (label : Label) : x.NoFault label ↔ x.Safe label := by
  cases label with
  | system host label =>
      exact noFault_system_iff.trans (hready.noFault_iff_safe hjoining (host, label))
  | pings label =>
      unfold NoFault step Safe
      dsimp only
      by_cases hsocket : x.pingSocket
      · rw [if_pos hsocket, daemonStep_ne_error_iff, daemon_pings_ne_error_iff]
        exact ⟨fun h hrunning _ => h hrunning, fun h hrunning => h hrunning hsocket⟩
      · rw [if_neg hsocket]
        exact iff_of_true (fun fault h => by cases h) fun _ h => absurd h hsocket
  | bindPings bound =>
      unfold NoFault step Safe
      dsimp only
      split
      next hdue =>
        obtain ⟨hrunning, hsocket⟩ := hdue
        cases bound <;> simp [hrunning, hsocket]
      next hdue =>
        refine iff_of_true (fun fault h => by cases h) fun hrunning hsocket => ?_
        exact absurd ⟨hrunning, hsocket⟩ hdue
  | voicePoll =>
      refine iff_of_true (fun fault => ?_) trivial
      unfold step
      dsimp only
      split
      · simp
      · simp
  | voice sent =>
      unfold NoFault step Safe
      dsimp only
      split
      next hdue =>
        obtain ⟨hsession, hloop⟩ := hdue
        cases sent <;> simp [hsession, hloop]
      next hdue =>
        refine iff_of_true (fun fault h => by cases h) fun hsession hloop => ?_
        exact absurd ⟨hsession, hloop⟩ hdue
  | unbound =>
      unfold NoFault step Safe
      dsimp only
      split
      next hdue =>
        obtain ⟨hsession, hcryptStates⟩ := hdue
        simp [hsession, hcryptStates]
      next hdue =>
        refine iff_of_true (fun fault h => by cases h) fun hsession => ?_
        by_contra hcryptStates
        exact hdue ⟨hsession, hcryptStates⟩
  | abandoned host command =>
      unfold NoFault step Safe
      dsimp only
      split
      next hdue =>
        obtain ⟨hrunning, hmore⟩ := hdue
        simp [hrunning, sendsMore_iff.mp hmore]
      next hdue =>
        refine iff_of_true (fun fault h => by cases h) fun hrunning => ?_
        by_contra hbrief
        exact hdue ⟨hrunning, sendsMore_iff.mpr hbrief⟩

/-- What the server keeps to, and everything else: sounds that a `ConfigReload` reads can be
played, sockets are bound, what is sent over UDP is sent, and whoever asks for all events or
messages stays until they are there. -/
def Behaves (x : Tasks) : Label → Prop
  | .system host label => x.daemon.system.Behaves (host, label)
  | label => x.Safe label

/-- After the login the voice goes over UDP, everybody else leaves, and somebody writes to
our channel and asks for the status of the server. -/
def quietEvening : List Label :=
  [.bindPings true] ++ (System.login "localhost").map (.system .online) ++
    [.system .online (.udp .takeInfo), .system .online (.udp (.bind true)),
      .system .online (.udp .connect), .system .online (.udp (.packet (.ping 1))),
      .voicePoll, .voice true,
      .system .online (.tcp (.packet (.userRemove { session := some 2 }))),
      .system .online (.command .channelList),
      .system .online (.command (.sendMessage "anybody?" (.channel [(.current, false)]))),
      .system .online (.command (.serverStatus "localhost" 64738)),
      .pings (.send true), .pings .register, .abandoned .online (.events false)]

end Tasks

end Mum
