import Mum.Client.Requests
import Mum.Network.Pings
import Mum.State.Answers

/-!
# The daemon with its pings

`handle` of `mum/src/client.rs` runs four tasks.  `System` has three of them, and
only the queue of requests to the fourth, `handle_pings`, which is `Pings`.  Here the
two run together: what a `ServerStatus` asks for goes to `handle_pings`, and what a
callback of a ping answers goes to the controller that asked.

A `Daemon` also remembers the commands, which no task does.  Both of its parts run as
they do alone (`run_system`, `run_pings`).

A step of the daemon is one of either part, so that an invariant of a part is one of the
daemon's.  Only a request for a ping concerns both, and is asked of `handle_pings` in the
step that handles the command (`step_ask`, `run_ask`).
-/

namespace Mum

open Library Library.Eval
open Mumlib (Command Response)

/-- What `ServerStatus` makes of a pong. -/
def pongResponse (pong : Option PongPacket) : Response :=
  .ok (pong.map fun pong => .serverStatus pong.version pong.users pong.maxUsers pong.bandwidth)

namespace Pings

/-- The command task hands out an id and sends a request. -/
def ask (x : Pings) (socketAddr : SocketAddr) : Pings :=
  { x with
    pingCount := x.pingCount + 1
    handles := x.handles + 1
    requests := x.requests ++ [⟨x.pingCount, socketAddr, x.handles⟩] }

theorem step_ask (x : Pings) (socketAddr : SocketAddr) :
    Step x (.request socketAddr) (x.ask socketAddr) := rfl

/-- The callbacks that were called, with what. -/
def calls (events : List PingEvent) : List (ℕ × PingResult) :=
  events.filterMap fun
    | .called handle result => some (handle, result)
    | _ => none

end Pings

/-- All tasks of `client::handle`. -/
structure Daemon where
  system : System
  pings : Pings
  /-- The commands that were handled, each at the number of its request. -/
  commands : List Command
  /-- The requests that asked for pings; the callback of a ping has captured the
  sender of its request. -/
  pinged : List Request
  /-- What the callbacks of pings have sent. -/
  pongs : List (Request × Response)

namespace Daemon

inductive Label
  | system (host : Host) (label : Mum.Label)
  | pings (label : Pings.Label)

def start (state : State) : Daemon := ⟨.start state, .start, [], [], []⟩

/-- The other parts after a step of the system: a command that asks for a ping has it
sent to `handle_pings`. -/
def follow (d : Daemon) (label : Mum.Label) (system : System) : Daemon :=
  let asked := (system.pingRequests.drop d.system.pingRequests.length).map Prod.snd
  { d with
    system := system
    pings := asked.foldl Pings.ask d.pings
    commands := match label with
      | .command command => d.commands ++ [command]
      | _ => d.commands
    pinged := d.pinged ++ asked.map fun _ => d.system.requests }

/-- The other parts after a step of `handle_pings`: callbacks that were called have
sent their responses. -/
def answer (d : Daemon) (pings : Pings) : Daemon :=
  { d with
    pings := pings
    pongs := d.pongs ++
      (Pings.calls (pings.log.drop d.pings.log.length)).filterMap fun call =>
        (d.pinged[call.1]?).map (·, pongResponse call.2.toOption) }

/-- A step of one of the tasks. -/
def step (d : Daemon) : Label → Option (Eval Daemon)
  | .system host label =>
      (d.system.step host label).map fun result => do
        let system ← result
        .ok (d.follow label system)
  | .pings (.request _) => none
  | .pings label =>
      if d.system.running then
        (d.pings.step label).map fun result => do
          let pings ← result
          .ok (d.answer pings)
      else none

def next (d : Daemon) (label : Label) : Option Daemon :=
  match d.step label with
  | some (.ok d') => some d'
  | _ => none

/-- A step that does not panic. -/
def Step (d : Daemon) (label : Label) (d' : Daemon) : Prop := d.next label = some d'

/-- The responses to a request. -/
def responsesTo (d : Daemon) (request : Request) : List Response :=
  d.system.mailbox.responsesTo request ++
    (d.pongs.filter fun entry => entry.1 = request).map Prod.snd

/-! ## The steps -/

/-- Which part takes a step. -/
inductive StepCase (d : Daemon) : Label → Daemon → Prop
  | system {host : Host} {label : Mum.Label} {system : System}
      (hstep : System.Step d.system (host, label) system) :
      StepCase d (.system host label) (d.follow label system)
  | pings {label : Pings.Label} {pings : Pings} (hrunning : d.system.running)
      (hlabel : ∀ socketAddr, label ≠ .request socketAddr)
      (hstep : Pings.Step d.pings label pings) : StepCase d (.pings label) (d.answer pings)

variable {d d' : Daemon}

theorem next_eq_some {label : Label} : d.next label = some d' ↔ d.step label = some (.ok d') := by
  unfold next
  constructor
  · intro h
    split at h
    next hstep =>
      cases h
      exact hstep
    · cases h
  · intro h
    rw [h]

theorem step_cases {label : Label} (h : Step d label d') : StepCase d label d' := by
  have hstep := next_eq_some.mp h
  cases label with
  | system host label =>
      obtain ⟨result, hresult, hstep⟩ := Option.map_eq_some_iff.mp hstep
      obtain ⟨system, rfl, hstep⟩ := bind_eq_ok.mp hstep
      cases hstep
      refine .system ?_
      show System.next d.system (host, label) = some system
      rw [System.next, hresult]
  | pings label =>
      have hlabel : ∀ socketAddr, label ≠ .request socketAddr := by
        rintro socketAddr rfl
        cases hstep
      have hpings : (if d.system.running then
          (d.pings.step label).map fun result => (do
            let pings ← result
            .ok (d.answer pings) : Eval Daemon) else none) = some (.ok d') := by
        cases label with
        | request socketAddr => exact absurd rfl (hlabel socketAddr)
        | _ => exact hstep
      obtain ⟨hrunning, hpings⟩ := Option.ite_none_right_eq_some.mp hpings
      obtain ⟨result, hresult, hpings⟩ := Option.map_eq_some_iff.mp hpings
      obtain ⟨pings, rfl, hpings⟩ := bind_eq_ok.mp hpings
      cases hpings
      exact .pings hrunning hlabel (Pings.next_eq_some.mpr hresult)

/-- What the labels of a run are for the system. -/
def systemLabel? : Label → Option (Host × Mum.Label)
  | .system host label => some (host, label)
  | .pings _ => none

/-- The system runs as it does alone. -/
theorem run_system {trace : List (Label × Daemon)} (h : Run Step d trace) :
    ∃ systemTrace, Run System.Step d.system systemTrace ∧
      systemTrace.map Prod.fst = (trace.map Prod.fst).filterMap systemLabel? ∧
      final d.system systemTrace = (final d trace).system := by
  induction h with
  | nil => exact ⟨[], .nil, rfl, rfl⟩
  | cons hstep _ ih =>
      obtain ⟨systemTrace, hrun, hlabels, hfinal⟩ := ih
      cases step_cases hstep with
      | @system host label system hsystem =>
          refine ⟨((host, label), system) :: systemTrace, .cons hsystem hrun, ?_, hfinal⟩
          rw [List.map_cons, hlabels]
          rfl
      | pings => exact ⟨systemTrace, hrun, hlabels, hfinal⟩

theorem run_ask {pings : Pings} {asked : List SocketAddr} :
    ∃ pingTrace, Run Pings.Step pings pingTrace ∧
      final pings pingTrace = asked.foldl Pings.ask pings := by
  induction asked generalizing pings with
  | nil => exact ⟨[], .nil, rfl⟩
  | cons socketAddr rest ih =>
      obtain ⟨pingTrace, hrun, hfinal⟩ := ih
      exact ⟨_, .cons (pings.step_ask socketAddr) hrun, hfinal⟩

/-- So do the pings. -/
theorem run_pings {trace : List (Label × Daemon)} (h : Run Step d trace) :
    ∃ pingTrace, Run Pings.Step d.pings pingTrace ∧
      final d.pings pingTrace = (final d trace).pings := by
  induction h with
  | nil => exact ⟨[], .nil, rfl⟩
  | cons hstep _ ih =>
      obtain ⟨pingTrace, hrun, hfinal⟩ := ih
      cases step_cases hstep with
      | system =>
          obtain ⟨asked, hasked, heq⟩ := run_ask
          refine ⟨asked ++ pingTrace, Run.append_iff.mpr ⟨hasked, heq ▸ hrun⟩, ?_⟩
          rw [final_append, heq]
          exact hfinal
      | pings _ _ hpings => exact ⟨_, .cons hpings hrun, hfinal⟩

end Daemon

end Mum
