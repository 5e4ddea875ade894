import Mum.Client.Lifecycle
import Mum.Client.Requests
import Mum.Client.Unwraps

/-!
# Answers to `ServerConnect`

The callbacks of a `ServerConnect` run long after the command was handled, and
read the state of the daemon then.  They rely on our being connected when the
event `Connected` is resolved with `Ok`, which is so because a `ServerConnect`
that is not answered yet has us connecting.

That is `Joining`.  A command that registers callbacks leaves us connecting
(`connecting_of_tcpEventCallback`), and we stay so until a `ServerSync` comes
(`connecting_step`).  The `ServerSync` resolves `Connected`, after which nobody waits for it.
-/

namespace Mum

open Library Library.Eval Msgs
open Mumlib (Command Response)

/-- A callback gets to one of its `unreachable!`s. -/
def State.ReachesUnreachable (state : State) : TcpEventData → Prop
  | .connected (.ok _) => state.server.kind ≠ .connected
  | .connected (.error _) => False
  | .disconnected reason => reason ≠ .invalidTls
  | .textMessage _ => True

/-- Otherwise it responds, if the server that it tells about has a channel tree. -/
theorem connectResponse_of_connected {host : Host} {state : State} {s : ConnectedServer}
    (hserver : state.server = .connected s) (msg : ServerSync) :
    connectResponse host state (.connected (.ok msg)) = (do
      let serverState ← s.toMumlib host.order
      .ok (.ok (some (.serverConnect msg.welcomeText serverState)))) := by
  rw [connectResponse, hserver]

/-- Only an accepted `ServerConnect` registers callbacks. -/
theorem connecting_of_tcpEventCallback {host : Host} {state : State} {command : Command}
    {outcome : Outcome} (h : handleCommand host state command = .ok outcome)
    (hcontext : outcome.context = .tcpEventCallback) :
    state.server = .disconnected ∧ outcome.state.server.kind = .connecting := by
  cases (handleCommand_eq_ok h).context_cases with
  | serverConnect hserver hserver' =>
      refine ⟨hserver, ?_⟩
      rw [hserver']
      rfl
  | response hnow | events hnow | pastMessages hnow => cases hcontext.symm.trans hnow
  | subscribe hsubscriber => cases hcontext.symm.trans hsubscriber
  | serverStatus hping => cases hcontext.symm.trans hping

namespace System

variable {host : Host} {sys sys' : System}

/-- We stay connecting until a `ServerSync` comes. -/
theorem connecting_step {label : Label} (hstep : Step sys (host, label) sys')
    (hkind : sys.state.server.kind = .connecting) :
    sys'.state.server.kind = .connecting ∨
      ∃ msg, label = .tcp (.packet (.serverSync msg)) := by
  cases step_cases hstep with
  | command houtcome =>
      left
      cases handleCommand_cases houtcome with
      | keeps hstate hinfo => exact hstate.kind.trans hkind
      | mutes hserver =>
          rw [hserver] at hkind
          cases hkind
      | connects hserver =>
          rw [hserver] at hkind
          cases hkind
      | disconnects hserver =>
          rw [hserver] at hkind
          cases hkind
  | controllerGone => exact Or.inl hkind
  | tcp hcase =>
      cases hcase with
      | packet htcp hhandled =>
          cases handlePacket_cases hhandled with
          | keeps hstate => exact Or.inl (hstate.kind.trans hkind)
          | login => exact Or.inr ⟨_, rfl⟩
          | userState hne hkind' => exact Or.inl (hkind'.trans hkind)
          | userRemove hkind' => exact Or.inl (hkind'.trans hkind)
      | _ => exact Or.inl hkind
  | udp hcase =>
      cases hcase with
      | _ => exact Or.inl hkind

/-- A `ServerConnect` that is not answered has us connecting. -/
structure Joining (sys : System) : Prop where
  sound : sys.QueueSound
  connecting : sys.eventQueue.unanswered .connected ≠ [] → sys.state.server.kind = .connecting

theorem joining_start {state : State} : (start state).Joining :=
  ⟨.of_start state, fun h => absurd rfl h⟩

theorem unanswered_congr {event : TcpEvent}
    (hwaiting : sys'.eventQueue.waiting event = sys.eventQueue.waiting event)
    (hhandled : sys'.eventQueue.handled = sys.eventQueue.handled) :
    sys'.eventQueue.unanswered event = sys.eventQueue.unanswered event := by
  rw [TcpEventQueue.unanswered, hwaiting, hhandled]
  rfl

/-- What is not answered after another event was not answered before. -/
theorem unanswered_of_resolved {state : State} {data : TcpEventData} {response note : Response}
    {event : TcpEvent} {request : Request}
    (hresolved : TcpEventQueue.Resolved host state data sys.eventQueue sys.mailbox response note
      sys'.eventQueue sys'.mailbox) (hrequest : request ∈ sys'.eventQueue.unanswered event) :
    event ≠ data.event ∧ request ∈ sys.eventQueue.unanswered event := by
  obtain ⟨hwaiting, hhandled⟩ := TcpEventQueue.mem_unanswered.mp hrequest
  rw [hresolved.waiting] at hwaiting
  split at hwaiting
  · cases hwaiting
  next hevent =>
    refine ⟨hevent, TcpEventQueue.mem_unanswered.mpr ⟨hwaiting, fun hmem => ?_⟩⟩
    exact hhandled ((hresolved.handled request).mpr (Or.inl hmem))

theorem Joining.step {label : Label} (h : sys.Joining) (hstep : Step sys (host, label) sys') :
    sys'.Joining := by
  refine ⟨h.sound.step hstep, fun hne => ?_⟩
  -- whoever waits now waited before, unless the command was a `ServerConnect`
  have hstays : sys.eventQueue.unanswered .connected ≠ [] →
      (∀ msg, label ≠ .tcp (.packet (.serverSync msg))) →
      sys'.state.server.kind = .connecting := by
    intro hne hsync
    rcases connecting_step hstep (h.connecting hne) with hkind | ⟨msg, hlabel⟩
    · exact hkind
    · exact absurd hlabel (hsync msg)
  cases step_requestCase hstep with
  | @command command outcome _ houtcome hexecuted hstate hrequests =>
      generalize hcontext : outcome.context = context at hexecuted
      have hcommand : ∀ msg, Label.command command ≠ .tcp (.packet (.serverSync msg)) :=
        fun _ h => nomatch h
      cases hexecuted with
      | tcpEventCallback hqueue hmailbox =>
          rw [hstate]
          exact (connecting_of_tcpEventCallback houtcome hcontext).2
      | tcpEventSubscriber hqueue hmailbox =>
          have hsame : sys'.eventQueue.unanswered .connected =
              sys.eventQueue.unanswered .connected :=
            unanswered_congr (by rw [hqueue, TcpEventQueue.waiting_registerSubscriber])
              (by rw [hqueue, TcpEventQueue.handled_registerSubscriber])
          exact hstays (hsame ▸ hne) hcommand
      | responds hqueue hgone hsent =>
          rw [hqueue] at hne
          exact hstays hne hcommand
  | @resolved _ data _ hresolves hresolve hrequests =>
      obtain ⟨response, note, hresolved⟩ :=
        TcpEventQueue.resolve_eq_ok (h.sound.waiting_nodup _) hresolve
      obtain ⟨request, hrequest⟩ := List.exists_mem_of_ne_nil _ hne
      obtain ⟨hevent, hold⟩ := unanswered_of_resolved hresolved hrequest
      refine hstays (List.ne_nil_of_mem hold) ?_
      rintro msg rfl
      cases hresolves
      exact hevent rfl
  | quiet hresolves hqueue hsent hrequests =>
      rw [hqueue] at hne
      refine hstays hne ?_
      rintro msg rfl
      cases hresolves

/-! ## The answers -/

/-- When a step resolves an event, no callback that is run gets to an
`unreachable!`; and when a `ServerSync` makes callbacks run with `Ok`, we have just
joined the server that they tell about. -/
def TellsJoined (sys : System) (label : Host × Label) : Prop :=
  (∀ data ∈ sys.resolves label.2, sys.eventQueue.unanswered data.event ≠ [] →
    data.event = .connected ∨ data = .disconnected .invalidTls) ∧
  ∀ packet ∈ label.2.packet?, ∀ listen ∈ sys.tcp.listen?, ∀ handled,
    handlePacket label.1 sys.state listen packet = .ok handled →
    ∀ data ∈ handled.event, sys.eventQueue.unanswered data.event ≠ [] →
      ¬ handled.state.ReachesUnreachable data ∧
      ∀ msg, data = .connected (.ok msg) → ∃ sb, sys.state.server = .connecting sb ∧
        handled.state.server = .connected (sb.serverSync msg) ∧
        connectResponse label.1 handled.state data = (do
          let serverState ← (sb.serverSync msg).toMumlib label.1.order
          .ok (.ok (some (.serverConnect msg.welcomeText serverState))))

theorem Joining.tells (h : sys.Joining) (label : Host × Label) : sys.TellsJoined label := by
  have hevents : ∀ data : TcpEventData, sys.eventQueue.unanswered data.event ≠ [] →
      data.event = .connected ∨ data.event = .disconnected .invalidTls := by
    intro data hne
    obtain ⟨request, hrequest⟩ := List.exists_mem_of_ne_nil _ hne
    exact h.sound.waiting_event _ request (TcpEventQueue.mem_unanswered.mp hrequest).1
  refine ⟨fun data _ hne => ?_, fun packet _ listen _ handled hhandled data hdata hne => ?_⟩
  · rcases hevents data hne with hconnected | hinvalidTls
    · exact Or.inl hconnected
    · cases data with
      | disconnected reason =>
          cases hinvalidTls
          exact Or.inr rfl
      | connected result => cases hinvalidTls
      | textMessage msg => cases hinvalidTls
  · rw [handlePacket_event hhandled] at hdata
    cases packet with
    | serverSync msg =>
        cases hdata
        obtain ⟨sb, hserver⟩ := Server.kind_eq_connecting.mp (h.connecting hne)
        obtain ⟨audioOutput, hstate, -⟩ := State.serverSync_eq_ok hserver msg
        have hjoined : handled.state.server = .connected (sb.serverSync msg) := by
          rw [← Except.ok.inj (hstate.symm.trans (handlePacket_serverSync_eq_ok hhandled))]
        refine ⟨fun hunreachable => hunreachable (by rw [hjoined]; rfl), ?_⟩
        rintro msg' heq
        cases heq
        exact ⟨sb, hserver, hjoined, connectResponse_of_connected hjoined msg⟩
    | textMessage msg =>
        cases hdata
        rcases hevents _ hne with hconnected | hinvalidTls
        · cases hconnected
        · cases hinvalidTls
    | reject msg =>
        obtain ⟨-, hdata⟩ := Option.ite_none_right_eq_some.mp hdata
        cases hdata
        exact ⟨id, fun _ heq => nomatch heq⟩
    | _ => cases hdata

/-- **Callbacks tell about the server that was just joined.**  In every run, of
whatever commands, packets and other steps in whatever order, a `ServerConnect` that is not answered
when an event is resolved gets to no `unreachable!`, and is answered with the state
of the server that the `ServerSync` has logged us in to. -/
theorem tellsJoined (state : State) (labels : List (Host × Label)) :
    AllAttempts next TellsJoined (start state) labels := by
  refine allAttempts_of_inv Joining joining_start ?_ ?_
  · exact fun sys label h => h.tells label
  · exact fun sys label sys' h hnext => h.step hnext

end System

end Mum
