import Mum.Client.Changes
import Mum.Client.Steps
import Mum.Network.Resolve

/-!
# Who waits for what

What the steps of the daemon do for the requests of controllers: a command is
answered, or registers for an event, and an event that a packet or the end of a
session brings is resolved.

`RequestCase` sorts the steps by this: one request is executed, one event is resolved, or
the queue and the mailbox stay as they are.  `QueueSound` is the invariant that everything
about requests rests on: a request is in one place, in it once, and was made before.  The
lemmas at the end (`mem_waiting_step`, `responsesTo_step` and their like) say what a step
means for one request, and are all that other modules use.
-/

namespace Mum

open Library Library.Eval Msgs
open Mumlib (Command Response)

/-- The event that `listen` resolves for a packet. -/
def Listen.event : Clientbound → Option TcpEventData
  | .textMessage msg => some (.textMessage msg)
  | .serverSync msg => some (.connected (.ok msg))
  | .reject msg =>
      if msg.getFieldType = .wrongServerPW then
        some (.connected (.error .invalidServerPassword))
      else none
  | _ => none

theorem handlePacket_event {host : Host} {state : State} {listen : Listen} {packet : Clientbound}
    {handled : Handled} (h : handlePacket host state listen packet = .ok handled) :
    handled.event = Listen.event packet := by
  have hcase := handles_of_handlePacket h
  obtain ⟨state', listen', cryptState, event⟩ := handled
  cases hcase with
  | wrongPassword htype => exact (if_pos htype).symm
  | reject htype => exact (if_neg htype).symm
  | _ => rfl

namespace System

/-- The event that a step resolves. -/
def resolves (sys : System) : Label → Option TcpEventData
  | .tcp (.packet packet) => Listen.event packet
  | .tcp (.connect .tlsConnectError) => some (.disconnected .invalidTls)
  | .tcp .poll =>
      if sys.state.phaseWatcher.value = .disconnected then some (.disconnected .user) else none
  | .tcp .streamGone => some (.disconnected .user)
  | .tcp (.packetSent false) => some (.disconnected .tcpError)
  | _ => none

/-- What `command::handle` does for a request. -/
inductive Executed (sys : System) : ExecutionContext → System → Prop
  | tcpEventCallback {sys' : System}
      (hqueue : sys'.eventQueue = (sys.eventQueue.registerCallback .connected
        sys.requests).registerCallback (.disconnected .invalidTls) sys.requests)
      (hmailbox : sys'.mailbox = sys.mailbox) : Executed sys .tcpEventCallback sys'
  | tcpEventSubscriber {sys' : System}
      (hqueue : sys'.eventQueue = sys.eventQueue.registerSubscriber .textMessage sys.requests)
      (hmailbox : sys'.mailbox = sys.mailbox) : Executed sys .tcpEventSubscriber sys'
  | responds {context : ExecutionContext} {sys' : System} {responses : List Response}
      (hqueue : sys'.eventQueue = sys.eventQueue)
      (hgone : sys'.mailbox.gone = sys.mailbox.gone)
      (hsent : sys'.mailbox.sent = sys.mailbox.sent ++ responses.map (sys.requests, ·))
      (hcontext : context ≠ .tcpEventCallback) : Executed sys context sys'

/-- What a step does for requests. -/
inductive RequestCase (host : Host) (sys : System) : Label → System → Prop
  | command {command : Command} {outcome : Outcome} {sys' : System}
      (houtcome : handleCommand host sys.state command = .ok outcome)
      (hexecuted : Executed sys outcome.context sys') (hstate : sys'.state = outcome.state)
      (hrequests : sys'.requests = sys.requests + 1) : RequestCase host sys (.command command) sys'
  | resolved {label : Label} {data : TcpEventData} {sys' : System}
      (hresolves : sys.resolves label = some data)
      (hresolve : sys.eventQueue.resolve host sys'.state sys.mailbox data =
        .ok (sys'.eventQueue, sys'.mailbox))
      (hrequests : sys'.requests = sys.requests) : RequestCase host sys label sys'
  | quiet {label : Label} {sys' : System} (hresolves : sys.resolves label = none)
      (hqueue : sys'.eventQueue = sys.eventQueue) (hsent : sys'.mailbox.sent = sys.mailbox.sent)
      (hrequests : sys'.requests = sys.requests) : RequestCase host sys label sys'

variable {host : Host} {sys sys' : System}

theorem sendResponses_sent {responses : List Response}
    (h : sys.sendResponses responses = .ok sys') :
    sys' = { sys with mailbox :=
      { sys.mailbox with sent := sys.mailbox.sent ++ responses.map (sys.requests, ·) } } := by
  induction responses generalizing sys with
  | nil =>
      cases h
      simp
  | cons response rest ih =>
      rw [sendResponses] at h
      split at h
      next hopen =>
        rw [ih h, Mailbox.send_of_isOpen hopen]
        simp [Mailbox.sendAll]
      · cases h

/-- Only the queue, the mailbox and the number of requests matter. -/
theorem Executed.congr {sys₁ sys₁' : System} {context : ExecutionContext}
    (h : Executed sys context sys') (hqueue : sys₁.eventQueue = sys.eventQueue)
    (hmailbox : sys₁.mailbox = sys.mailbox) (hrequests : sys₁.requests = sys.requests)
    (hqueue' : sys₁'.eventQueue = sys'.eventQueue) (hmailbox' : sys₁'.mailbox = sys'.mailbox) :
    Executed sys₁ context sys₁' := by
  cases h with
  | tcpEventCallback hq hm =>
      exact .tcpEventCallback (by rw [hqueue', hq, hqueue, hrequests])
        (by rw [hmailbox', hm, hmailbox])
  | tcpEventSubscriber hq hm =>
      exact .tcpEventSubscriber (by rw [hqueue', hq, hqueue, hrequests])
        (by rw [hmailbox', hm, hmailbox])
  | responds hq hg hs hcontext =>
      exact .responds (by rw [hqueue', hq, hqueue]) (by rw [hmailbox', hg, hmailbox])
        (by rw [hmailbox', hs, hmailbox, hrequests]) hcontext

theorem execute_executed {context : ExecutionContext} (h : sys.execute host context = .ok sys') :
    Executed sys context sys' ∧ sys'.state = sys.state ∧ sys'.requests = sys.requests := by
  cases context with
  | tcpEventCallback =>
      cases h
      exact ⟨.tcpEventCallback rfl rfl, rfl, rfl⟩
  | tcpEventSubscriber =>
      cases h
      exact ⟨.tcpEventSubscriber rfl rfl, rfl, rfl⟩
  | now responses =>
      cases sendResponses_sent h
      have hcontext : ExecutionContext.now responses ≠ .tcpEventCallback := by simp
      exact ⟨.responds rfl rfl rfl hcontext, rfl, rfl⟩
  | ping hostname port =>
      have hcontext : ExecutionContext.ping hostname port ≠ .tcpEventCallback := by simp
      rw [execute] at h
      split at h
      · cases h
        have hsent : sys.mailbox.sent =
            sys.mailbox.sent ++ ([] : List Response).map (sys.requests, ·) :=
          (List.append_nil _).symm
        exact ⟨.responds rfl rfl hsent hcontext, rfl, rfl⟩
      · cases sendResponses_sent h
        exact ⟨.responds rfl rfl rfl hcontext, rfl, rfl⟩

theorem endSession_resolved {reason : DisconnectedReason}
    (h : sys.endSession host reason = .ok sys') :
    sys.eventQueue.resolve host sys'.state sys.mailbox (.disconnected reason) =
      .ok (sys'.eventQueue, sys'.mailbox) ∧ sys'.requests = sys.requests := by
  obtain ⟨⟨eventQueue, mailbox⟩, hresolve, h⟩ := bind_eq_ok.mp h
  cases h
  exact ⟨hresolve, rfl⟩

theorem listen_requestCase {session : TcpSession} {packet : Clientbound}
    (h : sys.listen host session packet = some (.ok sys')) :
    RequestCase host sys (.tcp (.packet packet)) sys' := by
  obtain ⟨handled, hhandled, h⟩ := listen_handled h
  have hevent := handlePacket_event hhandled
  cases hdata : handled.event with
  | none =>
      rw [hdata] at h
      cases h
      exact .quiet (hevent.symm.trans hdata) rfl rfl rfl
  | some data =>
      rw [hdata] at h
      obtain ⟨⟨eventQueue, mailbox⟩, hresolve, h⟩ := bind_eq_ok.mp h
      cases h
      exact .resolved (hevent.symm.trans hdata) hresolve rfl

theorem tcpStep_requestCase {label : TcpLabel} (h : sys.tcpStep host label = some (.ok sys')) :
    RequestCase host sys (.tcp label) sys' := by
  cases label with
  | packet packet =>
      obtain ⟨session, -, h⟩ := inSession_eq_some.mp h
      exact listen_requestCase h
  | streamGone =>
      obtain ⟨session, -, h⟩ := inSession_eq_some.mp h
      obtain ⟨hresolve, hrequests⟩ := endSession_resolved (Option.some.inj h)
      exact .resolved rfl hresolve hrequests
  | poll =>
      obtain ⟨session, -, h⟩ := inSession_eq_some.mp h
      cases hpoll : runUntil (fun phase => phase = .disconnected) sys.state.phaseWatcher
          session.phaseSeen with
      | pending => simp [hpoll] at h
      | seen version =>
          have hphase : sys.state.phaseWatcher.value ≠ .disconnected := by
            simpa using runUntil_seen hpoll
          simp only [hpoll] at h
          cases h
          exact .quiet (if_neg hphase) rfl rfl rfl
      | stopped =>
          have hphase : sys.state.phaseWatcher.value = .disconnected := by
            simpa using runUntil_stopped hpoll
          simp only [hpoll] at h
          obtain ⟨hresolve, hrequests⟩ := endSession_resolved (Option.some.inj h)
          exact .resolved (if_pos hphase) hresolve hrequests
  | connect result =>
      cases result with
      | tlsConnectError =>
          rw [tcpStep] at h
          split at h
          · obtain ⟨hresolve, hrequests⟩ := endSession_resolved (Option.some.inj h)
            exact .resolved rfl hresolve hrequests
          · cases h
      | ok =>
          cases tcpStep_cases h with
          | connect => exact .quiet rfl rfl rfl rfl
      | error =>
          cases tcpStep_cases h with
          | connectError => exact .quiet rfl rfl rfl rfl
  | packetSent sent =>
      cases sent with
      | true =>
          cases tcpStep_cases h with
          | packetSent => exact .quiet rfl rfl rfl rfl
      | false =>
          obtain ⟨session, -, h⟩ := inSession_eq_some.mp h
          split at h
          · cases h
          · obtain ⟨hresolve, hrequests⟩ := endSession_resolved (Option.some.inj h)
            exact .resolved rfl hresolve hrequests
  | _ => cases tcpStep_cases h <;> exact .quiet rfl rfl rfl rfl

theorem step_requestCase {label : Label} (h : Step sys (host, label) sys') :
    RequestCase host sys label sys' := by
  have hstep := step_eq_ok h
  unfold step at hstep
  cases label with
  | command command =>
      obtain ⟨-, hstep⟩ := Option.ite_none_right_eq_some.mp hstep
      obtain ⟨outcome, houtcome, hstep⟩ := bind_eq_ok.mp (Option.some.inj hstep)
      obtain ⟨executed, hexecute, hstep⟩ := bind_eq_ok.mp hstep
      cases hstep
      obtain ⟨hexecuted, hstate, hrequests⟩ := execute_executed hexecute
      exact .command houtcome (hexecuted.congr rfl rfl rfl rfl rfl) hstate
        (congrArg (· + 1) hrequests)
  | controllerGone request =>
      obtain ⟨-, hstep⟩ := Option.ite_none_right_eq_some.mp hstep
      cases hstep
      exact .quiet rfl rfl rfl rfl
  | tcp label =>
      obtain ⟨-, hstep⟩ := Option.ite_none_right_eq_some.mp hstep
      exact tcpStep_requestCase hstep
  | udp label =>
      obtain ⟨-, hstep⟩ := Option.ite_none_right_eq_some.mp hstep
      cases udpStep_cases hstep <;> exact .quiet rfl rfl rfl rfl

/-! ## What the handling of a request registers -/

namespace Executed

variable {context : ExecutionContext} {event : TcpEvent} {request : Request}

/-- The callbacks of a request are registered together. -/
theorem waiting_callbacks (hqueue : sys'.eventQueue = (sys.eventQueue.registerCallback .connected
      sys.requests).registerCallback (.disconnected .invalidTls) sys.requests) (event : TcpEvent) :
    sys'.eventQueue.waiting event = sys.eventQueue.waiting event ++
      if event = .connected ∨ event = .disconnected .invalidTls then [sys.requests] else [] := by
  rw [hqueue, TcpEventQueue.waiting_registerCallback, TcpEventQueue.waiting_registerCallback,
    TcpEventQueue.waiting_registerCallback]
  by_cases htls : event = .disconnected .invalidTls
  · subst htls
    simp
  · by_cases hconnected : event = .connected
    · subst hconnected
      simp
    · simp [htls, hconnected]

theorem waiting_cases (h : Executed sys context sys') (event : TcpEvent) :
    sys'.eventQueue.waiting event = sys.eventQueue.waiting event ∨
      (event = .connected ∨ event = .disconnected .invalidTls) ∧
        sys'.eventQueue.waiting event = sys.eventQueue.waiting event ++ [sys.requests] := by
  cases h with
  | tcpEventCallback hqueue =>
      have hwaiting := waiting_callbacks hqueue event
      split at hwaiting
      next hevent => exact Or.inr ⟨hevent, hwaiting⟩
      · exact Or.inl (hwaiting.trans (List.append_nil _))
  | tcpEventSubscriber hqueue =>
      rw [hqueue, TcpEventQueue.waiting_registerSubscriber]
      exact Or.inl rfl
  | responds hqueue =>
      rw [hqueue]
      exact Or.inl rfl

theorem listening_cases (h : Executed sys context sys') (event : TcpEvent) :
    sys'.eventQueue.listening event = sys.eventQueue.listening event ∨
      event = .textMessage ∧
        sys'.eventQueue.listening event = sys.eventQueue.listening event ++ [sys.requests] := by
  cases h with
  | tcpEventCallback hqueue =>
      rw [hqueue, TcpEventQueue.listening_registerCallback,
        TcpEventQueue.listening_registerCallback]
      exact Or.inl rfl
  | tcpEventSubscriber hqueue =>
      rw [hqueue, TcpEventQueue.listening_registerSubscriber]
      split
      next hevent =>
        subst hevent
        exact Or.inr ⟨rfl, rfl⟩
      · exact Or.inl rfl
  | responds hqueue =>
      rw [hqueue]
      exact Or.inl rfl

/-- No request registers both. -/
theorem registers_one (h : Executed sys context sys') :
    (∀ event, sys'.eventQueue.waiting event = sys.eventQueue.waiting event) ∨
      ∀ event, sys'.eventQueue.listening event = sys.eventQueue.listening event := by
  cases h with
  | tcpEventCallback hqueue =>
      rw [hqueue]
      exact Or.inr fun event => rfl
  | tcpEventSubscriber hqueue =>
      rw [hqueue]
      exact Or.inl fun event => rfl
  | responds hqueue =>
      rw [hqueue]
      exact Or.inl fun event => rfl

theorem handled_eq (h : Executed sys context sys') :
    sys'.eventQueue.handled = sys.eventQueue.handled := by
  cases h with
  | tcpEventCallback hqueue =>
      rw [hqueue, TcpEventQueue.handled_registerCallback, TcpEventQueue.handled_registerCallback]
  | tcpEventSubscriber hqueue => rw [hqueue, TcpEventQueue.handled_registerSubscriber]
  | responds hqueue => rw [hqueue]

theorem sent_eq (h : Executed sys context sys') : ∃ responses : List Response,
    sys'.mailbox.sent = sys.mailbox.sent ++ responses.map (sys.requests, ·) := by
  cases h with
  | tcpEventCallback hqueue hmailbox => exact ⟨[], by rw [hmailbox, List.map_nil, List.append_nil]⟩
  | tcpEventSubscriber hqueue hmailbox =>
      exact ⟨[], by rw [hmailbox, List.map_nil, List.append_nil]⟩
  | @responds _ _ responses hqueue hgone hsent => exact ⟨responses, hsent⟩

theorem of_mem_waiting (h : Executed sys context sys')
    (hmem : request ∈ sys'.eventQueue.waiting event) :
    request ∈ sys.eventQueue.waiting event ∨
      request = sys.requests ∧ (event = .connected ∨ event = .disconnected .invalidTls) := by
  rcases h.waiting_cases event with heq | ⟨hevent, heq⟩
  · exact Or.inl (heq ▸ hmem)
  · rw [heq, List.mem_append, List.mem_singleton] at hmem
    exact hmem.imp_right fun hnew => ⟨hnew, hevent⟩

theorem of_mem_listening (h : Executed sys context sys')
    (hmem : request ∈ sys'.eventQueue.listening event) :
    request ∈ sys.eventQueue.listening event ∨ request = sys.requests ∧ event = .textMessage := by
  rcases h.listening_cases event with heq | ⟨hevent, heq⟩
  · exact Or.inl (heq ▸ hmem)
  · rw [heq, List.mem_append, List.mem_singleton] at hmem
    exact hmem.imp_right fun hnew => ⟨hnew, hevent⟩

/-- Whoever waited waits on. -/
theorem mem_waiting (h : Executed sys context sys') (hne : request ≠ sys.requests) :
    request ∈ sys'.eventQueue.waiting event ↔ request ∈ sys.eventQueue.waiting event := by
  constructor
  · intro hmem
    rcases h.of_mem_waiting hmem with hold | ⟨hnew, -⟩
    · exact hold
    · exact absurd hnew hne
  · intro hmem
    rcases h.waiting_cases event with heq | ⟨-, heq⟩
    · exact heq ▸ hmem
    · exact heq ▸ List.mem_append_left _ hmem

/-- Other requests get no response. -/
theorem responsesTo_eq (h : Executed sys context sys') (hne : request ≠ sys.requests) :
    sys'.mailbox.responsesTo request = sys.mailbox.responsesTo request := by
  obtain ⟨responses, hsent⟩ := h.sent_eq
  have hnil : (responses.map (sys.requests, ·)).filter (fun entry => entry.1 = request) = [] := by
    refine List.filter_eq_nil_iff.mpr fun entry hentry => ?_
    obtain ⟨response, -, rfl⟩ := List.mem_map.mp hentry
    simpa using Ne.symm hne
  rw [Mailbox.responsesTo, Mailbox.responsesTo, hsent, List.filter_append, hnil, List.append_nil]

end Executed

/-! ## An invariant -/

/-- Some callback, subscriber, flag or response belongs to the request. -/
def Mentions (sys : System) (request : Request) : Prop :=
  (∃ event, request ∈ sys.eventQueue.waiting event) ∨
  (∃ event, request ∈ sys.eventQueue.listening event) ∨
  request ∈ sys.eventQueue.handled ∨ request ∈ sys.mailbox.sent.map Prod.fst

/-- Which requests are where. -/
structure QueueSound (sys : System) : Prop where
  lt : ∀ request, sys.Mentions request → request < sys.requests
  waiting_nodup : ∀ event, (sys.eventQueue.waiting event).Nodup
  waiting_event : ∀ event, ∀ request ∈ sys.eventQueue.waiting event,
    event = .connected ∨ event = .disconnected .invalidTls
  listening_nodup : ∀ event, (sys.eventQueue.listening event).Nodup
  listening_event : ∀ event, ∀ request ∈ sys.eventQueue.listening event, event = .textMessage
  /-- Subscribers have no callbacks. -/
  apart : ∀ event, ∀ request ∈ sys.eventQueue.listening event,
    request ∉ sys.eventQueue.handled ∧ ∀ event', request ∉ sys.eventQueue.waiting event'

namespace QueueSound

theorem of_start (state : State) : (start state).QueueSound where
  lt := by
    rintro request (⟨event, h⟩ | ⟨event, h⟩ | h | h)
    · cases h
    · cases h
    · cases h
    · cases h
  waiting_nodup := fun _ => List.nodup_nil
  waiting_event := fun _ _ h => nomatch h
  listening_nodup := fun _ => List.nodup_nil
  listening_event := fun _ _ h => nomatch h
  apart := fun _ _ h => nomatch h

/-- Nobody knows the request that comes next. -/
theorem not_mentions (h : sys.QueueSound) : ¬ sys.Mentions sys.requests :=
  fun hmentions => Nat.lt_irrefl _ (h.lt _ hmentions)

theorem notMem_waiting (h : sys.QueueSound) (event : TcpEvent) :
    sys.requests ∉ sys.eventQueue.waiting event :=
  fun hmem => h.not_mentions (Or.inl ⟨event, hmem⟩)

theorem notMem_listening (h : sys.QueueSound) (event : TcpEvent) :
    sys.requests ∉ sys.eventQueue.listening event :=
  fun hmem => h.not_mentions (Or.inr (Or.inl ⟨event, hmem⟩))

theorem notMem_handled (h : sys.QueueSound) : sys.requests ∉ sys.eventQueue.handled :=
  fun hmem => h.not_mentions (Or.inr (Or.inr (Or.inl hmem)))

/-- Nothing happens to the queue. -/
theorem of_queue_eq (h : sys.QueueSound) (hqueue : sys'.eventQueue = sys.eventQueue)
    (hlt : ∀ request, sys'.Mentions request → request < sys'.requests) : sys'.QueueSound where
  lt := hlt
  waiting_nodup := hqueue ▸ h.waiting_nodup
  waiting_event := hqueue ▸ h.waiting_event
  listening_nodup := hqueue ▸ h.listening_nodup
  listening_event := hqueue ▸ h.listening_event
  apart := hqueue ▸ h.apart

/-- One more at the end. -/
theorem nodup_append {requests : List Request} (hnodup : requests.Nodup)
    (hnew : sys.requests ∉ requests) : (requests ++ [sys.requests]).Nodup := by
  refine List.nodup_append.mpr ⟨hnodup, List.nodup_singleton _, ?_⟩
  rintro request hrequest request' hrequest' rfl
  exact hnew (List.mem_singleton.mp hrequest' ▸ hrequest)

theorem executed (h : sys.QueueSound) {context : ExecutionContext}
    (hexecuted : Executed sys context sys') (hrequests : sys'.requests = sys.requests + 1) :
    sys'.QueueSound := by
  have hlt : ∀ {request}, (sys.Mentions request ∨ request = sys.requests) →
      request < sys'.requests := by
    rw [hrequests]
    rintro request (hmentions | rfl)
    · exact Nat.lt_succ_of_lt (h.lt request hmentions)
    · exact Nat.lt_succ_self _
  refine ⟨?_, fun event => ?_, fun event request hrequest => ?_, fun event => ?_,
    fun event request hrequest => ?_, fun event request hrequest => ?_⟩
  · rintro request (⟨event, hrequest⟩ | ⟨event, hrequest⟩ | hrequest | hrequest)
    · rcases hexecuted.of_mem_waiting hrequest with hold | ⟨hnew, -⟩
      · exact hlt (Or.inl (Or.inl ⟨event, hold⟩))
      · exact hlt (Or.inr hnew)
    · rcases hexecuted.of_mem_listening hrequest with hold | ⟨hnew, -⟩
      · exact hlt (Or.inl (Or.inr (Or.inl ⟨event, hold⟩)))
      · exact hlt (Or.inr hnew)
    · exact hlt (Or.inl (Or.inr (Or.inr (Or.inl (hexecuted.handled_eq ▸ hrequest)))))
    · obtain ⟨responses, hsent⟩ := hexecuted.sent_eq
      rw [hsent, List.map_append, List.mem_append] at hrequest
      rcases hrequest with hold | hnew
      · exact hlt (Or.inl (Or.inr (Or.inr (Or.inr hold))))
      · obtain ⟨entry, hentry, rfl⟩ := List.mem_map.mp hnew
        obtain ⟨response, -, rfl⟩ := List.mem_map.mp hentry
        exact hlt (Or.inr rfl)
  · rcases hexecuted.waiting_cases event with heq | ⟨-, heq⟩
    · exact heq ▸ h.waiting_nodup event
    · exact heq ▸ nodup_append (h.waiting_nodup event) (h.notMem_waiting event)
  · rcases hexecuted.of_mem_waiting hrequest with hold | ⟨-, hevent⟩
    · exact h.waiting_event event request hold
    · exact hevent
  · rcases hexecuted.listening_cases event with heq | ⟨-, heq⟩
    · exact heq ▸ h.listening_nodup event
    · exact heq ▸ nodup_append (h.listening_nodup event) (h.notMem_listening event)
  · rcases hexecuted.of_mem_listening hrequest with hold | ⟨-, hevent⟩
    · exact h.listening_event event request hold
    · exact hevent
  · rw [hexecuted.handled_eq]
    rcases hexecuted.of_mem_listening hrequest with hold | ⟨rfl, -⟩
    · obtain ⟨hnotHandled, hnotWaiting⟩ := h.apart event request hold
      refine ⟨hnotHandled, fun event' hmem => ?_⟩
      rcases hexecuted.of_mem_waiting hmem with hmem | ⟨rfl, -⟩
      · exact hnotWaiting event' hmem
      · exact h.notMem_listening event hold
    · refine ⟨h.notMem_handled, fun event' hmem => ?_⟩
      rcases hexecuted.registers_one with hsame | hsame
      · exact h.notMem_waiting event' (hsame event' ▸ hmem)
      · exact h.notMem_listening event (hsame event ▸ hrequest)

theorem resolved (h : sys.QueueSound) {state : State} {data : TcpEventData}
    {response note : Response}
    (hresolved : TcpEventQueue.Resolved host state data sys.eventQueue sys.mailbox response note
      sys'.eventQueue sys'.mailbox) (hrequests : sys'.requests = sys.requests) :
    sys'.QueueSound := by
  have hwaiting : ∀ {event request}, request ∈ sys'.eventQueue.waiting event →
      request ∈ sys.eventQueue.waiting event := by
    intro event request hmem
    rw [hresolved.waiting] at hmem
    split at hmem
    · cases hmem
    · exact hmem
  have hlistening : ∀ event,
      (sys'.eventQueue.listening event).Sublist (sys.eventQueue.listening event) := by
    intro event
    rw [hresolved.listening]
    split
    · exact List.filter_sublist
    · exact List.Sublist.refl _
  refine ⟨?_, fun event => ?_, fun event request hrequest => ?_, fun event => ?_,
    fun event request hrequest => ?_, fun event request hrequest => ?_⟩
  · rw [hrequests]
    rintro request (⟨event, hrequest⟩ | ⟨event, hrequest⟩ | hrequest | hrequest)
    · exact h.lt request (Or.inl ⟨event, hwaiting hrequest⟩)
    · exact h.lt request (Or.inr (Or.inl ⟨event, (hlistening event).subset hrequest⟩))
    · rcases (hresolved.handled request).mp hrequest with hold | hnew
      · exact h.lt request (Or.inr (Or.inr (Or.inl hold)))
      · exact h.lt request (Or.inl ⟨_, hnew⟩)
    · rw [hresolved.mailbox_eq, Mailbox.sent_sendAll, Mailbox.sent_sendAll, List.map_append,
        List.map_append, List.mem_append, List.mem_append] at hrequest
      rcases hrequest with (hold | hanswer) | hnote
      · exact h.lt request (Or.inr (Or.inr (Or.inr hold)))
      · rw [List.map_map] at hanswer
        obtain ⟨request', hrequest', rfl⟩ := List.mem_map.mp hanswer
        exact h.lt _ (Or.inl ⟨_, (TcpEventQueue.mem_unanswered.mp hrequest').1⟩)
      · rw [List.map_map] at hnote
        obtain ⟨request', hrequest', rfl⟩ := List.mem_map.mp hnote
        exact h.lt _ (Or.inr (Or.inl ⟨_, List.mem_of_mem_filter hrequest'⟩))
  · rw [hresolved.waiting]
    split
    · exact List.nodup_nil
    · exact h.waiting_nodup event
  · exact h.waiting_event event request (hwaiting hrequest)
  · exact (h.listening_nodup event).sublist (hlistening event)
  · exact h.listening_event event request ((hlistening event).subset hrequest)
  · obtain ⟨hnothandled, hnotwaiting⟩ :=
      h.apart event request ((hlistening event).subset hrequest)
    refine ⟨fun hmem => ?_, fun event' hmem => hnotwaiting event' (hwaiting hmem)⟩
    rcases (hresolved.handled request).mp hmem with hold | hnew
    · exact hnothandled hold
    · exact hnotwaiting _ hnew

/-- The invariant is kept by every step. -/
theorem step {label : Label} (h : sys.QueueSound) (hstep : Step sys (host, label) sys') :
    sys'.QueueSound := by
  cases step_requestCase hstep with
  | command houtcome hexecuted hstate hrequests => exact h.executed hexecuted hrequests
  | resolved hresolves hresolve hrequests =>
      obtain ⟨response, note, hresolved⟩ :=
        TcpEventQueue.resolve_eq_ok (h.waiting_nodup _) hresolve
      exact h.resolved hresolved hrequests
  | quiet hresolves hqueue hsent hrequests =>
      refine h.of_queue_eq hqueue fun request hmentions => ?_
      unfold Mentions at hmentions
      rw [hqueue, hsent] at hmentions
      rw [hrequests]
      exact h.lt request hmentions

end QueueSound

/-! ## What a step leaves alone -/

namespace QueueSound

variable {label : Label} {request : Request}

theorem unanswered_nodup (h : sys.QueueSound) (event : TcpEvent) :
    (sys.eventQueue.unanswered event).Nodup :=
  (h.waiting_nodup event).filter _

/-- The requests that a step answers are those that wait for what it resolves. -/
theorem mem_handled_step (h : sys.QueueSound) (hstep : Step sys (host, label) sys') :
    request ∈ sys'.eventQueue.handled ↔ request ∈ sys.eventQueue.handled ∨
      ∃ data ∈ sys.resolves label, request ∈ sys.eventQueue.waiting data.event := by
  cases step_requestCase hstep with
  | command houtcome hexecuted hstate hrequests =>
      rw [hexecuted.handled_eq]
      simp [resolves]
  | resolved hresolves hresolve hrequests =>
      obtain ⟨response, note, hresolved⟩ :=
        TcpEventQueue.resolve_eq_ok (h.waiting_nodup _) hresolve
      rw [hresolved.handled, hresolves]
      simp
  | quiet hresolves hqueue hsent hrequests =>
      rw [hqueue, hresolves]
      simp

/-- A request waits on for what is not resolved. -/
theorem mem_waiting_step (h : sys.QueueSound) (hstep : Step sys (host, label) sys')
    {event : TcpEvent} (hne : request ≠ sys.requests) :
    request ∈ sys'.eventQueue.waiting event ↔ request ∈ sys.eventQueue.waiting event ∧
      ∀ data ∈ sys.resolves label, data.event ≠ event := by
  cases step_requestCase hstep with
  | command houtcome hexecuted hstate hrequests =>
      rw [hexecuted.mem_waiting hne]
      simp [resolves]
  | resolved hresolves hresolve hrequests =>
      obtain ⟨response, note, hresolved⟩ :=
        TcpEventQueue.resolve_eq_ok (h.waiting_nodup _) hresolve
      rw [hresolved.waiting, hresolves]
      split
      next heq => simp [heq]
      next hother => simp [Ne.symm hother]
  | quiet hresolves hqueue hsent hrequests =>
      rw [hqueue, hresolves]
      simp

/-- A request is responded to when it is handled, and when it waits or listens for
what is resolved. -/
theorem responsesTo_step (h : sys.QueueSound) (hstep : Step sys (host, label) sys')
    (hne : request ≠ sys.requests) (hlistening : ∀ event, request ∉ sys.eventQueue.listening event)
    (hwaiting : ∀ data ∈ sys.resolves label, request ∉ sys.eventQueue.unanswered data.event) :
    sys'.mailbox.responsesTo request = sys.mailbox.responsesTo request := by
  cases step_requestCase hstep with
  | command houtcome hexecuted hstate hrequests => exact hexecuted.responsesTo_eq hne
  | resolved hresolves hresolve hrequests =>
      obtain ⟨response, note, hresolved⟩ :=
        TcpEventQueue.resolve_eq_ok (h.waiting_nodup _) hresolve
      have hnotanswered := hwaiting _ hresolves
      rw [hresolved.mailbox_eq,
        Mailbox.responsesTo_sendAll ((h.listening_nodup _).filter _),
        Mailbox.responsesTo_sendAll (h.unanswered_nodup _),
        if_neg hnotanswered, if_neg fun hmem => hlistening _ (List.mem_of_mem_filter hmem),
        List.append_nil, List.append_nil]
  | quiet hresolves hqueue hsent hrequests =>
      unfold Mailbox.responsesTo
      rw [hsent]

/-- A request that waits for what is resolved gets the response. -/
theorem responsesTo_answered (h : sys.QueueSound) (hstep : Step sys (host, label) sys')
    {data : TcpEventData} (hresolves : sys.resolves label = some data)
    (hwaiting : request ∈ sys.eventQueue.unanswered data.event) :
    ∃ response, connectResponse host sys'.state data = .ok response ∧
      sys'.mailbox.responsesTo request = sys.mailbox.responsesTo request ++ [response] := by
  cases step_requestCase hstep with
  | command => cases hresolves
  | @resolved _ data' _ hresolves' hresolve hrequests =>
      cases hresolves.symm.trans hresolves'
      obtain ⟨response, note, hresolved⟩ :=
        TcpEventQueue.resolve_eq_ok (h.waiting_nodup _) hresolve
      refine ⟨response, hresolved.response_eq (List.ne_nil_of_mem hwaiting), ?_⟩
      have hlistening : request ∉ sys.eventQueue.listening data.event := fun hmem =>
        (h.apart _ _ hmem).2 _ (TcpEventQueue.mem_unanswered.mp hwaiting).1
      rw [hresolved.mailbox_eq,
        Mailbox.responsesTo_sendAll ((h.listening_nodup _).filter _),
        Mailbox.responsesTo_sendAll (h.unanswered_nodup _),
        if_pos hwaiting, if_neg fun hmem => hlistening (List.mem_of_mem_filter hmem),
        List.append_nil]
  | quiet hnone => cases hresolves.symm.trans hnone

end QueueSound

end System

end Mum
