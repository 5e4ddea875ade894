import Mum.Client.Attempts
import Mum.Daemon
import Mum.Network.PendingPings

/-!
# Which request is where

`System.command_commandCase` and `Pings.dueCase` say what a step does for the requests
of controllers; `Daemon.Sound` says that the requests in the event queue and with the
pings are those of the commands that wait there, and every step keeps it.

A request is a number, a ping is a handle, and the two are related by the order in which
they came (`pinged`).  There is one lemma for commands, one for the other steps of the system
and one for the steps of the pings (`afterCommand`, `afterOther`, `afterPings`).
-/

namespace Mum

open Library Library.Eval Library.Log
open Mumlib (Command Response)

/-! ## A command and its request -/

namespace System

/-- What a command does for its request. -/
inductive CommandCase (sys sys' : System) : Command → Prop
  | responds {command : Command} {responses : List Response}
      (hanswers : ∀ response ∈ responses, command.Answers response)
      (hone : command.isListing = false → responses.length = 1)
      (hqueue : sys'.eventQueue = sys.eventQueue)
      (hsent : sys'.mailbox.sent = sys.mailbox.sent ++ responses.map (sys.requests, ·))
      (hpings : sys'.pingRequests = sys.pingRequests) : CommandCase sys sys' command
  | connects {host : String} {port : UInt16} {username : String} {password : Option String}
      {acceptInvalidCert : Bool}
      (hqueue : sys'.eventQueue = (sys.eventQueue.registerCallback .connected
        sys.requests).registerCallback (.disconnected .invalidTls) sys.requests)
      (hmailbox : sys'.mailbox = sys.mailbox) (hpings : sys'.pingRequests = sys.pingRequests) :
      CommandCase sys sys' (.serverConnect host port username password acceptInvalidCert)
  | listens
      (hqueue : sys'.eventQueue = sys.eventQueue.registerSubscriber .textMessage sys.requests)
      (hmailbox : sys'.mailbox = sys.mailbox) (hpings : sys'.pingRequests = sys.pingRequests) :
      CommandCase sys sys' (.pastMessages true)
  | pings {host : String} {port : UInt16} {request : ℕ × SocketAddr}
      (hqueue : sys'.eventQueue = sys.eventQueue) (hmailbox : sys'.mailbox = sys.mailbox)
      (hpings : sys'.pingRequests = sys.pingRequests ++ [request]) :
      CommandCase sys sys' (.serverStatus host port)

variable {host : Host} {sys sys' : System}

theorem execute_commandCase {command : Command} {context : ExecutionContext}
    (hcontext : ContextFor command context) (h : sys.execute host context = .ok sys') :
    CommandCase sys sys' command := by
  cases hcontext with
  | now hanswers hone =>
      cases sendResponses_sent h
      exact .responds hanswers hone rfl rfl rfl
  | tcpEventCallback =>
      cases h
      exact .connects rfl rfl rfl
  | tcpEventSubscriber =>
      cases h
      exact .listens rfl rfl rfl
  | ping hostname port =>
      rw [execute] at h
      split at h
      · cases h
        exact .pings rfl rfl rfl
      · cases sendResponses_sent h
        have hfails : (Command.serverStatus hostname port).Answers
            (.error (.invalidServerAddr hostname port)) := rfl
        exact .responds (fun _ hmem => List.mem_singleton.mp hmem ▸ hfails) (fun _ => rfl)
          rfl rfl rfl

theorem command_commandCase {command : Command} (h : Step sys (host, .command command) sys') :
    CommandCase sys sys' command ∧ sys'.requests = sys.requests + 1 := by
  obtain ⟨-, hstep⟩ := Option.ite_none_right_eq_some.mp (step_eq_ok h)
  obtain ⟨outcome, houtcome, hstep⟩ := bind_eq_ok.mp (Option.some.inj hstep)
  obtain ⟨executed, hexecute, hstep⟩ := bind_eq_ok.mp hstep
  obtain ⟨-, -, hrequests⟩ := execute_executed hexecute
  cases hstep
  refine ⟨?_, congrArg (· + 1) hrequests⟩
  cases execute_commandCase (handleCommand_contextFor houtcome) hexecute with
  | responds hanswers hone hqueue hsent hpings => exact .responds hanswers hone hqueue hsent hpings
  | connects hqueue hmailbox hpings => exact .connects hqueue hmailbox hpings
  | listens hqueue hmailbox hpings => exact .listens hqueue hmailbox hpings
  | pings hqueue hmailbox hpings => exact .pings hqueue hmailbox hpings

/-- Only commands ask for pings. -/
theorem pingRequests_step {label : Label} (h : Step sys (host, label) sys')
    (hlabel : ∀ command, label ≠ .command command) : sys'.pingRequests = sys.pingRequests := by
  cases step_cases h with
  | command => exact absurd rfl (hlabel _)
  | controllerGone => rfl
  | tcp hcase => cases hcase <;> rfl
  | udp hcase => cases hcase <;> rfl

/-- The only failure that a `Connected` event reports. -/
theorem resolves_connected {label : Label} {data : TcpEventData}
    (h : sys.resolves label = some data) (e : Mumlib.Error)
    (hdata : data = .connected (.error e)) : e = .invalidServerPassword := by
  subst hdata
  cases label with
  | tcp label =>
      cases label with
      | packet packet =>
          rcases Listen.event_answers h (.inl rfl) with ⟨msg, -, heq⟩ | ⟨msg, -, -, heq⟩
          · cases heq
          · cases heq
            rfl
      | connect result => cases result <;> cases h
      | packetSent sent => cases sent <;> cases h
      | poll =>
          rw [resolves] at h
          split at h <;> cases h
      | _ => cases h
  | _ => cases h

end System

/-! ## Pings that are due -/

namespace Pings

/-- The callback of a ping is still to be called. -/
def Due (x : Pings) (handle : ℕ) : Prop :=
  handle ∈ x.waiting.map PingRequest.handle ∨ handle ∈ x.tasks

/-- What a step does about the callbacks. -/
inductive DueCase (x x' : Pings) : Prop
  | same (hcalls : calls (x'.log.drop x.log.length) = [])
      (hdue : ∀ handle, x'.Due handle ↔ x.Due handle) : DueCase x x'
  /-- A request with an id that is taken is dropped, and its callback with it. -/
  | dropped {request : PingRequest} (hcalls : calls (x'.log.drop x.log.length) = [])
      (hsent : x.sent = some request) (hoccupied : request.id ∈ x.pending)
      (hdue : ∀ handle, x'.Due handle → x.Due handle) : DueCase x x'
  | called {handle : ℕ} {result : PingResult}
      (hcalls : calls (x'.log.drop x.log.length) = [(handle, result)]) (hwasDue : x.Due handle)
      (hdue : ∀ other, x'.Due other ↔ x.Due other ∧ other ≠ handle) : DueCase x x'

variable {x x' : Pings}

theorem due_congr (hwaiting : x'.waiting = x.waiting) (htasks : x'.tasks = x.tasks) (handle : ℕ) :
    x'.Due handle ↔ x.Due handle := by
  rw [Due, Due, hwaiting, htasks]

@[simp] theorem calls_nil : calls [] = [] := rfl

/-- What a step writes at the end of the log. -/
theorem calls_drop_append (log events : List PingEvent) :
    calls ((log ++ events).drop log.length) = calls events := by
  rw [List.drop_left]

/-- A request that has been registered is not on its way to the map. -/
theorem not_waiting_of_task (hordered : Ordered x) (htracked : Tracked x.pending x.tasks x.log)
    {handle : ℕ} {slot : Option (ℕ × PongPacket)} (htask : x.tasks.lookup handle = some slot) :
    handle ∉ x.waiting.map PingRequest.handle := by
  obtain ⟨⟨i, hi⟩, -⟩ := htracked.task handle slot htask
  intro hmem
  obtain ⟨request, hrequest, heq⟩ := List.mem_map.mp hmem
  have hlt := (hordered.registered i handle hi).2 request hrequest
  omega

theorem dueCase_call (hordered : Ordered x) (htracked : Tracked x.pending x.tasks x.log)
    {handle : ℕ} {slot : Option (ℕ × PongPacket)} (htask : x.tasks.lookup handle = some slot)
    (result : PingResult) : DueCase x (x.call handle result) := by
  have hnot := not_waiting_of_task hordered htracked htask
  refine .called (calls_drop_append _ _) (.inr (HashMap.mem_iff_lookup.mpr ⟨slot, htask⟩)) ?_
  intro other
  have hwaiting : (x.call handle result).waiting = x.waiting := rfl
  unfold Due
  rw [hwaiting, call, AList.mem_erase]
  constructor
  · rintro (hwaits | ⟨hne, htasks⟩)
    · exact ⟨.inl hwaits, fun heq => hnot (heq ▸ hwaits)⟩
    · exact ⟨.inr htasks, hne⟩
  · rintro ⟨hwaits | htasks, hne⟩
    · exact .inl hwaits
    · exact .inr ⟨hne, htasks⟩

theorem dueCase {label : Label} (hordered : Ordered x)
    (htracked : Tracked x.pending x.tasks x.log)
    (hlabel : ∀ socketAddr, label ≠ .request socketAddr) (hstep : Step x label x') :
    DueCase x x' := by
  cases step_cases hstep with
  | request socketAddr => exact absurd rfl (hlabel socketAddr)
  | @send request requests hsent hrequests =>
      refine .same (by rw [List.drop_length]; rfl) (due_congr ?_ rfl)
      rw [waiting, waiting, hsent, hrequests]
      rfl
  | duplicate hsent =>
      obtain ⟨request', hsent', hcase⟩ := register_cases hstep
      cases hsent.symm.trans hsent'
      rcases hcase with ⟨⟨handle, hoccupied⟩, -⟩ | ⟨-, heq⟩
      · refine .dropped (by rw [List.drop_length]; rfl) hsent
          (HashMap.mem_iff_lookup.mpr ⟨handle, hoccupied⟩) fun handle hdue => ?_
        rcases hdue with hwaits | htask
        · rw [Due, waiting_of_sent hsent, List.map_cons]
          exact .inl (List.mem_cons_of_mem _ hwaits)
        · exact .inr htask
      · -- a registration writes to the log
        have hlog := congrArg (fun y : Pings => y.log.length) heq
        simp at hlog
  | @register request hsent hvacant =>
      refine .same (calls_drop_append _ _) fun handle => ?_
      unfold Due
      rw [waiting_of_sent hsent, AList.mem_insert, List.map_cons, List.mem_cons]
      show handle ∈ x.requests.map PingRequest.handle ∨ _ ↔ _
      tauto
  | unknown hvacant => exact .same (calls_drop_append _ _) (due_congr rfl rfl)
  | receive hoccupied =>
      refine .same (calls_drop_append _ _) fun handle => ?_
      unfold Due
      rw [AList.mem_replace]
      exact Iff.rfl
  | receiveOther => exact .same (by rw [List.drop_length]; rfl) fun _ => Iff.rfl
  | receiveError => exact .same (by rw [List.drop_length]; rfl) (due_congr rfl rfl)
  | pong htask => exact dueCase_call hordered htracked htask _
  | noPong htask => exact dueCase_call hordered htracked htask _

/-- As long as there are enough ids, none is taken when its request is registered. -/
theorem not_occupied (hordered : Ordered x) (htracked : Tracked x.pending x.tasks x.log)
    (hfew : x.handles ≤ UInt64.size) {request : PingRequest} (hsent : x.sent = some request) :
    request.id ∉ x.pending := by
  intro hmem
  obtain ⟨handle, hlookup⟩ := HashMap.mem_iff_lookup.mp hmem
  obtain ⟨hid, ⟨i, hi⟩, -⟩ := htracked.entry _ handle hlookup
  obtain ⟨hid', hlt⟩ := hordered.ids request
    (by rw [waiting_of_sent hsent]; exact List.mem_cons_self)
  have hbefore := (hordered.registered i handle hi).2 request
    (by rw [waiting_of_sent hsent]; exact List.mem_cons_self)
  have hsame := requestId_injective (by omega) (by omega) (hid.symm.trans hid')
  omega

end Pings

/-! ## Which request is where -/

namespace Daemon

/-- The requests in the event queue and with the pings are those of the commands that
wait there. -/
structure Sound (d : Daemon) : Prop where
  queue : d.system.QueueSound
  count : d.commands.length = d.system.requests
  waiting : ∀ event, ∀ request ∈ d.system.eventQueue.waiting event,
    ∃ host port username password acceptInvalidCert, At d.commands request
      (.serverConnect host port username password acceptInvalidCert)
  listening : ∀ event, ∀ request ∈ d.system.eventQueue.listening event,
    At d.commands request (.pastMessages true)
  /-- The two callbacks of a request are there together. -/
  together : ∀ request, request ∈ d.system.eventQueue.unanswered (.disconnected .invalidTls) ↔
    request ∈ d.system.eventQueue.unanswered .connected
  handles : d.pings.handles = d.pinged.length
  ordered : d.pings.Ordered
  tracked : Pings.Tracked d.pings.pending d.pings.tasks d.pings.log
  pinged : ∀ request ∈ d.pinged, ∃ host port, At d.commands request (.serverStatus host port)
  nodup : d.pinged.Nodup
  pongs : ∀ entry ∈ d.pongs, entry.1 ∈ d.pinged

theorem sound_start (state : State) : (start state).Sound where
  queue := .of_start state
  count := rfl
  waiting := fun _ _ h => nomatch h
  listening := fun _ _ h => nomatch h
  together := fun _ => iff_of_false (fun h => nomatch h) fun h => nomatch h
  handles := rfl
  ordered := Pings.ordered_start
  tracked := Pings.tracked_start
  pinged := fun _ h => nomatch h
  nodup := List.nodup_nil
  pongs := fun _ h => nomatch h

/-! ### What follows a step of the system -/

variable {d d' : Daemon} {host : Host} {system : System} {command : Command}

theorem follow_command (hpings : system.pingRequests = d.system.pingRequests) :
    d.follow (.command command) system =
      { d with system := system, commands := d.commands ++ [command] } := by
  unfold follow
  rw [hpings, List.drop_length]
  simp

theorem follow_ping {request : ℕ × SocketAddr}
    (hpings : system.pingRequests = d.system.pingRequests ++ [request]) :
    d.follow (.command command) system = { d with
      system := system
      pings := d.pings.ask request.2
      commands := d.commands ++ [command]
      pinged := d.pinged ++ [d.system.requests] } := by
  unfold follow
  rw [hpings, List.drop_left]
  rfl

theorem follow_other {label : Mum.Label} (hlabel : ∀ command, label ≠ .command command)
    (hstep : System.Step d.system (host, label) system) :
    d.follow label system = { d with system := system } := by
  unfold follow
  rw [System.pingRequests_step hstep hlabel, List.drop_length]
  cases label with
  | command command => exact absurd rfl (hlabel command)
  | _ => simp

namespace Sound

/-- The next request has not asked for anything yet. -/
theorem lt_of_pinged (h : d.Sound) {request : Request} (hmem : request ∈ d.pinged) :
    request < d.system.requests := by
  obtain ⟨host, port, hat⟩ := h.pinged request hmem
  exact h.count ▸ hat.lt_length

/-- A request is in one place only. -/
theorem not_pinged_of_waiting (h : d.Sound) {event : TcpEvent} {request : Request}
    (hmem : request ∈ d.system.eventQueue.waiting event) : request ∉ d.pinged := by
  obtain ⟨_, _, _, _, _, hat⟩ := h.waiting event request hmem
  intro hpinged
  obtain ⟨_, _, hat'⟩ := h.pinged request hpinged
  cases hat.unique hat'

theorem not_pinged_of_listening (h : d.Sound) {event : TcpEvent} {request : Request}
    (hmem : request ∈ d.system.eventQueue.listening event) : request ∉ d.pinged := by
  intro hpinged
  obtain ⟨_, _, hat⟩ := h.pinged request hpinged
  cases (h.listening event request hmem).unique hat

/-- A command that registers no callback. -/
theorem together_of_eq (h : d.Sound)
    (hwaiting : ∀ event, system.eventQueue.waiting event = d.system.eventQueue.waiting event)
    (hhandled : system.eventQueue.handled = d.system.eventQueue.handled) (request : Request) :
    request ∈ system.eventQueue.unanswered (.disconnected .invalidTls) ↔
      request ∈ system.eventQueue.unanswered .connected := by
  rw [System.unanswered_congr (hwaiting _) hhandled, System.unanswered_congr (hwaiting _) hhandled]
  exact h.together request

/-- A command has been handled that does not ask for a ping. -/
theorem commanded (h : d.Sound) (hstep : System.Step d.system (host, .command command) system)
    (hrequests : system.requests = d.system.requests + 1)
    (hwaiting : ∀ event, ∀ request ∈ system.eventQueue.waiting event,
      request ∈ d.system.eventQueue.waiting event ∨ request = d.system.requests ∧
        ∃ host port username password acceptInvalidCert,
          command = .serverConnect host port username password acceptInvalidCert)
    (hlistening : ∀ event, ∀ request ∈ system.eventQueue.listening event,
      request ∈ d.system.eventQueue.listening event ∨
        request = d.system.requests ∧ command = .pastMessages true)
    (htogether : ∀ request,
      request ∈ system.eventQueue.unanswered (.disconnected .invalidTls) ↔
        request ∈ system.eventQueue.unanswered .connected) :
    Sound { d with system := system, commands := d.commands ++ [command] } where
  queue := h.queue.step hstep
  count := by
    show (d.commands ++ [command]).length = system.requests
    rw [List.length_append, List.length_singleton, h.count, hrequests]
  waiting := by
    intro event request hmem
    rcases hwaiting event request hmem with hold |
      ⟨rfl, host, port, username, password, accept, rfl⟩
    · obtain ⟨host, port, username, password, accept, hat⟩ := h.waiting event request hold
      exact ⟨host, port, username, password, accept, hat.concat _⟩
    · exact ⟨host, port, username, password, accept, h.count ▸ at_last⟩
  listening := by
    intro event request hmem
    rcases hlistening event request hmem with hold | ⟨rfl, rfl⟩
    · exact (h.listening event request hold).concat _
    · exact h.count ▸ at_last
  together := htogether
  handles := h.handles
  ordered := h.ordered
  tracked := h.tracked
  pinged := by
    intro request hmem
    obtain ⟨host, port, hat⟩ := h.pinged request hmem
    exact ⟨host, port, hat.concat _⟩
  nodup := h.nodup
  pongs := h.pongs

theorem afterCommand (h : d.Sound) (hstep : System.Step d.system (host, .command command) system) :
    (d.follow (.command command) system).Sound := by
  obtain ⟨hcase, hrequests⟩ := System.command_commandCase hstep
  cases hcase with
  | responds hanswers hone hqueue hsent hpings =>
      rw [follow_command hpings]
      refine h.commanded hstep hrequests (fun event request hmem => .inl (hqueue ▸ hmem))
        (fun event request hmem => .inl (hqueue ▸ hmem)) ?_
      exact h.together_of_eq (fun event => by rw [hqueue]) (by rw [hqueue])
  | connects hqueue hmailbox hpings =>
      rw [follow_command hpings]
      have hwaiting := System.Executed.waiting_callbacks hqueue
      refine h.commanded hstep hrequests (fun event request hmem => ?_)
        (fun event request hmem => ?_) fun request => ?_
      · rw [hwaiting, List.mem_append] at hmem
        refine hmem.imp_right fun hnew => ⟨?_, _, _, _, _, _, rfl⟩
        split at hnew
        · exact List.mem_singleton.mp hnew
        · cases hnew
      · rw [hqueue, TcpEventQueue.listening_registerCallback,
          TcpEventQueue.listening_registerCallback] at hmem
        exact .inl hmem
      · have htogether := h.together request
        rw [TcpEventQueue.mem_unanswered, TcpEventQueue.mem_unanswered] at htogether ⊢
        rw [hwaiting, hwaiting, hqueue, TcpEventQueue.handled_registerCallback,
          TcpEventQueue.handled_registerCallback]
        simp only [List.mem_append, reduceCtorEq, or_true, true_or, if_true]
        tauto
  | listens hqueue hmailbox hpings =>
      rw [follow_command hpings]
      have hwaiting : ∀ event, system.eventQueue.waiting event =
          d.system.eventQueue.waiting event := by
        intro event
        rw [hqueue, TcpEventQueue.waiting_registerSubscriber]
      refine h.commanded hstep hrequests (fun event request hmem => .inl (hwaiting event ▸ hmem))
        (fun event request hmem => ?_) (h.together_of_eq hwaiting ?_)
      · rw [hqueue, TcpEventQueue.listening_registerSubscriber] at hmem
        split at hmem
        next hevent =>
          rw [List.mem_append, List.mem_singleton] at hmem
          rw [hevent]
          exact hmem.imp_right fun hnew => ⟨hnew, rfl⟩
        · exact .inl hmem
      · rw [hqueue, TcpEventQueue.handled_registerSubscriber]
  | @pings hostname port request hqueue hmailbox hpings =>
      have hsame := h.commanded hstep hrequests (fun event request hmem => .inl (hqueue ▸ hmem))
        (fun event request hmem => .inl (hqueue ▸ hmem))
        (h.together_of_eq (fun event => by rw [hqueue]) (by rw [hqueue]))
      rw [follow_ping hpings]
      refine ⟨hsame.queue, hsame.count, hsame.waiting, hsame.listening, hsame.together, ?_,
        h.ordered.request request.2, h.tracked, ?_, ?_, ?_⟩
      · show d.pings.handles + 1 = (d.pinged ++ [d.system.requests]).length
        rw [h.handles, List.length_append, List.length_singleton]
      · intro request hmem
        rcases List.mem_append.mp hmem with hold | hnew
        · exact hsame.pinged request hold
        · rw [List.mem_singleton.mp hnew]
          exact ⟨hostname, port, h.count ▸ at_last⟩
      · refine List.nodup_append.mpr ⟨h.nodup, List.nodup_singleton _, ?_⟩
        rintro request hmem _ hnew rfl
        have hlt := h.lt_of_pinged hmem
        rw [List.mem_singleton.mp hnew] at hlt
        exact Nat.lt_irrefl _ hlt
      · exact fun entry hmem => List.mem_append_left _ (h.pongs entry hmem)

/-- The requests that are answered by what is resolved are answered no more. -/
theorem mem_unanswered_resolved {state : State} {data : TcpEventData} {response note : Response}
    (hresolved : TcpEventQueue.Resolved host state data d.system.eventQueue d.system.mailbox
      response note system.eventQueue system.mailbox) (event : TcpEvent) (request : Request) :
    request ∈ system.eventQueue.unanswered event ↔
      request ∈ d.system.eventQueue.unanswered event ∧
        request ∉ d.system.eventQueue.unanswered data.event := by
  rw [TcpEventQueue.mem_unanswered, TcpEventQueue.mem_unanswered, TcpEventQueue.mem_unanswered,
    hresolved.handled, hresolved.waiting]
  by_cases hevent : event = data.event
  · rw [if_pos hevent, hevent]
    simp
  · rw [if_neg hevent]
    tauto

/-- The system has gone on without a command. -/
theorem afterOther (h : d.Sound) {label : Mum.Label} (hlabel : ∀ command, label ≠ .command command)
    (hstep : System.Step d.system (host, label) system) : (d.follow label system).Sound := by
  rw [follow_other hlabel hstep]
  have hsame : ∀ (hrequests : system.requests = d.system.requests)
      (hwaiting : ∀ event, ∀ request ∈ system.eventQueue.waiting event,
        request ∈ d.system.eventQueue.waiting event)
      (hlistening : ∀ event, ∀ request ∈ system.eventQueue.listening event,
        request ∈ d.system.eventQueue.listening event)
      (htogether : ∀ request,
        request ∈ system.eventQueue.unanswered (.disconnected .invalidTls) ↔
          request ∈ system.eventQueue.unanswered .connected),
      Sound { d with system := system } := by
    intro hrequests hwaiting hlistening htogether
    exact { h with
      queue := h.queue.step hstep
      count := h.count.trans hrequests.symm
      waiting := fun event request hmem => h.waiting event request (hwaiting event request hmem)
      listening := fun event request hmem =>
        h.listening event request (hlistening event request hmem)
      together := htogether }
  cases System.step_requestCase hstep with
  | command => exact absurd rfl (hlabel _)
  | resolved hresolves hresolve hrequests =>
      obtain ⟨response, note, hresolved⟩ :=
        TcpEventQueue.resolve_eq_ok (h.queue.waiting_nodup _) hresolve
      refine hsame hrequests (fun event request hmem => ?_) (fun event request hmem => ?_)
        fun request => ?_
      · rw [hresolved.waiting] at hmem
        split at hmem
        · cases hmem
        · exact hmem
      · rw [hresolved.listening] at hmem
        split at hmem
        · exact List.mem_of_mem_filter hmem
        · exact hmem
      · rw [mem_unanswered_resolved hresolved, mem_unanswered_resolved hresolved, h.together]
  | quiet hresolves hqueue hsent hrequests =>
      exact hsame hrequests (fun event request hmem => hqueue ▸ hmem)
        (fun event request hmem => hqueue ▸ hmem)
        (h.together_of_eq (fun event => by rw [hqueue]) (by rw [hqueue]))

theorem afterPings (h : d.Sound) {label : Pings.Label} {pings : Pings}
    (hlabel : ∀ socketAddr, label ≠ .request socketAddr)
    (hstep : Pings.Step d.pings label pings) : (d.answer pings).Sound where
  queue := h.queue
  count := h.count
  waiting := h.waiting
  listening := h.listening
  together := h.together
  handles := by
    refine Eq.trans ?_ h.handles
    cases Pings.step_cases hstep with
    | request => exact absurd rfl (hlabel _)
    | _ => rfl
  ordered := Pings.ordered_step h.ordered hstep
  tracked := Pings.tracked_step h.ordered h.tracked hstep
  pinged := h.pinged
  nodup := h.nodup
  pongs := by
    intro entry hmem
    rcases List.mem_append.mp hmem with hold | hnew
    · exact h.pongs entry hold
    · obtain ⟨call, -, hcall⟩ := List.mem_filterMap.mp hnew
      obtain ⟨request, hrequest, rfl⟩ := Option.map_eq_some_iff.mp hcall
      exact List.mem_of_getElem? hrequest

theorem step (h : d.Sound) {label : Label} (hstep : Step d label d') : d'.Sound := by
  cases step_cases hstep with
  | @system host label system hsystem =>
      cases label with
      | command command => exact h.afterCommand hsystem
      | _ => exact h.afterOther (fun _ heq => nomatch heq) hsystem
  | pings hrunning hlabel hpings => exact h.afterPings hlabel hpings

end Sound

end Daemon

end Mum
