import Mum.Daemon.Answers

/-!
# Answers to `ServerStatus`

A `ServerStatus` whose address resolves is answered by a callback that another task
calls much later.  Two things are shown of every state that the daemon may get to: the
callback can still be called, by steps of `handle_pings` alone, however many requests
are before it; and what a controller is told about a server was in a pong with the
request's own id.

For the first, `toRegister` counts how many steps the sender has to go.  Until the request
is registered it can take one (`exists_sender_step`), and after that a timeout calls the
callback, if no pong has (`exists_poll_step`).  A run of `handle_pings` is one of the daemon
(`run_of_pings`), where the response goes to the one request with the callback's handle.
For the second, `Reported` ties the responses to the results that callbacks were called with;
what these mean is shown of the pings alone.
-/

namespace Mum

open Library Library.Eval Library.Log
open Mumlib (Command Response)

/-! ## Callbacks can be called -/

namespace Pings

/-- How many steps the sender has to go. -/
def toRegister (x : Pings) : ℕ := 2 * x.requests.length + x.sent.toList.length

variable {x x' : Pings} {handle : ℕ}

/-- The sender can go on until a request is registered. -/
theorem exists_sender_step (hordered : Ordered x) (htracked : Tracked x.pending x.tasks x.log)
    (hfew : x.handles ≤ UInt64.size) (hwaits : handle ∈ x.waiting.map PingRequest.handle) :
    ∃ label x', (label = .send true ∨ label = .register) ∧ Step x label x' ∧ x'.Due handle ∧
      x'.toRegister < x.toRegister ∧ x'.handles = x.handles := by
  cases hsent : x.sent with
  | some request =>
      have hvacant : x.pending.lookup request.id = none :=
        AList.lookup_eq_none.mpr (not_occupied hordered htracked hfew hsent)
      let x' : Pings := { x with
        sent := none
        pending := x.pending.insert request.id request.handle
        tasks := x.tasks.insert request.handle none
        log := x.log ++ [.registered request.handle] }
      have hstep : Step x .register x' := by
        refine next_eq_some.mpr ?_
        simp only [step, hsent, hvacant]
        rfl
      have hdue : x'.Due handle := by
        rw [waiting_of_sent hsent, List.map_cons, List.mem_cons] at hwaits
        rcases hwaits with rfl | hwaits
        · exact .inr ((AList.mem_insert _).mpr (.inl rfl))
        · exact .inl hwaits
      refine ⟨.register, x', .inr rfl, hstep, hdue, ?_, rfl⟩
      show 2 * x.requests.length + 0 < 2 * x.requests.length + x.sent.toList.length
      rw [hsent]
      exact Nat.lt_succ_self _
  | none =>
      have hwaiting : x.waiting = x.requests := by rw [waiting, hsent]; rfl
      cases hrequests : x.requests with
      | nil =>
          rw [hwaiting, hrequests] at hwaits
          cases hwaits
      | cons request rest =>
          have hstep : Step x (.send true) { x with requests := rest, sent := some request } := by
            refine next_eq_some.mpr ?_
            simp only [step, hsent, hrequests]
            rfl
          refine ⟨_, _, .inl rfl, hstep, .inl ?_, ?_, rfl⟩
          · rw [hwaiting, hrequests] at hwaits
            exact hwaits
          · show 2 * rest.length + 1 < 2 * x.requests.length + x.sent.toList.length
            rw [hsent, hrequests, List.length_cons]
            show 2 * rest.length + 1 < 2 * (rest.length + 1) + 0
            omega

/-- When its second is over a task that waits calls the callback. -/
theorem exists_poll_step (hordered : Ordered x) (htracked : Tracked x.pending x.tasks x.log)
    (htask : handle ∈ x.tasks) :
    ∃ x', Step x (.poll handle true) x' ∧ ¬ x'.Due handle := by
  obtain ⟨slot, hslot⟩ := HashMap.mem_iff_lookup.mp htask
  have hcalled : ∀ result, ¬ (x.call handle result).Due handle := by
    rintro result (hwaits | htask')
    · exact not_waiting_of_task hordered htracked hslot hwaits
    · exact (AList.mem_erase.mp htask').1 rfl
  cases slot with
  | some pong =>
      refine ⟨x.call handle (.pong pong.1 pong.2), next_eq_some.mpr ?_, hcalled _⟩
      simp only [step, hslot]
  | none =>
      by_cases hawaits : x.awaits handle
      · refine ⟨x.call handle .timedOut, next_eq_some.mpr ?_, hcalled _⟩
        simp [step, hslot, hawaits]
      · refine ⟨x.call handle .dropped, next_eq_some.mpr ?_, hcalled _⟩
        simp [step, hslot, hawaits]

/-- However many requests are before it, a callback that is due can be called. -/
theorem exists_run_called (hordered : Ordered x) (htracked : Tracked x.pending x.tasks x.log)
    (hfew : x.handles ≤ UInt64.size) (hdue : x.Due handle) :
    ∃ trace, Run Step x trace ∧ (∀ entry ∈ trace, ∀ socketAddr, entry.1 ≠ .request socketAddr) ∧
      ¬ (final x trace).Due handle := by
  generalize hn : x.toRegister = n
  induction n using Nat.strong_induction_on generalizing x with
  | _ n ih =>
      rcases hdue with hwaits | htask
      · obtain ⟨label, x', hlabel, hstep, hdue', hlt, hhandles⟩ :=
          exists_sender_step hordered htracked hfew hwaits
        obtain ⟨trace, hrun, hlabels, hnot⟩ := ih _ (hn ▸ hlt) (ordered_step hordered hstep)
          (tracked_step hordered htracked hstep) (hhandles ▸ hfew) hdue' rfl
        refine ⟨(label, x') :: trace, .cons hstep hrun, ?_, hnot⟩
        rw [List.forall_mem_cons]
        refine ⟨?_, hlabels⟩
        rintro socketAddr rfl
        rcases hlabel with h | h
        · cases h
        · cases h
      · obtain ⟨x', hstep, hnot⟩ := exists_poll_step hordered htracked htask
        refine ⟨[(.poll handle true, x')], .cons hstep .nil, ?_, hnot⟩
        intro entry hentry socketAddr heq
        rw [List.mem_singleton.mp hentry] at heq
        cases heq

end Pings

namespace Daemon

variable {d d' : Daemon}

/-- What `handle_pings` can do alone, it can do in the daemon. -/
theorem run_of_pings {pingTrace : List (Pings.Label × Pings)}
    (hrun : Run Pings.Step d.pings pingTrace)
    (hlabels : ∀ entry ∈ pingTrace, ∀ socketAddr, entry.1 ≠ .request socketAddr)
    (hrunning : d.system.running) :
    ∃ trace, Run Step d trace ∧ (∀ entry ∈ trace, ∃ label, entry.1 = .pings label) ∧
      (final d trace).pings = final d.pings pingTrace ∧ (final d trace).system = d.system ∧
      (final d trace).pinged = d.pinged ∧ (final d trace).commands = d.commands := by
  induction pingTrace generalizing d with
  | nil => exact ⟨[], .nil, List.forall_mem_nil _, rfl, rfl, rfl, rfl⟩
  | cons entry rest ih =>
      obtain ⟨label, pings⟩ := entry
      obtain ⟨hstep, hrest⟩ := Run.cons_iff.mp hrun
      rw [List.forall_mem_cons] at hlabels
      have hdaemon : Step d (.pings label) (d.answer pings) := by
        refine next_eq_some.mpr ?_
        have hpings := Pings.next_eq_some.mp hstep
        cases label with
        | request socketAddr => exact absurd rfl (hlabels.1 socketAddr)
        | _ =>
            simp only [step, if_pos hrunning, hpings]
            rfl
      obtain ⟨trace, htrace, hall, hpings, hsystem, hpinged, hcommands⟩ :=
        ih (d := d.answer pings) hrest hlabels.2 hrunning
      refine ⟨_ :: trace, .cons hdaemon htrace, ?_, hpings, hsystem, hpinged, hcommands⟩
      rw [List.forall_mem_cons]
      exact ⟨⟨label, rfl⟩, hall⟩

/-- **A `ServerStatus` is never stuck.**  In whatever state the daemon is, as long as
it runs and there are ids for the pings, a `ServerStatus` that has got no response can
get one by steps of `handle_pings` alone. -/
theorem exists_run_answered {state : State} {trace : List (Label × Daemon)}
    (hrun : Run Step (start state) trace) (hd : final (start state) trace = d)
    (hrunning : d.system.running) (hfew : d.pinged.length ≤ UInt64.size) (request : Request)
    (host : String) (port : UInt16) (hat : At d.commands request (.serverStatus host port))
    (hnone : d.responsesTo request = []) :
    ∃ more, Run Step d more ∧ (∀ entry ∈ more, ∃ label, entry.1 = .pings label) ∧
      ∃ response, (final d more).responsesTo request = [response] := by
  have hkept : d.Kept := hd ▸ kept_of_run hrun
  have hlisting : ¬ protocol.Listing (.serverStatus host port) := fun h => nomatch h
  -- it waits, and not for an event
  have hwaits : request ∈ d.waits := by
    by_contra hnot
    have hone := (hkept.once hfew request _ hat hlisting).2 hnot
    rw [show d.desk.responses request = [] from hnone] at hone
    cases hone
  have hevent : ∀ event, request ∉ d.system.eventQueue.waiting event := by
    intro event hmem
    obtain ⟨_, _, _, _, _, hat'⟩ := hkept.sound.waiting event request hmem
    cases hat.unique hat'
  rcases hwaits with hmem | ⟨handle, hpinged, hdue⟩
  · exact absurd (TcpEventQueue.mem_unanswered.mp hmem).1 (hevent _)
  obtain ⟨pingTrace, hpings, hlabels, hnot⟩ := Pings.exists_run_called hkept.sound.ordered
    hkept.sound.tracked (hkept.sound.handles ▸ hfew) hdue
  obtain ⟨more, hmore, hall, hfinal, hsystem, hsame, hcommands⟩ :=
    run_of_pings hpings hlabels hrunning
  refine ⟨more, hmore, hall, ?_⟩
  have hkept' : (final d more).Kept := hmore.inv_final Kept hkept fun _ _ _ h hstep => h.step hstep
  have hover : request ∉ (final d more).waits := by
    rintro (hmem | ⟨other, hother, hdue'⟩)
    · rw [hsystem] at hmem
      exact hevent _ (TcpEventQueue.mem_unanswered.mp hmem).1
    · rw [hsame] at hother
      rw [hkept.sound.handle_unique hother hpinged, hfinal] at hdue'
      exact hnot hdue'
  have hat' : At (final d more).commands request (.serverStatus host port) := by
    rw [hcommands]
    exact hat
  exact List.length_eq_one_iff.mp ((hkept'.once (hsame ▸ hfew) request _ hat' hlisting).2 hover)

/-- The first of two pings, when only the second was answered. -/
theorem exists_run_answered_twoPings : ∃ d more, Run Step d more ∧ d.responsesTo 0 = [] ∧
    ∃ response, (final d more).responsesTo 0 = [response] := by
  obtain ⟨trace, htrace, hrun⟩ := run_twoPings
  have hget := Option.some.inj (htrace.symm.trans (Option.some_get (by decide)).symm)
  subst hget
  obtain ⟨more, hmore, -, hresponse⟩ := exists_run_answered hrun rfl (by decide) (by decide) 0 "a"
    64738 (by decide) rfl
  exact ⟨_, more, hmore, rfl, hresponse⟩

/-! ## What was in the pong -/

/-- The responses to `ServerStatus` are those of callbacks, or say that the address does
not resolve. -/
structure Reported (d : Daemon) : Prop where
  kept : d.Kept
  mailbox : ∀ entry ∈ d.system.mailbox.sent, ∀ host port,
    At d.commands entry.1 (.serverStatus host port) →
      entry.2 = .error (.invalidServerAddr host port)
  pongs : ∀ entry ∈ d.pongs, ∃ handle result, At d.pinged handle entry.1 ∧
    .called handle result ∈ d.pings.log ∧ entry.2 = pongResponse result.toOption

theorem reported_start (state : State) : (start state).Reported where
  kept := kept_start state
  mailbox := fun _ h => nomatch h
  pongs := fun _ h => nomatch h

/-- The system tells a controller that an address does not resolve, and no more. -/
theorem mailbox_serverStatus {machine : Host} {system : System} {host : String} {port : UInt16}
    (hstep : System.Step d.system (machine, .command (.serverStatus host port)) system) :
    ∀ entry ∈ system.mailbox.sent, entry ∈ d.system.mailbox.sent ∨
      entry.2 = .error (.invalidServerAddr host port) := by
  obtain ⟨-, hstep⟩ := Option.ite_none_right_eq_some.mp (System.step_eq_ok hstep)
  obtain ⟨outcome, houtcome, hstep⟩ := bind_eq_ok.mp (Option.some.inj hstep)
  cases houtcome
  obtain ⟨executed, hexecute, hstep⟩ := bind_eq_ok.mp hstep
  cases hstep
  rw [System.execute] at hexecute
  split at hexecute
  · cases hexecute
    exact fun entry hentry => .inl hentry
  · cases System.sendResponses_sent hexecute
    intro entry hentry
    refine (List.mem_append.mp hentry).imp_right fun hnew => ?_
    rw [List.mem_singleton.mp hnew]

/-- A step of the system sends nothing else to a `ServerStatus`. -/
theorem Reported.system (h : d.Reported) {machine : Host} {label : Mum.Label} {system : System}
    (hstep : System.Step d.system (machine, label) system) :
    ∀ entry ∈ system.mailbox.sent, ∀ host port,
      At (d.follow label system).commands entry.1 (.serverStatus host port) →
        entry.2 = .error (.invalidServerAddr host port) := by
  intro entry hentry host port hat
  have hsound := h.kept.sound
  have hlt : ∀ {entry}, entry ∈ d.system.mailbox.sent → entry.1 < d.commands.length := by
    intro entry hmem
    rw [hsound.count]
    exact hsound.queue.lt _ (.inr (.inr (.inr (List.mem_map_of_mem hmem))))
  cases System.step_requestCase hstep with
  | @command command outcome _ houtcome hexecuted hstate hrequests =>
      have hcommands : At (d.commands ++ [command]) entry.1 (.serverStatus host port) := hat
      rcases at_concat.mp hcommands with hold | ⟨hlast, hnew⟩
      · obtain ⟨responses, hsent⟩ := hexecuted.sent_eq
        rw [hsent] at hentry
        rcases List.mem_append.mp hentry with hmem | hmem
        · exact h.mailbox entry hmem host port hold
        · obtain ⟨response, -, rfl⟩ := List.mem_map.mp hmem
          have hfresh := hold.lt_length
          rw [hsound.count] at hfresh
          exact absurd hfresh (Nat.lt_irrefl _)
      · subst hnew
        rcases mailbox_serverStatus hstep entry hentry with hmem | herror
        · exact absurd (hlast ▸ hlt hmem) (Nat.lt_irrefl _)
        · exact herror
  | @resolved _ data _ hresolves hresolve hrequests =>
      have hcommands : At d.commands entry.1 (.serverStatus host port) := by
        cases label with
        | command command => cases hresolves
        | _ => exact hat
      obtain ⟨response, note, hresolved⟩ :=
        TcpEventQueue.resolve_eq_ok (hsound.queue.waiting_nodup _) hresolve
      rw [hresolved.mailbox_eq, Mailbox.sent_sendAll, Mailbox.sent_sendAll] at hentry
      rcases List.mem_append.mp hentry with hentry | hnoted
      · rcases List.mem_append.mp hentry with hold | hanswered
        · exact h.mailbox entry hold host port hcommands
        · -- only a `ServerConnect` waits for an event
          obtain ⟨request, hmem, rfl⟩ := List.mem_map.mp hanswered
          obtain ⟨_, _, _, _, _, hat'⟩ :=
            hsound.waiting _ request (TcpEventQueue.mem_unanswered.mp hmem).1
          cases hcommands.unique hat'
      · obtain ⟨request, hmem, rfl⟩ := List.mem_map.mp hnoted
        cases hcommands.unique (hsound.listening _ request (List.mem_of_mem_filter hmem))
  | quiet hresolves hqueue hsent hrequests =>
      rw [hsent] at hentry
      refine h.mailbox entry hentry host port ?_
      cases label with
      | command command =>
          rcases at_concat.mp (hat : At (d.commands ++ [command]) _ _) with hold | ⟨hlast, -⟩
          · exact hold
          · exact absurd (hlast ▸ hlt hentry) (Nat.lt_irrefl _)
      | _ => exact hat

theorem log_prefix {x x' : Pings} {label : Pings.Label} (h : Pings.Step x label x') :
    x.log <+: x'.log := by
  cases Pings.step_cases h with
  | request | send | duplicate | receiveOther | receiveError => exact List.prefix_rfl
  | register | unknown | receive | pong | noPong => exact List.prefix_append _ _

theorem mem_calls {events : List PingEvent} {call : ℕ × PingResult}
    (h : call ∈ Pings.calls events) : .called call.1 call.2 ∈ events := by
  obtain ⟨event, hevent, hcall⟩ := List.mem_filterMap.mp h
  cases event with
  | called handle result =>
      cases hcall
      exact hevent
  | registered handle => cases hcall
  | received packet => cases hcall

theorem Reported.step (h : d.Reported) {label : Label} (hstep : Step d label d') :
    d'.Reported where
  kept := h.kept.step hstep
  mailbox := by
    cases step_cases hstep with
    | system hsystem => exact h.system hsystem
    | pings => exact h.mailbox
  pongs := by
    intro entry hentry
    cases step_cases hstep with
    | @system host label system hsystem =>
        obtain ⟨handle, result, hat, hcalled, hresponse⟩ := h.pongs entry hentry
        refine ⟨handle, result, ?_, ?_, hresponse⟩
        · show (d.pinged ++ _)[handle]? = some entry.1
          rw [List.getElem?_append_left hat.lt_length]
          exact hat
        · show _ ∈ (List.foldl Pings.ask d.pings _).log
          have hlog : ∀ (asked : List SocketAddr) (pings : Pings),
              (asked.foldl Pings.ask pings).log = pings.log := by
            intro asked
            induction asked with
            | nil => exact fun _ => rfl
            | cons socketAddr rest ih => exact fun pings => ih (pings.ask socketAddr)
          rw [hlog]
          exact hcalled
    | @pings label pings hrunning hlabel hpings =>
        have hprefix := log_prefix hpings
        rcases List.mem_append.mp hentry with hold | hnew
        · obtain ⟨handle, result, hat, hcalled, hresponse⟩ := h.pongs entry hold
          exact ⟨handle, result, hat, hprefix.subset hcalled, hresponse⟩
        · obtain ⟨call, hcall, hentry⟩ := List.mem_filterMap.mp hnew
          obtain ⟨request, hrequest, rfl⟩ := Option.map_eq_some_iff.mp hentry
          exact ⟨call.1, call.2, hrequest, List.mem_of_mem_drop (mem_calls hcall), rfl⟩

/-- Only a `ServerStatus` is answered with numbers. -/
theorem command_of_serverStatus {command : Command} {version users maxUsers bandwidth : UInt32}
    (h : command.Answers (.ok (some (.serverStatus version users maxUsers bandwidth)))) :
    ∃ host port, command = .serverStatus host port := by
  cases command with
  | serverStatus host port => exact ⟨host, port, rfl⟩
  | channelList =>
      obtain ⟨channels, h⟩ := h
      cases h
  | deafenSelf toggle =>
      obtain h | ⟨deaf, h⟩ := h
      · cases h
      · cases h
  | events block =>
      obtain ⟨-, event, h⟩ := h
      cases h
  | muteSelf toggle =>
      obtain h | ⟨mute, h⟩ := h
      · cases h
      · cases h
  | pastMessages block =>
      obtain ⟨timestamp, message, user, h⟩ := h
      cases h
  | serverConnect hostname port username password acceptInvalidCert =>
      obtain ⟨welcomeMessage, serverState, h⟩ := h
      cases h
  | status =>
      obtain ⟨serverState, h⟩ := h
      cases h
  | _ => cases h

/-- **What a controller is told about a server was in its pong.**  The numbers in a
response to a request came in a pong with the request's own id, after the request was
registered. -/
theorem serverStatus_of_run {state : State} {trace : List (Label × Daemon)}
    (hrun : Run Step (start state) trace) (request : Request)
    (version users maxUsers bandwidth : UInt32)
    (hmem : .ok (some (.serverStatus version users maxUsers bandwidth)) ∈
      (final (start state) trace).responsesTo request) :
    ∃ handle position, At (final (start state) trace).pinged handle request ∧
      Pings.Answers (final (start state) trace).pings.log handle position
        ⟨version, Pings.requestId handle, users, maxUsers, bandwidth⟩ := by
  have hreported : (final (start state) trace).Reported :=
    hrun.inv_final Reported (reported_start state) fun _ _ _ h hstep => h.step hstep
  generalize final (start state) trace = d at hmem hreported
  rcases List.mem_append.mp hmem with hsystem | hpong
  · -- the system has no numbers to tell
    obtain ⟨entry, hentry, hresponse⟩ := List.mem_map.mp hsystem
    obtain ⟨hsent, hrequest⟩ := List.mem_filter.mp hentry
    have hlt := hreported.kept.sound.queue.lt _ (.inr (.inr (.inr (List.mem_map_of_mem hsent))))
    rw [← hreported.kept.sound.count] at hlt
    have hat : At d.commands entry.1 (d.commands.get ⟨entry.1, hlt⟩) := List.getElem?_eq_getElem hlt
    generalize d.commands.get ⟨entry.1, hlt⟩ = command at hat
    obtain rfl : entry.1 = request := by simpa using hrequest
    obtain ⟨host, port, rfl⟩ :=
      command_of_serverStatus (hreported.kept.typed.answers entry.1 command hat _ hmem)
    rw [hreported.mailbox entry hsent host port hat] at hresponse
    cases hresponse
  · obtain ⟨entry, hentry, hresponse⟩ := List.mem_map.mp hpong
    obtain ⟨hsent, hrequest⟩ := List.mem_filter.mp hentry
    obtain rfl : entry.1 = request := by simpa using hrequest
    obtain ⟨handle, result, hat, hcalled, heq⟩ := hreported.pongs entry hsent
    rw [hresponse] at heq
    cases result with
    | dropped => cases heq
    | timedOut => cases heq
    | pong position packet =>
        obtain ⟨j, hj⟩ := List.mem_iff_getElem?.mp hcalled
        have hanswers := (hreported.kept.sound.tracked.pongs j handle position packet hj).1
        refine ⟨handle, position, hat, ?_⟩
        cases heq
        obtain ⟨version, id, users, maxUsers, bandwidth⟩ := packet
        obtain rfl : id = Pings.requestId handle := hanswers.id
        exact hanswers

theorem serverStatus_of_run_twoPings : ∃ trace,
    Library.follow next (start .idle) twoPings = some trace ∧
    ∃ handle position, At (final (start .idle) trace).pinged handle 2 ∧
      Pings.Answers (final (start .idle) trace).pings.log handle position
        ⟨0, Pings.requestId handle, 5, 100, 72000⟩ := by
  obtain ⟨trace, htrace, hrun⟩ := run_twoPings
  refine ⟨trace, htrace, serverStatus_of_run hrun 2 _ _ _ _ ?_⟩
  have hget := Option.some.inj (htrace.symm.trans (Option.some_get (by decide)).symm)
  subst hget
  exact List.mem_of_getElem? (i := 0) rfl

end Daemon

end Mum
