import Mum.Daemon.Requests
import Mum.Library.Desk

/-!
# What the daemon answers

Over every run, whatever commands, packets, pongs and timeouts come in whatever
order: every response is one that its command announces, and a command that is due one
response has got it, or waits where it will get it.

The daemon is a desk in the sense of `Mum.Library.Desk`.  Most of the work is to see
that each of its steps is one of the desk's moves.

`move_command`, `move_other` and `move_pings` find the move for each kind of step; `Sound`
(`Mum.Daemon.Requests`) tells them who waits where.  One step is no move: a ping whose id is
still taken is dropped, and its callback never called.  This needs more pings than there are
ids, so that each command is due its response as long as there are no more, while every
response is of the right kind in any case (`Kept`).
-/

namespace Mum

open Library Library.Eval Library.Log
open Mumlib (Command Response)

namespace Daemon

variable {d d' : Daemon} {host : Host} {system : System} {command : Command}

/-! ## The daemon as a desk -/

/-- What controllers expect. -/
def protocol : Protocol Command Response := ⟨Command.Answers, fun command => command.isListing⟩

/-- The requests whose response is to come from a callback, for an event or a ping. -/
def waits (d : Daemon) : Set Request :=
  {request | request ∈ d.system.eventQueue.unanswered .connected ∨
    ∃ handle, At d.pinged handle request ∧ d.pings.Due handle}

def desk (d : Daemon) : Desk Command Response := ⟨d.commands, d.responsesTo, d.waits⟩

/-- The responses of one request, at the end of the mailbox. -/
theorem responsesTo_of_sent {mailbox mailbox' : Mailbox} {request : Request}
    {responses : List Response}
    (hsent : mailbox'.sent = mailbox.sent ++ responses.map (request, ·)) (i : Request) :
    mailbox'.responsesTo i = mailbox.responsesTo i ++ if i = request then responses else [] := by
  unfold Mailbox.responsesTo
  rw [hsent, List.filter_append, List.map_append]
  congr 1
  by_cases heq : i = request
  · have hall : ∀ entry ∈ responses.map (request, ·), decide (entry.1 = i) = true := by
      intro entry hentry
      obtain ⟨response, -, rfl⟩ := List.mem_map.mp hentry
      simpa using heq.symm
    rw [if_pos heq, List.filter_eq_self.mpr hall, List.map_map]
    exact List.map_id _
  · have hnone : ∀ entry ∈ responses.map (request, ·), ¬ decide (entry.1 = i) = true := by
      intro entry hentry
      obtain ⟨response, -, rfl⟩ := List.mem_map.mp hentry
      simpa using Ne.symm heq
    rw [if_neg heq, List.filter_eq_nil_iff.mpr hnone, List.map_nil]

/-- The responses of the system come before those of pings. -/
theorem responsesTo_follow (d d' : Daemon) (hpongs : d'.pongs = d.pongs) {i : Request}
    {responses : List Response}
    (hmailbox : d'.system.mailbox.responsesTo i = d.system.mailbox.responsesTo i ++ responses)
    (hnot : responses ≠ [] → ∀ entry ∈ d.pongs, entry.1 ≠ i) :
    d'.responsesTo i = d.responsesTo i ++ responses := by
  rw [responsesTo, responsesTo, hmailbox, hpongs, List.append_assoc, List.append_assoc]
  congr 1
  by_cases hnil : responses = []
  · rw [hnil, List.nil_append, List.append_nil]
  · have hnone : ∀ entry ∈ d.pongs, ¬ decide (entry.1 = i) = true := by
      intro entry hentry
      simpa using hnot hnil entry hentry
    rw [List.filter_eq_nil_iff.mpr hnone, List.map_nil, List.append_nil, List.nil_append]

theorem answers_messageResponse {state : State} {data : TcpEventData} {note : Response}
    (h : messageResponse host state data = .ok note) :
    (Command.pastMessages true).Answers note := by
  cases data with
  | textMessage msg =>
      obtain ⟨user, -, h⟩ := bind_eq_ok.mp h
      cases h
      exact ⟨host.now, msg.getMessage, user, rfl⟩
  | connected result => cases h
  | disconnected reason => cases h

/-- The errors that an event tells a `ServerConnect` about. -/
theorem answers_connectResponse {state : State} {data : TcpEventData} {response : Response}
    {hostname : String} {port : UInt16} {username : String} {password : Option String}
    {acceptInvalidCert : Bool}
    (hdata : ∀ e, data = .connected (.error e) → e = .invalidServerPassword)
    (h : connectResponse host state data = .ok response) :
    (Command.serverConnect hostname port username password acceptInvalidCert).Answers response := by
  cases data with
  | textMessage msg => cases h
  | disconnected reason =>
      cases reason with
      | invalidTls =>
          cases h
          exact .inr (.inr (.inr rfl))
      | user => cases h
      | tcpError => cases h
  | connected result =>
      cases result with
      | error e =>
          cases h
          exact .inr (.inr (.inl (hdata e rfl)))
      | ok msg =>
          rw [connectResponse] at h
          split at h
          · obtain ⟨serverState, -, h⟩ := bind_eq_ok.mp h
            cases h
            exact ⟨msg.welcomeText, serverState, rfl⟩
          · cases h

theorem answers_pongResponse (hostname : String) (port : UInt16) (pong : Option PongPacket) :
    (Command.serverStatus hostname port).Answers (pongResponse pong) := by
  cases pong with
  | none => exact .inl rfl
  | some pong => exact .inr ⟨_, _, _, _, rfl⟩

namespace Sound

/-- A request asks for one ping. -/
theorem handle_unique (h : d.Sound) {handle other : ℕ} {request : Request}
    (hat : At d.pinged handle request) (hat' : At d.pinged other request) : handle = other :=
  (List.getElem?_inj hat.lt_length h.nodup).mp (hat.trans hat'.symm)

theorem pongs_ne (h : d.Sound) {request : Request} (hnot : request ∉ d.pinged) :
    ∀ entry ∈ d.pongs, entry.1 ≠ request := by
  rintro entry hentry rfl
  exact hnot (h.pongs entry hentry)

/-- The request that comes next. -/
theorem next_not_pinged (h : d.Sound) : d.system.requests ∉ d.pinged :=
  fun hmem => Nat.lt_irrefl _ (h.lt_of_pinged hmem)

theorem due_lt (h : d.Sound) {handle : ℕ} (hdue : d.pings.Due handle) :
    handle < d.pinged.length := by
  rw [← h.handles]
  rcases hdue with hwaits | htask
  · obtain ⟨request, hrequest, rfl⟩ := List.mem_map.mp hwaits
    exact (h.ordered.ids request hrequest).2
  · obtain ⟨slot, htask⟩ := HashMap.mem_iff_lookup.mp htask
    obtain ⟨⟨i, hi⟩, -⟩ := h.tracked.task handle slot htask
    exact (h.ordered.registered i handle hi).1

/-- A command comes in, and the requests with the pings stay. -/
theorem move_command (h : d.Sound) (hstep : System.Step d.system (host, .command command) system) :
    Desk.Move protocol d.desk (d.follow (.command command) system).desk := by
  obtain ⟨hcase, -⟩ := System.command_commandCase hstep
  have hcount : d.desk.requests.length = d.system.requests := h.count
  have hnext := h.pongs_ne h.next_not_pinged
  cases hcase with
  | @responds _ responses hanswers hone hqueue hsent hpings =>
      rw [follow_command hpings]
      refine .handled responses rfl (fun i => ?_) ?_ hanswers fun hlisting => ?_
      · rw [hcount]
        refine responsesTo_follow d { d with system := system, commands := _ } rfl
          (responsesTo_of_sent hsent i) fun hne => ?_
        split at hne
        next heq => exact heq ▸ hnext
        · exact absurd rfl hne
      · show {request | request ∈ system.eventQueue.unanswered .connected ∨ _} = _
        rw [hqueue]
        rfl
      · exact hone (Bool.eq_false_iff.mpr hlisting)
  | connects hqueue hmailbox hpings =>
      rw [follow_command hpings]
      have hwaiting := System.Executed.waiting_callbacks hqueue
      have hunanswered : ∀ i, i ∈ system.eventQueue.unanswered .connected ↔
          i ∈ d.system.eventQueue.unanswered .connected ∨ i = d.system.requests := by
        intro i
        have hnot := h.queue.notMem_handled
        rw [TcpEventQueue.mem_unanswered, TcpEventQueue.mem_unanswered, hwaiting, hqueue,
          TcpEventQueue.handled_registerCallback, TcpEventQueue.handled_registerCallback,
          if_pos (.inl rfl), List.mem_append, List.mem_singleton]
        constructor
        · rintro ⟨hold | hnew, hhandled⟩
          · exact .inl ⟨hold, hhandled⟩
          · exact .inr hnew
        · rintro (⟨hold, hhandled⟩ | rfl)
          · exact ⟨.inl hold, hhandled⟩
          · exact ⟨.inr rfl, hnot⟩
      refine .waits rfl ?_ fun i => ?_
      · funext i
        show system.mailbox.responsesTo i ++ _ = _
        rw [hmailbox]
        rfl
      · show (i ∈ system.eventQueue.unanswered .connected ∨
          ∃ handle, At d.pinged handle i ∧ d.pings.Due handle) ↔ (_ ∨ _) ∨ _
        rw [hunanswered, hcount]
        exact or_right_comm
  | listens hqueue hmailbox hpings =>
      rw [follow_command hpings]
      refine .handled [] rfl (fun i => ?_) ?_ (fun _ hmem => nomatch hmem)
        fun hlisting => absurd rfl hlisting
      · show system.mailbox.responsesTo i ++ _ = _
        rw [hmailbox, ite_self, List.append_nil]
        rfl
      · have hunanswered : system.eventQueue.unanswered .connected =
            d.system.eventQueue.unanswered .connected :=
          System.unanswered_congr (by rw [hqueue, TcpEventQueue.waiting_registerSubscriber])
            (by rw [hqueue, TcpEventQueue.handled_registerSubscriber])
        show {request | request ∈ system.eventQueue.unanswered .connected ∨ _} = _
        rw [hunanswered]
        rfl
  | @pings hostname port request hqueue hmailbox hpings =>
      rw [follow_ping hpings]
      have hdue : ∀ handle, (d.pings.ask request.2).Due handle ↔
          d.pings.Due handle ∨ handle = d.pinged.length := by
        intro handle
        rw [← h.handles]
        have hwaiting : (d.pings.ask request.2).waiting.map PingRequest.handle =
            d.pings.waiting.map PingRequest.handle ++ [d.pings.handles] := by
          simp [Pings.ask, Pings.waiting]
        unfold Pings.Due
        rw [hwaiting, List.mem_append, List.mem_singleton]
        show (_ ∨ _) ∨ handle ∈ d.pings.tasks ↔ _
        tauto
      refine .waits rfl ?_ fun i => ?_
      · funext i
        show system.mailbox.responsesTo i ++ _ = _
        rw [hmailbox]
        rfl
      · show (i ∈ system.eventQueue.unanswered .connected ∨
          ∃ handle, At (d.pinged ++ [d.system.requests]) handle i ∧
            (d.pings.ask request.2).Due handle) ↔ (_ ∨ _) ∨ _
        rw [hqueue, hcount]
        constructor
        · rintro (hevent | ⟨handle, hat, hhandle⟩)
          · exact .inl (.inl hevent)
          · rcases at_concat.mp hat with hat | ⟨-, rfl⟩
            · rcases (hdue handle).mp hhandle with hhandle | rfl
              · exact .inl (.inr ⟨handle, hat, hhandle⟩)
              · exact absurd hat.lt_length (Nat.lt_irrefl _)
            · exact .inr rfl
        · rintro ((hevent | ⟨handle, hat, hhandle⟩) | rfl)
          · exact .inl hevent
          · exact .inr ⟨handle, hat.concat _, (hdue handle).mpr (.inl hhandle)⟩
          · exact .inr ⟨_, at_last, (hdue _).mpr (.inr rfl)⟩

/-- Something else happens to the system: an event is resolved, or nothing. -/
theorem move_other (h : d.Sound) {label : Mum.Label}
    (hlabel : ∀ command, label ≠ .command command)
    (hstep : System.Step d.system (host, label) system) :
    Desk.Move protocol d.desk (d.follow label system).desk := by
  rw [follow_other hlabel hstep]
  cases System.step_requestCase hstep with
  | command => exact absurd rfl (hlabel _)
  | quiet hresolves hqueue hsent hrequests =>
      have hresponses : ∀ i, system.mailbox.responsesTo i = d.system.mailbox.responsesTo i := by
        intro i
        rw [Mailbox.responsesTo, Mailbox.responsesTo, hsent]
      refine .answered [] (.ok none) rfl (fun i => ?_) (fun i => ?_)
        (fun i hmem => absurd hmem List.not_mem_nil) fun i hmem => absurd hmem List.not_mem_nil
      · show system.mailbox.responsesTo i ++ _ = _
        rw [hresponses, if_neg List.not_mem_nil, List.append_nil]
        rfl
      · show (i ∈ system.eventQueue.unanswered .connected ∨ _) ↔ _
        rw [hqueue]
        exact (and_iff_left List.not_mem_nil).symm
  | @resolved _ data _ hresolves hresolve hrequests =>
      obtain ⟨response, note, hresolved⟩ :=
        TcpEventQueue.resolve_eq_ok (h.queue.waiting_nodup _) hresolve
      have hmailbox : ∀ i, system.mailbox.responsesTo i = d.system.mailbox.responsesTo i ++
          (if i ∈ d.system.eventQueue.unanswered data.event then [response] else []) ++
          if i ∈ (d.system.eventQueue.listening data.event).filter d.system.mailbox.isOpen then
            [note] else [] := by
        intro i
        rw [hresolved.mailbox_eq,
          Mailbox.responsesTo_sendAll ((h.queue.listening_nodup _).filter _),
          Mailbox.responsesTo_sendAll (h.queue.unanswered_nodup _)]
      by_cases hevent : data.event = .textMessage
      · -- subscribers are told, and nobody waits for a text message
        have hnobody : d.system.eventQueue.unanswered data.event = [] := by
          refine List.eq_nil_iff_forall_not_mem.mpr fun i hmem => ?_
          rcases h.queue.waiting_event _ i (TcpEventQueue.mem_unanswered.mp hmem).1 with hne | hne
          · cases hevent.symm.trans hne
          · cases hevent.symm.trans hne
        refine .told
          ((d.system.eventQueue.listening data.event).filter d.system.mailbox.isOpen) note rfl
          (fun i => ?_) ?_ fun i hmem => ?_
        · refine responsesTo_follow d { d with system := system } rfl ?_ fun hne => ?_
          · rw [hmailbox, hnobody, if_neg List.not_mem_nil, List.append_nil]
          · split at hne
            next hmem =>
              exact h.pongs_ne (h.not_pinged_of_listening (List.mem_of_mem_filter hmem))
            · exact absurd rfl hne
        · ext i
          show (i ∈ system.eventQueue.unanswered .connected ∨ _) ↔ _
          rw [mem_unanswered_resolved hresolved, hnobody]
          exact or_congr_left (and_iff_left List.not_mem_nil)
        · have hmem := List.mem_of_mem_filter hmem
          refine ⟨.pastMessages true, h.listening _ i hmem, rfl, ?_⟩
          exact answers_messageResponse (hresolved.note_eq (List.ne_nil_of_mem hmem))
      · -- callbacks are run, and nobody listens for anything else
        have hnobody : d.system.eventQueue.listening data.event = [] :=
          List.eq_nil_iff_forall_not_mem.mpr fun i hmem =>
            hevent (h.queue.listening_event _ i hmem)
        have hwaits : ∀ i ∈ d.system.eventQueue.unanswered data.event,
            i ∈ d.system.eventQueue.unanswered .connected := by
          intro i hmem
          rcases h.queue.waiting_event _ i (TcpEventQueue.mem_unanswered.mp hmem).1 with heq | heq
          · exact heq ▸ hmem
          · exact (h.together i).mp (heq ▸ hmem)
        have hnot : ∀ i ∈ d.system.eventQueue.unanswered data.event, i ∉ d.pinged :=
          fun i hmem => h.not_pinged_of_waiting (TcpEventQueue.mem_unanswered.mp hmem).1
        refine .answered (d.system.eventQueue.unanswered data.event) response rfl
          (fun i => ?_) (fun i => ?_)
          (fun i hmem => .inl (hwaits i hmem)) fun i hmem command hat => ?_
        · refine responsesTo_follow d { d with system := system } rfl ?_ fun hne => ?_
          · rw [hmailbox, hnobody, List.filter_nil, if_neg List.not_mem_nil, List.append_nil]
          · split at hne
            next hmem => exact h.pongs_ne (hnot i hmem)
            · exact absurd rfl hne
        · show (i ∈ system.eventQueue.unanswered .connected ∨
            ∃ handle, At d.pinged handle i ∧ d.pings.Due handle) ↔ (_ ∨ _) ∧ _
          rw [mem_unanswered_resolved hresolved]
          constructor
          · rintro (⟨hwaiting, hnew⟩ | ⟨handle, hat, hdue⟩)
            · exact ⟨.inl hwaiting, hnew⟩
            · exact ⟨.inr ⟨handle, hat, hdue⟩,
                fun hmem => hnot i hmem (List.mem_of_getElem? hat)⟩
          · rintro ⟨hwaiting | hpinged, hnew⟩
            · exact .inl ⟨hwaiting, hnew⟩
            · exact .inr hpinged
        · obtain ⟨hostname, port, username, password, accept, hat'⟩ :=
            h.waiting _ i (TcpEventQueue.mem_unanswered.mp hmem).1
          cases hat.unique hat'
          exact answers_connectResponse (System.resolves_connected hresolves)
            (hresolved.response_eq (List.ne_nil_of_mem hmem))

/-- A callback of a ping is called, or none is. -/
theorem move_pings (h : d.Sound) {label : Pings.Label} {pings : Pings}
    (hlabel : ∀ socketAddr, label ≠ .request socketAddr)
    (hstep : Pings.Step d.pings label pings) :
    Desk.Move protocol d.desk (d.answer pings).desk ∨
      Desk.Loses d.desk (d.answer pings).desk ∧ UInt64.size < d.pinged.length := by
  cases Pings.dueCase h.ordered h.tracked hlabel hstep with
  | same hcalls hdue =>
      left
      refine .answered [] (.ok none) rfl (fun i => ?_) (fun i => ?_)
        (fun _ hmem => nomatch hmem) fun _ hmem => nomatch hmem
      · show _ ++ ((d.pongs ++ _).filter _).map _ = _
        rw [hcalls, List.filterMap_nil, List.append_nil, if_neg List.not_mem_nil, List.append_nil]
        rfl
      · show (_ ∨ ∃ handle, At d.pinged handle i ∧ pings.Due handle) ↔ _
        simp only [hdue]
        exact (and_iff_left List.not_mem_nil).symm
  | dropped hcalls hsent hoccupied hdue =>
      right
      refine ⟨⟨rfl, ?_, fun i => ?_⟩, ?_⟩
      · funext i
        show _ ++ ((d.pongs ++ _).filter _).map _ = _
        rw [hcalls, List.filterMap_nil, List.append_nil]
        rfl
      · exact Or.imp_right fun ⟨handle, hat, hhandle⟩ => ⟨handle, hat, hdue handle hhandle⟩
      · rw [← h.handles]
        by_contra hfew
        exact Pings.not_occupied h.ordered h.tracked (Nat.le_of_not_lt hfew) hsent hoccupied
  | @called handle result hcalls hwasDue hdue =>
      left
      have hlt := h.due_lt hwasDue
      have hat : At d.pinged handle (d.pinged.get ⟨handle, hlt⟩) := List.getElem?_eq_getElem hlt
      generalize d.pinged.get ⟨handle, hlt⟩ = request at hat
      have hpinged : request ∈ d.pinged := List.mem_of_getElem? hat
      have hcalled : (Pings.calls (pings.log.drop d.pings.log.length)).filterMap (fun call =>
          (d.pinged[call.1]?).map (·, pongResponse call.2.toOption)) =
            [(request, pongResponse result.toOption)] := by
        rw [hcalls, List.filterMap_cons_some (b := (request, pongResponse result.toOption))]
        · rfl
        · rw [show d.pinged[handle]? = some request from hat]
          rfl
      refine .answered [request] (pongResponse result.toOption) rfl
        (fun i => ?_) (fun i => ?_) ?_ ?_
      · show _ ++ ((d.pongs ++ _).filter _).map _ = (_ ++ _) ++ _
        rw [hcalled, List.filter_append, List.map_append, List.append_assoc]
        congr 2
        by_cases heq : i = request
        · simp [heq]
        · simp [heq, Ne.symm heq]
      · show (_ ∨ ∃ other, At d.pinged other i ∧ pings.Due other) ↔
          (i ∈ d.system.eventQueue.unanswered .connected ∨
            ∃ other, At d.pinged other i ∧ d.pings.Due other) ∧ _
        rw [List.mem_singleton]
        constructor
        · rintro (hwaiting | ⟨other, hother, hhandle⟩)
          · refine ⟨.inl hwaiting, ?_⟩
            rintro rfl
            exact h.not_pinged_of_waiting (TcpEventQueue.mem_unanswered.mp hwaiting).1 hpinged
          · obtain ⟨hhandle, hne⟩ := (hdue other).mp hhandle
            refine ⟨.inr ⟨other, hother, hhandle⟩, ?_⟩
            rintro rfl
            exact hne (h.handle_unique hother hat)
        · rintro ⟨hwaiting | ⟨other, hother, hhandle⟩, hne⟩
          · exact .inl hwaiting
          · refine .inr ⟨other, hother, (hdue other).mpr ⟨hhandle, ?_⟩⟩
            rintro rfl
            exact hne (hother.unique hat)
      · intro i hmem
        rw [List.mem_singleton.mp hmem]
        exact .inr ⟨handle, hat, hwasDue⟩
      · intro i hmem command hcommand
        rw [List.mem_singleton.mp hmem] at hcommand
        obtain ⟨hostname, port, hcommand'⟩ := h.pinged request hpinged
        cases hcommand.unique hcommand'
        exact answers_pongResponse hostname port result.toOption

/-- **The daemon is a desk.**  A step is a move of it, unless a ping is dropped because
its id is taken, for which there must have been more requests than ids. -/
theorem move (h : d.Sound) {label : Label} (hstep : Step d label d') :
    Desk.Move protocol d.desk d'.desk ∨
      Desk.Loses d.desk d'.desk ∧ UInt64.size < d.pinged.length := by
  cases step_cases hstep with
  | @system host label system hsystem =>
      left
      cases label with
      | command command => exact h.move_command hsystem
      | _ => exact h.move_other (fun _ heq => nomatch heq) hsystem
  | pings hrunning hlabel hpings => exact h.move_pings hlabel hpings

end Sound

/-! ## Every run -/

theorem pinged_mono {label : Label} (hstep : Step d label d') :
    d.pinged.length ≤ d'.pinged.length := by
  cases step_cases hstep with
  | system =>
      show d.pinged.length ≤ (d.pinged ++ _).length
      rw [List.length_append]
      exact Nat.le_add_right _ _
  | pings => exact le_rfl

/-- Which requests are where, and what they were sent. -/
structure Kept (d : Daemon) : Prop where
  sound : d.Sound
  typed : d.desk.Typed protocol
  once : d.pinged.length ≤ UInt64.size → d.desk.Once protocol

theorem kept_start (state : State) : (start state).Kept where
  sound := sound_start state
  typed := by
    have hwaits : (start state).waits = ∅ := by
      ext request
      refine iff_of_false ?_ (Set.notMem_empty request)
      rintro (hwaiting | ⟨handle, hat, -⟩)
      · cases hwaiting
      · exact at_nil hat
    rw [desk, hwaits]
    exact Desk.typed_empty
  once := fun _ _ _ hat => absurd hat at_nil

theorem Kept.step (h : d.Kept) {label : Label} (hstep : Step d label d') : d'.Kept := by
  have hmono := pinged_mono hstep
  rcases h.sound.move hstep with hmove | ⟨hloses, hmany⟩
  · refine ⟨h.sound.step hstep, h.typed.move hmove, fun hfew => ?_⟩
    exact (h.once (hmono.trans hfew)).move h.typed hmove
  · refine ⟨h.sound.step hstep, h.typed.loses hloses, fun hfew => ?_⟩
    omega

variable {state : State} {trace : List (Label × Daemon)} {response : Response}

theorem kept_of_run (hrun : Run Step (start state) trace) : (final (start state) trace).Kept :=
  hrun.inv_final Kept (kept_start state) fun _ _ _ h hstep => h.step hstep

/-- The daemon sends the response to the command in one of its runs. -/
def Serves (command : Command) (response : Response) : Prop :=
  ∃ state trace request, Run Step (start state) trace ∧
    At (final (start state) trace).commands request command ∧
    response ∈ (final (start state) trace).responsesTo request

theorem Serves.answers (h : Serves command response) : command.Answers response := by
  obtain ⟨state, trace, request, hrun, hat, hmem⟩ := h
  exact (kept_of_run hrun).typed.answers request command hat response hmem

/-- **Every response is one that its command announces.**  Whatever commands, packets,
pongs and timeouts come in whatever order, a controller gets no result of another kind
and no error about something else. -/
theorem answers_of_run (hrun : Run Step (start state) trace) (request : Request)
    (command : Command) (hat : At (final (start state) trace).commands request command) :
    ∀ response ∈ (final (start state) trace).responsesTo request, command.Answers response :=
  (kept_of_run hrun).typed.answers request command hat

/-- **Nothing is answered twice or forgotten.**  As long as there are ids for the pings,
a command that is due one response either waits for an event or a ping that will bring it, and has
got none, or it has got one and waits no more. -/
theorem once_of_run (hrun : Run Step (start state) trace)
    (hfew : (final (start state) trace).pinged.length ≤ UInt64.size) (request : Request)
    (command : Command) (hat : At (final (start state) trace).commands request command)
    (hone : command.isListing = false) :
    request ∈ (final (start state) trace).waits ∧
        (final (start state) trace).responsesTo request = [] ∨
      request ∉ (final (start state) trace).waits ∧
        ∃ response, (final (start state) trace).responsesTo request = [response] := by
  have hlisting : ¬ protocol.Listing command := Bool.eq_false_iff.mp hone
  obtain ⟨hwaits, hdone⟩ := (kept_of_run hrun).once hfew request command hat hlisting
  by_cases hmem : request ∈ (final (start state) trace).waits
  · exact .inl ⟨hmem, hwaits hmem⟩
  · exact .inr ⟨hmem, List.length_eq_one_iff.mp (hdone hmem)⟩

/-- Two pings, of which the second is answered, while we are logged in. -/
def twoPings : List Label :=
  [.system .online (.command (.serverStatus "a" 64738)),
    .system .online (.command (.serverConnect "b" 64738 "me" none false)),
    .system .online (.command (.serverStatus "c" 64738)), .pings (.send true), .pings .register,
    .system .online (.tcp .takeInfo), .system .online (.tcp (.connect .tlsConnectError)),
    .pings (.send true), .pings .register, .pings (.receive ⟨0, 1, 5, 100, 72000⟩),
    .pings (.poll 1 false)]

theorem run_twoPings : ∃ trace, Library.follow next (start .idle) twoPings = some trace ∧
    Run Step (start .idle) trace :=
  ⟨Option.get _ (by decide), (Option.some_get _).symm,
    run_follow (fun _ _ _ h => h) (Option.some_get _).symm⟩

/-- TLS fails, and the callback says so. -/
theorem answers_of_run_twoPings :
    (Command.serverConnect "b" 64738 "me" none false).Answers (.error .serverCertReject) := by
  obtain ⟨trace, htrace, hrun⟩ := run_twoPings
  have hget := Option.some.inj (htrace.symm.trans (Option.some_get (by decide)).symm)
  subst hget
  exact answers_of_run hrun 1 _ (by decide) _ (List.mem_of_getElem? (i := 0) rfl)

/-- The first ping waits, and the second is answered. -/
theorem once_of_run_twoPings : ∃ trace, Library.follow next (start .idle) twoPings = some trace ∧
    (0 ∈ (final (start .idle) trace).waits ∧ (final (start .idle) trace).responsesTo 0 = [] ∨
      0 ∉ (final (start .idle) trace).waits ∧
        ∃ response, (final (start .idle) trace).responsesTo 0 = [response]) := by
  obtain ⟨trace, htrace, hrun⟩ := run_twoPings
  refine ⟨trace, htrace, ?_⟩
  have hget := Option.some.inj (htrace.symm.trans (Option.some_get (by decide)).symm)
  subst hget
  exact once_of_run hrun (by decide) 0 (.serverStatus "a" 64738) (by decide) rfl

end Daemon

end Mum
