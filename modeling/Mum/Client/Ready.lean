import Mum.Client.ConnectAnswers
import Mum.Client.Stuck

/-!
# What the tasks rely on

`Ready` has what is needed of the past for a task to go on: whoever waits for an answer is
there to hear it, so that `TcpEventQueue::resolve` can return, and connection info that a
task has not seen is there to be taken.

That nobody who waits is gone is shown by way of what was sent: a controller is gone only
after it was sent something (`gone_step`), and whoever waits was sent nothing
(`unheard_step`).  The latter needs that a command never waits under the number of another,
which is part of `QueueSound`.
-/

namespace Mum

open Library Library.Eval Msgs
open Mumlib (Command Response)

/-! ## Who hears an answer -/

namespace TcpEventQueue

variable {host : Host} {state : State} {data : TcpEventData} {mailbox : Mailbox}

theorem runCallbacks_returns {requests handled : List Request}
    (hopen : ∀ request ∈ requests, request ∉ handled →
      mailbox.isOpen request ∧ Returns (connectResponse host state data)) :
    Returns (runCallbacks host state data requests (handled, mailbox)) := by
  induction requests generalizing handled mailbox with
  | nil => exact returns_ok _
  | cons request rest ih =>
      rw [runCallbacks]
      split
      · exact ih fun request' hmem => hopen request' (List.mem_cons_of_mem _ hmem)
      next hhandled =>
        obtain ⟨hfirst, response, hresponse⟩ := hopen request List.mem_cons_self hhandled
        rw [hresponse, ok_bind, if_pos hfirst, Mailbox.send_of_isOpen hfirst]
        refine ih fun request' hmem hnot => ?_
        rw [Mailbox.isOpen_sendAll]
        exact hopen request' (List.mem_cons_of_mem _ hmem) fun h =>
          hnot (List.mem_cons_of_mem _ h)

/-- An event that nobody listens for is resolved if all who wait for it can be told. -/
theorem resolve_returns {queue : TcpEventQueue}
    (hopen : ∀ request ∈ queue.unanswered data.event,
      mailbox.isOpen request ∧ Returns (connectResponse host state data))
    (hlistening : queue.listening data.event = []) :
    Returns (queue.resolve host state mailbox data) := by
  obtain ⟨⟨handled, mailbox'⟩, hcallbacks⟩ : Returns (runCallbacks host state data
      ((queue.callbacks.lookup data.event).getD []) (queue.handled, mailbox)) :=
    runCallbacks_returns fun request hmem hnot => hopen request (mem_unanswered.mpr ⟨hmem, hnot⟩)
  have hnobody : (queue.subscribers.lookup data.event).getD [] = [] := hlistening
  rw [resolve, hcallbacks, ok_bind]
  dsimp only
  rw [hnobody]
  exact returns_ok _

end TcpEventQueue

namespace System

variable {host : Host} {label : Label} {sys sys' : System}

/-- What is needed of the past: published connection info is there, no task has seen
more than was published, and whoever waits for an answer is there to hear it. -/
structure Ready (sys : System) : Prop where
  queue : sys.QueueSound
  tcpSeen : sys.SeesPast
  udpSeen : sys.udpSeen ≤ sys.connectionInfo.version
  published : sys.connectionInfo.value = none → sys.connectionInfo.version = 0
  gone : ∀ request ∈ sys.mailbox.gone, request ∈ sys.mailbox.sent.map Prod.fst
  unheard : ∀ event, ∀ request ∈ sys.eventQueue.unanswered event,
    request ∉ sys.mailbox.sent.map Prod.fst

theorem ready_start (state : State) : (start state).Ready where
  queue := .of_start state
  tcpSeen := Nat.le_refl 0
  udpSeen := Nat.le_refl 0
  published _ := rfl
  gone _ hmem := absurd hmem List.not_mem_nil
  unheard _ _ hmem := absurd hmem List.not_mem_nil

/-- A controller is gone only once it was sent a response. -/
theorem Ready.isOpen (h : sys.Ready) {event : TcpEvent} {request : Request}
    (hmem : request ∈ sys.eventQueue.unanswered event) : sys.mailbox.isOpen request := by
  have hnot : request ∉ sys.mailbox.gone :=
    fun hgone => h.unheard event request hmem (h.gone _ hgone)
  simpa [Mailbox.isOpen] using hnot

/-- A new request can be answered. -/
theorem Ready.isOpen_requests (h : sys.Ready) : sys.mailbox.isOpen sys.requests := by
  have hnot : sys.requests ∉ sys.mailbox.gone :=
    fun hgone => h.queue.not_mentions (.inr (.inr (.inr (h.gone _ hgone))))
  simpa [Mailbox.isOpen] using hnot

/-- An event that callbacks wait for is resolved if they have something to tell. -/
theorem Ready.resolve_returns_iff (h : sys.Ready) {state : State} {data : TcpEventData}
    (hevent : data.event ≠ .textMessage) :
    Returns (sys.eventQueue.resolve host state sys.mailbox data) ↔
      (sys.eventQueue.unanswered data.event ≠ [] → Returns (connectResponse host state data)) := by
  constructor
  · rintro ⟨⟨eventQueue, mailbox⟩, hresolve⟩ hne
    obtain ⟨response, note, hresolved⟩ :=
      TcpEventQueue.resolve_eq_ok (h.queue.waiting_nodup _) hresolve
    exact ⟨response, hresolved.response_eq hne⟩
  · intro hresponse
    refine TcpEventQueue.resolve_returns (fun request hmem => ?_) ?_
    · exact ⟨h.isOpen hmem, hresponse (List.ne_nil_of_mem hmem)⟩
    · refine List.eq_nil_iff_forall_not_mem.mpr fun request hmem => ?_
      exact hevent (h.queue.listening_event _ request hmem)

/-- Whoever waits for an answer can be told of the end. -/
theorem Ready.exists_endSession (h : sys.Ready) (host : Host) (state : State)
    (reason : DisconnectedReason) :
    ∃ eventQueue mailbox, endSession host { sys with state := state } reason =
      .ok { sys with
        state := state, tcp := .waiting, eventQueue := eventQueue, mailbox := mailbox } := by
  obtain ⟨⟨eventQueue, mailbox⟩, hresolve⟩ :
      Returns (sys.eventQueue.resolve host state sys.mailbox (.disconnected reason)) := by
    refine (h.resolve_returns_iff (by simp [TcpEventData.event])).mpr fun hne => ?_
    -- callbacks wait for a login or a TLS error only
    obtain ⟨request, hmem⟩ := List.exists_mem_of_ne_nil _ hne
    have hwaiting := (TcpEventQueue.mem_unanswered.mp hmem).1
    rcases h.queue.waiting_event _ request hwaiting with hevent | hevent
    · cases hevent
    · cases hevent
      exact ⟨_, rfl⟩
  exact ⟨eventQueue, mailbox, by simp only [System.endSession, System.resolve, hresolve, ok_bind]⟩

/-- A step of the TCP task loses nobody. -/
theorem gone_tcpStep {label : TcpLabel} (hsound : sys.QueueSound)
    (h : sys.tcpStep host label = some (.ok sys')) : sys'.mailbox.gone = sys.mailbox.gone := by
  cases tcpStep_requestCase h with
  | resolved hresolves hresolve =>
      obtain ⟨response, note, hresolved⟩ :=
        TcpEventQueue.resolve_eq_ok (hsound.waiting_nodup _) hresolve
      rw [hresolved.mailbox_eq]
      rfl
  | quiet hresolves =>
      by_cases hpacket : ∃ packet, label = .packet packet
      · obtain ⟨packet, rfl⟩ := hpacket
        obtain ⟨session, -, h⟩ := inSession_eq_some.mp h
        obtain ⟨handled, hhandled, h⟩ := listen_handled h
        rw [(handlePacket_event hhandled).trans hresolves] at h
        cases h
        rfl
      · cases tcpStep_cases h with
        | packet => exact absurd ⟨_, rfl⟩ hpacket
        | stopped htcp hphase => simp [resolves, hphase] at hresolves
        | tlsConnectError | streamGone | sendError => cases hresolves
        | _ => rfl

/-- A controller is lost only after it was sent a response. -/
theorem gone_step (hsound : sys.QueueSound) (hstep : Step sys (host, label) sys') :
    ∀ request ∈ sys'.mailbox.gone,
      request ∈ sys.mailbox.gone ∨ request ∈ sys.mailbox.sent.map Prod.fst := by
  have hsame : sys'.mailbox.gone = sys.mailbox.gone → ∀ request ∈ sys'.mailbox.gone,
      request ∈ sys.mailbox.gone ∨ request ∈ sys.mailbox.sent.map Prod.fst :=
    fun heq request hmem => .inl (heq ▸ hmem)
  have hok := step_eq_ok hstep
  unfold step at hok
  cases label with
  | command command =>
      obtain ⟨outcome, houtcome, hok⟩ :=
        bind_eq_ok.mp (Option.some.inj (Option.ite_none_right_eq_some.mp hok).2)
      obtain ⟨executed, hexecute, hok⟩ := bind_eq_ok.mp hok
      cases hok
      obtain ⟨hexecuted, -, -⟩ := execute_executed hexecute
      generalize outcome.context = context at hexecuted
      cases hexecuted with
      | tcpEventCallback hqueue hmailbox => exact hsame (congrArg Mailbox.gone hmailbox)
      | tcpEventSubscriber hqueue hmailbox => exact hsame (congrArg Mailbox.gone hmailbox)
      | responds hqueue hgone => exact hsame hgone
  | controllerGone request =>
      obtain ⟨⟨-, hmem⟩, hok⟩ := Option.ite_none_right_eq_some.mp hok
      cases hok
      intro request' hmem'
      rcases List.mem_cons.mp hmem' with rfl | hold
      · exact .inr hmem
      · exact .inl hold
  | tcp label => exact hsame (gone_tcpStep hsound (Option.ite_none_right_eq_some.mp hok).2)
  | udp label =>
      cases udpStep_cases (Option.ite_none_right_eq_some.mp hok).2 <;> exact hsame rfl

/-- What was sent stays sent. -/
theorem sent_step (hsound : sys.QueueSound) (hstep : Step sys (host, label) sys') :
    ∀ request ∈ sys.mailbox.sent.map Prod.fst, request ∈ sys'.mailbox.sent.map Prod.fst := by
  intro request hmem
  cases step_requestCase hstep with
  | command houtcome hexecuted =>
      obtain ⟨responses, hsent⟩ := hexecuted.sent_eq
      rw [hsent, List.map_append]
      exact List.mem_append_left _ hmem
  | resolved hresolves hresolve =>
      obtain ⟨response, note, hresolved⟩ :=
        TcpEventQueue.resolve_eq_ok (hsound.waiting_nodup _) hresolve
      rw [hresolved.mailbox_eq, Mailbox.sent_sendAll, Mailbox.sent_sendAll, List.map_append,
        List.map_append]
      exact List.mem_append_left _ (List.mem_append_left _ hmem)
  | quiet hresolves hqueue hsent => exact hsent ▸ hmem

/-- A request that registers callbacks is sent nothing yet. -/
theorem unheard_executed (hsound : sys.QueueSound) {context : ExecutionContext}
    (h : Executed sys context sys') {event : TcpEvent}
    (hmem : sys.requests ∈ sys'.eventQueue.waiting event) :
    sys.requests ∉ sys'.mailbox.sent.map Prod.fst := by
  cases h with
  | tcpEventCallback hqueue hmailbox =>
      rw [hmailbox]
      exact fun hheard => hsound.not_mentions (.inr (.inr (.inr hheard)))
  | tcpEventSubscriber hqueue hmailbox =>
      rw [hqueue, TcpEventQueue.waiting_registerSubscriber] at hmem
      exact absurd hmem (hsound.notMem_waiting event)
  | responds hqueue =>
      rw [hqueue] at hmem
      exact absurd hmem (hsound.notMem_waiting event)

/-- Whoever waits on was not sent a response. -/
theorem unheard_step (h : sys.Ready) (hstep : Step sys (host, label) sys') :
    ∀ event, ∀ request ∈ sys'.eventQueue.unanswered event,
      request ∉ sys'.mailbox.sent.map Prod.fst := by
  intro event request hmem
  obtain ⟨hwaiting, hhandled⟩ := TcpEventQueue.mem_unanswered.mp hmem
  cases step_requestCase hstep with
  | command houtcome hexecuted =>
      obtain ⟨responses, hsent⟩ := hexecuted.sent_eq
      rw [hexecuted.handled_eq] at hhandled
      rcases hexecuted.of_mem_waiting hwaiting with hold | ⟨rfl, hevent⟩
      · have hlt := h.queue.lt request (.inl ⟨event, hold⟩)
        rw [hsent, List.map_append, List.mem_append, List.map_map]
        rintro (hheard | hnow)
        · exact h.unheard event request (TcpEventQueue.mem_unanswered.mpr ⟨hold, hhandled⟩) hheard
        · obtain ⟨response, -, rfl⟩ := List.mem_map.mp hnow
          exact Nat.lt_irrefl _ hlt
      · exact unheard_executed h.queue hexecuted hwaiting
  | resolved hresolves hresolve =>
      obtain ⟨response, note, hresolved⟩ :=
        TcpEventQueue.resolve_eq_ok (h.queue.waiting_nodup _) hresolve
      obtain ⟨hevent, hold⟩ := unanswered_of_resolved hresolved hmem
      rw [hresolved.handled, not_or] at hhandled
      rw [hresolved.mailbox_eq, Mailbox.sent_sendAll, Mailbox.sent_sendAll, List.map_append,
        List.map_append, List.map_map, List.map_map, List.mem_append, List.mem_append]
      rintro ((hheard | hanswered) | hnoted)
      · exact h.unheard event request hold hheard
      · obtain ⟨request', hrequest', rfl⟩ := List.mem_map.mp hanswered
        exact hhandled.2 (TcpEventQueue.mem_unanswered.mp hrequest').1
      · obtain ⟨request', hrequest', rfl⟩ := List.mem_map.mp hnoted
        refine (h.queue.apart _ _ (List.mem_of_mem_filter hrequest')).2 event ?_
        exact (TcpEventQueue.mem_unanswered.mp hold).1
  | quiet hresolves hqueue hsent =>
      rw [hsent]
      rw [hqueue] at hmem
      exact h.unheard event request hmem

theorem udpSeen_step (h : sys.udpSeen ≤ sys.connectionInfo.version)
    (hstep : Step sys (host, label) sys') : sys'.udpSeen ≤ sys'.connectionInfo.version := by
  by_cases htake : label = .udp .takeInfo
  · subst htake
    have hudp := (Option.ite_none_right_eq_some.mp (step_eq_ok hstep)).2
    rw [udpStep] at hudp
    split at hudp
    · split at hudp
      · cases hudp
      · cases hvalue : sys.connectionInfo.value with
        | none =>
            simp only [hvalue] at hudp
            cases hudp
            exact Nat.le_refl _
        | some info =>
            simp only [hvalue] at hudp
            cases hudp
            exact Nat.le_refl _
    · cases hudp
  · cases step_cases hstep with
    | @command command outcome eventQueue mailbox pingRequests houtcome =>
        cases hinfo : outcome.connectionInfo with
        | none => exact h
        | some info => exact Nat.le_succ_of_le h
    | controllerGone => exact h
    | tcp hcase =>
        cases hcase with
        | _ => exact h
    | udp hcase =>
        cases hcase with
        | takeInfo => exact absurd rfl htake
        | _ => exact h

theorem published_step (h : sys.connectionInfo.value = none → sys.connectionInfo.version = 0)
    (hstep : Step sys (host, label) sys') :
    sys'.connectionInfo.value = none → sys'.connectionInfo.version = 0 := by
  cases step_cases hstep with
  | @command command outcome eventQueue mailbox pingRequests houtcome =>
      cases hinfo : outcome.connectionInfo with
      | none => exact h
      | some info =>
          intro hnone
          cases hnone
  | controllerGone => exact h
  | tcp hcase =>
      cases hcase with
      | _ => exact h
  | udp hcase =>
      cases hcase with
      | _ => exact h

theorem Ready.step (h : sys.Ready) (hstep : Step sys (host, label) sys') : sys'.Ready where
  queue := h.queue.step hstep
  tcpSeen := h.tcpSeen.step hstep
  udpSeen := udpSeen_step h.udpSeen hstep
  published := published_step h.published hstep
  gone request hgone := by
    rcases gone_step h.queue hstep request hgone with hold | hheard
    · exact sent_step h.queue hstep request (h.gone request hold)
    · exact sent_step h.queue hstep request hheard
  unheard := unheard_step h hstep

/-- Connection info that a task has not seen is there. -/
theorem Ready.exists_info (h : sys.Ready) {seen : ℕ} (hle : seen ≤ sys.connectionInfo.version)
    (hunseen : sys.connectionInfo.version ≠ seen) :
    ∃ info, sys.connectionInfo.value = some info := by
  refine Option.ne_none_iff_exists'.mp fun hnone => hunseen ?_
  have hzero := h.published hnone
  omega

end System

end Mum
