import Mum.Client.ConnectAnswers

/-!
# The end of a connection attempt

A `ServerConnect` is answered by the callbacks that it registers for `Connected`
and for `Disconnected(InvalidTls)`.  A connection attempt can end by other events
than these, or by none.

An observer writes down which request the connection info comes from that the TCP
task works with, and which packets decided about it.  A request is answered once
and as it should if its attempt does not end before one of its callbacks has run,
and if the packets that run them come in its own session.

The observer's notes and the daemon's state are tied by `Accounted`.  While nothing has
decided about an attempt, the callbacks of its request are in the queue
(`System.Pending`), and stay there until an event for them is resolved.  That runs one of
them, and from then on the request has its response (`System.Responded`).
`step` goes through the steps by what they mean for the attempt:

* `publishes`: a command brings connection info, whose request is not that of the attempt;
* `begins`: the TCP task takes it;
* `decides`: a packet runs the callbacks, which a regular step allows only if they are
  those of the attempt;
* `tcpGoesOn`, `inSession` and `tcpWaits`: all other steps of the TCP task.

An attempt that is over was then decided about, or TLS failed, or the step was not regular
(`isOver_cases`).
-/

namespace Mum

open Library Library.Eval Msgs
open Mumlib (Command Response)

/-! ## What callbacks send -/

/-- The events that a `ServerConnect` registers callbacks for. -/
def TcpEvent.answers (event : TcpEvent) : Prop :=
  event = .connected ∨ event = .disconnected .invalidTls

/-- We are logged in. -/
def TcpEventData.isLogin : TcpEventData → Bool
  | .connected (.ok _) => true
  | _ => false

theorem connectResponse_isOk {host : Host} {state : State} {data : TcpEventData}
    {response : Response} (h : connectResponse host state data = .ok response) :
    response.isOk = data.isLogin := by
  unfold connectResponse at h
  split at h
  · split at h
    · obtain ⟨serverState, -, h⟩ := bind_eq_ok.mp h
      cases h
      rfl
    · cases h
  · cases h
    rfl
  · cases h
    rfl
  · cases h

/-- Connection info is published together with the callbacks. -/
theorem tcpEventCallback_of_connectionInfo {host : Host} {state : State} {command : Command}
    {outcome : Outcome} (h : handleCommand host state command = .ok outcome)
    (hinfo : outcome.connectionInfo ≠ none) : outcome.context = .tcpEventCallback := by
  cases handleCommand_cases h with
  | keeps hstate hnone => exact absurd hnone hinfo
  | mutes hserver huser hne htoggle hstate hnone => exact absurd hnone hinfo
  | connects hserver =>
      unfold State.serverConnect at hinfo ⊢
      split
      · rfl
      next hnone =>
        split at hinfo
        next hsome => exact absurd hsome (hnone _ _)
        · exact absurd rfl hinfo
  | disconnects hserver hstate hphase hnone => exact absurd hnone hinfo

/-- The packets that run callbacks. -/
theorem Listen.event_answers {packet : Clientbound} {data : TcpEventData}
    (h : Listen.event packet = some data) (hanswers : data.event.answers) :
    (∃ msg, packet = .serverSync msg ∧ data = .connected (.ok msg)) ∨
      ∃ msg, packet = .reject msg ∧ msg.getFieldType = .wrongServerPW ∧
        data = .connected (.error .invalidServerPassword) := by
  cases packet with
  | serverSync msg =>
      cases h
      exact Or.inl ⟨msg, rfl, rfl⟩
  | reject msg =>
      obtain ⟨htype, h⟩ := Option.ite_none_right_eq_some.mp h
      cases h
      exact Or.inr ⟨msg, rfl, htype, rfl⟩
  | textMessage msg =>
      cases h
      rcases hanswers with h | h
      · cases h
      · cases h
  | _ => cases h

namespace System

variable {host : Host} {sys sys' : System} {label : Label} {request : Request}

/-- The callbacks of a `ServerConnect` have not run. -/
structure Pending (sys : System) (request : Request) : Prop where
  waiting : ∀ event : TcpEvent, event.answers → request ∈ sys.eventQueue.waiting event
  notHandled : request ∉ sys.eventQueue.handled
  noResponse : sys.mailbox.responsesTo request = []

/-- One of them has, and sent one response. -/
structure Responded (sys : System) (request : Request) (ok : Bool) : Prop where
  handled : request ∈ sys.eventQueue.handled
  response : (sys.mailbox.responsesTo request).map Except.isOk = [ok]

theorem Pending.lt (h : sys.Pending request) (hsound : sys.QueueSound) : request < sys.requests :=
  hsound.lt request (Or.inl ⟨.connected, h.waiting _ (Or.inl rfl)⟩)

theorem Responded.lt {ok : Bool} (h : sys.Responded request ok) (hsound : sys.QueueSound) :
    request < sys.requests :=
  hsound.lt request (Or.inr (Or.inr (Or.inl h.handled)))

theorem Pending.mem_unanswered (h : sys.Pending request) {event : TcpEvent}
    (hevent : event.answers) : request ∈ sys.eventQueue.unanswered event :=
  TcpEventQueue.mem_unanswered.mpr ⟨h.waiting event hevent, h.notHandled⟩

/-- Callbacks are there as soon as the `ServerConnect` is handled. -/
theorem pending_executed (hsound : sys.QueueSound)
    (hexecuted : Executed sys .tcpEventCallback sys') : sys'.Pending sys.requests := by
  have hnotHandled : sys.requests ∉ sys'.eventQueue.handled :=
    hexecuted.handled_eq ▸ hsound.notMem_handled
  cases hexecuted with
  | tcpEventCallback hqueue hmailbox =>
      refine ⟨fun event hevent => ?_, hnotHandled, ?_⟩
      · have hregistered : event = .connected ∨ event = .disconnected .invalidTls := hevent
        rw [Executed.waiting_callbacks hqueue, if_pos hregistered]
        exact List.mem_append_right _ (List.mem_singleton_self _)
      · have hnobody : sys.mailbox.sent.filter (fun entry => entry.1 = sys.requests) = [] := by
          refine List.filter_eq_nil_iff.mpr fun entry hentry hsame => ?_
          have hsame : entry.1 = sys.requests := by simpa using hsame
          have hmem := List.mem_map_of_mem (f := Prod.fst) hentry
          exact hsound.not_mentions (Or.inr (Or.inr (Or.inr (hsame ▸ hmem))))
        rw [hmailbox, Mailbox.responsesTo, hnobody, List.map_nil]
  | responds hqueue hgone hsent hcontext => exact absurd rfl hcontext

/-- Callbacks wait on while no event for them is resolved. -/
theorem Pending.step (h : sys.Pending request) (hsound : sys.QueueSound)
    (hstep : Step sys (host, label) sys')
    (hquiet : ∀ data ∈ sys.resolves label, ¬ data.event.answers) : sys'.Pending request := by
  have hne : request ≠ sys.requests := Nat.ne_of_lt (h.lt hsound)
  have hnotListening : ∀ event, request ∉ sys.eventQueue.listening event := fun event hmem =>
    (hsound.apart event request hmem).2 .connected (h.waiting _ (Or.inl rfl))
  have hnotWaiting : ∀ data ∈ sys.resolves label, request ∉ sys.eventQueue.waiting data.event := by
    intro data hdata hmem
    exact hquiet data hdata (hsound.waiting_event _ _ hmem)
  refine ⟨fun event hevent => ?_, fun hmem => ?_, ?_⟩
  · refine (hsound.mem_waiting_step hstep hne).mpr ⟨h.waiting event hevent, ?_⟩
    rintro data hdata rfl
    exact hquiet data hdata hevent
  · rcases (hsound.mem_handled_step hstep).mp hmem with hmem | ⟨data, hdata, hmem⟩
    · exact h.notHandled hmem
    · exact hnotWaiting data hdata hmem
  · rw [hsound.responsesTo_step hstep hne hnotListening]
    · exact h.noResponse
    · exact fun data hdata hmem => hnotWaiting data hdata (TcpEventQueue.mem_unanswered.mp hmem).1

/-- The first event for them runs one of them. -/
theorem Pending.responded (h : sys.Pending request) (hsound : sys.QueueSound)
    (hstep : Step sys (host, label) sys') {data : TcpEventData}
    (hresolves : sys.resolves label = some data) (hanswers : data.event.answers) :
    sys'.Responded request data.isLogin := by
  obtain ⟨response, hresponse, hresponses⟩ :=
    hsound.responsesTo_answered hstep hresolves (h.mem_unanswered hanswers)
  refine ⟨(hsound.mem_handled_step hstep).mpr (Or.inr ⟨data, hresolves, h.waiting _ hanswers⟩), ?_⟩
  rw [hresponses, h.noResponse, List.nil_append, List.map_singleton, connectResponse_isOk hresponse]

/-- Nothing more is sent after that. -/
theorem Responded.step {ok : Bool} (h : sys.Responded request ok) (hsound : sys.QueueSound)
    (hstep : Step sys (host, label) sys') : sys'.Responded request ok := by
  have hnotListening : ∀ event, request ∉ sys.eventQueue.listening event := fun event hmem =>
    (hsound.apart event request hmem).1 h.handled
  refine ⟨(hsound.mem_handled_step hstep).mpr (Or.inl h.handled), ?_⟩
  rw [hsound.responsesTo_step hstep (Nat.ne_of_lt (h.lt hsound)) hnotListening]
  · exact h.response
  · exact fun data _ hmem => (TcpEventQueue.mem_unanswered.mp hmem).2 h.handled

/-- Only packets and a failure of TLS run callbacks. -/
theorem not_answers (hpacket : ∀ packet, label ≠ .tcp (.packet packet))
    (htls : label ≠ .tcp (.connect .tlsConnectError)) :
    ∀ data ∈ sys.resolves label, ¬ data.event.answers := by
  intro data hdata hanswers
  unfold resolves at hdata
  split at hdata
  next packet => exact hpacket packet rfl
  · exact htls rfl
  · obtain ⟨-, hdata⟩ := Option.ite_none_right_eq_some.mp hdata
    cases hdata
    rcases hanswers with h | h
    · cases h
    · cases h
  · cases hdata
    rcases hanswers with h | h
    · cases h
    · cases h
  · cases hdata
    rcases hanswers with h | h
    · cases h
    · cases h
  · cases hdata

/-- The TCP task ends an attempt with no event that callbacks wait for. -/
def abandons (sys : System) : Label → Bool
  | .tcp (.connect .error) => true
  | .tcp (.authenticate false) => true
  | .tcp .poll => sys.state.phaseWatcher.value = .disconnected
  | .tcp .streamGone => true
  | .tcp (.packetSent false) => true
  | _ => false

/-- The TCP task is done with an attempt: it waits for other connection info, or has
left `tcp::handle`. -/
def IsOver (sys' : System) : Label → Prop
  | .tcp _ => sys'.tcp = .waiting ∨ sys'.running = false
  | _ => False

theorem isOver_cases (hstep : Step sys (host, label) sys') (hover : IsOver sys' label) :
    sys.tcp = .waiting ∨ sys.abandons label ∨
      label = .tcp (.connect .tlsConnectError) ∧ ∃ info, sys.tcp = .connecting info := by
  have hrunning := running_of_step hstep
  cases step_cases hstep with
  | command | controllerGone | udp => cases hover
  | tcp hcase =>
      cases hcase with
      | ignoreInfo htcp => exact Or.inl htcp
      | takeInfo htcp => exact Or.inl htcp
      | tlsConnectError htcp => exact Or.inr (Or.inr ⟨rfl, _, htcp⟩)
      | connectError | authenticateError | streamGone | sendError => exact Or.inr (Or.inl rfl)
      | stopped htcp hphase => exact Or.inr (Or.inl (decide_eq_true hphase))
      | connect | authenticate | seen | packet | voicePoll | takePacket | packetSent =>
          rcases hover with htcp | hstopped
          · cases htcp
          · cases hrunning.symm.trans hstopped
      | invalidPacket =>
          rcases hover with htcp | hstopped
          · exact Or.inl htcp
          · cases hrunning.symm.trans hstopped
      | ping htcp | voice htcp =>
          rcases hover with hwaiting | hstopped
          · exact Or.inl hwaiting
          · cases hrunning.symm.trans hstopped

theorem tcp_command {command : Command} (hstep : Step sys (host, .command command) sys') :
    sys'.tcp = sys.tcp ∧ sys'.tcpSeen = sys.tcpSeen := by
  cases step_cases hstep with
  | command houtcome => exact ⟨rfl, rfl⟩

theorem tcp_packet {packet : Clientbound} (hstep : Step sys (host, .tcp (.packet packet)) sys') :
    ∃ session session', sys.tcp = .session session ∧ sys'.tcp = .session session' ∧
      sys'.connectionInfo = sys.connectionInfo ∧ sys'.tcpSeen = sys.tcpSeen := by
  cases step_cases hstep with
  | tcp hcase =>
      cases hcase with
      | packet htcp => exact ⟨_, _, htcp, rfl, rfl, rfl⟩

/-- A step publishes connection info if it handles a `ServerConnect` that waits for
callbacks. -/
theorem pending_published (hsound : sys.QueueSound) (hstep : Step sys (host, label) sys')
    (hpublished : sys'.connectionInfo.version ≠ sys.connectionInfo.version) :
    sys.state.server = .disconnected ∧ sys'.Pending sys.requests := by
  have hchanged : sys'.connectionInfo ≠ sys.connectionInfo :=
    fun heq => hpublished (congrArg Watch.version heq)
  cases step_cases hstep with
  | @command command outcome eventQueue mailbox pingRequests houtcome =>
      have hinfo : outcome.connectionInfo ≠ none := by
        intro hnone
        refine hchanged ?_
        dsimp only
        rw [hnone]
        rfl
      have hcontext := tcpEventCallback_of_connectionInfo houtcome hinfo
      refine ⟨(connecting_of_tcpEventCallback houtcome hcontext).1, ?_⟩
      cases step_requestCase hstep with
      | command houtcome' hexecuted =>
          cases houtcome.symm.trans houtcome'
          rw [hcontext] at hexecuted
          exact pending_executed hsound hexecuted
      | resolved hresolves => cases hresolves
      | quiet hresolves hqueue hsent hrequests =>
          exact absurd hrequests (Nat.succ_ne_self _)
  | controllerGone => exact absurd rfl hchanged
  | tcp hcase => cases hcase <;> exact absurd rfl hchanged
  | udp hcase => cases hcase <;> exact absurd rfl hchanged

end System

/-! ## The observer -/

/-- A connection attempt. -/
structure Attempt where
  /-- The `ServerConnect` that published the connection info. -/
  request : Request
  /-- A `ServerSync` came. -/
  synced : Bool
  /-- A `Reject` for a wrong server password came. -/
  wrongPassword : Bool
deriving DecidableEq

/-- What the observer has written down. -/
structure Attempts where
  /-- The request whose connection info was published last. -/
  published : Option Request
  /-- The attempt that the TCP task is at, from when it takes connection info until
  it waits for another. -/
  current : Option Attempt
deriving DecidableEq

namespace Attempt

/-- What a packet says about an attempt. -/
def note (attempt : Attempt) : TcpLabel → Attempt
  | .packet (.serverSync _) => { attempt with synced := true }
  | .packet (.reject msg) =>
      if msg.getFieldType = .wrongServerPW then { attempt with wrongPassword := true }
      else attempt
  | _ => attempt

/-- It is known whether we get in. -/
def decided (attempt : Attempt) : Prop := attempt.synced ∨ attempt.wrongPassword

end Attempt

namespace Attempts

/-- What the observer writes down at a step. -/
def note (attempts : Attempts) (sys : System) (label : Host × Label) (sys' : System) : Attempts :=
  match label.2 with
  | .command _ =>
      if sys'.connectionInfo.version = sys.connectionInfo.version then attempts
      else { attempts with published := some sys.requests }
  | .tcp label =>
      if sys'.tcp = .waiting then { attempts with current := none }
      else if label = .takeInfo then
        { attempts with current := attempts.published.map (⟨·, false, false⟩) }
      else { attempts with current := attempts.current.map (·.note label) }
  | _ => attempts

/-- A step of the daemon that is observed. -/
def Step (x : System × Attempts) (label : Host × Label) (x' : System × Attempts) : Prop :=
  observed System.next note x label = some x'

theorem note_over {attempts : Attempts} {sys sys' : System} {host : Host} {label : TcpLabel}
    (htcp : sys'.tcp = .waiting) :
    attempts.note sys (host, .tcp label) sys' = { attempts with current := none } :=
  if_pos htcp

theorem note_attempt {attempts : Attempts} {sys sys' : System} {host : Host} {label : TcpLabel}
    (htcp : sys'.tcp ≠ .waiting) (hlabel : label ≠ .takeInfo) :
    attempts.note sys (host, .tcp label) sys' =
      { attempts with current := attempts.current.map (·.note label) } :=
  (if_neg htcp).trans (if_neg hlabel)

theorem note_takeInfo {attempts : Attempts} {sys sys' : System} {host : Host}
    (htcp : sys'.tcp ≠ .waiting) :
    attempts.note sys (host, .tcp .takeInfo) sys' =
      { attempts with current := attempts.published.map (⟨·, false, false⟩) } :=
  (if_neg htcp).trans (if_pos rfl)

/-- When the TCP task is done with an attempt, its request has got one response,
`Ok` if and only if a `ServerSync` came. -/
def Answered (x : System × Attempts) (label : Host × Label) (x' : System × Attempts) : Prop :=
  System.IsOver x'.1 label.2 → ∀ attempt ∈ x.2.current,
    (x'.1.mailbox.responsesTo attempt.request).map Except.isOk = [attempt.synced]

/-- The TCP task does not abandon an attempt that nothing has decided about, and a
packet that runs callbacks comes for the attempt whose connection info is the latest,
and is no `ServerSync` after a `Reject`. -/
def Regular (x : System × Attempts) (label : Host × Label) : Prop :=
  ∀ attempt ∈ x.2.current,
    (x.1.abandons label.2 → attempt.decided) ∧
    ∀ data ∈ x.1.resolves label.2, data.event = .connected →
      x.2.published = some attempt.request ∧
      (data.isLogin → attempt.wrongPassword → attempt.synced)

/-! ## An invariant -/

/-- The callbacks of every attempt run when it is decided about. -/
structure Accounted (x : System × Attempts) : Prop where
  joining : x.1.Joining
  /-- Connection info that the TCP task has not seen is for a new request. -/
  unseen : x.1.connectionInfo.version ≠ x.1.tcpSeen → ∃ request, x.2.published = some request ∧
    x.1.Pending request ∧ ∀ attempt ∈ x.2.current, attempt.request ≠ request
  current : x.2.current = none ↔ x.1.tcp = .waiting
  undecided : ∀ attempt ∈ x.2.current, ¬ attempt.decided →
    x.2.published = some attempt.request ∧ x.1.Pending attempt.request
  decided : ∀ attempt ∈ x.2.current, attempt.decided →
    (∃ session, x.1.tcp = .session session) ∧ x.1.Responded attempt.request attempt.synced

theorem accounted_start {state : State} : Accounted (System.start state, ⟨none, none⟩) where
  joining := System.joining_start
  unseen := fun h => absurd rfl h
  current := iff_of_true rfl rfl
  undecided := fun _ h => nomatch h
  decided := fun _ h => nomatch h

namespace Accounted

variable {host : Host} {label : Label} {x x' : System × Attempts} {attempt : Attempt}

/-- There is nothing new while an attempt is undecided. -/
theorem seen (h : Accounted x) (hcurrent : attempt ∈ x.2.current)
    (hpublished : x.2.published = some attempt.request) :
    x.1.connectionInfo.version = x.1.tcpSeen := by
  by_contra hunseen
  obtain ⟨request, hrequest, -, hnew⟩ := h.unseen hunseen
  exact hnew attempt hcurrent (Option.some.inj (hpublished.symm.trans hrequest))

/-- The request of an attempt is old. -/
theorem lt (h : Accounted x) (hcurrent : attempt ∈ x.2.current) :
    attempt.request < x.1.requests := by
  by_cases hdecided : attempt.decided
  · exact (h.decided attempt hcurrent hdecided).2.lt h.joining.sound
  · exact (h.undecided attempt hcurrent hdecided).2.lt h.joining.sound

/-- The attempt goes on as it was. -/
theorem goesOn (h : Accounted x) (hstep : System.Step x.1 (host, label) x'.1)
    (hquiet : ∀ data ∈ x.1.resolves label, ¬ data.event.answers) (hnote : x'.2 = x.2)
    (hinfo : x'.1.connectionInfo.version = x.1.connectionInfo.version)
    (hseen : x'.1.tcpSeen = x.1.tcpSeen) (htcp : x'.1.tcp = .waiting ↔ x.1.tcp = .waiting)
    (hsession : ∀ session, x.1.tcp = .session session → ∃ session, x'.1.tcp = .session session) :
    Accounted x' := by
  refine ⟨h.joining.step hstep, fun hunseen => ?_, ?_, fun attempt hcurrent hdecided => ?_,
    fun attempt hcurrent hdecided => ?_⟩
  · rw [hinfo, hseen] at hunseen
    obtain ⟨request, hrequest, hpending, hnew⟩ := h.unseen hunseen
    rw [hnote]
    exact ⟨request, hrequest, hpending.step h.joining.sound hstep hquiet, hnew⟩
  · rw [hnote, htcp]
    exact h.current
  · rw [hnote] at hcurrent ⊢
    obtain ⟨hpublished, hpending⟩ := h.undecided attempt hcurrent hdecided
    exact ⟨hpublished, hpending.step h.joining.sound hstep hquiet⟩
  · rw [hnote] at hcurrent
    obtain ⟨⟨session, hold⟩, hresponded⟩ := h.decided attempt hcurrent hdecided
    exact ⟨hsession session hold, hresponded.step h.joining.sound hstep⟩

/-- The TCP task waits. -/
theorem waits (h : Accounted x) (hstep : System.Step x.1 (host, label) x'.1)
    (hcurrent : x'.2.current = none) (htcp : x'.1.tcp = .waiting)
    (hunseen : x'.1.connectionInfo.version ≠ x'.1.tcpSeen →
      ∃ request, x'.2.published = some request ∧ x'.1.Pending request) : Accounted x' := by
  refine ⟨h.joining.step hstep, fun hversion => ?_, iff_of_true hcurrent htcp, ?_, ?_⟩
  · obtain ⟨request, hrequest, hpending⟩ := hunseen hversion
    refine ⟨request, hrequest, hpending, fun attempt hattempt => ?_⟩
    rw [hcurrent] at hattempt
    cases hattempt
  · intro attempt hattempt
    rw [hcurrent] at hattempt
    cases hattempt
  · intro attempt hattempt
    rw [hcurrent] at hattempt
    cases hattempt

/-- New connection info is published. -/
theorem publishes (h : Accounted x) (hstep : System.Step x.1 (host, label) x'.1)
    (hversion : x'.1.connectionInfo.version ≠ x.1.connectionInfo.version)
    (hpublished : x'.2.published = some x.1.requests) (hcurrent : x'.2.current = x.2.current)
    (htcp : x'.1.tcp = x.1.tcp) : Accounted x' := by
  obtain ⟨hserver, hpending⟩ := System.pending_published h.joining.sound hstep hversion
  -- only a decided attempt has us disconnected again
  have hdecided : ∀ attempt ∈ x.2.current, attempt.decided := by
    intro attempt hattempt
    by_contra hundecided
    obtain ⟨-, hpending⟩ := h.undecided attempt hattempt hundecided
    have hkind := h.joining.connecting (List.ne_nil_of_mem (hpending.mem_unanswered (Or.inl rfl)))
    rw [hserver] at hkind
    cases hkind
  refine ⟨h.joining.step hstep, fun _ => ?_, ?_, fun attempt hattempt hundecided => ?_,
    fun attempt hattempt _ => ?_⟩
  · refine ⟨x.1.requests, hpublished, hpending, fun attempt hattempt => ?_⟩
    rw [hcurrent] at hattempt
    exact Nat.ne_of_lt (h.lt hattempt)
  · rw [hcurrent, htcp]
    exact h.current
  · rw [hcurrent] at hattempt
    exact absurd (hdecided attempt hattempt) hundecided
  · rw [hcurrent] at hattempt
    obtain ⟨hsession, hresponded⟩ := h.decided attempt hattempt (hdecided attempt hattempt)
    rw [htcp]
    exact ⟨hsession, hresponded.step h.joining.sound hstep⟩

/-- The TCP task takes connection info. -/
theorem begins (h : Accounted x) (hstep : System.Step x.1 (host, label) x'.1)
    (hquiet : x.1.resolves label = none)
    (hunseen : x.1.connectionInfo.version ≠ x.1.tcpSeen)
    (hseen : x'.1.connectionInfo.version = x'.1.tcpSeen) (htcp : x'.1.tcp ≠ .waiting)
    (hnote : x'.2 = { x.2 with current := x.2.published.map (⟨·, false, false⟩) }) :
    Accounted x' := by
  obtain ⟨request, hrequest, hpending, -⟩ := h.unseen hunseen
  have hpublished : x'.2.published = some request := by
    rw [hnote]
    exact hrequest
  have hcurrent : x'.2.current = some ⟨request, false, false⟩ := by
    rw [hnote]
    dsimp only
    rw [hrequest]
    rfl
  have hpending' : x'.1.Pending request := by
    refine hpending.step h.joining.sound hstep fun data hdata => ?_
    rw [hquiet] at hdata
    cases hdata
  refine ⟨h.joining.step hstep, fun hversion => absurd hseen hversion, ?_,
    fun attempt hattempt _ => ?_, fun attempt hattempt hdecided => ?_⟩
  · rw [hcurrent]
    exact iff_of_false (fun hnone => nomatch hnone) htcp
  · rw [hcurrent] at hattempt
    cases hattempt
    exact ⟨hpublished, hpending'⟩
  · rw [hcurrent] at hattempt
    cases hattempt
    rcases hdecided with hdecided | hdecided
    · cases hdecided
    · cases hdecided

/-- A packet decides about the attempt, or comes when it is decided. -/
theorem decides (h : Accounted x) (hstep : System.Step x.1 (host, label) x'.1)
    {data : TcpEventData} (hresolves : x.1.resolves label = some data)
    (hconnected : data.event = .connected) {attempt' : Attempt}
    (hcurrent : x.2.current = some attempt) (hpublished : x.2.published = some attempt.request)
    (hlate : data.isLogin → attempt.wrongPassword → attempt.synced)
    (hnote : x'.2 = { x.2 with current := some attempt' })
    (hrequest : attempt'.request = attempt.request) (hdecided : attempt'.decided)
    (hsynced : attempt'.synced = (attempt.synced || data.isLogin))
    (hinfo : x'.1.connectionInfo.version = x.1.connectionInfo.version)
    (hseen : x'.1.tcpSeen = x.1.tcpSeen) (hsession : ∃ session, x'.1.tcp = .session session) :
    Accounted x' := by
  have hversion : x'.1.connectionInfo.version = x'.1.tcpSeen := by
    rw [hinfo, hseen]
    exact h.seen hcurrent hpublished
  have hcurrent' : x'.2.current = some attempt' := by rw [hnote]
  have hresponded : x'.1.Responded attempt.request attempt'.synced := by
    by_cases hold : attempt.decided
    · obtain ⟨-, hresponded⟩ := h.decided attempt hcurrent hold
      have hsame : attempt'.synced = attempt.synced := by
        rw [hsynced]
        cases hlogin : data.isLogin with
        | false => rw [Bool.or_false]
        | true =>
            have hsynced : attempt.synced = true := by
              rcases hold with hsynced | hwrong
              · exact hsynced
              · exact hlate hlogin hwrong
            rw [hsynced, Bool.or_true]
      rw [hsame]
      exact hresponded.step h.joining.sound hstep
    · obtain ⟨-, hpending⟩ := h.undecided attempt hcurrent hold
      have hfalse : attempt.synced = false := by
        by_contra hsynced
        exact hold (Or.inl (Bool.eq_true_of_not_eq_false hsynced))
      rw [hsynced, hfalse, Bool.false_or]
      exact hpending.responded h.joining.sound hstep hresolves (Or.inl hconnected)
  refine ⟨h.joining.step hstep, fun hunseen => absurd hversion hunseen, ?_,
    fun attempt'' hattempt hundecided => ?_, fun attempt'' hattempt _ => ?_⟩
  · obtain ⟨session, htcp⟩ := hsession
    rw [hcurrent', htcp]
    exact iff_of_false (fun h => nomatch h) (fun h => nomatch h)
  · rw [hcurrent'] at hattempt
    cases hattempt
    exact absurd hdecided hundecided
  · rw [hcurrent'] at hattempt
    cases hattempt
    rw [hrequest]
    exact ⟨hsession, hresponded⟩

/-- The attempt and the TCP task go on. -/
theorem tcpGoesOn (h : Accounted x) {label : TcpLabel} (hstep : Step x (host, .tcp label) x')
    (hquiet : ∀ data ∈ x.1.resolves (.tcp label), ¬ data.event.answers)
    (hlabel : label ≠ .takeInfo) (hkeeps : ∀ attempt : Attempt, attempt.note label = attempt)
    (hinfo : x'.1.connectionInfo.version = x.1.connectionInfo.version)
    (hseen : x'.1.tcpSeen = x.1.tcpSeen) (htcp : x'.1.tcp = .waiting ↔ x.1.tcp = .waiting)
    (hsession : ∀ session, x.1.tcp = .session session → ∃ session, x'.1.tcp = .session session) :
    Accounted x' := by
  obtain ⟨hnext, hnote⟩ := observed_eq_some.mp hstep
  refine h.goesOn hnext hquiet ?_ hinfo hseen htcp hsession
  rw [hnote]
  by_cases hwaiting : x'.1.tcp = .waiting
  · rw [note_over hwaiting, ← h.current.mpr (htcp.mp hwaiting)]
  · have hid : (fun attempt : Attempt => attempt.note label) = id := funext hkeeps
    rw [note_attempt hwaiting hlabel, hid, Option.map_id_fun, id]

/-- The session goes on. -/
theorem inSession (h : Accounted x) {label : TcpLabel} (hstep : Step x (host, .tcp label) x')
    (hquiet : ∀ data ∈ x.1.resolves (.tcp label), ¬ data.event.answers)
    (hlabel : label ≠ .takeInfo) (hkeeps : ∀ attempt : Attempt, attempt.note label = attempt)
    (hinfo : x'.1.connectionInfo.version = x.1.connectionInfo.version)
    (hseen : x'.1.tcpSeen = x.1.tcpSeen) {session session' : TcpSession}
    (htcp : x.1.tcp = .session session) (htcp' : x'.1.tcp = .session session') :
    Accounted x' := by
  refine h.tcpGoesOn hstep hquiet hlabel hkeeps hinfo hseen ?_ fun _ _ => ⟨session', htcp'⟩
  rw [htcp, htcp']
  exact iff_of_false (fun h => nomatch h) (fun h => nomatch h)

/-- The TCP task is done with the attempt. -/
theorem tcpWaits (h : Accounted x) {label : TcpLabel} (hstep : Step x (host, .tcp label) x')
    (hquiet : ∀ data ∈ x.1.resolves (.tcp label), ¬ data.event.answers)
    (hinfo : x'.1.connectionInfo.version = x.1.connectionInfo.version)
    (hseen : x'.1.tcpSeen = x.1.tcpSeen) (htcp : x'.1.tcp = .waiting) : Accounted x' := by
  obtain ⟨hnext, hnote⟩ := observed_eq_some.mp hstep
  rw [note_over htcp] at hnote
  refine h.waits hnext (by rw [hnote]) htcp fun hunseen => ?_
  rw [hinfo, hseen] at hunseen
  obtain ⟨request, hrequest, hpending, -⟩ := h.unseen hunseen
  rw [hnote]
  exact ⟨request, hrequest, hpending.step h.joining.sound hnext hquiet⟩

theorem step_command (h : Accounted x) {command : Command}
    (hstep : Step x (host, .command command) x') : Accounted x' := by
  obtain ⟨hnext, hnote⟩ := observed_eq_some.mp hstep
  obtain ⟨htcp, hseen⟩ := System.tcp_command hnext
  by_cases hversion : x'.1.connectionInfo.version = x.1.connectionInfo.version
  · rw [note, if_pos hversion] at hnote
    refine h.goesOn hnext (fun _ hdata => nomatch hdata) hnote hversion hseen (by rw [htcp]) ?_
    rw [htcp]
    exact fun session hsession => ⟨session, hsession⟩
  · rw [note, if_neg hversion] at hnote
    exact h.publishes hnext hversion (by rw [hnote]) (by rw [hnote]) htcp

/-- What a packet says about an attempt when it does not run callbacks. -/
theorem note_packet {packet : Clientbound}
    (hquiet : ∀ data ∈ Listen.event packet, ¬ data.event.answers) (attempt : Attempt) :
    attempt.note (.packet packet) = attempt := by
  cases packet with
  | serverSync msg => exact absurd (Or.inl rfl) (hquiet _ rfl)
  | reject msg =>
      refine if_neg fun htype => hquiet (.connected (.error .invalidServerPassword)) ?_ (Or.inl rfl)
      exact if_pos htype
  | _ => rfl

theorem step_packet (h : Accounted x) {packet : Clientbound}
    (hstep : Step x (host, .tcp (.packet packet)) x')
    (hregular : Regular x (host, .tcp (.packet packet))) : Accounted x' := by
  obtain ⟨hnext, hnote⟩ := observed_eq_some.mp hstep
  obtain ⟨session, session', htcp, htcp', hinfo, hseen⟩ := System.tcp_packet hnext
  by_cases hquiet : ∀ data ∈ Listen.event packet, ¬ data.event.answers
  · exact h.inSession hstep hquiet (fun h => nomatch h) (note_packet hquiet)
      (congrArg Watch.version hinfo) hseen htcp htcp'
  · simp only [not_forall, not_not] at hquiet
    obtain ⟨data, hdata, hanswers⟩ := hquiet
    have hlabel : TcpLabel.packet packet ≠ .takeInfo := fun h => nomatch h
    have hwaiting : x'.1.tcp ≠ .waiting := by
      rw [htcp']
      exact fun h => nomatch h
    cases hcurrent : x.2.current with
    | none => cases htcp.symm.trans (h.current.mp hcurrent)
    | some attempt =>
        rw [note_attempt hwaiting hlabel, hcurrent, Option.map_some] at hnote
        rcases Listen.event_answers hdata hanswers with
          ⟨msg, rfl, rfl⟩ | ⟨msg, rfl, htype, rfl⟩
        · obtain ⟨hpublished, hlate⟩ := (hregular attempt hcurrent).2 _ rfl rfl
          exact h.decides hnext rfl rfl hcurrent hpublished hlate hnote rfl (Or.inl rfl)
            (Bool.or_true _).symm (congrArg Watch.version hinfo) hseen ⟨session', htcp'⟩
        · obtain ⟨hpublished, hlate⟩ := (hregular attempt hcurrent).2 _ hdata rfl
          have hwrong : attempt.note (.packet (.reject msg)) =
              { attempt with wrongPassword := true } := if_pos htype
          rw [hwrong] at hnote
          exact h.decides hnext hdata rfl hcurrent hpublished hlate hnote rfl (Or.inr rfl)
            (Bool.or_false _).symm (congrArg Watch.version hinfo) hseen ⟨session', htcp'⟩

theorem step_tcp (h : Accounted x) {label : TcpLabel} (hstep : Step x (host, .tcp label) x')
    (hregular : Regular x (host, .tcp label)) : Accounted x' := by
  obtain ⟨hnext, hnote⟩ := observed_eq_some.mp hstep
  have hcase := System.step_cases hnext
  obtain ⟨sys', attempts'⟩ := x'
  cases hcase with
  | tcp hcase =>
      cases hcase with
      | ignoreInfo htcp hvalue =>
          exact h.waits hnext (congrArg Attempts.current (hnote.trans (note_over htcp))) htcp
            fun hunseen => absurd rfl hunseen
      | @takeInfo info htcp hunseen hvalue =>
          have hattempt : TcpTask.connecting info ≠ .waiting := fun h => nomatch h
          exact h.begins hnext rfl hunseen rfl hattempt
            (hnote.trans (note_takeInfo hattempt))
      | tlsConnectError htcp =>
          -- the callbacks of the attempt run, and there is no other
          have hundecided : ∀ attempt ∈ x.2.current, ¬ attempt.decided := by
            intro attempt hattempt hdecided
            obtain ⟨⟨session, hsession⟩, -⟩ := h.decided attempt hattempt hdecided
            cases htcp.symm.trans hsession
          refine h.waits hnext (congrArg Attempts.current (hnote.trans (note_over rfl))) rfl ?_
          intro hunseen
          cases hcurrent : x.2.current with
          | none => cases htcp.symm.trans (h.current.mp hcurrent)
          | some attempt =>
              obtain ⟨hpublished, -⟩ :=
                h.undecided attempt hcurrent (hundecided attempt hcurrent)
              exact absurd (h.seen hcurrent hpublished) hunseen
      | packet => exact h.step_packet hstep hregular
      | stopped | streamGone | sendError =>
          exact h.tcpWaits hstep
            (System.not_answers (fun _ h => nomatch h) (fun h => nomatch h)) rfl rfl rfl
      | connect htcp =>
          refine h.tcpGoesOn hstep (fun _ hdata => nomatch hdata) (fun h => nomatch h)
            (fun _ => rfl) rfl rfl ?_ ?_
          · rw [htcp]
            exact iff_of_false (fun h => nomatch h) (fun h => nomatch h)
          · rw [htcp]
            exact fun _ hsession => nomatch hsession
      | authenticate htcp =>
          refine h.tcpGoesOn hstep (fun _ hdata => nomatch hdata) (fun h => nomatch h)
            (fun _ => rfl) rfl rfl ?_ fun _ _ => ⟨_, rfl⟩
          rw [htcp]
          exact iff_of_false (fun h => nomatch h) (fun h => nomatch h)
      | connectError | authenticateError | invalidPacket | ping | voice =>
          exact h.tcpGoesOn hstep (fun _ hdata => nomatch hdata) (fun h => nomatch h)
            (fun _ => rfl) rfl rfl Iff.rfl fun session hsession => ⟨session, hsession⟩
      | seen htcp | voicePoll htcp | takePacket htcp | packetSent htcp =>
          exact h.inSession hstep
            (System.not_answers (fun _ h => nomatch h) (fun h => nomatch h))
            (fun h => nomatch h) (fun _ => rfl) rfl rfl htcp rfl

/-- The invariant is kept by every regular step. -/
theorem step (h : Accounted x) (hstep : Step x (host, label) x')
    (hregular : Regular x (host, label)) : Accounted x' := by
  obtain ⟨hnext, hnote⟩ := observed_eq_some.mp hstep
  have hcase := System.step_cases hnext
  cases label with
  | command command => exact h.step_command hstep
  | controllerGone request =>
      obtain ⟨sys', attempts'⟩ := x'
      cases hcase with
      | controllerGone =>
          exact h.goesOn hnext (fun _ hdata => nomatch hdata) hnote rfl rfl Iff.rfl
            (fun session hsession => ⟨session, hsession⟩)
  | udp label =>
      obtain ⟨sys', attempts'⟩ := x'
      cases hcase with
      | udp hcase =>
          cases hcase <;> exact h.goesOn hnext (fun _ hdata => nomatch hdata) hnote rfl rfl Iff.rfl
            (fun session hsession => ⟨session, hsession⟩)
  | tcp label => exact h.step_tcp hstep hregular

/-- Whoever waits for an attempt that is over has been told. -/
theorem answered (h : Accounted x) (hstep : Step x (host, label) x')
    (hregular : Regular x (host, label)) : Answered x (host, label) x' := by
  obtain ⟨hnext, -⟩ := observed_eq_some.mp hstep
  intro hover attempt hattempt
  by_cases hdecided : attempt.decided
  · obtain ⟨-, hresponded⟩ := h.decided attempt hattempt hdecided
    exact (hresponded.step h.joining.sound hnext).response
  · rcases System.isOver_cases hnext hover with hwaiting | habandons | ⟨rfl, -⟩
    · rw [h.current.mpr hwaiting] at hattempt
      cases hattempt
    · exact absurd ((hregular attempt hattempt).1 habandons) hdecided
    · -- TLS failed, which its callback tells
      obtain ⟨-, hpending⟩ := h.undecided attempt hattempt hdecided
      have hresponded := hpending.responded h.joining.sound hnext rfl (Or.inr rfl)
      have hsynced : attempt.synced = false := by
        by_contra hsynced
        exact hdecided (Or.inl (Bool.eq_true_of_not_eq_false hsynced))
      rw [hsynced]
      exact hresponded.response

end Accounted

/-! ## Runs -/

/-- **When every attempt is answered.**  In a run of the daemon whose steps are all
regular, a `ServerConnect` has got exactly one response whenever the TCP task is done
with its attempt, which is `Ok` if and only if a `ServerSync` came. -/
theorem answered_of_regular {state : State} {trace : List ((Host × Label) × (System × Attempts))}
    (hrun : Run Step (System.start state, ⟨none, none⟩) trace)
    (hregular : AllSteps (fun x label _ => Regular x label) (System.start state, ⟨none, none⟩)
      trace) :
    AllSteps Answered (System.start state, ⟨none, none⟩) trace := by
  refine hrun.allSteps Accounted accounted_start ?_ hregular
  exact fun x label x' h hstep hregular => ⟨h.step hstep hregular, h.answered hstep hregular⟩

instance (sys' : System) : ∀ label : Label, Decidable (sys'.IsOver label)
  | .tcp _ => inferInstanceAs (Decidable (_ ∨ _))
  | .command _ => .isFalse id
  | .controllerGone _ => .isFalse id
  | .udp _ => .isFalse id

instance (attempt : Attempt) : Decidable attempt.decided :=
  inferInstanceAs (Decidable (_ ∨ _))

instance (x : System × Attempts) (label : Host × Label) : Decidable (Regular x label) :=
  inferInstanceAs (Decidable (∀ attempt ∈ x.2.current,
    _ ∧ ∀ data ∈ x.1.resolves label.2, data.event = .connected → _))

instance (x : System × Attempts) (label : Host × Label) (x' : System × Attempts) :
    Decidable (Answered x label x') :=
  inferInstanceAs (Decidable (_ → ∀ attempt ∈ x.2.current, _))

/-- The trace of labels that come on one machine. -/
def follow (host : Host) (labels : List Label) :
    Option (List ((Host × Label) × (System × Attempts))) :=
  Library.follow (observed System.next note) (System.start .idle, ⟨none, none⟩)
    (labels.map (host, ·))

theorem run_follow {host : Host} {labels : List Label}
    {trace : List ((Host × Label) × (System × Attempts))} (h : follow host labels = some trace) :
    Run Step (System.start .idle, ⟨none, none⟩) trace :=
  Library.run_follow (fun _ _ _ h => h) h

/-- We log in and leave. -/
theorem answered_login :
    ∃ trace, follow .online (System.login "localhost" ++
        [.command .serverDisconnect, .tcp .poll]) = some trace ∧
      AllSteps Answered (System.start .idle, ⟨none, none⟩) trace :=
  ⟨Option.get _ (by decide), (Option.some_get _).symm,
    answered_of_regular (run_follow (Option.some_get _).symm) (by decide)⟩

/-- The server closes the stream before it lets us in. -/
theorem not_answered_streamGone :
    ∃ trace, follow .online
        [.command (.serverConnect "localhost" 64738 "me" none false), .tcp .takeInfo,
          .tcp (.connect .ok), .tcp (.authenticate true),
          .tcp (.packet (.reject { fieldType := some .usernameInUse })), .tcp .streamGone] =
        some trace ∧
      ¬ AllSteps Answered (System.start .idle, ⟨none, none⟩) trace :=
  ⟨Option.get _ (by decide), (Option.some_get _).symm, by decide⟩

end Attempts

end Mum
