import Mum.Library.Handlers
import Mum.Network.Tcp

/-!
# Resolving an event

What `TcpEventQueue::resolve` does to the requests that wait for the event: which
responses are sent to whom, and who waits on.

`Resolved` says it of the whole, and is all that later modules know of `resolve`
(`resolve_eq_ok`).  It comes from one lemma for each of the two loops.  That of the callbacks
is about the shared flags: the requests whose callbacks run are those that no other event
has run before, and each of them is sent the one response (`runCallbacks_eq_ok`).
-/

namespace Mum

open Library Library.Eval
open Mumlib (Response)

namespace Mailbox

/-- Sends one response to several requests. -/
def sendAll (mailbox : Mailbox) (requests : List Request) (response : Response) : Mailbox :=
  { mailbox with sent := mailbox.sent ++ requests.map (·, response) }

/-- The responses to a request. -/
def responsesTo (mailbox : Mailbox) (request : Request) : List Response :=
  (mailbox.sent.filter fun entry => entry.1 = request).map Prod.snd

variable {mailbox : Mailbox} {request : Request} {response : Response}

@[simp] theorem sent_sendAll (requests : List Request) :
    (mailbox.sendAll requests response).sent = mailbox.sent ++ requests.map (·, response) := rfl

@[simp] theorem isOpen_sendAll (requests : List Request) :
    (mailbox.sendAll requests response).isOpen = mailbox.isOpen := rfl

@[simp] theorem sendAll_nil : mailbox.sendAll [] response = mailbox := by
  simp [sendAll]

theorem sendAll_cons (requests : List Request) :
    mailbox.sendAll (request :: requests) response =
      (mailbox.sendAll [request] response).sendAll requests response := by
  simp [sendAll]

theorem send_of_isOpen (hopen : mailbox.isOpen request) :
    mailbox.send request response = mailbox.sendAll [request] response := by
  rw [send, if_pos hopen]
  rfl

theorem send_of_not_isOpen (hgone : ¬ mailbox.isOpen request) :
    mailbox.send request response = mailbox := by
  rw [send, if_neg hgone]

/-- Each of the requests gets the response once. -/
theorem responsesTo_sendAll {requests : List Request} (hnodup : requests.Nodup) :
    (mailbox.sendAll requests response).responsesTo request =
      mailbox.responsesTo request ++ if request ∈ requests then [response] else [] := by
  unfold responsesTo
  rw [sent_sendAll, List.filter_append, List.map_append]
  congr 1
  induction requests with
  | nil => rfl
  | cons first rest ih =>
      obtain ⟨hfirst, hrest⟩ := List.nodup_cons.mp hnodup
      rw [List.map_cons]
      by_cases heq : first = request
      · subst heq
        have hnil := ih hrest
        rw [if_neg hfirst] at hnil
        rw [List.filter_cons_of_pos (by simp), List.map_cons, hnil,
          if_pos List.mem_cons_self]
      · rw [List.filter_cons_of_neg (by simpa using heq), ih hrest]
        simp [Ne.symm heq]

end Mailbox

namespace TcpEventQueue

/-- The requests whose callbacks wait for an event. -/
def waiting (queue : TcpEventQueue) (event : TcpEvent) : List Request :=
  Handlers.of queue.callbacks event

/-- The requests whose subscribers are called at an event. -/
def listening (queue : TcpEventQueue) (event : TcpEvent) : List Request :=
  Handlers.of queue.subscribers event

/-- The requests whose callbacks are run at an event. -/
def unanswered (queue : TcpEventQueue) (event : TcpEvent) : List Request :=
  (queue.waiting event).filter (· ∉ queue.handled)

variable {queue queue' : TcpEventQueue} {event : TcpEvent} {request : Request}

theorem waiting_registerCallback (event' : TcpEvent) :
    (queue.registerCallback event request).waiting event' =
      if event' = event then queue.waiting event ++ [request] else queue.waiting event' :=
  Handlers.of_register ..

theorem listening_registerSubscriber (event' : TcpEvent) :
    (queue.registerSubscriber event request).listening event' =
      if event' = event then queue.listening event ++ [request] else queue.listening event' :=
  Handlers.of_register ..

@[simp] theorem listening_registerCallback (event' : TcpEvent) :
    (queue.registerCallback event request).listening event' = queue.listening event' := rfl

@[simp] theorem handled_registerCallback :
    (queue.registerCallback event request).handled = queue.handled := rfl

@[simp] theorem waiting_registerSubscriber (event' : TcpEvent) :
    (queue.registerSubscriber event request).waiting event' = queue.waiting event' := rfl

@[simp] theorem handled_registerSubscriber :
    (queue.registerSubscriber event request).handled = queue.handled := rfl

theorem mem_unanswered :
    request ∈ queue.unanswered event ↔ request ∈ queue.waiting event ∧ request ∉ queue.handled := by
  simp [unanswered]

/-! ## Callbacks -/

variable {host : Host} {state : State} {data : TcpEventData} {mailbox mailbox' : Mailbox}

/-- Callbacks that are run get the response that they generate to their controllers. -/
theorem runCallbacks_eq_ok {requests handled handled' : List Request} (hnodup : requests.Nodup)
    (h : runCallbacks host state data requests (handled, mailbox) = .ok (handled', mailbox')) :
    (∀ request, request ∈ handled' ↔ request ∈ handled ∨ request ∈ requests) ∧
      ∃ response, mailbox' = mailbox.sendAll (requests.filter (· ∉ handled)) response ∧
        (requests.filter (· ∉ handled) ≠ [] → connectResponse host state data = .ok response) := by
  induction requests generalizing handled mailbox with
  | nil =>
      cases h
      exact ⟨by simp, .ok none, by simp, by simp⟩
  | cons first rest ih =>
      obtain ⟨hfirst, hrest⟩ := List.nodup_cons.mp hnodup
      rw [runCallbacks] at h
      by_cases hhandled : first ∈ handled
      · rw [if_pos hhandled] at h
        obtain ⟨hmem, response, hsent, hresponse⟩ := ih hrest h
        refine ⟨fun request => ?_, response, ?_, ?_⟩
        · rw [hmem request, List.mem_cons]
          constructor
          · rintro (h | h)
            · exact Or.inl h
            · exact Or.inr (Or.inr h)
          · rintro (h | rfl | h)
            · exact Or.inl h
            · exact Or.inl hhandled
            · exact Or.inr h
        · rw [List.filter_cons_of_neg (by simpa using hhandled)]
          exact hsent
        · rw [List.filter_cons_of_neg (by simpa using hhandled)]
          exact hresponse
      · rw [if_neg hhandled] at h
        obtain ⟨response, hresponse, h⟩ := bind_eq_ok.mp h
        split at h
        next hopen =>
          rw [Mailbox.send_of_isOpen hopen] at h
          obtain ⟨hmem, response', hsent, hresponse'⟩ := ih hrest h
          -- the flag of the first request is no other's
          have hothers : rest.filter (· ∉ first :: handled) = rest.filter (· ∉ handled) := by
            refine List.filter_congr fun request hrequest => ?_
            have hne : request ≠ first := fun heq => hfirst (heq ▸ hrequest)
            simp [hne]
          rw [hothers] at hsent hresponse'
          refine ⟨fun request => ?_, response, ?_, fun _ => hresponse⟩
          · rw [hmem request, List.mem_cons, List.mem_cons]
            tauto
          · rw [List.filter_cons_of_pos (by simpa using hhandled), Mailbox.sendAll_cons, hsent]
            by_cases hnil : rest.filter (· ∉ handled) = []
            · rw [hnil, Mailbox.sendAll_nil, Mailbox.sendAll_nil]
            · cases hresponse.symm.trans (hresponse' hnil)
              rfl
        · cases h

/-! ## Subscribers -/

/-- Subscribers that are called send what they generate if they still can. -/
theorem runSubscribers_eq_ok {requests : List Request} {note : Response}
    (hnote : messageResponse host state data = .ok note) :
    runSubscribers host state data requests mailbox =
      .ok (requests.filter mailbox.isOpen,
        mailbox.sendAll (requests.filter mailbox.isOpen) note) := by
  induction requests generalizing mailbox with
  | nil => rw [runSubscribers, List.filter_nil, Mailbox.sendAll_nil]
  | cons first rest ih =>
      rw [runSubscribers, hnote, ok_bind]
      by_cases hopen : mailbox.isOpen first
      · rw [List.filter_cons_of_pos hopen, Mailbox.sendAll_cons, Mailbox.send_of_isOpen hopen, ih,
          ok_bind]
        simp only [Mailbox.isOpen_sendAll, hopen, if_true]
      · simp only [Mailbox.send_of_not_isOpen hopen, ih, ok_bind, hopen]
        rw [List.filter_cons_of_neg hopen]
        rfl

/-- Nothing is generated when there is nobody to be called. -/
theorem runSubscribers_eq_error {requests : List Request} {fault : Fault}
    (hnote : messageResponse host state data = .error fault) (hne : requests ≠ []) :
    runSubscribers host state data requests mailbox = .error fault := by
  cases requests with
  | nil => exact absurd rfl hne
  | cons first rest =>
      rw [runSubscribers, hnote]
      rfl

/-! ## Both -/

/-- An event was resolved: everybody who waited for it got the response, and every
subscriber that can still send got the note. -/
structure Resolved (host : Host) (state : State) (data : TcpEventData) (queue : TcpEventQueue)
    (mailbox : Mailbox) (response note : Response) (queue' : TcpEventQueue) (mailbox' : Mailbox) :
    Prop where
  waiting : ∀ event, queue'.waiting event =
    if event = data.event then [] else queue.waiting event
  listening : ∀ event, queue'.listening event =
    if event = data.event then (queue.listening event).filter mailbox.isOpen
    else queue.listening event
  handled : ∀ request, request ∈ queue'.handled ↔
    request ∈ queue.handled ∨ request ∈ queue.waiting data.event
  mailbox_eq : mailbox' = (mailbox.sendAll (queue.unanswered data.event) response).sendAll
    ((queue.listening data.event).filter mailbox.isOpen) note
  response_eq : queue.unanswered data.event ≠ [] → connectResponse host state data = .ok response
  note_eq : queue.listening data.event ≠ [] → messageResponse host state data = .ok note

theorem resolve_eq_ok (hnodup : (queue.waiting data.event).Nodup)
    (h : queue.resolve host state mailbox data = .ok (queue', mailbox')) :
    ∃ response note, Resolved host state data queue mailbox response note queue' mailbox' := by
  obtain ⟨⟨handled, mailbox₁⟩, hcallbacks, h⟩ := bind_eq_ok.mp h
  obtain ⟨⟨subscribers, mailbox₂⟩, hsubscribers, h⟩ := bind_eq_ok.mp h
  cases h
  obtain ⟨hhandled, response, rfl, hresponse⟩ := runCallbacks_eq_ok hnodup hcallbacks
  have hwaiting : ∀ event, Handlers.of (queue.callbacks.replace data.event []) event =
      if event = data.event then [] else queue.waiting event :=
    Handlers.of_replace fun _ => rfl
  -- the list of subscribers is replaced by those that are kept
  have hlistening : ∀ note, subscribers = (queue.listening data.event).filter mailbox.isOpen →
      mailbox' = (mailbox.sendAll (queue.unanswered data.event) response).sendAll
        ((queue.listening data.event).filter mailbox.isOpen) note →
      (queue.listening data.event ≠ [] → messageResponse host state data = .ok note) →
      ∃ response note, Resolved host state data queue mailbox response note
        ⟨queue.callbacks.replace data.event [],
          queue.subscribers.replace data.event subscribers, handled⟩ mailbox' := by
    rintro note rfl rfl hnote
    refine ⟨response, note, hwaiting, fun event => ?_, hhandled, rfl, hresponse, hnote⟩
    have hkept : Handlers.of queue.subscribers data.event = [] →
        (queue.listening data.event).filter mailbox.isOpen = [] := by
      intro hnil
      rw [listening, hnil]
      rfl
    refine (Handlers.of_replace hkept event).trans ?_
    split
    next heq => rw [heq]
    · rfl
  cases hnote : messageResponse host state data with
  | ok note =>
      have heq := (runSubscribers_eq_ok hnote).symm.trans hsubscribers
      cases heq
      exact hlistening note rfl rfl fun _ => hnote
  | error fault =>
      by_cases hnil : queue.listening data.event = []
      · have hnobody : (queue.subscribers.lookup data.event).getD [] = [] := hnil
        rw [hnobody, runSubscribers] at hsubscribers
        cases hsubscribers
        refine hlistening (.ok none) (by rw [hnil]; rfl) ?_ fun hne => absurd hnil hne
        rw [hnil, List.filter_nil, Mailbox.sendAll_nil]
        rfl
      · cases (runSubscribers_eq_error hnote hnil).symm.trans hsubscribers

/-- When no callback waits for an event, resolving it returns if nobody listens or
there is something to tell. -/
theorem resolve_returns_iff (hwaiting : queue.waiting data.event = []) :
    Returns (queue.resolve host state mailbox data) ↔
      queue.listening data.event = [] ∨ Returns (messageResponse host state data) := by
  have hnobody : (queue.callbacks.lookup data.event).getD [] = [] := hwaiting
  rw [resolve, hnobody, runCallbacks, ok_bind, returns_bind_iff fun _ _ => returns_ok _]
  cases hnote : messageResponse host state data with
  | ok note =>
      exact iff_of_true ⟨_, runSubscribers_eq_ok hnote⟩ (Or.inr (returns_ok note))
  | error fault =>
      by_cases hnil : queue.listening data.event = []
      · have hnobody : (queue.subscribers.lookup data.event).getD [] = [] := hnil
        rw [hnobody]
        exact iff_of_true (returns_ok _) (Or.inl hnil)
      · refine iff_of_false ?_ fun h => h.elim hnil (not_returns_error fault)
        rw [show runSubscribers host state data ((queue.subscribers.lookup data.event).getD [])
          mailbox = .error fault from runSubscribers_eq_error hnote hnil]
        exact not_returns_error fault

end TcpEventQueue

end Mum
