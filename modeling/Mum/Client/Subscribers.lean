import Mum.Client.Requests
import Mum.Client.Unwraps

/-!
# Blocking reads of text messages

A `PastMessages` that blocks registers a subscriber while we are connected, and
the subscriber outlives the connection: it is called for every text message that
is read, in any state of the daemon.  It looks up the name of the author, which
there is only while we are connected.

`messageResponse_returns_iff` says what one call needs, which is the same for every
subscriber, as the name is looked up in the same state.  So either the message panics, or all
are told (`exists_next_textMessage_iff`), each of them once, since a request is in the queue
once (`QueueSound.notified`).
-/

namespace Mum

open Library Library.Eval Msgs
open Mumlib (Response)

theorem getUserName_isSome_iff {state : State} {user : UInt32} :
    (state.getUserName user).isSome ↔ state.server.kind = .connected := by
  unfold State.getUserName
  cases state.server <;> simp [Server.kind]

theorem messageResponse_of_name {host : Host} {state : State} {msg : TextMessage} {user : String}
    (huser : state.getUserName msg.getActor = some user) :
    messageResponse host state (.textMessage msg) =
      .ok (.ok (some (.pastMessage host.now msg.getMessage user))) := by
  rw [messageResponse, huser, unwrap_some, ok_bind]

theorem messageResponse_returns_iff {host : Host} {state : State} {msg : TextMessage} :
    Returns (messageResponse host state (.textMessage msg)) ↔
      state.server.kind = .connected := by
  rw [← getUserName_isSome_iff, messageResponse, returns_bind_iff fun _ _ => returns_ok _]
  cases state.getUserName msg.getActor with
  | none => exact iff_of_false (not_returns_error _) fun h => nomatch h
  | some user => exact iff_of_true (returns_ok user) rfl

/-- The text message that comes. -/
def Label.textMessage? : Label → Option TextMessage
  | .tcp (.packet (.textMessage msg)) => some msg
  | _ => none

theorem mem_textMessage? {label : Label} {msg : TextMessage} :
    msg ∈ label.textMessage? ↔ label = .tcp (.packet (.textMessage msg)) := by
  constructor
  · intro hmsg
    unfold Label.textMessage? at hmsg
    split at hmsg
    · cases hmsg
      rfl
    · cases hmsg
  · rintro rfl
    rfl

namespace System

/-- A text message that is read makes every subscriber send it once, with the name
of its author; a subscriber that cannot send is dropped. -/
def NotifiesAll (sys : System) (label : Host × Label) : Prop :=
  ∀ msg ∈ label.2.textMessage?, sys.running → sys.tcp.listen?.isSome →
    ∃ sys', sys.next label = some sys' ∧
      ∀ request ∈ sys.eventQueue.listening .textMessage,
        (∃ user, sys.state.getUserName msg.getActor = some user ∧
          sys'.mailbox.responsesTo request = sys.mailbox.responsesTo request ++
            if sys.mailbox.isOpen request then
              [.ok (some (.pastMessage label.1.now msg.getMessage user))] else []) ∧
        (request ∈ sys'.eventQueue.listening .textMessage ↔ sys.mailbox.isOpen request)

/-- We are connected whenever a text message is read that somebody waits for. -/
def ReadsConnected (sys : System) (label : Host × Label) : Prop :=
  ∀ msg ∈ label.2.textMessage?, sys.running → sys.tcp.listen?.isSome →
    sys.eventQueue.listening .textMessage ≠ [] → sys.state.server.kind = .connected

end System

/-- The state after a text message. -/
def State.textMessage (host : Host) (state : State) (msg : TextMessage) : State :=
  State.registerMessage host ((textMessageNews state msg).elim state (state.pushEvent host))
    msg.getMessage msg.getActor

@[simp] theorem State.server_textMessage (host : Host) (state : State) (msg : TextMessage) :
    (state.textMessage host msg).server = state.server := by
  unfold State.textMessage State.registerMessage
  cases textMessageNews state msg <;> rfl

theorem State.getUserName_textMessage (host : Host) (state : State) (msg : TextMessage)
    (user : UInt32) : (state.textMessage host msg).getUserName user = state.getUserName user := by
  unfold State.getUserName
  rw [State.server_textMessage]

namespace System

variable {host : Host} {sys sys' : System} {msg : TextMessage}

/-- A text message can be handled when its event can be resolved. -/
theorem exists_next_textMessage_iff {session : TcpSession} (hrunning : sys.running)
    (htcp : sys.tcp = .session session) :
    (∃ sys', sys.next (host, .tcp (.packet (.textMessage msg))) = some sys') ↔
      Returns (sys.eventQueue.resolve host (sys.state.textMessage host msg) sys.mailbox
        (.textMessage msg)) := by
  have hstep : sys.step host (.tcp (.packet (.textMessage msg))) =
      some (resolve host { sys with
        state := sys.state.textMessage host msg
        tcp := .session session
        cryptStates := sys.cryptStates ++ [] } (.textMessage msg)) := by
    rw [step, if_pos hrunning, tcpStep, inSession, htcp]
    simp only [listen, handlePacket, Option.isSome_none, Bool.false_eq_true, false_and, if_false]
    rfl
  rw [next, hstep, resolve]
  cases sys.eventQueue.resolve host (sys.state.textMessage host msg) sys.mailbox
    (.textMessage msg) with
  | ok resolved => exact iff_of_true ⟨_, rfl⟩ (returns_ok resolved)
  | error fault =>
      refine iff_of_false ?_ (not_returns_error fault)
      rintro ⟨sys', h⟩
      cases h

theorem state_textMessage (h : Step sys (host, .tcp (.packet (.textMessage msg))) sys') :
    sys'.state = sys.state.textMessage host msg := by
  cases step_cases h with
  | tcp hcase =>
      cases hcase with
      | packet htcp hhandled =>
          cases hhandled
          rfl

/-- No callbacks wait for text messages. -/
theorem QueueSound.waiting_textMessage (h : sys.QueueSound) :
    sys.eventQueue.waiting .textMessage = [] := by
  refine List.eq_nil_iff_forall_not_mem.mpr fun request hrequest => ?_
  rcases h.waiting_event _ request hrequest with hconnected | hinvalidTls
  · cases hconnected
  · cases hinvalidTls

theorem mem_listen?_isSome {tcp : TcpTask} (h : tcp.listen?.isSome) :
    ∃ session, tcp = .session session := by
  cases tcp with
  | session session => exact ⟨session, rfl⟩
  | waiting => cases h
  | connecting info => cases h
  | authenticating msg => cases h

/-- What the subscribers do with a text message that was handled. -/
theorem QueueSound.notified (h : sys.QueueSound)
    (hstep : Step sys (host, .tcp (.packet (.textMessage msg))) sys') {request : Request}
    (hrequest : request ∈ sys.eventQueue.listening .textMessage) :
    (∃ user, sys.state.getUserName msg.getActor = some user ∧
      sys'.mailbox.responsesTo request = sys.mailbox.responsesTo request ++
        if sys.mailbox.isOpen request then
          [.ok (some (.pastMessage host.now msg.getMessage user))] else []) ∧
    (request ∈ sys'.eventQueue.listening .textMessage ↔ sys.mailbox.isOpen request) := by
  cases step_requestCase hstep with
  | quiet hresolves => cases hresolves
  | resolved hresolves hresolve =>
      cases hresolves
      obtain ⟨response, note, hresolved⟩ :=
        TcpEventQueue.resolve_eq_ok (h.waiting_nodup _) hresolve
      have hne := List.ne_nil_of_mem hrequest
      have hnote := hresolved.note_eq hne
      have hnobody : sys.eventQueue.unanswered .textMessage = [] := by
        rw [TcpEventQueue.unanswered, h.waiting_textMessage]
        rfl
      constructor
      · have hreturns : Returns (messageResponse host sys'.state (.textMessage msg)) :=
          ⟨note, hnote⟩
        have hconnected := messageResponse_returns_iff.mp hreturns
        obtain ⟨user, huser⟩ := Option.isSome_iff_exists.mp (getUserName_isSome_iff.mpr hconnected)
        rw [messageResponse_of_name huser] at hnote
        rw [state_textMessage hstep, State.getUserName_textMessage] at huser
        refine ⟨user, huser, ?_⟩
        have hmailbox := hresolved.mailbox_eq
        simp only [TcpEventData.event, hnobody, Mailbox.sendAll_nil] at hmailbox
        rw [hmailbox, Mailbox.responsesTo_sendAll ((h.listening_nodup _).filter _),
          Except.ok.inj hnote]
        simp only [List.mem_filter, hrequest, true_and]
      · rw [hresolved.listening]
        simp [TcpEventData.event, hrequest]

/-- A text message is handled well when we are connected or nobody waits for it. -/
theorem QueueSound.notifies_iff (h : sys.QueueSound) (label : Host × Label) :
    sys.NotifiesAll label ↔ sys.ReadsConnected label := by
  refine forall₂_congr fun msg hmsg => forall₂_congr fun hrunning hlisten => ?_
  obtain ⟨session, htcp⟩ := mem_listen?_isSome hlisten
  obtain ⟨host, label⟩ := label
  obtain rfl := mem_textMessage?.mp hmsg
  have hresolve : Returns (sys.eventQueue.resolve host (sys.state.textMessage host msg)
      sys.mailbox (.textMessage msg)) ↔ _ :=
    TcpEventQueue.resolve_returns_iff h.waiting_textMessage
  rw [messageResponse_returns_iff, State.server_textMessage] at hresolve
  constructor
  · rintro ⟨sys', hnext, -⟩ hne
    rcases hresolve.mp ((exists_next_textMessage_iff hrunning htcp).mp ⟨sys', hnext⟩) with
      hnil | hconnected
    · exact absurd hnil hne
    · exact hconnected
  · intro hconnected
    have hreturns := hresolve.mpr ((em _).imp_right hconnected)
    obtain ⟨sys', hnext⟩ := (exists_next_textMessage_iff hrunning htcp).mpr hreturns
    exact ⟨sys', hnext, fun request hrequest => h.notified hnext hrequest⟩

/-- **When blocking reads work.**  Every text message makes every subscriber send
it once, and none panics, if and only if we are connected whenever a text message
comes while there is a subscriber. -/
theorem notifiesAll_iff (state : State) (labels : List (Host × Label)) :
    AllAttempts next NotifiesAll (start state) labels ↔
      AllAttempts next ReadsConnected (start state) labels := by
  refine allAttempts_iff QueueSound (.of_start state) ?_ ?_
  · exact fun sys label h => h.notifies_iff label
  · exact fun sys label sys' h hnext => h.step hnext

/-- A blocking read that has outlived its connection when a last message is read. -/
theorem not_notifiesAll_disconnected :
    State.new .offline = .ok (some .idle) ∧
      ¬ AllAttempts next NotifiesAll (start .idle)
        ((login "localhost" ++ [Label.command (.pastMessages true), .command .serverDisconnect,
          .tcp (.packet (.textMessage { actor := some 2, message := some "bye" }))]).map
            (.online, ·)) := by
  refine ⟨rfl, fun h => ?_⟩
  have hhandled := h.mono (B := fun sys label =>
    ∀ msg ∈ label.2.textMessage?, sys.running → sys.tcp.listen?.isSome → (sys.next label).isSome)
    fun sys label hsys msg hmsg hrunning hlisten => by
      obtain ⟨sys', hnext, -⟩ := hsys msg hmsg hrunning hlisten
      rw [hnext]
      rfl
  exact absurd hhandled (by decide)

end System

end Mum
