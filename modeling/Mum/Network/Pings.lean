import Mum.Library.Eval
import Mum.Library.HashMap
import Mum.Library.Log
import Mum.Library.Transition
import Mum.Network

/-!
# Pings to servers that we are not connected to

`handle_pings` of `mum/src/network/udp.rs`, with the ids that `handle` of
`mum/src/command.rs` hands out.  Three kinds of tasks share the map of pending
pings: the sender takes requests off their channel, sends the ping and registers
the request, in this order and with an await point between the two; the receiver
looks up the id of every pong; and a task for each registered request waits for
its one-shot channel and calls the request's callback, which answers the
controller.

A request is named by how many requests came before it.  The log says what
happened, and no task reads it.

Two invariants carry the proof.  `Ordered` is about the way of a request up to the map: ids
are handed out in order, so that the id of a request is its number modulo `2 ^ 64`, and
requests arrive in the order in which they were made.  `Tracked` is about the way of a pong
back: an entry of the map is for a request that has got no pong, the channel of a request
holds a pong with its id that came after the registration, and as long as the task is there
its callback was not called.  Each has a lemma for each of the steps that concern it, and
`Tracked.sound` reads off the two what callbacks were called with.
-/

namespace Mum

open Library Library.Eval Library.Log

/-- The answer of a server to a ping. -/
structure PongPacket where
  version : UInt32
  id : UInt64
  users : UInt32
  maxUsers : UInt32
  bandwidth : UInt32
deriving DecidableEq, Repr

/-- A request to ping a server; `handle` names its callback. -/
structure PingRequest where
  id : UInt64
  socketAddr : SocketAddr
  handle : ℕ
deriving DecidableEq, Repr

/-- How the wait for a pong ends. -/
inductive PingResult
  /-- With a pong, which stands at a position of the log. -/
  | pong (position : ℕ) (packet : PongPacket)
  /-- The other end of the channel is gone. -/
  | dropped
  /-- `timeout` answers `Elapsed`. -/
  | timedOut
deriving DecidableEq, Repr

/-- What the callback is called with. -/
def PingResult.toOption : PingResult → Option PongPacket
  | .pong _ packet => some packet
  | .dropped => none
  | .timedOut => none

inductive PingEvent
  | registered (handle : ℕ)
  | received (packet : PongPacket)
  | called (handle : ℕ) (result : PingResult)
deriving DecidableEq, Repr

structure Pings where
  /-- `ping_count` of the command task. -/
  pingCount : UInt64
  /-- How many requests there were. -/
  handles : ℕ
  requests : List PingRequest
  /-- The request whose ping is sent and which is not registered yet. -/
  sent : Option PingRequest
  /-- Whether the receiver's loop goes on. -/
  receiving : Bool
  /-- The sending ends of the one-shot channels. -/
  pending : HashMap UInt64 ℕ
  /-- The tasks that wait, with what is in their channel. -/
  tasks : HashMap ℕ (Option (ℕ × PongPacket))
  log : List PingEvent

namespace Pings

inductive Label
  | request (socketAddr : SocketAddr)
  /-- The sender takes a request and sends the ping. -/
  | send (sent : Bool)
  | register
  /-- The receiver reads a datagram of 24 bytes. -/
  | receive (packet : PongPacket)
  | receiveOther
  | receiveError
  /-- A waiting task is polled; its second may be over. -/
  | poll (handle : ℕ) (elapsed : Bool)
deriving DecidableEq, Repr

def start : Pings := ⟨0, 0, [], none, true, ∅, ∅, []⟩

/-- The sending end of the channel is still in the map. -/
def awaits (x : Pings) (handle : ℕ) : Bool := x.pending.iter.any fun entry => entry.2 = handle

/-- Calls the callback, which ends the task. -/
def call (x : Pings) (handle : ℕ) (result : PingResult) : Pings :=
  { x with
    tasks := x.tasks.erase handle
    log := x.log ++ [.called handle result] }

/-- A task goes on; `none` when it has nothing to do. -/
def step (x : Pings) : Label → Option (Eval Pings)
  | .request socketAddr => some (.ok { x with
      pingCount := x.pingCount + 1
      handles := x.handles + 1
      requests := x.requests ++ [⟨x.pingCount, socketAddr, x.handles⟩] })
  | .send sent =>
      match x.sent, x.requests with
      | none, request :: requests =>
          if sent then some (.ok { x with requests := requests, sent := some request })
          else some (.error .panic)
      | _, _ => none
  | .register =>
      match x.sent with
      | none => none
      | some request =>
          match x.pending.lookup request.id with
          | some _ =>
              -- a duplicate is dropped together with its callback
              some (.ok { x with sent := none })
          | none => some (.ok { x with
              sent := none
              pending := x.pending.insert request.id request.handle
              tasks := x.tasks.insert request.handle none
              log := x.log ++ [.registered request.handle] })
  | .receive packet =>
      if x.receiving then
        let log := x.log ++ [.received packet]
        match x.pending.lookup packet.id with
        | none => some (.ok { x with log := log })
        | some handle => some (.ok { x with
            pending := x.pending.erase packet.id
            -- nothing happens if the task is gone
            tasks := x.tasks.replace handle (some (x.log.length, packet))
            log := log })
      else none
  | .receiveOther => if x.receiving then some (.ok x) else none
  | .receiveError => if x.receiving then some (.ok { x with receiving := false }) else none
  | .poll handle elapsed =>
      match x.tasks.lookup handle with
      | none => none
      | some (some (position, packet)) => some (.ok (x.call handle (.pong position packet)))
      | some none =>
          -- the channel is looked at before the clock
          if !x.awaits handle then some (.ok (x.call handle .dropped))
          else if elapsed then some (.ok (x.call handle .timedOut))
          else none

def next (x : Pings) (label : Label) : Option Pings :=
  match x.step label with
  | some (.ok x') => some x'
  | _ => none

/-- A step that does not panic. -/
def Step (x : Pings) (label : Label) (x' : Pings) : Prop := x.next label = some x'

theorem next_eq_some {x x' : Pings} {label : Label} :
    x.next label = some x' ↔ x.step label = some (.ok x') := by
  unfold next
  constructor
  · intro h
    split at h
    next hstep =>
      cases h
      exact hstep
    · cases h
  · intro h
    rw [h]

/-- The id that a request gets; the counter wraps around. -/
def requestId (handle : ℕ) : UInt64 := UInt64.ofNat handle

/-- What a step does. -/
inductive StepCase (x : Pings) : Label → Pings → Prop
  | request (socketAddr : SocketAddr) :
      StepCase x (.request socketAddr) { x with
        pingCount := x.pingCount + 1
        handles := x.handles + 1
        requests := x.requests ++ [⟨x.pingCount, socketAddr, x.handles⟩] }
  | send {request : PingRequest} {requests : List PingRequest} (hsent : x.sent = none)
      (hrequests : x.requests = request :: requests) :
      StepCase x (.send true) { x with requests := requests, sent := some request }
  | duplicate {request : PingRequest} (hsent : x.sent = some request) :
      StepCase x .register { x with sent := none }
  | register {request : PingRequest} (hsent : x.sent = some request)
      (hvacant : x.pending.lookup request.id = none) :
      StepCase x .register { x with
        sent := none
        pending := x.pending.insert request.id request.handle
        tasks := x.tasks.insert request.handle none
        log := x.log ++ [.registered request.handle] }
  | unknown {packet : PongPacket} (hvacant : x.pending.lookup packet.id = none) :
      StepCase x (.receive packet) { x with log := x.log ++ [.received packet] }
  | receive {packet : PongPacket} {handle : ℕ}
      (hoccupied : x.pending.lookup packet.id = some handle) :
      StepCase x (.receive packet) { x with
        pending := x.pending.erase packet.id
        tasks := x.tasks.replace handle (some (x.log.length, packet))
        log := x.log ++ [.received packet] }
  | receiveOther : StepCase x .receiveOther x
  | receiveError : StepCase x .receiveError { x with receiving := false }
  | pong {handle position : ℕ} {packet : PongPacket} {elapsed : Bool}
      (htask : x.tasks.lookup handle = some (some (position, packet))) :
      StepCase x (.poll handle elapsed) (x.call handle (.pong position packet))
  | noPong {handle : ℕ} {elapsed : Bool} {result : PingResult}
      (htask : x.tasks.lookup handle = some none) (hresult : result.toOption = none) :
      StepCase x (.poll handle elapsed) (x.call handle result)

theorem step_cases {x x' : Pings} {label : Label} (h : Step x label x') : StepCase x label x' := by
  have hstep := next_eq_some.mp h
  clear h
  cases label with
  | request socketAddr =>
      cases hstep
      exact .request socketAddr
  | send sent =>
      rw [step] at hstep
      split at hstep
      next hsent hrequests =>
        cases sent with
        | false => cases hstep
        | true =>
            cases hstep
            exact .send hsent hrequests
      · cases hstep
  | register =>
      rw [step] at hstep
      split at hstep
      · cases hstep
      next request hsent =>
        split at hstep
        · cases hstep
          exact .duplicate hsent
        next hvacant =>
          cases hstep
          exact .register hsent hvacant
  | receive packet =>
      rw [step] at hstep
      split at hstep
      · dsimp only at hstep
        split at hstep
        next hvacant =>
          cases hstep
          exact .unknown hvacant
        next hoccupied =>
          cases hstep
          exact .receive hoccupied
      · cases hstep
  | receiveOther =>
      rw [step] at hstep
      split at hstep
      · cases hstep
        exact .receiveOther
      · cases hstep
  | receiveError =>
      rw [step] at hstep
      split at hstep
      · cases hstep
        exact .receiveError
      · cases hstep
  | poll handle elapsed =>
      rw [step] at hstep
      split at hstep
      · cases hstep
      next htask =>
        cases hstep
        exact .pong htask
      next htask =>
        split at hstep
        · cases hstep
          exact .noPong htask rfl
        · split at hstep
          · cases hstep
            exact .noPong htask rfl
          · cases hstep

/-! ## The requests on their way to the map -/

/-- The requests that are not registered yet. -/
def waiting (x : Pings) : List PingRequest := x.sent.toList ++ x.requests

theorem waiting_of_sent {x : Pings} {request : PingRequest} (hsent : x.sent = some request) :
    x.waiting = request :: x.requests := by
  rw [waiting, hsent]
  rfl

/-- The requests are registered in the order in which they were made. -/
structure Ordered (x : Pings) : Prop where
  count : x.pingCount = requestId x.handles
  ids : ∀ request ∈ x.waiting, request.id = requestId request.handle ∧ request.handle < x.handles
  increasing : (x.waiting.map PingRequest.handle).Pairwise (· < ·)
  registered : ∀ i handle, At x.log i (.registered handle) →
    handle < x.handles ∧ ∀ request ∈ x.waiting, handle < request.handle

theorem ordered_start : Ordered start where
  count := rfl
  ids := fun _ h => absurd h List.not_mem_nil
  increasing := .nil
  registered := fun _ _ h => absurd h at_nil

theorem requestId_succ (n : ℕ) : requestId (n + 1) = requestId n + 1 := by
  unfold requestId
  rw [UInt64.ofNat_add]
  rfl

namespace Ordered

variable {x : Pings}

theorem request (h : Ordered x) (socketAddr : SocketAddr) : Ordered { x with
    pingCount := x.pingCount + 1
    handles := x.handles + 1
    requests := x.requests ++ [⟨x.pingCount, socketAddr, x.handles⟩] } where
  count := by rw [requestId_succ, h.count]
  ids := by
    intro request hrequest
    rw [waiting, ← List.append_assoc] at hrequest
    rcases List.mem_append.mp hrequest with hold | hnew
    · obtain ⟨hid, hlt⟩ := h.ids request hold
      exact ⟨hid, Nat.lt_succ_of_lt hlt⟩
    · rw [List.mem_singleton.mp hnew]
      exact ⟨h.count, Nat.lt_succ_self _⟩
  increasing := by
    rw [waiting, ← List.append_assoc, List.map_append, List.pairwise_append]
    refine ⟨h.increasing, List.pairwise_singleton _ _, ?_⟩
    intro handle hhandle handle' hhandle'
    obtain ⟨request, hrequest, rfl⟩ := List.mem_map.mp hhandle
    rw [List.mem_singleton.mp hhandle']
    exact (h.ids request hrequest).2
  registered := by
    intro i handle hat
    obtain ⟨hlt, hwaiting⟩ := h.registered i handle hat
    refine ⟨Nat.lt_succ_of_lt hlt, fun request hrequest => ?_⟩
    rw [waiting, ← List.append_assoc] at hrequest
    rcases List.mem_append.mp hrequest with hold | hnew
    · exact hwaiting request hold
    · rw [List.mem_singleton.mp hnew]
      exact hlt

/-- Only what is waiting and what is registered matters. -/
theorem of_waiting {x' : Pings} (h : Ordered x) (hcount : x'.pingCount = x.pingCount)
    (hhandles : x'.handles = x.handles) (hwaiting : x'.waiting.Sublist x.waiting)
    (hlog : ∀ i handle, At x'.log i (.registered handle) → At x.log i (.registered handle)) :
    Ordered x' where
  count := by rw [hcount, hhandles, h.count]
  ids := by
    intro request hrequest
    rw [hhandles]
    exact h.ids request (hwaiting.subset hrequest)
  increasing := h.increasing.sublist (hwaiting.map _)
  registered := by
    intro i handle hat
    obtain ⟨hlt, hlater⟩ := h.registered i handle (hlog i handle hat)
    rw [hhandles]
    exact ⟨hlt, fun request hrequest => hlater request (hwaiting.subset hrequest)⟩

/-- A log entry about something else than a registration. -/
theorem of_log {x' : Pings} (h : Ordered x) (hcount : x'.pingCount = x.pingCount)
    (hhandles : x'.handles = x.handles) (hwaiting : x'.waiting = x.waiting) {event : PingEvent}
    (hlog : x'.log = x.log ++ [event]) (hevent : ∀ handle, event ≠ .registered handle) :
    Ordered x' := by
  refine h.of_waiting hcount hhandles (hwaiting ▸ .refl _) fun i handle hat => ?_
  rw [hlog] at hat
  exact hat.of_concat fun h => hevent handle h.symm

theorem sent (h : Ordered x) {request : PingRequest} (hsent : x.sent = some request) :
    request.id = requestId request.handle ∧
      ∀ i, ¬ At x.log i (.registered request.handle) := by
  have hmem : request ∈ x.waiting := by
    rw [waiting_of_sent hsent]
    exact List.mem_cons_self
  exact ⟨(h.ids request hmem).1, fun i hat =>
    absurd ((h.registered i _ hat).2 request hmem) (Nat.lt_irrefl _)⟩

theorem register (h : Ordered x) {request : PingRequest} (hsent : x.sent = some request)
    {x' : Pings} (hcount : x'.pingCount = x.pingCount) (hhandles : x'.handles = x.handles)
    (hwaiting : x'.waiting = x.requests)
    (hlog : x'.log = x.log ++ [.registered request.handle]) : Ordered x' := by
  have hold := waiting_of_sent hsent
  have hids := h.ids
  have hincreasing := h.increasing
  rw [hold] at hids hincreasing
  rw [List.map_cons, List.pairwise_cons] at hincreasing
  refine ⟨by rw [hcount, hhandles, h.count], ?_, ?_, ?_⟩
  · intro other hother
    rw [hwaiting] at hother
    rw [hhandles]
    exact hids other (List.mem_cons_of_mem _ hother)
  · rw [hwaiting]
    exact hincreasing.2
  · intro i handle hat
    rw [hlog, at_concat] at hat
    rw [hhandles, hwaiting]
    rcases hat with hat | ⟨-, hlast⟩
    · obtain ⟨hlt, hlater⟩ := h.registered i handle hat
      rw [hold] at hlater
      exact ⟨hlt, fun other hother => hlater other (List.mem_cons_of_mem _ hother)⟩
    · cases hlast
      exact ⟨(hids request List.mem_cons_self).2, fun other hother =>
        hincreasing.1 _ (List.mem_map_of_mem hother)⟩

end Ordered

theorem ordered_step {x x' : Pings} {label : Label} (h : Ordered x) (hstep : Step x label x') :
    Ordered x' := by
  cases step_cases hstep with
  | request socketAddr => exact h.request socketAddr
  | send hsent hrequests =>
      refine h.of_waiting rfl rfl ?_ fun i handle hat => hat
      rw [waiting, waiting, hsent, hrequests]
      exact .refl _
  | duplicate hsent =>
      refine h.of_waiting rfl rfl ?_ fun i handle hat => hat
      rw [waiting_of_sent hsent]
      exact List.sublist_cons_self _ _
  | register hsent hvacant => exact h.register hsent rfl rfl rfl rfl
  | unknown hvacant => exact h.of_log rfl rfl rfl rfl fun handle hevent => by cases hevent
  | receive hoccupied => exact h.of_log rfl rfl rfl rfl fun handle hevent => by cases hevent
  | receiveOther => exact h
  | receiveError => exact h.of_waiting rfl rfl (.refl _) fun i handle hat => hat
  | pong htask => exact h.of_log rfl rfl rfl rfl fun handle hevent => by cases hevent
  | noPong htask hresult => exact h.of_log rfl rfl rfl rfl fun handle hevent => by cases hevent

/-! ## The pongs on their way to the callbacks -/

/-- The pong at a position of the log carries the id of a request and came after
its registration. -/
structure Answers (log : List PingEvent) (handle position : ℕ) (packet : PongPacket) : Prop where
  id : packet.id = requestId handle
  received : At log position (.received packet)
  registered : ∃ i < position, At log i (.registered handle)

theorem Answers.concat {log : List PingEvent} {handle position : ℕ} {packet : PongPacket}
    (h : Answers log handle position packet) (event : PingEvent) :
    Answers (log ++ [event]) handle position packet where
  id := h.id
  received := h.received.concat event
  registered := by
    obtain ⟨i, hlt, hat⟩ := h.registered
    exact ⟨i, hlt, hat.concat event⟩

/-- The pong at the position was given to the request: it is in its channel, or
its callback was called with it. -/
def GivenTo (tasks : HashMap ℕ (Option (ℕ × PongPacket))) (log : List PingEvent)
    (position handle : ℕ) : Prop :=
  (∃ packet, tasks.lookup handle = some (some (position, packet))) ∨
    ∃ j packet, At log j (.called handle (.pong position packet))

/-- What the map of pending pings, the waiting tasks and the log have to do with
each other. -/
structure Tracked (pending : HashMap UInt64 ℕ) (tasks : HashMap ℕ (Option (ℕ × PongPacket)))
    (log : List PingEvent) : Prop where
  entry : ∀ id handle, pending.lookup id = some handle →
    id = requestId handle ∧ (∃ i, At log i (.registered handle)) ∧
      ∀ slot, tasks.lookup handle = some slot → slot = none
  task : ∀ handle slot, tasks.lookup handle = some slot →
    (∃ i, At log i (.registered handle)) ∧ ∀ j result, ¬ At log j (.called handle result)
  slots : ∀ handle position packet, tasks.lookup handle = some (some (position, packet)) →
    Answers log handle position packet
  called : ∀ j handle result, At log j (.called handle result) →
    ∃ i, At log i (.registered handle)
  once : ∀ j j' handle result result', At log j (.called handle result) →
    At log j' (.called handle result') → j = j'
  pongs : ∀ j handle position packet, At log j (.called handle (.pong position packet)) →
    Answers log handle position packet ∧ position < j
  owner : ∀ position handle handle', GivenTo tasks log position handle →
    GivenTo tasks log position handle' → handle = handle'

theorem tracked_start : Tracked ∅ ∅ [] where
  entry := fun _ _ h => by simp at h
  task := fun _ _ h => by simp at h
  slots := fun _ _ _ h => by simp at h
  called := fun _ _ _ h => absurd h at_nil
  once := fun _ _ _ _ _ h => absurd h at_nil
  pongs := fun _ _ _ _ h => absurd h at_nil
  owner := by
    rintro position handle handle' (⟨packet, h⟩ | ⟨j, packet, h⟩)
    · simp at h
    · exact absurd h at_nil

namespace Tracked

variable {pending : HashMap UInt64 ℕ} {tasks : HashMap ℕ (Option (ℕ × PongPacket))}
  {log : List PingEvent}

theorem position_lt (h : Tracked pending tasks log) {position handle : ℕ}
    (hgiven : GivenTo tasks log position handle) : position < log.length := by
  rcases hgiven with ⟨packet, htask⟩ | ⟨j, packet, hat⟩
  · exact (h.slots _ _ _ htask).received.lt_length
  · exact (h.pongs _ _ _ _ hat).1.received.lt_length

/-- A log entry about something else than a callback. -/
theorem concat (h : Tracked pending tasks log) {event : PingEvent}
    (hevent : ∀ handle result, event ≠ .called handle result) :
    Tracked pending tasks (log ++ [event]) := by
  have hold : ∀ {j handle result}, At (log ++ [event]) j (.called handle result) →
      At log j (.called handle result) :=
    fun hat => hat.of_concat fun h => hevent _ _ h.symm
  have hgiven : ∀ {position handle}, GivenTo tasks (log ++ [event]) position handle →
      GivenTo tasks log position handle := by
    rintro position handle (htask | ⟨j, packet, hat⟩)
    · exact .inl htask
    · exact .inr ⟨j, packet, hold hat⟩
  refine ⟨fun id handle hpending => ?_, fun handle slot htask => ?_,
    fun handle position packet htask => (h.slots _ _ _ htask).concat event,
    fun j handle result hat => ?_, fun j j' handle result result' hat hat' => ?_,
    fun j handle position packet hat => ?_,
    fun position _ _ hone hother => h.owner position _ _ (hgiven hone) (hgiven hother)⟩
  · obtain ⟨hid, ⟨i, hi⟩, hslots⟩ := h.entry id handle hpending
    exact ⟨hid, ⟨i, hi.concat event⟩, hslots⟩
  · obtain ⟨⟨i, hi⟩, hnot⟩ := h.task handle slot htask
    exact ⟨⟨i, hi.concat event⟩, fun j result hat => hnot j result (hold hat)⟩
  · obtain ⟨i, hi⟩ := h.called j handle result (hold hat)
    exact ⟨i, hi.concat event⟩
  · exact h.once j j' handle result result' (hold hat) (hold hat')
  · obtain ⟨hanswers, hlt⟩ := h.pongs j handle position packet (hold hat)
    exact ⟨hanswers.concat event, hlt⟩

theorem register (h : Tracked pending tasks log) {handle : ℕ}
    (hfresh : ∀ i, ¬ At log i (.registered handle)) :
    Tracked (pending.insert (requestId handle) handle) (tasks.insert handle none)
      (log ++ [.registered handle]) := by
  have hevent : ∀ handle' result, PingEvent.registered handle ≠ .called handle' result := by
    intro handle' result heq
    cases heq
  have hold := h.concat hevent
  have hslot : ∀ handle' entry, (tasks.insert handle none).lookup handle' = some (some entry) →
      tasks.lookup handle' = some (some entry) := by
    intro handle' entry htask
    by_cases hhandle : handle' = handle
    · rw [hhandle, AList.lookup_insert] at htask
      cases htask
    · rwa [AList.lookup_insert_ne hhandle] at htask
  have hgiven : ∀ {position handle'},
      GivenTo (tasks.insert handle none) (log ++ [.registered handle]) position handle' →
        GivenTo tasks (log ++ [.registered handle]) position handle' := by
    rintro position handle' (⟨packet, htask⟩ | hcalled)
    · exact .inl ⟨packet, hslot _ _ htask⟩
    · exact .inr hcalled
  refine ⟨fun id handle' hpending => ?_, fun handle' slot htask => ?_,
    fun handle' position packet htask => hold.slots _ _ _ (hslot _ _ htask),
    hold.called, hold.once, hold.pongs,
    fun position _ _ hone hother => hold.owner position _ _ (hgiven hone) (hgiven hother)⟩
  · by_cases hid : id = requestId handle
    · rw [hid, AList.lookup_insert] at hpending
      cases hpending
      refine ⟨hid, ⟨log.length, at_last⟩, fun slot htask => ?_⟩
      rw [AList.lookup_insert] at htask
      exact (Option.some.inj htask).symm
    · rw [AList.lookup_insert_ne hid] at hpending
      obtain ⟨hid', hregistered, hslots⟩ := hold.entry id handle' hpending
      have hne : handle' ≠ handle := by
        rintro rfl
        obtain ⟨-, ⟨i, hi⟩, -⟩ := h.entry id handle' hpending
        exact hfresh i hi
      refine ⟨hid', hregistered, fun slot htask => hslots slot ?_⟩
      rwa [AList.lookup_insert_ne hne] at htask
  · by_cases hhandle : handle' = handle
    · rw [hhandle]
      refine ⟨⟨log.length, at_last⟩, fun j result hat => ?_⟩
      obtain ⟨i, hi⟩ := h.called j handle result (hat.of_concat fun h => hevent _ _ h.symm)
      exact hfresh i hi
    · rw [AList.lookup_insert_ne hhandle] at htask
      exact hold.task handle' slot htask

/-- A pong with an unknown id. -/
theorem unknown (h : Tracked pending tasks log) (packet : PongPacket) :
    Tracked pending tasks (log ++ [.received packet]) :=
  h.concat fun handle result heq => by cases heq

/-- The pong of this position is in the channel of this request, any other was
given before. -/
theorem givenTo_receive {handle handle' position : ℕ} {packet : PongPacket}
    (hgiven : GivenTo (tasks.replace handle (some (log.length, packet)))
      (log ++ [.received packet]) position handle') :
    position = log.length ∧ handle' = handle ∨ GivenTo tasks log position handle' := by
  rcases hgiven with ⟨packet', htask⟩ | ⟨j, packet', hat⟩
  · rcases HashMap.lookup_replace_eq_some.mp htask with ⟨hhandle, -, hslot⟩ | ⟨-, htask'⟩
    · cases hslot
      exact .inl ⟨rfl, hhandle⟩
    · exact .inr (.inl ⟨packet', htask'⟩)
  · exact .inr (.inr ⟨j, packet', hat.of_concat fun h => by cases h⟩)

/-- A pong whose id is pending goes into the channel of the request. -/
theorem receive (h : Tracked pending tasks log) {packet : PongPacket} {handle : ℕ}
    (hoccupied : pending.lookup packet.id = some handle) :
    Tracked (pending.erase packet.id) (tasks.replace handle (some (log.length, packet)))
      (log ++ [.received packet]) := by
  have hold := h.unknown packet
  obtain ⟨hid, ⟨i, hi⟩, -⟩ := h.entry packet.id handle hoccupied
  refine ⟨fun id handle' hpending => ?_, fun handle' slot htask => ?_,
    fun handle' position packet' htask => ?_, hold.called, hold.once, hold.pongs,
    fun position handle₁ handle₂ hone htwo => ?_⟩
  · obtain ⟨hne, hpending'⟩ := HashMap.lookup_erase_eq_some.mp hpending
    obtain ⟨hid', hregistered, hslots⟩ := hold.entry id handle' hpending'
    refine ⟨hid', hregistered, fun slot htask => ?_⟩
    rcases HashMap.lookup_replace_eq_some.mp htask with ⟨rfl, -, -⟩ | ⟨-, htask'⟩
    · exact absurd (hid'.trans hid.symm) hne
    · exact hslots slot htask'
  · rcases HashMap.lookup_replace_eq_some.mp htask with ⟨rfl, hmem, -⟩ | ⟨-, htask'⟩
    · obtain ⟨slot', htask'⟩ := HashMap.mem_iff_lookup.mp hmem
      exact hold.task handle' slot' htask'
    · exact hold.task handle' slot htask'
  · rcases HashMap.lookup_replace_eq_some.mp htask with ⟨rfl, -, hslot⟩ | ⟨-, htask'⟩
    · cases hslot
      exact ⟨hid, at_last, i, hi.lt_length, hi.concat _⟩
    · exact hold.slots handle' position packet' htask'
  · -- the position is new, so that only this request is given the pong
    rcases givenTo_receive hone with ⟨hposition, rfl⟩ | hone
    · rcases givenTo_receive htwo with ⟨-, hhandle⟩ | htwo
      · exact hhandle.symm
      · exact absurd (h.position_lt htwo) (by omega)
    · rcases givenTo_receive htwo with ⟨hposition, -⟩ | htwo
      · exact absurd (h.position_lt hone) (by omega)
      · exact h.owner position _ _ hone htwo

/-- A call hands over no other pong than the one in the channel. -/
theorem givenTo_call {handle : ℕ} {slot : Option (ℕ × PongPacket)} {result : PingResult}
    (htask : tasks.lookup handle = some slot)
    (hresult : ∀ position packet, result = .pong position packet → slot = some (position, packet))
    {position handle' : ℕ}
    (hgiven : GivenTo (tasks.erase handle) (log ++ [.called handle result]) position handle') :
    GivenTo tasks log position handle' := by
  rcases hgiven with ⟨packet, htask'⟩ | ⟨j, packet, hat⟩
  · exact .inl ⟨packet, (HashMap.lookup_erase_eq_some.mp htask').2⟩
  · rcases at_concat.mp hat with hat | ⟨-, hlast⟩
    · exact .inr ⟨j, packet, hat⟩
    · cases hlast
      rw [hresult position packet rfl] at htask
      exact .inl ⟨packet, htask⟩

/-- The task is there, so that its callback was not called before. -/
theorem once_call (h : Tracked pending tasks log) {handle : ℕ} {slot : Option (ℕ × PongPacket)}
    (htask : tasks.lookup handle = some slot) {result result₁ result₂ : PingResult}
    {j j' handle' : ℕ} (hat : At (log ++ [.called handle result]) j (.called handle' result₁))
    (hat' : At (log ++ [.called handle result]) j' (.called handle' result₂)) : j = j' := by
  obtain ⟨-, hnot⟩ := h.task handle slot htask
  rcases at_concat.mp hat with hat | ⟨hj, hlast⟩
  · rcases at_concat.mp hat' with hat' | ⟨-, hlast'⟩
    · exact h.once j j' handle' result₁ result₂ hat hat'
    · cases hlast'
      exact absurd hat (hnot j result₁)
  · rcases at_concat.mp hat' with hat' | ⟨hj', -⟩
    · cases hlast
      exact absurd hat' (hnot j' result₂)
    · rw [hj, hj']

/-- The callback of a task is called, with the pong in its channel if there is one. -/
theorem call (h : Tracked pending tasks log) {handle : ℕ} {slot : Option (ℕ × PongPacket)}
    {result : PingResult} (htask : tasks.lookup handle = some slot)
    (hresult : ∀ position packet, result = .pong position packet →
      slot = some (position, packet)) :
    Tracked pending (tasks.erase handle) (log ++ [.called handle result]) := by
  obtain ⟨⟨i, hi⟩, -⟩ := h.task handle slot htask
  have hother : ∀ {handle' slot'}, (tasks.erase handle).lookup handle' = some slot' →
      handle' ≠ handle ∧ tasks.lookup handle' = some slot' := HashMap.lookup_erase_eq_some.mp
  refine ⟨fun id handle' hpending => ?_, fun handle' slot' htask' => ?_,
    fun handle' position packet htask' => (h.slots _ _ _ (hother htask').2).concat _,
    fun j handle' result' hat => ?_, fun j j' handle' result₁ result₂ => h.once_call htask,
    fun j handle' position packet hat => ?_,
    fun position _ _ hone htwo => h.owner position _ _ (givenTo_call htask hresult hone)
      (givenTo_call htask hresult htwo)⟩
  · obtain ⟨hid, ⟨i', hi'⟩, hslots⟩ := h.entry id handle' hpending
    exact ⟨hid, ⟨i', hi'.concat _⟩, fun slot' htask' => hslots slot' (hother htask').2⟩
  · obtain ⟨hne, htask'⟩ := hother htask'
    obtain ⟨⟨i', hi'⟩, hnot'⟩ := h.task handle' slot' htask'
    refine ⟨⟨i', hi'.concat _⟩, fun j result' hat => hnot' j result' (hat.of_concat ?_)⟩
    intro heq
    cases heq
    exact hne rfl
  · rcases at_concat.mp hat with hat | ⟨-, hlast⟩
    · obtain ⟨i', hi'⟩ := h.called j handle' result' hat
      exact ⟨i', hi'.concat _⟩
    · cases hlast
      exact ⟨i, hi.concat _⟩
  · rcases at_concat.mp hat with hat | ⟨hj, hlast⟩
    · obtain ⟨hanswers, hlt⟩ := h.pongs j handle' position packet hat
      exact ⟨hanswers.concat _, hlt⟩
    · cases hlast
      rw [hresult position packet rfl] at htask
      have hanswers := h.slots handle position packet htask
      exact ⟨hanswers.concat _, hj ▸ hanswers.received.lt_length⟩

end Tracked

theorem tracked_step {x x' : Pings} {label : Label} (hordered : Ordered x)
    (h : Tracked x.pending x.tasks x.log) (hstep : Step x label x') :
    Tracked x'.pending x'.tasks x'.log := by
  cases step_cases hstep with
  | request | send | duplicate | receiveOther | receiveError => exact h
  | register hsent hvacant =>
      obtain ⟨hid, hfresh⟩ := hordered.sent hsent
      dsimp only
      rw [hid]
      exact h.register hfresh
  | unknown hvacant => exact h.unknown _
  | receive hoccupied => exact h.receive hoccupied
  | pong htask =>
      refine h.call htask fun position packet hresult => ?_
      cases hresult
      rfl
  | noPong htask hresult =>
      refine h.call htask fun position packet heq => ?_
      rw [heq] at hresult
      cases hresult

/-! ## Every run -/

/-- What the log of a run says about the callbacks, and what the next pong with an
unknown id does. -/
structure Sound (x : Pings) : Prop where
  /-- The command task gives a request its id. -/
  id : ∀ socketAddr x', Step x (.request socketAddr) x' →
    x'.requests = x.requests ++ [⟨requestId x.handles, socketAddr, x.handles⟩]
  /-- A callback is called at most once. -/
  once : ∀ j j' handle result result', At x.log j (.called handle result) →
    At x.log j' (.called handle result') → j = j'
  /-- With the request's own pong, which came between its registration and its
  timeout. -/
  own : ∀ j handle position packet, At x.log j (.called handle (.pong position packet)) →
    Answers x.log handle position packet ∧ position < j ∧
      ∀ k, ¬ At x.log k (.called handle .timedOut)
  /-- No pong goes to two requests. -/
  owner : ∀ j j' handle handle' position packet packet',
    At x.log j (.called handle (.pong position packet)) →
    At x.log j' (.called handle' (.pong position packet')) → handle = handle'
  /-- A pong changes nothing if its id is not pending, or is that of no registered
  request. -/
  unknown : ∀ packet x', packet.id ∉ x.pending ∨
      (∀ i handle, At x.log i (.registered handle) → requestId handle ≠ packet.id) →
    Step x (.receive packet) x' → x' = { x with log := x.log ++ [.received packet] }

theorem Tracked.sound {x : Pings} (hordered : Ordered x)
    (h : Tracked x.pending x.tasks x.log) : Sound x where
  id := by
    intro socketAddr x' hstep
    rw [← hordered.count]
    cases step_cases hstep
    rfl
  once := h.once
  own := by
    intro j handle position packet hat
    obtain ⟨hanswers, hlt⟩ := h.pongs j handle position packet hat
    refine ⟨hanswers, hlt, fun k htimeout => ?_⟩
    cases h.once j k handle _ _ hat htimeout
    cases hat.unique htimeout
  owner := by
    intro j j' handle handle' position packet packet' hat hat'
    exact h.owner position handle handle' (.inr ⟨j, packet, hat⟩) (.inr ⟨j', packet', hat'⟩)
  unknown := by
    intro packet x' hunknown hstep
    cases step_cases hstep with
    | unknown hvacant => rfl
    | @receive _ handle hoccupied =>
        exfalso
        obtain ⟨hid, ⟨i, hi⟩, -⟩ := h.entry packet.id handle hoccupied
        rcases hunknown with hnot | hnot
        · exact hnot (HashMap.mem_iff_lookup.mpr ⟨handle, hoccupied⟩)
        · exact hnot i handle hi hid.symm

/-- **Pings.**  However requests, registrations, pongs and timeouts follow each
other, a callback is called at most once, with a pong only if it is the request's
own and came in time, no pong goes to two requests, and a pong with an unknown id
changes nothing. -/
theorem sound_of_run {trace : List (Label × Pings)} (hrun : Run Step start trace) :
    Sound (final start trace) := by
  have hinv : ∀ {x : Pings} {trace : List (Label × Pings)}, Ordered x →
      Tracked x.pending x.tasks x.log → Run Step x trace → Sound (final x trace) := by
    intro x trace hordered htracked hrun
    induction hrun with
    | nil => exact htracked.sound hordered
    | cons hstep _ ih =>
        exact ih (ordered_step hordered hstep) (tracked_step hordered htracked hstep)
  exact hinv ordered_start tracked_start hrun

/-- Two requests, of which the second times out; the pong for the first comes
twice, and that for the second too late. -/
theorem sound_of_run_twoRequests :
    ∃ trace, follow next start
        [.request ⟨1, 64738⟩, .request ⟨2, 64738⟩, .send true, .register, .send true, .register,
          .receive ⟨0, 0, 3, 100, 72000⟩, .receive ⟨0, 0, 3, 100, 72000⟩, .poll 1 true,
          .receive ⟨0, 1, 5, 100, 72000⟩, .poll 0 true] = some trace ∧
      (final start trace).log =
        [.registered 0, .registered 1, .received ⟨0, 0, 3, 100, 72000⟩,
          .received ⟨0, 0, 3, 100, 72000⟩, .called 1 .timedOut, .received ⟨0, 1, 5, 100, 72000⟩,
          .called 0 (.pong 2 ⟨0, 0, 3, 100, 72000⟩)] ∧
      Sound (final start trace) :=
  ⟨Option.get _ (by decide), (Option.some_get _).symm, by decide,
    sound_of_run (run_follow (fun _ _ _ h => h) (Option.some_get _).symm)⟩

end Pings

end Mum
