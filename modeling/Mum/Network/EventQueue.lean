import Mathlib.Data.List.Induction
import Mum.Library.Handlers
import Mum.Network.Tcp

/-!
# The event queue

`TcpEventQueue` of `mum/src/network/tcp.rs` for callbacks and subscribers of any
kind: what is called when, over every sequence of operations.  The queue of the
daemon is an instance, by `TcpEventQueue.resolve_eq`.

Handlers are numbered by the operation that registers them.

Operations are kept as a list, so that "registered" and "resolved" are about positions in
it.  The queue is run with a log of the calls.  `Lawful` says what the log must look like, in
terms of the operations alone, and `Inv` adds what the queue itself holds:

* its handlers are those that were registered and kept at every call;
* the calls of a handler are at the times at which its event was resolved after it was
  registered (`timesAfter`), up to the first that did not keep it;
* no callback is kept.

`Inv.quiet` is the step for an operation that calls nobody.  For a resolution,
`resolve_eq_ok` says which calls are made and who is kept; the lemmas up to `Inv.resolved`
each prove one field of `Inv` from that.
-/

namespace Mum

open Library Library.Eval
open Library.Handlers (Call Lived callsOf logged)

inductive HandlerKind
  | callback
  | subscriber
deriving DecidableEq, Repr

/-- The handlers of TCP events: callbacks are closures of type `C`, subscribers
closures of type `S`. -/
structure EventQueue (C S : Type) where
  callbacks : Handlers TcpEvent C
  subscribers : Handlers TcpEvent S

namespace EventQueue

variable {C S W : Type}

def new : EventQueue C S := ⟨∅, ∅⟩

def registerCallback (queue : EventQueue C S) (event : TcpEvent) (callback : C) :
    EventQueue C S :=
  { queue with callbacks := queue.callbacks.register event callback }

def registerSubscriber (queue : EventQueue C S) (event : TcpEvent) (subscriber : S) :
    EventQueue C S :=
  { queue with subscribers := queue.subscribers.register event subscriber }

/-- A callback is gone when it was called. -/
def callOnce (call : C → W → Eval W) (callback : C) (w : W) : Eval (Bool × W) := do
  let w ← call callback w
  .ok (false, w)

/-- Fires all callbacks of an event and removes them; then calls all subscribers,
and removes those that answer `false`. -/
def resolve (call : C → TcpEventData → W → Eval W)
    (notify : S → TcpEventData → W → Eval (Bool × W)) (queue : EventQueue C S)
    (data : TcpEventData) (w : W) : Eval (EventQueue C S × W) := do
  let (callbacks, w) ← queue.callbacks.resolve (callOnce (call · data)) data.event w
  let (subscribers, w) ← queue.subscribers.resolve (notify · data) data.event w
  .ok (⟨callbacks, subscribers⟩, w)

/-- The numbers of the handlers of an event. -/
def ids (queue : EventQueue (ℕ × C) (ℕ × S)) (kind : HandlerKind) (event : TcpEvent) : List ℕ :=
  match kind with
  | .callback => (queue.callbacks.of event).map Prod.fst
  | .subscriber => (queue.subscribers.of event).map Prod.fst

end EventQueue

/-! ## Runs of a queue -/

/-- What is done to a queue, and what else happens in between. -/
inductive QueueOp (C S W : Type)
  | registerCallback (event : TcpEvent) (callback : C)
  | registerSubscriber (event : TcpEvent) (subscriber : S)
  | resolve (data : TcpEventData)
  | outside (f : W → W)

namespace QueueOp

variable {C S W : Type}

/-- The handler that an operation registers. -/
def registers : QueueOp C S W → Option (HandlerKind × TcpEvent)
  | registerCallback event _ => some (.callback, event)
  | registerSubscriber event _ => some (.subscriber, event)
  | _ => none

/-- The event that an operation resolves. -/
def resolves : QueueOp C S W → Option TcpEvent
  | resolve data => some data.event
  | _ => none

/-- Operation `i` registers a handler for the event. -/
def Registered (ops : List (QueueOp C S W)) (i : ℕ) (kind : HandlerKind) (event : TcpEvent) :
    Prop :=
  ops[i]?.bind registers = some (kind, event)

/-- Operation `t` resolves the event. -/
def Resolved (ops : List (QueueOp C S W)) (t : ℕ) (event : TcpEvent) : Prop :=
  ops[t]?.bind resolves = some event

instance (ops : List (QueueOp C S W)) (t : ℕ) (event : TcpEvent) :
    Decidable (Resolved ops t event) :=
  inferInstanceAs (Decidable (_ = _))

/-- The operations after `i` that resolve the event. -/
def timesAfter (ops : List (QueueOp C S W)) (event : TcpEvent) (i : ℕ) : List ℕ :=
  (List.range ops.length).filter fun t => i < t ∧ Resolved ops t event

end QueueOp

/-! ## Facts about sequences of operations -/

namespace QueueOp

variable {C S W : Type} {ops : List (QueueOp C S W)} {op : QueueOp C S W} {i t : ℕ}
  {kind : HandlerKind} {event : TcpEvent}

theorem bind_getElem?_append {α : Type} {f : QueueOp C S W → Option α} {a : α} :
    (ops ++ [op])[i]?.bind f = some a ↔
      ops[i]?.bind f = some a ∨ i = ops.length ∧ f op = some a := by
  rcases Nat.lt_trichotomy i ops.length with hlt | rfl | hgt
  · rw [List.getElem?_append_left hlt]
    have hne : i ≠ ops.length := by omega
    simp [hne]
  · simp
  · have hout : (ops ++ [op])[i]? = none := by
      rw [List.getElem?_eq_none_iff, List.length_append, List.length_singleton]
      omega
    have hout' : ops[i]? = none := by
      rw [List.getElem?_eq_none_iff]
      omega
    have hne : i ≠ ops.length := by omega
    simp [hout, hout', hne]

theorem Registered.lt (h : Registered ops i kind event) : i < ops.length := by
  by_contra hle
  rw [Registered, List.getElem?_eq_none_iff.mpr (by omega)] at h
  cases h

theorem Resolved.lt (h : Resolved ops t event) : t < ops.length := by
  by_contra hle
  rw [Resolved, List.getElem?_eq_none_iff.mpr (by omega)] at h
  cases h

theorem Registered.unique {kind' : HandlerKind} {event' : TcpEvent}
    (h : Registered ops i kind event) (h' : Registered ops i kind' event') :
    kind' = kind ∧ event' = event := by
  rw [Registered, h] at h'
  cases h'
  exact ⟨rfl, rfl⟩

theorem registered_append : Registered (ops ++ [op]) i kind event ↔
    Registered ops i kind event ∨ i = ops.length ∧ op.registers = some (kind, event) :=
  bind_getElem?_append

theorem resolved_append : Resolved (ops ++ [op]) t event ↔
    Resolved ops t event ∨ t = ops.length ∧ op.resolves = some event :=
  bind_getElem?_append

/-- One more operation is one more time, or none. -/
theorem timesAfter_append (hi : i < ops.length) :
    timesAfter (ops ++ [op]) event i =
      timesAfter ops event i ++ if op.resolves = some event then [ops.length] else [] := by
  unfold timesAfter
  rw [List.length_append, List.length_singleton, List.range_succ, List.filter_append]
  congr 1
  · refine List.filter_congr fun t ht => ?_
    have hlt := List.mem_range.mp ht
    have hne : t ≠ ops.length := by omega
    simp [resolved_append, hne]
  · have hout : ¬ Resolved ops ops.length event := fun h => absurd h.lt (by omega)
    by_cases h : op.resolves = some event
    · simp [resolved_append, hi, h]
    · simp [resolved_append, hout, h]

theorem timesAfter_length : timesAfter (ops ++ [op]) event ops.length = [] := by
  refine List.filter_eq_nil_iff.mpr fun t ht => ?_
  rw [List.length_append, List.length_singleton, List.mem_range] at ht
  simp only [decide_eq_true_eq, not_and]
  omega

end QueueOp

/-- A queue of numbered handlers in a run, and the calls so far. -/
structure QueueRun (C S W : Type) where
  time : ℕ
  queue : EventQueue (ℕ × C) (ℕ × S)
  world : W
  log : List Call

namespace QueueRun

variable {C S W : Type}

def start (w : W) : QueueRun C S W := ⟨0, .new, w, []⟩

/-- Calls a numbered callback and logs it. -/
def loggedCallback (time : ℕ) (call : C → TcpEventData → W → Eval W) (callback : ℕ × C)
    (data : TcpEventData) (w : W × List Call) : Eval (W × List Call) := do
  let w' ← call callback.2 data w.1
  .ok (w', w.2 ++ [⟨time, callback.1, false⟩])

/-- The operation with the number `run.time`. -/
def step (call : C → TcpEventData → W → Eval W) (notify : S → TcpEventData → W → Eval (Bool × W))
    (run : QueueRun C S W) : QueueOp C S W → Eval (QueueRun C S W)
  | .registerCallback event callback => .ok { run with
      time := run.time + 1
      queue := run.queue.registerCallback event (run.time, callback) }
  | .registerSubscriber event subscriber => .ok { run with
      time := run.time + 1
      queue := run.queue.registerSubscriber event (run.time, subscriber) }
  | .resolve data => do
      let (queue, world, log) ← run.queue.resolve (loggedCallback run.time call)
        (fun subscriber data => logged run.time (notify · data) subscriber) data
        (run.world, run.log)
      .ok ⟨run.time + 1, queue, world, log⟩
  | .outside f => .ok { run with time := run.time + 1, world := f run.world }

/-- A sequence of operations on a new queue. -/
def exec (call : C → TcpEventData → W → Eval W) (notify : S → TcpEventData → W → Eval (Bool × W))
    (w : W) (ops : List (QueueOp C S W)) : Eval (QueueRun C S W) :=
  ops.foldlM (step call notify) (start w)

/-! ## What an operation does -/

variable {call : C → TcpEventData → W → Eval W} {notify : S → TcpEventData → W → Eval (Bool × W)}

/-- A logged callback is a logged handler that does not want to be kept. -/
theorem callOnce_loggedCallback (time : ℕ) (data : TcpEventData) :
    EventQueue.callOnce (loggedCallback time call · data) =
      logged time (EventQueue.callOnce (call · data)) := by
  funext callback w
  simp only [EventQueue.callOnce, loggedCallback, logged]
  cases call callback.2 data w.1 with
  | error fault => rfl
  | ok w' => rfl

/-- What a `resolve` calls and what it keeps. -/
theorem resolve_eq_ok {queue queue' : EventQueue (ℕ × C) (ℕ × S)} {time : ℕ} {data : TcpEventData}
    {w w' : W × List Call}
    (h : queue.resolve (loggedCallback time call)
      (fun subscriber data => logged time (notify · data) subscriber) data w = .ok (queue', w')) :
    ∃ calls : HandlerKind → List Call,
      w'.2 = w.2 ++ calls .callback ++ calls .subscriber ∧
      (∀ kind, (calls kind).map Call.handler = queue.ids kind data.event) ∧
      (∀ kind, ∀ call ∈ calls kind, call.time = time) ∧
      (∀ call ∈ calls .callback, call.keep = false) ∧
      ∀ kind event, queue'.ids kind event =
        if event = data.event then ((calls kind).filter Call.keep).map Call.handler
        else queue.ids kind event := by
  obtain ⟨⟨callbacks, w₁⟩, hcallbacks, h₁⟩ := bind_eq_ok.mp h
  obtain ⟨⟨subscribers, w₂⟩, hsubscribers, h₂⟩ := bind_eq_ok.mp h₁
  cases h₂
  rw [callOnce_loggedCallback] at hcallbacks
  obtain ⟨⟨keptC, wC⟩, hcallC, hC⟩ := bind_eq_ok.mp hcallbacks
  obtain ⟨⟨keptS, wS⟩, hcallS, hS⟩ := bind_eq_ok.mp hsubscribers
  cases hC
  cases hS
  obtain ⟨callsC, hlogC, hidsC, htimeC, hkeptC⟩ := Handlers.callAll_logged hcallC
  obtain ⟨callsS, hlogS, hidsS, htimeS, hkeptS⟩ := Handlers.callAll_logged hcallS
  -- who has no handlers keeps none
  have hnil : ∀ {H : Type} {handlers kept : List (ℕ × H)} {calls : List Call},
      calls.map Call.handler = handlers.map Prod.fst →
      kept.map Prod.fst = (calls.filter Call.keep).map Call.handler →
      handlers = [] → kept = [] := by
    rintro H handlers kept calls hids hkept rfl
    have hcalls : calls = [] := List.map_eq_nil_iff.mp hids
    rw [hcalls] at hkept
    exact List.map_eq_nil_iff.mp hkept
  refine ⟨fun kind => match kind with | .callback => callsC | .subscriber => callsS,
    by rw [hlogS, hlogC], ?_, ?_, ?_, ?_⟩
  · intro kind
    cases kind with
    | callback => exact hidsC
    | subscriber => exact hidsS
  · intro kind call hcall
    cases kind with
    | callback => exact (htimeC call hcall).1
    | subscriber => exact (htimeS call hcall).1
  · intro call hcall
    obtain ⟨-, callback, w₀, w₀', hanswer⟩ := htimeC call hcall
    obtain ⟨w₀'', -, hfalse⟩ := bind_eq_ok.mp hanswer
    exact (congrArg Prod.fst (Except.ok.inj hfalse)).symm
  · intro kind event
    cases kind with
    | callback =>
        simp only [EventQueue.ids]
        rw [Handlers.of_replace (hnil hidsC hkeptC)]
        split
        · exact hkeptC
        · rfl
    | subscriber =>
        simp only [EventQueue.ids]
        rw [Handlers.of_replace (hnil hidsS hkeptS)]
        split
        · exact hkeptS
        · rfl

/-! ## The law -/

/-- One call comes before another: earlier, or at the same time and for a handler
registered earlier, all callbacks before all subscribers. -/
def Before (ops : List (QueueOp C S W)) (call call' : Call) : Prop :=
  call.time < call'.time ∨ call.time = call'.time ∧ ∃ kind kind' event,
    QueueOp.Registered ops call.handler kind event ∧
    QueueOp.Registered ops call'.handler kind' event ∧
    (kind = .callback ∧ kind' = .subscriber ∨ kind = kind' ∧ call.handler < call'.handler)

/-- What is called over a sequence of operations. -/
structure Lawful (ops : List (QueueOp C S W)) (log : List Call) : Prop where
  /-- A callback is called once, the first time that its event is resolved. -/
  callback : ∀ i event, QueueOp.Registered ops i .callback event →
    (callsOf log i).map Call.time = (QueueOp.timesAfter ops event i).take 1
  /-- A subscriber is called whenever its event is resolved, until it answers
  `false`. -/
  subscriber : ∀ i event, QueueOp.Registered ops i .subscriber event →
    Lived (QueueOp.timesAfter ops event i) (callsOf log i)
  /-- Nothing is called for an event that it does not wait for. -/
  matching : ∀ call ∈ log, ∃ kind event, QueueOp.Registered ops call.handler kind event ∧
    QueueOp.Resolved ops call.time event ∧ call.handler < call.time
  order : log.Pairwise (Before ops)

/-- What carries the law from operation to operation: the handlers in the queue are
those that were always kept. -/
structure Inv (ops : List (QueueOp C S W)) (run : QueueRun C S W) : Prop where
  time_eq : run.time = ops.length
  mem_ids : ∀ kind event i, i ∈ run.queue.ids kind event ↔
    QueueOp.Registered ops i kind event ∧ ∀ call ∈ callsOf run.log i, call.keep
  sorted : ∀ kind event, (run.queue.ids kind event).Pairwise (· < ·)
  lived : ∀ i kind event, QueueOp.Registered ops i kind event →
    Lived (QueueOp.timesAfter ops event i) (callsOf run.log i)
  dropped : ∀ i event, QueueOp.Registered ops i .callback event →
    ∀ call ∈ callsOf run.log i, call.keep = false
  matching : ∀ call ∈ run.log, ∃ kind event, QueueOp.Registered ops call.handler kind event ∧
    QueueOp.Resolved ops call.time event ∧ call.handler < call.time
  order : run.log.Pairwise (Before ops)

variable {ops : List (QueueOp C S W)} {run run' : QueueRun C S W}

theorem lawful_of_inv (hinv : Inv ops run) : Lawful ops run.log where
  callback := fun i event h => (hinv.lived i _ event h).eq_take_one (hinv.dropped i event h)
  subscriber := fun i event h => hinv.lived i _ event h
  matching := hinv.matching
  order := hinv.order

theorem inv_start (w : W) : Inv ([] : List (QueueOp C S W)) (start w) where
  time_eq := rfl
  mem_ids := fun kind event i => by
    cases kind <;> simp [start, EventQueue.new, EventQueue.ids, QueueOp.Registered]
  sorted := fun kind event => by
    cases kind <;> simp [start, EventQueue.new, EventQueue.ids]
  lived := fun i kind event h => by simp [QueueOp.Registered] at h
  dropped := fun i event h => by simp [QueueOp.Registered] at h
  matching := fun call hcall => by simp [start] at hcall
  order := .nil

theorem Before.append {call call' : Call} (h : Before ops call call') (op : QueueOp C S W) :
    Before (ops ++ [op]) call call' := by
  rcases h with h | ⟨htime, kind, kind', event, hkind, hkind', h⟩
  · exact Or.inl h
  · exact Or.inr ⟨htime, kind, kind', event, QueueOp.registered_append.mpr (Or.inl hkind),
      QueueOp.registered_append.mpr (Or.inl hkind'), h⟩

/-- The calls that there were stay lawful after one more operation. -/
theorem matching_append {log : List Call} (op : QueueOp C S W)
    (h : ∀ call ∈ log, ∃ kind event, QueueOp.Registered ops call.handler kind event ∧
      QueueOp.Resolved ops call.time event ∧ call.handler < call.time) :
    ∀ call ∈ log, ∃ kind event, QueueOp.Registered (ops ++ [op]) call.handler kind event ∧
      QueueOp.Resolved (ops ++ [op]) call.time event ∧ call.handler < call.time := by
  intro call hcall
  obtain ⟨kind, event, hregistered, hresolved, hlt⟩ := h call hcall
  exact ⟨kind, event, QueueOp.registered_append.mpr (Or.inl hregistered),
    QueueOp.resolved_append.mpr (Or.inl hresolved), hlt⟩

/-- An operation that resolves nothing. -/
theorem Inv.quiet (hinv : Inv ops run) (op : QueueOp C S W) (hresolves : op.resolves = none)
    {queue : EventQueue (ℕ × C) (ℕ × S)} (w : W)
    (hids : ∀ kind event, queue.ids kind event = run.queue.ids kind event ++
      if op.registers = some (kind, event) then [run.time] else []) :
    Inv (ops ++ [op]) ⟨run.time + 1, queue, w, run.log⟩ := by
  have hnew : callsOf run.log ops.length = [] := by
    refine Handlers.callsOf_eq_nil fun hmem => ?_
    obtain ⟨call, hcall, heq⟩ := List.mem_map.mp hmem
    obtain ⟨kind, event, hregistered, -, -⟩ := hinv.matching call hcall
    have hlt := hregistered.lt
    omega
  refine ⟨by simp [hinv.time_eq], fun kind event i => ?_, fun kind event => ?_,
    fun i kind event h => ?_, fun i event h => ?_, matching_append op hinv.matching,
    hinv.order.imp fun h => h.append op⟩
  · show i ∈ queue.ids kind event ↔ _
    rw [hids, List.mem_append, hinv.mem_ids, QueueOp.registered_append, hinv.time_eq]
    by_cases hop : op.registers = some (kind, event)
    · simp only [hop, if_true, and_true, List.mem_singleton]
      constructor
      · rintro (⟨hregistered, hkeep⟩ | rfl)
        · exact ⟨Or.inl hregistered, hkeep⟩
        · exact ⟨Or.inr rfl, by simp [hnew]⟩
      · rintro ⟨hregistered | rfl, hkeep⟩
        · exact Or.inl ⟨hregistered, hkeep⟩
        · exact Or.inr rfl
    · simp [hop]
  · show (queue.ids kind event).Pairwise (· < ·)
    rw [hids]
    refine List.pairwise_append.mpr ⟨hinv.sorted kind event, ?_, fun i hi j hj => ?_⟩
    · split
      · exact List.pairwise_singleton ..
      · exact .nil
    · have hlt := ((hinv.mem_ids kind event i).mp hi).1.lt
      have htime := hinv.time_eq
      split at hj
      · rw [List.mem_singleton] at hj
        omega
      · cases hj
  · rcases QueueOp.registered_append.mp h with h | ⟨rfl, -⟩
    · rw [QueueOp.timesAfter_append h.lt, hresolves, if_neg (by simp), List.append_nil]
      exact hinv.lived i kind event h
    · rw [QueueOp.timesAfter_length, hnew]
      exact .nil
  · rcases QueueOp.registered_append.mp h with h | ⟨rfl, -⟩
    · exact hinv.dropped i event h
    · simp [hnew]

section Resolving

variable {data : TcpEventData} {calls : HandlerKind → List Call}

/-- What a `resolve` calls is in the queue. -/
theorem Inv.mem_calls (hinv : Inv ops run)
    (hids : ∀ kind, (calls kind).map Call.handler = run.queue.ids kind data.event)
    {kind : HandlerKind} {i : ℕ} :
    (∃ call ∈ calls kind, call.handler = i) ↔
      QueueOp.Registered ops i kind data.event ∧ ∀ call ∈ callsOf run.log i, call.keep := by
  rw [← hinv.mem_ids, ← hids, List.mem_map]

theorem Inv.nodup_calls (hinv : Inv ops run)
    (hids : ∀ kind, (calls kind).map Call.handler = run.queue.ids kind data.event) :
    ((calls .callback ++ calls .subscriber).map Call.handler).Nodup := by
  have hsorted : ∀ kind, ((calls kind).map Call.handler).Nodup := by
    intro kind
    rw [hids]
    exact (hinv.sorted kind data.event).imp Nat.ne_of_lt
  rw [List.map_append]
  refine List.nodup_append.mpr ⟨hsorted .callback, hsorted .subscriber, fun i hi j hj => ?_⟩
  rintro rfl
  rw [hids, hinv.mem_ids] at hi hj
  cases (hi.1.unique hj.1).1

/-- A handler is called by a `resolve` of its event if it was always kept, and not
at all otherwise. -/
theorem Inv.callsOf_calls (hinv : Inv ops run)
    (hids : ∀ kind, (calls kind).map Call.handler = run.queue.ids kind data.event)
    {i : ℕ} {kind : HandlerKind} {event : TcpEvent}
    (hregistered : QueueOp.Registered ops i kind event) :
    (event = data.event ∧ (∀ call ∈ callsOf run.log i, call.keep) ∧
        ∃ call ∈ calls kind, callsOf (calls .callback ++ calls .subscriber) i = [call]) ∨
      ¬ (event = data.event ∧ ∀ call ∈ callsOf run.log i, call.keep) ∧
        callsOf (calls .callback ++ calls .subscriber) i = [] := by
  by_cases h : event = data.event ∧ ∀ call ∈ callsOf run.log i, call.keep
  · obtain ⟨rfl, hkeep⟩ := h
    obtain ⟨call, hcall, rfl⟩ := (hinv.mem_calls hids).mpr ⟨hregistered, hkeep⟩
    refine Or.inl ⟨rfl, hkeep, call, hcall, ?_⟩
    refine Handlers.callsOf_eq_singleton (hinv.nodup_calls hids) ?_
    cases kind with
    | callback => exact List.mem_append_left _ hcall
    | subscriber => exact List.mem_append_right _ hcall
  · refine Or.inr ⟨h, Handlers.callsOf_eq_nil fun hmem => h ?_⟩
    rw [List.map_append, List.mem_append, hids, hids, hinv.mem_ids, hinv.mem_ids] at hmem
    rcases hmem with ⟨hregistered', hkeep⟩ | ⟨hregistered', hkeep⟩
    · exact ⟨(hregistered'.unique hregistered).2, hkeep⟩
    · exact ⟨(hregistered'.unique hregistered).2, hkeep⟩

theorem Inv.mem_kept (hinv : Inv ops run)
    (hids : ∀ kind, (calls kind).map Call.handler = run.queue.ids kind data.event)
    {kind : HandlerKind} {i : ℕ} :
    i ∈ ((calls kind).filter Call.keep).map Call.handler ↔
      QueueOp.Registered ops i kind data.event ∧
        ∀ call ∈ callsOf run.log i ++ callsOf (calls .callback ++ calls .subscriber) i,
          call.keep := by
  have hcalls : ∀ call ∈ calls kind, call ∈ calls .callback ++ calls .subscriber := by
    intro call hcall
    cases kind with
    | callback => exact List.mem_append_left _ hcall
    | subscriber => exact List.mem_append_right _ hcall
  rw [List.mem_map, List.forall_mem_append]
  constructor
  · rintro ⟨call, hcall, rfl⟩
    obtain ⟨hcall, hkeep⟩ := List.mem_filter.mp hcall
    obtain ⟨hregistered, hbefore⟩ := (hinv.mem_calls hids).mp ⟨call, hcall, rfl⟩
    refine ⟨hregistered, hbefore, ?_⟩
    rw [Handlers.callsOf_eq_singleton (hinv.nodup_calls hids) (hcalls call hcall)]
    simpa using hkeep
  · rintro ⟨hregistered, hbefore, hafter⟩
    obtain ⟨call, hcall, rfl⟩ := (hinv.mem_calls hids).mpr ⟨hregistered, hbefore⟩
    have hmem : call ∈ callsOf (calls .callback ++ calls .subscriber) call.handler :=
      List.mem_filter.mpr ⟨hcalls call hcall, by simp⟩
    exact ⟨call, List.mem_filter.mpr ⟨hcall, hafter call hmem⟩, rfl⟩

/-- The calls of a `resolve` come in the order of registration, callbacks first. -/
theorem Inv.calls_order (hinv : Inv ops run)
    (hids : ∀ kind, (calls kind).map Call.handler = run.queue.ids kind data.event)
    (htime : ∀ kind, ∀ call ∈ calls kind, call.time = run.time) :
    (calls .callback ++ calls .subscriber).Pairwise (Before ops) := by
  have hnew : ∀ kind, ∀ call ∈ calls kind,
      QueueOp.Registered ops call.handler kind data.event :=
    fun kind call hcall => ((hinv.mem_calls hids).mp ⟨call, hcall, rfl⟩).1
  have hkind : ∀ kind, (calls kind).Pairwise (Before ops) := by
    intro kind
    have hsorted := hinv.sorted kind data.event
    rw [← hids, List.pairwise_map] at hsorted
    refine hsorted.imp_of_mem fun {call call'} hcall hcall' hlt => Or.inr ⟨?_, ?_⟩
    · rw [htime kind call hcall, htime kind call' hcall']
    · exact ⟨kind, kind, data.event, hnew kind call hcall, hnew kind call' hcall',
        Or.inr ⟨rfl, hlt⟩⟩
  refine List.pairwise_append.mpr ⟨hkind .callback, hkind .subscriber, ?_⟩
  intro call hcall call' hcall'
  refine Or.inr ⟨by rw [htime _ call hcall, htime _ call' hcall'], ?_⟩
  exact ⟨.callback, .subscriber, data.event, hnew _ call hcall, hnew _ call' hcall',
    Or.inl ⟨rfl, rfl⟩⟩

/-- A `resolve` registers nothing. -/
theorem registered_resolve_iff {i : ℕ} {kind : HandlerKind} {event : TcpEvent} :
    QueueOp.Registered (ops ++ [.resolve data]) i kind event ↔
      QueueOp.Registered ops i kind event := by
  simp [QueueOp.registered_append, QueueOp.registers]

/-- The handlers of the event live through the `resolve`, or were dropped before. -/
theorem Inv.lived_calls (hinv : Inv ops run)
    (hids : ∀ kind, (calls kind).map Call.handler = run.queue.ids kind data.event)
    (htime : ∀ kind, ∀ call ∈ calls kind, call.time = run.time)
    {i : ℕ} {kind : HandlerKind} {event : TcpEvent} (h : QueueOp.Registered ops i kind event) :
    Lived (QueueOp.timesAfter (ops ++ [.resolve data]) event i)
      (callsOf run.log i ++ callsOf (calls .callback ++ calls .subscriber) i) := by
  have hlived := hinv.lived i kind event h
  rw [QueueOp.timesAfter_append h.lt]
  rcases hinv.callsOf_calls hids h with ⟨rfl, hkeep, call, hcall, heq⟩ | ⟨hnot, hnil⟩
  · have hresolves : (QueueOp.resolve data : QueueOp C S W).resolves = some data.event := rfl
    rw [heq, if_pos hresolves, ← hinv.time_eq, ← htime kind call hcall]
    exact hlived.called hkeep call
  · rw [hnil, List.append_nil]
    by_cases hevent : event = data.event
    · rw [if_pos (by simp [QueueOp.resolves, hevent])]
      exact hlived.missed (fun hkeep => hnot ⟨hevent, hkeep⟩) _
    · rw [if_neg (by simpa [QueueOp.resolves] using Ne.symm hevent), List.append_nil]
      exact hlived

theorem Inv.matching_calls (hinv : Inv ops run)
    (hids : ∀ kind, (calls kind).map Call.handler = run.queue.ids kind data.event)
    (htime : ∀ kind, ∀ call ∈ calls kind, call.time = run.time) (kind : HandlerKind) :
    ∀ call ∈ calls kind, ∃ kind event,
      QueueOp.Registered (ops ++ [.resolve data]) call.handler kind event ∧
      QueueOp.Resolved (ops ++ [.resolve data]) call.time event ∧ call.handler < call.time := by
  intro call hcall
  have hregistered := ((hinv.mem_calls hids).mp ⟨call, hcall, rfl⟩).1
  have hlt := hregistered.lt
  have hnow : call.time = ops.length := (htime kind call hcall).trans hinv.time_eq
  refine ⟨kind, data.event, registered_resolve_iff.mpr hregistered, ?_, by omega⟩
  exact QueueOp.resolved_append.mpr (Or.inr ⟨hnow, rfl⟩)

/-- All that was called before the `resolve` was called earlier. -/
theorem Inv.order_append (hinv : Inv ops run)
    (hids : ∀ kind, (calls kind).map Call.handler = run.queue.ids kind data.event)
    (htime : ∀ kind, ∀ call ∈ calls kind, call.time = run.time) :
    (run.log ++ (calls .callback ++ calls .subscriber)).Pairwise (Before ops) := by
  refine List.pairwise_append.mpr ⟨hinv.order, hinv.calls_order hids htime, ?_⟩
  intro call hcall call' hcall'
  obtain ⟨_, _, -, hresolved, -⟩ := hinv.matching call hcall
  have hlt := hresolved.lt
  have hnow : call'.time = run.time := by
    rcases List.mem_append.mp hcall' with hcall' | hcall'
    · exact htime _ call' hcall'
    · exact htime _ call' hcall'
  have htimeEq := hinv.time_eq
  exact Or.inl (by omega)

/-- An operation that resolves an event. -/
theorem Inv.resolved (hinv : Inv ops run) {queue : EventQueue (ℕ × C) (ℕ × S)} (w : W)
    (hids : ∀ kind, (calls kind).map Call.handler = run.queue.ids kind data.event)
    (htime : ∀ kind, ∀ call ∈ calls kind, call.time = run.time)
    (hdropped : ∀ call ∈ calls .callback, call.keep = false)
    (hkept : ∀ kind event, queue.ids kind event =
      if event = data.event then ((calls kind).filter Call.keep).map Call.handler
      else run.queue.ids kind event) :
    Inv (ops ++ [.resolve data])
      ⟨run.time + 1, queue, w, run.log ++ calls .callback ++ calls .subscriber⟩ := by
  have hcallsOf : ∀ i, callsOf (run.log ++ calls .callback ++ calls .subscriber) i =
      callsOf run.log i ++ callsOf (calls .callback ++ calls .subscriber) i := by
    intro i
    rw [List.append_assoc, Handlers.callsOf_append]
  refine ⟨by simp [hinv.time_eq], fun kind event i => ?_, fun kind event => ?_,
    fun i kind event h => ?_, fun i event h => ?_, ?_, ?_⟩
  · show i ∈ queue.ids kind event ↔ _ ∧ ∀ call ∈ callsOf _ i, _
    rw [registered_resolve_iff, hcallsOf, hkept]
    by_cases hevent : event = data.event
    · rw [if_pos hevent, hevent]
      exact hinv.mem_kept hids
    · rw [if_neg hevent, hinv.mem_ids]
      refine and_congr_right fun hregistered => ?_
      rcases hinv.callsOf_calls hids hregistered with ⟨heq, -⟩ | ⟨-, hnil⟩
      · exact absurd heq hevent
      · rw [hnil, List.append_nil]
  · show (queue.ids kind event).Pairwise (· < ·)
    rw [hkept]
    split
    · have hsub : (((calls kind).filter Call.keep).map Call.handler).Sublist
          ((calls kind).map Call.handler) := List.filter_sublist.map _
      rw [hids] at hsub
      exact (hinv.sorted kind data.event).sublist hsub
    · exact hinv.sorted kind event
  · show Lived _ (callsOf _ i)
    rw [hcallsOf]
    exact hinv.lived_calls hids htime (registered_resolve_iff.mp h)
  · have h := registered_resolve_iff.mp h
    show ∀ call ∈ callsOf _ i, _
    rw [hcallsOf]
    refine List.forall_mem_append.mpr ⟨hinv.dropped i event h, ?_⟩
    rcases hinv.callsOf_calls hids h with ⟨-, -, call, hcall, heq⟩ | ⟨-, hnil⟩
    · simpa [heq] using hdropped call hcall
    · simp [hnil]
  · have hnew := hinv.matching_calls hids htime
    refine List.forall_mem_append.mpr ⟨List.forall_mem_append.mpr ⟨?_, hnew .callback⟩,
      hnew .subscriber⟩
    exact matching_append _ hinv.matching
  · show (run.log ++ calls .callback ++ calls .subscriber).Pairwise _
    rw [List.append_assoc]
    exact (hinv.order_append hids htime).imp fun h => h.append _

end Resolving

theorem Inv.step (hinv : Inv ops run) {op : QueueOp C S W}
    (h : step call notify run op = .ok run') : Inv (ops ++ [op]) run' := by
  cases op with
  | registerCallback event callback =>
      cases h
      refine hinv.quiet _ rfl run.world fun kind event' => ?_
      cases kind with
      | callback =>
          simp only [EventQueue.ids, EventQueue.registerCallback, Handlers.of_register]
          by_cases hevent : event' = event
          · simp [hevent, QueueOp.registers]
          · simp [hevent, Ne.symm hevent, QueueOp.registers]
      | subscriber => simp [EventQueue.ids, EventQueue.registerCallback, QueueOp.registers]
  | registerSubscriber event subscriber =>
      cases h
      refine hinv.quiet _ rfl run.world fun kind event' => ?_
      cases kind with
      | callback => simp [EventQueue.ids, EventQueue.registerSubscriber, QueueOp.registers]
      | subscriber =>
          simp only [EventQueue.ids, EventQueue.registerSubscriber, Handlers.of_register]
          by_cases hevent : event' = event
          · simp [hevent, QueueOp.registers]
          · simp [hevent, Ne.symm hevent, QueueOp.registers]
  | resolve data =>
      obtain ⟨⟨queue, world, log⟩, hresolve, h⟩ := bind_eq_ok.mp h
      cases h
      obtain ⟨calls, hlog, hids, htime, hdropped, hkept⟩ := resolve_eq_ok hresolve
      cases hlog
      exact hinv.resolved world hids htime hdropped hkept
  | outside f =>
      cases h
      refine hinv.quiet _ rfl (f run.world) fun kind event => ?_
      cases kind with
      | callback => simp [QueueOp.registers]
      | subscriber => simp [QueueOp.registers]

/-- The invariant holds after every sequence of operations. -/
theorem inv_of_exec {w : W} (h : exec call notify w ops = .ok run) : Inv ops run := by
  induction ops using List.reverseRecOn generalizing run with
  | nil =>
      cases h
      exact inv_start w
  | append_singleton ops op ih =>
      rw [exec, List.foldlM_append] at h
      obtain ⟨before, hbefore, h⟩ := bind_eq_ok.mp h
      rw [List.foldlM_cons] at h
      obtain ⟨after, hstep, h⟩ := bind_eq_ok.mp h
      cases h
      exact (ih hbefore).step hstep

/-- All operations can be done when every handler returns. -/
theorem exec_returns (hcall : ∀ callback data w, Returns (call callback data w))
    (hnotify : ∀ subscriber data w, Returns (notify subscriber data w)) (w : W)
    (ops : List (QueueOp C S W)) : Returns (exec call notify w ops) := by
  induction ops using List.reverseRecOn with
  | nil => exact returns_ok _
  | append_singleton ops op ih =>
      obtain ⟨run, hrun⟩ := ih
      unfold exec at hrun ⊢
      rw [List.foldlM_append, hrun, ok_bind, List.foldlM_cons]
      simp only [List.foldlM_nil, bind_pure]
      cases op with
      | resolve data =>
          simp only [step, EventQueue.resolve, Handlers.resolve]
          have hcallback : ∀ callback w,
              Returns (EventQueue.callOnce (loggedCallback run.time call · data) callback w) := by
            intro callback w
            obtain ⟨w', hw'⟩ := hcall callback.2 data w.1
            simp only [EventQueue.callOnce, loggedCallback, hw', ok_bind]
            exact returns_ok _
          have hsubscriber : ∀ subscriber w,
              Returns (logged run.time (notify · data) subscriber w) := by
            intro subscriber w
            obtain ⟨⟨keep, w'⟩, hw'⟩ := hnotify subscriber.2 data w.1
            simp only [logged, hw', ok_bind]
            exact returns_ok _
          obtain ⟨⟨callbacks, w₁⟩, hcallbacks⟩ := Handlers.callAll_returns hcallback
            (run.queue.callbacks.of data.event) (run.world, run.log)
          obtain ⟨⟨subscribers, w₂⟩, hsubscribers⟩ := Handlers.callAll_returns hsubscriber
            (run.queue.subscribers.of data.event) w₁
          simp only [hcallbacks, ok_bind, hsubscribers]
          exact returns_ok _
      | _ => exact returns_ok _

/-- What all handlers keep, and all that happens in between, is kept. -/
theorem world_of_exec {P : W → Prop}
    (hcall : ∀ callback data w w', call callback data w = .ok w' → P w → P w')
    (hnotify : ∀ subscriber data w keep w', notify subscriber data w = .ok (keep, w') → P w → P w')
    (houtside : ∀ f, .outside f ∈ ops → ∀ w, P w → P (f w)) {w : W} (hw : P w)
    (h : exec call notify w ops = .ok run) : P run.world := by
  induction ops using List.reverseRecOn generalizing run with
  | nil =>
      cases h
      exact hw
  | append_singleton ops op ih =>
      rw [exec, List.foldlM_append] at h
      obtain ⟨before, hbefore, h⟩ := bind_eq_ok.mp h
      rw [List.foldlM_cons] at h
      obtain ⟨after, hstep, h⟩ := bind_eq_ok.mp h
      cases h
      have hP := ih (fun f hf => houtside f (List.mem_append_left _ hf)) hbefore
      cases op with
      | registerCallback event callback =>
          cases hstep
          exact hP
      | registerSubscriber event subscriber =>
          cases hstep
          exact hP
      | resolve data =>
          obtain ⟨⟨queue, world, log⟩, hresolve, hstep⟩ := bind_eq_ok.mp hstep
          cases hstep
          obtain ⟨⟨callbacks, w₁⟩, hcallbacks, h₁⟩ := bind_eq_ok.mp hresolve
          obtain ⟨⟨subscribers, w₂⟩, hsubscribers, h₂⟩ := bind_eq_ok.mp h₁
          cases h₂
          obtain ⟨⟨keptC, wC⟩, hcallC, hC⟩ := bind_eq_ok.mp hcallbacks
          obtain ⟨⟨keptS, wS⟩, hcallS, hS⟩ := bind_eq_ok.mp hsubscribers
          cases hC
          cases hS
          have hPC : P w₁.1 := by
            refine Handlers.callAll_keeps (P := fun w => P w.1) ?_ hcallC hP
            intro callback w keep w' hcalled hPw
            obtain ⟨w₁, hlogged, hw₁⟩ := bind_eq_ok.mp hcalled
            obtain ⟨w₂, hanswer, hw₂⟩ := bind_eq_ok.mp hlogged
            cases hw₂
            cases hw₁
            exact hcall _ _ _ _ hanswer hPw
          refine Handlers.callAll_keeps (P := fun w => P w.1) ?_ hcallS hPC
          intro subscriber w keep w' hlogged hPw
          obtain ⟨⟨keep', w₁⟩, hanswer, hw₁⟩ := bind_eq_ok.mp hlogged
          cases hw₁
          exact hnotify _ _ _ _ _ hanswer hPw
      | outside f =>
          cases hstep
          exact houtside f (List.mem_append_right _ (List.mem_singleton_self _)) _ hP

end QueueRun

/-! ## The callbacks of a command -/

/-- A world with the flags of the commands. -/
structure Flagged (C W : Type) where
  world : W
  /-- The requests whose flag is taken. -/
  handled : List Request
  /-- The callbacks that have produced responses. -/
  produced : List C

namespace Flagged

variable {C S W : Type}

/-- A callback of `command::handle`: it produces responses if no other callback of
its command has. -/
def once (request : C → Request) (generate : C → TcpEventData → W → Eval W) (callback : C)
    (data : TcpEventData) (w : Flagged C W) : Eval (Flagged C W) :=
  if request callback ∈ w.handled then .ok w
  else do
    let world ← generate callback data w.world
    .ok ⟨world, request callback :: w.handled, w.produced ++ [callback]⟩

/-- Subscribers know of no flags. -/
def alongside (notify : S → TcpEventData → W → Eval (Bool × W)) (subscriber : S)
    (data : TcpEventData) (w : Flagged C W) : Eval (Bool × Flagged C W) := do
  let (keep, world) ← notify subscriber data w.world
  .ok (keep, { w with world := world })

/-- What else happens does not touch the flags. -/
def lift : QueueOp C S W → QueueOp C S (Flagged C W)
  | .registerCallback event callback => .registerCallback event callback
  | .registerSubscriber event subscriber => .registerSubscriber event subscriber
  | .resolve data => .resolve data
  | .outside f => .outside fun w => { w with world := f w.world }

/-- Callbacks that have produced responses belong to different requests. -/
structure AtMostOnce (request : C → Request) (w : Flagged C W) : Prop where
  nodup : (w.produced.map request).Nodup
  handled : ∀ callback ∈ w.produced, request callback ∈ w.handled

theorem atMostOnce_once {request : C → Request} {generate : C → TcpEventData → W → Eval W}
    {callback : C} {data : TcpEventData} {w w' : Flagged C W}
    (h : once request generate callback data w = .ok w') (hw : w.AtMostOnce request) :
    w'.AtMostOnce request := by
  unfold once at h
  split at h
  · cases h
    exact hw
  next hfree =>
    obtain ⟨world, -, h⟩ := bind_eq_ok.mp h
    cases h
    refine ⟨?_, fun callback' hcallback' => ?_⟩
    · rw [List.map_append, List.map_singleton]
      refine List.nodup_append.mpr ⟨hw.nodup, List.nodup_singleton _, ?_⟩
      intro r hr r' hr'
      rw [List.mem_singleton] at hr'
      obtain ⟨callback', hcallback', rfl⟩ := List.mem_map.mp hr
      rintro rfl
      exact hfree (hr' ▸ hw.handled callback' hcallback')
    · rcases List.mem_append.mp hcallback' with hcallback' | hcallback'
      · exact List.mem_cons_of_mem _ (hw.handled callback' hcallback')
      · rw [List.mem_singleton.mp hcallback']
        exact List.mem_cons_self

theorem atMostOnce_of_exec {request : C → Request} {generate : C → TcpEventData → W → Eval W}
    {notify : S → TcpEventData → W → Eval (Bool × W)} {w : W} {ops : List (QueueOp C S W)}
    {run : QueueRun C S (Flagged C W)}
    (h : QueueRun.exec (once request generate) (alongside notify) ⟨w, [], []⟩ (ops.map lift) =
      .ok run) : run.world.AtMostOnce request := by
  refine QueueRun.world_of_exec (P := AtMostOnce request) ?_ ?_ ?_ ⟨by simp, by simp⟩ h
  · exact fun callback data w w' h hw => atMostOnce_once h hw
  · intro subscriber data w keep w' h hw
    obtain ⟨⟨keep', world⟩, -, h⟩ := bind_eq_ok.mp h
    cases h
    exact ⟨hw.nodup, hw.handled⟩
  · intro f hf w hw
    obtain ⟨op, -, hop⟩ := List.mem_map.mp hf
    cases op with
    | outside g =>
        cases hop
        exact ⟨hw.nodup, hw.handled⟩
    | _ => cases hop

end Flagged

/-! ## The queue of the daemon -/

section

variable {C W : Type}

/-- Callbacks are called one after the other, and none is kept. -/
theorem EventQueue.callAll_callOnce (call : C → W → Eval W) (callbacks : List C) (w : W) :
    Handlers.callAll (callOnce call) callbacks w =
      (do
        let w ← callbacks.foldlM (fun w callback => call callback w) w
        .ok ([], w)) := by
  induction callbacks generalizing w with
  | nil => rfl
  | cons callback rest ih =>
      rw [Handlers.callAll, callOnce, List.foldlM_cons]
      cases call callback w with
      | error fault => rfl
      | ok w' =>
          simp only [ok_bind, ih]
          cases rest.foldlM (fun w callback => call callback w) w' with
          | error fault => rfl
          | ok w'' => rfl

end

namespace TcpEventQueue

variable (host : Host) (state : State)

/-- What the callback of a `ServerConnect` does if its flag is free. -/
def sendConnect (request : Request) (data : TcpEventData) (mailbox : Mailbox) : Eval Mailbox := do
  let response ← connectResponse host state data
  if mailbox.isOpen request then .ok (mailbox.send request response) else .error .panic

/-- What the subscriber of a blocking `PastMessages` does. -/
def sendMessage (request : Request) (data : TcpEventData) (mailbox : Mailbox) :
    Eval (Bool × Mailbox) := do
  let response ← messageResponse host state data
  .ok (mailbox.isOpen request, mailbox.send request response)

theorem runCallbacks_eq (data : TcpEventData) (requests : List Request)
    (w : Flagged Request Mailbox) :
    runCallbacks host state data requests (w.handled, w.world) =
      (do
        let w ← requests.foldlM
          (fun w request => Flagged.once id (sendConnect host state) request data w) w
        .ok (w.handled, w.world)) := by
  induction requests generalizing w with
  | nil => rfl
  | cons request rest ih =>
      rw [runCallbacks, List.foldlM_cons, Flagged.once]
      by_cases hhandled : request ∈ w.handled
      · rw [if_pos hhandled, if_pos (by exact hhandled), ok_bind]
        exact ih w
      · rw [if_neg hhandled, if_neg (by exact hhandled), sendConnect]
        cases connectResponse host state data with
        | error fault => rfl
        | ok response =>
            simp only [ok_bind]
            by_cases hopen : w.world.isOpen request
            · rw [if_pos hopen, if_pos hopen]
              exact ih ⟨w.world.send request response, request :: w.handled,
                w.produced ++ [request]⟩
            · rw [if_neg hopen, if_neg hopen]
              rfl

theorem runSubscribers_eq (data : TcpEventData) (requests : List Request)
    (w : Flagged Request Mailbox) :
    Handlers.callAll (Flagged.alongside (sendMessage host state) · data) requests w =
      (do
        let (kept, mailbox) ← runSubscribers host state data requests w.world
        .ok (kept, { w with world := mailbox })) := by
  induction requests generalizing w with
  | nil => rfl
  | cons request rest ih =>
      rw [Handlers.callAll, runSubscribers, Flagged.alongside, sendMessage]
      cases messageResponse host state data with
      | error fault => rfl
      | ok response =>
          simp only [ok_bind, ih]
          cases runSubscribers host state data rest (w.world.send request response) with
          | error fault => rfl
          | ok result => rfl

/-- The queue of the daemon is a queue whose callbacks have flags. -/
theorem resolve_eq (queue : TcpEventQueue) (mailbox : Mailbox) (data : TcpEventData) :
    queue.resolve host state mailbox data =
      (do
        let (handlers, w) ← EventQueue.resolve (Flagged.once id (sendConnect host state))
          (Flagged.alongside (sendMessage host state)) ⟨queue.callbacks, queue.subscribers⟩ data
          ⟨mailbox, queue.handled, []⟩
        .ok (⟨handlers.callbacks, handlers.subscribers, w.handled⟩, w.world)) := by
  have hcallbacks := runCallbacks_eq host state data ((queue.callbacks.lookup data.event).getD [])
    ⟨mailbox, queue.handled, []⟩
  simp only [resolve, EventQueue.resolve, Handlers.resolve, Handlers.of,
    EventQueue.callAll_callOnce]
  rw [hcallbacks]
  cases List.foldlM (fun w request => Flagged.once id (sendConnect host state) request data w)
    (⟨mailbox, queue.handled, []⟩ : Flagged Request Mailbox)
    ((queue.callbacks.lookup data.event).getD []) with
  | error fault => rfl
  | ok w =>
      simp only [ok_bind, runSubscribers_eq]
      cases runSubscribers host state data ((queue.subscribers.lookup data.event).getD [])
        w.world with
      | error fault => rfl
      | ok result => rfl

end TcpEventQueue

/-! ## All sequences of operations -/

/-- **Every handler is called when it should be, and one callback of a command answers.**
The first part is about handlers of any kind, and in the order of `Before`; the
second is about callbacks that share the flags of their commands. -/
theorem EventQueue.lawful :
    (∀ {C S W : Type} (call : C → TcpEventData → W → Eval W)
      (notify : S → TcpEventData → W → Eval (Bool × W)) (w : W) (ops : List (QueueOp C S W)),
      ((∀ callback data w, Returns (call callback data w)) →
        (∀ subscriber data w, Returns (notify subscriber data w)) →
          Returns (QueueRun.exec call notify w ops)) ∧
      ∀ run, QueueRun.exec call notify w ops = .ok run → QueueRun.Lawful ops run.log) ∧
    ∀ {C S W : Type} (request : C → Request) (generate : C → TcpEventData → W → Eval W)
      (notify : S → TcpEventData → W → Eval (Bool × W)) (w : W) (ops : List (QueueOp C S W)) run,
      QueueRun.exec (Flagged.once request generate) (Flagged.alongside notify) ⟨w, [], []⟩
        (ops.map Flagged.lift) = .ok run →
      (run.world.produced.map request).Nodup := by
  refine ⟨fun call notify w ops => ⟨?_, ?_⟩, ?_⟩
  · intro hcall hnotify
    exact QueueRun.exec_returns hcall hnotify w ops
  · intro run hrun
    exact QueueRun.lawful_of_inv (QueueRun.inv_of_exec hrun)
  · intro C S W request generate notify w ops run hrun
    exact (Flagged.atMostOnce_of_exec hrun).nodup

namespace QueueRun

/-- Callbacks that return at once, and subscribers that leave at their second
call. -/
def patient (ops : List (QueueOp Unit Unit ℕ)) : Eval (QueueRun Unit Unit ℕ) :=
  exec (fun _ _ calls => .ok calls) (fun _ _ calls => .ok (decide (calls = 0), calls + 1)) 0 ops

/-- A callback and a subscriber, each called at some of its events. -/
def mixed : List (QueueOp Unit Unit ℕ) :=
  [.registerCallback (.disconnected .user) (), .registerSubscriber .textMessage (),
    .resolve (.textMessage {}), .resolve (.disconnected .tcpError), .resolve (.textMessage {}),
    .resolve (.disconnected .user), .resolve (.textMessage {}), .resolve (.disconnected .user)]

/-- Two callbacks of request 7, whose events come one after the other. -/
def answered : Eval (QueueRun ℕ Unit (Flagged ℕ ℕ)) :=
  exec (Flagged.once id fun _ _ answers => .ok (answers + 1))
    (Flagged.alongside fun _ _ answers => .ok (true, answers)) ⟨0, [], []⟩
    (List.map Flagged.lift [.registerCallback .connected 7,
      .registerCallback (.disconnected .invalidTls) 7, .resolve (.disconnected .invalidTls),
      .resolve (.connected (.ok {}))])

theorem lawful_mixed :
    (∃ run, patient mixed = .ok run ∧
      run.log = [⟨2, 1, true⟩, ⟨4, 1, false⟩, ⟨5, 0, false⟩] ∧ Lawful mixed run.log) ∧
    ∃ run, answered = .ok run ∧ run.world.produced = [7] ∧
      (run.world.produced.map id).Nodup := by
  have hmixed : (do
      let run ← patient mixed
      .ok run.log) = (.ok [⟨2, 1, true⟩, ⟨4, 1, false⟩, ⟨5, 0, false⟩] : Eval _) := rfl
  have hanswered : (do
      let run ← answered
      .ok run.world.produced) = (.ok [7] : Eval _) := rfl
  obtain ⟨run, hrun, hlog⟩ := bind_eq_ok.mp hmixed
  obtain ⟨run', hrun', hproduced⟩ := bind_eq_ok.mp hanswered
  refine ⟨⟨run, hrun, Except.ok.inj hlog, ?_⟩, run', hrun', Except.ok.inj hproduced, ?_⟩
  · exact (EventQueue.lawful.1 _ _ _ _).2 run hrun
  · exact EventQueue.lawful.2 _ _ _ _ _ _ hrun'

/-- A subscriber that was registered before a callback is called after it. -/
theorem not_in_registration_order :
    ¬ ∀ (ops : List (QueueOp Unit Unit ℕ)) run, patient ops = .ok run →
      run.log.Pairwise fun call call' => call.time = call'.time → call.handler < call'.handler := by
  intro h
  have hlog : (do
      let run ← patient [.registerSubscriber .textMessage (), .registerCallback .textMessage (),
        .resolve (.textMessage {})]
      .ok run.log) = (.ok [⟨2, 1, false⟩, ⟨2, 0, true⟩] : Eval _) := rfl
  obtain ⟨run, hrun, hlog⟩ := bind_eq_ok.mp hlog
  have hpair := h _ run hrun
  rw [Except.ok.inj hlog, List.pairwise_pair] at hpair
  exact absurd (hpair rfl) (by decide)

end QueueRun

end Mum
