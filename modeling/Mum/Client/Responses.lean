import Mathlib.Logic.Function.Basic
import Mum.Library.Mpsc
import Mum.Library.Transition
import Mum.State.HandleCommand

/-!
# Responses on their way

How the responses of `command::handle` reach the controllers.  Each command comes
with a channel of its own.  At the other end of it is the connection task of
`receive_commands` in `mum/src/bin/mumd.rs`, which runs on a thread of its own:
it may take a response, write it to the socket, or fail to and drop the receiver,
between any two sends.

`command::handle` unwraps its sends, those of subscribers excepted.  A request
with one response is safe, as the receiver outlives the first write.

A `Dialogs` is a state of all of these, and `Always` quantifies over the interleavings.  If
each answer is at most one response, `Inv` says that no channel has an unwrapped send to
come once its receiver may be gone: a send that is to come is the first, and the channel is
then as new.  For the converse, a list of two responses is sent one by one, and the
connection task drops the receiver after the first (`length_le_one`).  If the list is not
the first of the commands, a run leads past those before it (`exists_drained`).  Which
commands are answered with at most one response says `single_iff_brief`.
-/

namespace Mum

open Library Library.Eval
open Mumlib (Command Response)

/-- Where the sending half of the channel of a request is. -/
inductive Sender
  /-- It comes with the command, which is not handled yet. -/
  | command
  /-- The response loop has it, and these responses to send. -/
  | loop (responses : List Response)
  /-- Callbacks of which one will run have it, or a ping; they send one response. -/
  | once
  | subscriber
  | dropped

namespace Sender

/-- Who gets the sending half when the command is handled. -/
def of (host : Host) : ExecutionContext → Sender
  | .tcpEventCallback => .once
  | .tcpEventSubscriber => .subscriber
  | .now responses => .loop responses
  | .ping hostname port =>
      match host.toSocketAddrs hostname port with
      | some (_ :: _) => .once
      | _ => .loop [.error (.invalidServerAddr hostname port)]

def isLoop : Sender → Bool
  | loop _ => true
  | _ => false

end Sender

/-- A request and its controller. -/
structure Dialog where
  sender : Sender
  channel : Mpsc Response

/-- All requests. -/
structure Dialogs where
  /-- How the commands to come are answered. -/
  contexts : List ExecutionContext
  /-- How many commands were handled. -/
  requests : ℕ
  /-- The request whose responses `command::handle` is sending. -/
  looping : Option ℕ
  dialogs : ℕ → Dialog

inductive DialogLabel
  /-- `command::handle` takes the next command, on some machine. -/
  | handle (host : Host)
  /-- The response loop goes on. -/
  | respond
  /-- A callback runs, or a ping is answered. -/
  | answer (request : ℕ) (response : Response)
  /-- A subscriber is called. -/
  | notify (request : ℕ) (response : Response)
  /-- The connection task takes a response, and writes it. -/
  | recv (request : ℕ)
  | written (request : ℕ) (ok : Bool)

namespace Dialogs

def start (contexts : List ExecutionContext) : Dialogs :=
  ⟨contexts, 0, none, fun _ => ⟨.command, .new⟩⟩

def set (d : Dialogs) (request : ℕ) (dialog : Dialog) : Dialogs :=
  { d with dialogs := Function.update d.dialogs request dialog }

/-- `response_sender.send(response).unwrap()`. -/
def send (d : Dialogs) (request : ℕ) (response : Response) (sender : Sender) : Eval Dialogs := do
  let channel ← unwrap ((d.dialogs request).channel.send response)
  .ok (d.set request ⟨sender, channel⟩)

/-- The tasks of `client::handle` share a thread, so that none of them runs while
the response loop does. -/
def step (d : Dialogs) : DialogLabel → Option (Eval Dialogs)
  | .handle host =>
      match d.looping, d.contexts with
      | none, context :: contexts =>
          let sender := Sender.of host context
          let d := d.set d.requests { d.dialogs d.requests with sender := sender }
          some (.ok { d with
            contexts := contexts
            requests := d.requests + 1
            looping := if sender.isLoop then some d.requests else none })
      | _, _ => none
  | .respond =>
      match d.looping with
      | none => none
      | some request =>
          match (d.dialogs request).sender with
          | .loop [] =>
              let d := d.set request { d.dialogs request with sender := .dropped }
              some (.ok { d with looping := none })
          | .loop (response :: rest) => some (d.send request response (.loop rest))
          | _ => none
  | .answer request response =>
      match d.looping, (d.dialogs request).sender with
      | none, .once => some (d.send request response .dropped)
      | _, _ => none
  | .notify request response =>
      match d.looping, (d.dialogs request).sender with
      | none, .subscriber =>
          -- a subscriber goes when it cannot send
          match (d.dialogs request).channel.send response with
          | some channel => some (.ok (d.set request ⟨.subscriber, channel⟩))
          | none => some (.ok (d.set request { d.dialogs request with sender := .dropped }))
      | _, _ => none
  | .recv request =>
      (d.dialogs request).channel.recv.map fun channel =>
        .ok (d.set request { d.dialogs request with channel := channel })
  | .written request ok =>
      ((d.dialogs request).channel.written ok).map fun channel =>
        .ok (d.set request { d.dialogs request with channel := channel })

def next (d : Dialogs) (label : DialogLabel) : Option Dialogs :=
  match d.step label with
  | some (.ok d') => some d'
  | _ => none

/-- The step does not panic. -/
def NoPanic (d : Dialogs) (label : DialogLabel) : Prop := d.step label ≠ some (.error .panic)

variable {d d' : Dialogs} {request : ℕ} {host : Host}

theorem next_of_step {label : DialogLabel} (h : d.step label = some (.ok d')) :
    d.next label = some d' := by
  rw [next, h]

theorem step_of_next {label : DialogLabel} (h : d.next label = some d') :
    d.step label = some (.ok d') := by
  unfold next at h
  split at h
  next hstep =>
    cases h
    exact hstep
  · cases h

@[simp] theorem dialogs_set (d : Dialogs) (request : ℕ) (dialog : Dialog) :
    (d.set request dialog).dialogs = Function.update d.dialogs request dialog := rfl

@[simp] theorem contexts_set (d : Dialogs) (request : ℕ) (dialog : Dialog) :
    (d.set request dialog).contexts = d.contexts := rfl

@[simp] theorem requests_set (d : Dialogs) (request : ℕ) (dialog : Dialog) :
    (d.set request dialog).requests = d.requests := rfl

@[simp] theorem looping_set (d : Dialogs) (request : ℕ) (dialog : Dialog) :
    (d.set request dialog).looping = d.looping := rfl

theorem send_eq_ok {response : Response} {sender : Sender}
    (h : d.send request response sender = .ok d') :
    ∃ channel, d' = d.set request ⟨sender, channel⟩ := by
  obtain ⟨channel, -, h⟩ := bind_eq_ok.mp h
  cases h
  exact ⟨channel, rfl⟩

/-- Nothing was sent to a fresh channel, so that its receiver is there. -/
theorem send_of_new {response : Response} {sender : Sender}
    (hnew : (d.dialogs request).channel = .new) : Returns (d.send request response sender) := by
  rw [send, hnew, Mpsc.send_new, unwrap_some, ok_bind]
  exact returns_ok _

/-! ## One response each -/

/-- An answer of at most one response. -/
def Single (context : ExecutionContext) : Prop :=
  ∀ responses, context = .now responses → responses.length ≤ 1

/-- How many unwrapped sends are to come. -/
def sends : Sender → ℕ
  | .command => 1
  | .loop responses => responses.length
  | .once => 1
  | .subscriber => 0
  | .dropped => 0

/-- The unwrapped send that is to come is the first. -/
def Fresh (dialog : Dialog) : Prop :=
  sends dialog.sender = 0 ∨ sends dialog.sender = 1 ∧ dialog.channel = .new

structure Inv (d : Dialogs) : Prop where
  contexts : ∀ context ∈ d.contexts, Single context
  fresh : ∀ request, Fresh (d.dialogs request)
  unhandled : ∀ request, d.requests ≤ request → (d.dialogs request).sender = .command

theorem inv_start {contexts : List ExecutionContext} (h : ∀ context ∈ contexts, Single context) :
    Inv (start contexts) :=
  ⟨h, fun _ => Or.inr ⟨rfl, rfl⟩, fun _ _ => rfl⟩

theorem sends_of {context : ExecutionContext} (h : Single context) (host : Host) :
    sends (Sender.of host context) ≤ 1 := by
  cases context with
  | tcpEventCallback => exact le_rfl
  | tcpEventSubscriber => exact Nat.zero_le 1
  | now responses => exact h responses rfl
  | ping hostname port =>
      rw [Sender.of]
      split
      · exact le_rfl
      · exact le_rfl

/-- A dialog in which an unwrapped send is to come has a fresh channel. -/
theorem Inv.channel_eq (hinv : Inv d) (h : 1 ≤ sends (d.dialogs request).sender) :
    (d.dialogs request).channel = .new := by
  rcases hinv.fresh request with hzero | ⟨-, hnew⟩
  · omega
  · exact hnew

theorem Inv.sends_le (hinv : Inv d) (request : ℕ) : sends (d.dialogs request).sender ≤ 1 := by
  rcases hinv.fresh request with hzero | ⟨hone, -⟩
  · omega
  · omega

/-- A dialog is handled when its command is. -/
theorem Inv.lt_requests (hinv : Inv d) (h : (d.dialogs request).sender ≠ .command) :
    request < d.requests := by
  by_contra hle
  exact h (hinv.unhandled request (by omega))

/-- A step that changes one handled dialog. -/
theorem Inv.set (hinv : Inv d) {dialog : Dialog} (hfresh : Fresh dialog)
    (hhandled : (d.dialogs request).sender ≠ .command) : Inv (d.set request dialog) where
  contexts := hinv.contexts
  fresh := fun request' => by
    rw [dialogs_set, Function.update_apply]
    split
    · exact hfresh
    · exact hinv.fresh request'
  unhandled := fun request' hle => by
    have hlt := hinv.lt_requests hhandled
    have hne : request' ≠ request := by
      rw [requests_set] at hle
      omega
    rw [dialogs_set, Function.update_of_ne hne]
    exact hinv.unhandled request' hle

theorem Inv.looping (hinv : Inv d) (looping : Option ℕ) : Inv { d with looping := looping } :=
  ⟨hinv.contexts, hinv.fresh, hinv.unhandled⟩

/-- The receiver of a fresh channel has nothing to do. -/
theorem Inv.received (hinv : Inv d) {channel : Mpsc Response}
    (hreceived : (d.dialogs request).channel ≠ .new) :
    Inv (d.set request { d.dialogs request with channel := channel }) := by
  rcases hinv.fresh request with hzero | ⟨-, hnew⟩
  · refine hinv.set (Or.inl hzero) fun hcommand => ?_
    rw [hcommand] at hzero
    cases hzero
  · exact absurd hnew hreceived

theorem Inv.noPanic (hinv : Inv d) (label : DialogLabel) : d.NoPanic label := by
  intro hpanic
  have hsend : ∀ {request response sender},
      1 ≤ sends (d.dialogs request).sender → d.send request response sender ≠ .error .panic := by
    intro request response sender hsends hpanic
    obtain ⟨d', hok⟩ : Returns (d.send request response sender) :=
      send_of_new (hinv.channel_eq hsends)
    rw [hok] at hpanic
    cases hpanic
  cases label with
  | handle host =>
      rw [step] at hpanic
      split at hpanic
      · cases hpanic
      · cases hpanic
  | respond =>
      rw [step] at hpanic
      split at hpanic
      · cases hpanic
      next request _ =>
        split at hpanic
        · cases hpanic
        next response rest hsender =>
          exact hsend (by rw [hsender]; exact Nat.le_add_left ..) (Option.some.inj hpanic)
        · cases hpanic
  | answer request response =>
      rw [step] at hpanic
      split at hpanic
      next hsender => exact hsend (by rw [hsender]; exact le_rfl) (Option.some.inj hpanic)
      · cases hpanic
  | notify request response =>
      rw [step] at hpanic
      split at hpanic
      · split at hpanic
        · cases hpanic
        · cases hpanic
      · cases hpanic
  | recv request =>
      obtain ⟨channel, -, h⟩ := Option.map_eq_some_iff.mp hpanic
      cases h
  | written request ok =>
      obtain ⟨channel, -, h⟩ := Option.map_eq_some_iff.mp hpanic
      cases h

/-- A command starts a dialog with one response at most. -/
theorem Inv.handled (hinv : Inv d) (host : Host) {context : ExecutionContext}
    {contexts : List ExecutionContext} (hcontexts : d.contexts = context :: contexts)
    (looping : Option ℕ) :
    Inv { d.set d.requests { d.dialogs d.requests with sender := .of host context } with
      contexts := contexts, requests := d.requests + 1, looping := looping } := by
  have hsingle : Single context := hinv.contexts context (by simp [hcontexts])
  have hcommand := hinv.unhandled d.requests le_rfl
  have hnew : (d.dialogs d.requests).channel = .new :=
    hinv.channel_eq (by rw [hcommand]; exact le_rfl)
  refine ⟨fun context' hcontext' => hinv.contexts context' (by simp [hcontexts, hcontext']),
    fun request => ?_, fun request hle => ?_⟩
  · show Fresh (Function.update d.dialogs d.requests _ request)
    rw [Function.update_apply]
    split
    · have hle := sends_of hsingle host
      rcases Nat.le_one_iff_eq_zero_or_eq_one.mp hle with hzero | hone
      · exact Or.inl hzero
      · exact Or.inr ⟨hone, hnew⟩
    · exact hinv.fresh request
  · have hlt : d.requests < request := hle
    show (Function.update d.dialogs d.requests _ request).sender = .command
    rw [Function.update_of_ne (by omega)]
    exact hinv.unhandled request (by omega)

theorem Inv.next (hinv : Inv d) {label : DialogLabel} (h : d.next label = some d') : Inv d' := by
  have h := step_of_next h
  cases label with
  | handle host =>
      rw [step] at h
      split at h
      next context contexts _ hcontexts =>
        cases h
        exact hinv.handled host hcontexts _
      · cases h
  | respond =>
      rw [step] at h
      split at h
      · cases h
      next request hlooping =>
        split at h
        next hsender =>
          cases h
          refine (hinv.set (Or.inl rfl) ?_).looping none
          rw [hsender]
          exact fun h => nomatch h
        next response rest hsender =>
          obtain ⟨channel, rfl⟩ := send_eq_ok (Option.some.inj h)
          -- this was the only response
          have hle := hinv.sends_le request
          rw [hsender] at hle
          have hlength : rest.length = 0 := by simpa [sends] using hle
          refine hinv.set (Or.inl hlength) ?_
          rw [hsender]
          exact fun h => nomatch h
        · cases h
  | answer request response =>
      rw [step] at h
      split at h
      next hsender =>
        obtain ⟨channel, rfl⟩ := send_eq_ok (Option.some.inj h)
        refine hinv.set (Or.inl rfl) ?_
        rw [hsender]
        exact fun h => nomatch h
      · cases h
  | notify request response =>
      rw [step] at h
      split at h
      next hsender =>
        have hhandled : (d.dialogs request).sender ≠ .command := by
          rw [hsender]
          exact fun h => nomatch h
        split at h
        · cases h
          exact hinv.set (Or.inl rfl) hhandled
        · cases h
          exact hinv.set (Or.inl rfl) hhandled
      · cases h
  | recv request =>
      obtain ⟨channel, hrecv, h⟩ := Option.map_eq_some_iff.mp h
      cases h
      refine hinv.received fun hnew => ?_
      rw [hnew, Mpsc.recv_new] at hrecv
      cases hrecv
  | written request ok =>
      obtain ⟨channel, hwritten, h⟩ := Option.map_eq_some_iff.mp h
      cases h
      refine hinv.received fun hnew => ?_
      rw [hnew, Mpsc.written_new] at hwritten
      cases hwritten

/-! ## A second response -/

theorem step_respond {response : Response} {rest : List Response} {queue : List Response}
    (hlooping : d.looping = some request)
    (hdialog : d.dialogs request = ⟨.loop (response :: rest), ⟨queue, .waiting⟩⟩) :
    d.step .respond =
      some (.ok (d.set request ⟨.loop rest, ⟨queue ++ [response], .waiting⟩⟩)) := by
  rw [step, hlooping]
  simp only [hdialog, send, Mpsc.send_waiting, unwrap_some, ok_bind]

theorem step_recv {channel : Mpsc Response}
    (hrecv : (d.dialogs request).channel.recv = some channel) :
    d.step (.recv request) =
      some (.ok (d.set request { d.dialogs request with channel := channel })) := by
  rw [step, hrecv]
  rfl

theorem step_written {channel : Mpsc Response} (ok : Bool)
    (hwritten : (d.dialogs request).channel.written ok = some channel) :
    d.step (.written request ok) =
      some (.ok (d.set request { d.dialogs request with channel := channel })) := by
  rw [step, hwritten]
  rfl

/-- A controller that goes away after the first of several responses. -/
theorem length_le_one {responses : List Response} (halways : Always next NoPanic d)
    (hlooping : d.looping = some request)
    (hdialog : d.dialogs request = ⟨.loop responses, .new⟩) : responses.length ≤ 1 := by
  by_contra hlength
  obtain ⟨first, second, rest, rfl⟩ : ∃ first second rest, responses = first :: second :: rest := by
    match responses, hlength with
    | [], hlength => exact absurd (Nat.zero_le 1) hlength
    | [_], hlength => exact absurd le_rfl hlength
    | first :: second :: rest, _ => exact ⟨first, second, rest, rfl⟩
  -- the first response is sent, taken, and not written
  have hsent := halways.after (next_of_step (step_respond hlooping hdialog))
  have htaken := hsent.after (next_of_step (step_recv (by
    rw [dialogs_set, Function.update_self]
    exact Mpsc.recv_waiting first [])))
  have hgone := htaken.after (next_of_step (step_written false (by
    rw [dialogs_set, Function.update_self]
    rfl)))
  refine hgone.attempt .respond ?_
  simp only [step, looping_set, hlooping, dialogs_set, Function.update_self, send, Mpsc.send]
  rfl

/-- The response loop gets to its end when the receiver is there all the time. -/
theorem exists_drained {responses queue : List Response} (halways : Always next NoPanic d)
    (hlooping : d.looping = some request)
    (hdialog : d.dialogs request = ⟨.loop responses, ⟨queue, .waiting⟩⟩) :
    ∃ d', Always next NoPanic d' ∧ d'.looping = none ∧ d'.contexts = d.contexts ∧
      d'.requests = d.requests ∧
      ∀ request', request' ≠ request → d'.dialogs request' = d.dialogs request' := by
  induction responses generalizing d queue with
  | nil =>
      have hdone : d.step .respond = some (.ok
          { d.set request ⟨.dropped, ⟨queue, .waiting⟩⟩ with looping := none }) := by
        rw [step, hlooping]
        simp only [hdialog]
      refine ⟨_, halways.after (next_of_step hdone), rfl, rfl, rfl, fun request' hne => ?_⟩
      exact Function.update_of_ne hne ..
  | cons response rest ih =>
      have hsent := halways.after (next_of_step (step_respond hlooping hdialog))
      obtain ⟨d', hd', hlooping', hcontexts, hrequests, hdialogs⟩ :=
        ih hsent hlooping (by rw [dialogs_set, Function.update_self])
      refine ⟨d', hd', hlooping', hcontexts, hrequests, fun request' hne => ?_⟩
      rw [hdialogs request' hne, dialogs_set, Function.update_of_ne hne]

/-- When nothing can panic, every command is answered with one response at most. -/
theorem single_of_always (halways : Always next NoPanic d) (hlooping : d.looping = none)
    (hunhandled : ∀ request, d.requests ≤ request → d.dialogs request = ⟨.command, .new⟩) :
    ∀ context ∈ d.contexts, Single context := by
  generalize hcontexts : d.contexts = contexts
  induction contexts generalizing d with
  | nil => simp
  | cons context rest ih =>
      have hhandle : d.step (.handle .online) = some (.ok
          { d.set d.requests ⟨Sender.of .online context, .new⟩ with
            contexts := rest
            requests := d.requests + 1
            looping := if (Sender.of .online context).isLoop then some d.requests else none }) := by
        simp only [step, hlooping, hcontexts, hunhandled d.requests le_rfl]
        rfl
      have hhandled := halways.after (next_of_step hhandle)
      have hrest : ∀ request, d.requests + 1 ≤ request →
          (d.set d.requests ⟨Sender.of .online context, .new⟩).dialogs request =
            ⟨.command, .new⟩ := by
        intro request hle
        rw [dialogs_set, Function.update_of_ne (by omega)]
        exact hunhandled request (by omega)
      rw [List.forall_mem_cons]
      cases context with
      | now responses =>
          have hdialog : (d.set d.requests ⟨.loop responses, .new⟩).dialogs d.requests =
              ⟨.loop responses, .new⟩ := by rw [dialogs_set, Function.update_self]
          constructor
          · rintro responses' heq
            cases heq
            exact length_le_one hhandled rfl hdialog
          · obtain ⟨d', hd', hlooping', hcontexts', hrequests, hdialogs⟩ :=
              exists_drained hhandled rfl hdialog
            refine ih hd' hlooping' (fun request hle => ?_) hcontexts'
            rw [hrequests] at hle
            have hlt : d.requests + 1 ≤ request := hle
            rw [hdialogs request (by omega)]
            exact hrest request hlt
      | tcpEventCallback => exact ⟨fun _ h => (nomatch h), ih hhandled rfl hrest rfl⟩
      | tcpEventSubscriber => exact ⟨fun _ h => (nomatch h), ih hhandled rfl hrest rfl⟩
      | ping hostname port => exact ⟨fun _ h => (nomatch h), ih hhandled rfl hrest rfl⟩

/-- Which answers are safe to give. -/
theorem always_noPanic_iff (contexts : List ExecutionContext) :
    Always next NoPanic (start contexts) ↔ ∀ context ∈ contexts, Single context := by
  constructor
  · intro halways
    exact single_of_always halways rfl fun _ _ => rfl
  · intro hsingle labels
    exact allAttempts_of_inv Inv (inv_start hsingle) (fun _ label hinv => hinv.noPanic label)
      fun _ _ _ hinv hnext => hinv.next hnext

end Dialogs

/-! ## Which commands are safe -/

/-- A command that is answered with at most one response: it does not return more
than one of the stored events or messages. -/
def Command.Brief (state : State) : Command → Prop
  | .events block => block = false → state.events.length ≤ 1
  | .pastMessages block =>
      block = false → ∀ s, state.server = .connected s → state.messageBuffer.length ≤ 1
  | _ => True

theorem single_answer (state : State) (response : Response) :
    Dialogs.Single (state.answer response).context := by
  rintro responses heq
  cases heq
  exact le_rfl

/-- The answer to a command that returns nothing that was stored. -/
theorem single_of_outcome {host : Host} {state : State} {command : Command} {outcome : Outcome}
    (h : CommandOutcome host state command outcome) (hevents : command ≠ .events false)
    (hmessages : command ≠ .pastMessages false) : Dialogs.Single outcome.context := by
  cases h.context_cases with
  | response hcontext =>
      rw [hcontext]
      rintro responses heq
      cases heq
      exact le_rfl
  | events => exact absurd rfl hevents
  | pastMessages => exact absurd rfl hmessages
  | subscribe hcontext | serverConnect _ _ hcontext | serverStatus hcontext =>
      rw [hcontext]
      rintro responses heq
      cases heq

theorem single_iff_brief {host : Host} {state : State} {command : Command} {outcome : Outcome}
    (h : handleCommand host state command = .ok outcome) :
    Dialogs.Single outcome.context ↔ Command.Brief state command := by
  have hnow : ∀ {responses : List Response},
      Dialogs.Single (.now responses) ↔ responses.length ≤ 1 := by
    intro responses
    exact ⟨fun h => h responses rfl, fun h responses' heq => by cases heq; exact h⟩
  by_cases hevents : command = .events false
  · subst hevents
    cases h
    rw [hnow, List.length_map]
    exact ⟨fun h _ => h, fun h => h rfl⟩
  by_cases hmessages : command = .pastMessages false
  · subst hmessages
    cases hserver : state.server with
    | connected s =>
        simp only [handleCommand, hserver] at h
        obtain ⟨responses, hresponses, h⟩ := bind_eq_ok.mp h
        cases h
        have hlength := (mapM_eq_ok_iff.mp hresponses).length_eq
        rw [hnow, ← hlength]
        exact ⟨fun h _ _ _ => h, fun h => h rfl s hserver⟩
    | disconnected =>
        simp only [handleCommand, hserver] at h
        cases h
        refine iff_of_true (single_answer _ _) ?_
        intro _ s hs
        rw [hserver] at hs
        cases hs
    | connecting sb =>
        simp only [handleCommand, hserver] at h
        cases h
        refine iff_of_true (single_answer _ _) ?_
        intro _ s hs
        rw [hserver] at hs
        cases hs
  · refine iff_of_true (single_of_outcome (handleCommand_eq_ok h) hevents hmessages) ?_
    cases command with
    | events block =>
        rintro rfl
        exact absurd rfl hevents
    | pastMessages block =>
        rintro rfl
        exact absurd rfl hmessages
    | _ => exact trivial

namespace Dialogs

/-- **Which commands a controller may abandon.**  `command::handle` survives every
interleaving with the connection tasks, whichever writes fail, if and only if each
of the commands is answered with at most one response. -/
theorem noPanic_iff {inputs : List (Host × State × Command)} {outcomes : List Outcome}
    (houtcomes : inputs.mapM (fun input => handleCommand input.1 input.2.1 input.2.2) =
      .ok outcomes) :
    Always next NoPanic (start (outcomes.map Outcome.context)) ↔
      ∀ input ∈ inputs, Command.Brief input.2.1 input.2.2 := by
  rw [always_noPanic_iff, List.forall_mem_map]
  have hall := mapM_eq_ok_iff.mp houtcomes
  clear houtcomes
  induction hall with
  | nil => simp
  | cons h _ ih =>
      rw [List.forall_mem_cons, List.forall_mem_cons]
      exact and_congr (single_iff_brief h) ih

/-- A daemon that has stored some events. -/
def eventful (count : ℕ) : State :=
  { State.idle with
    events := List.replicate count ⟨0, .userMuteStateChanged "you muted themselves"⟩ }

/-- Commands with one response each, the second of them later. -/
def brief : List (Host × State × Command) :=
  [(.offline, eventful 1, .events false),
    (.online, .idle, .serverConnect "localhost" 64738 "me" none false),
    (.offline, .idle, .status)]

theorem noPanic_brief :
    ∃ outcomes, brief.mapM (fun input => handleCommand input.1 input.2.1 input.2.2) =
      .ok outcomes ∧ Always next NoPanic (start (outcomes.map Outcome.context)) := by
  obtain ⟨outcomes, houtcomes⟩ :
      Returns (brief.mapM fun input => handleCommand input.1 input.2.1 input.2.2) := ⟨_, rfl⟩
  refine ⟨outcomes, houtcomes, (noPanic_iff houtcomes).mpr ?_⟩
  simp [brief, Command.Brief, eventful]

/-- A controller goes away while two events are sent to it. -/
theorem not_noPanic_events :
    ¬ ∀ (host : Host) (state : State) (command : Command) (outcome : Outcome),
      handleCommand host state command = .ok outcome →
        Always next NoPanic (start [outcome.context]) := by
  intro h
  have hattempts := h .offline (eventful 2) (.events false) _ rfl
    [.handle .offline, .respond, .recv 0, .written 0 false, .respond]
  exact hattempts.2.2.2.2.1 rfl

end Dialogs

end Mum
