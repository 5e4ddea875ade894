import Mum.Network.Pings

/-!
# Which pings are pending

The map of pending pings is meant for the requests that wait for a pong.  The
sender puts an entry into it and the receiver takes it out; but the task that
waits has only the other end of the channel, and when its second is over the entry
stays.  Only a pong with the same id takes it out then, so that every ping that is
never answered leaves an entry for ever (`exists_run_stale`).

There is a second way to leave one.  The ping is sent before its request is
registered, and a pong that comes between the two is taken for one that nobody
asked for.

Which requests were answered is not remembered by any task, so an observer takes
notes of it.

`PendingExact` says that the ids in the map are those of the outstanding requests.  Three
kinds of steps change one of the two sides: a registration, which breaks it if the pong was
there before (`pendingExact_register_iff`); a pong, which never does (`PendingExact.receive`);
and a timeout, which does unless another outstanding request has the same id
(`pendingExact_poll_iff`).  `Tidy` collects the conditions.  The observer's notes are tied
to the channels of the tasks by `Kept`, which holds of every run.
-/

namespace Mum.Pings

open Library Library.Eval Library.Log

/-- The ping of the request was sent. -/
def Pinged (x : Pings) (handle : ℕ) : Prop :=
  handle < x.handles ∧ handle ∉ x.requests.map PingRequest.handle

/-- The sender is done with the request. -/
def Processed (x : Pings) (handle : ℕ) : Prop :=
  handle < x.handles ∧ handle ∉ x.waiting.map PingRequest.handle

instance (x : Pings) (handle : ℕ) : Decidable (x.Pinged handle) :=
  inferInstanceAs (Decidable (_ ∧ _))

instance (x : Pings) (handle : ℕ) : Decidable (x.Processed handle) :=
  inferInstanceAs (Decidable (_ ∧ _))

/-- A pong answers the requests that have its id and whose ping was sent. -/
def noteAnswers (answered : ℕ → Bool) (x : Pings) (label : Label) (_ : Pings) : ℕ → Bool :=
  match label with
  | .receive packet =>
      fun handle => answered handle || decide (x.Pinged handle ∧ requestId handle = packet.id)
  | _ => answered

/-- The tasks, and which requests were answered. -/
abbrev Observed := Pings × (ℕ → Bool)

/-- A step that does not panic, with the notes. -/
def ObservedStep (x : Observed) (label : Label) (x' : Observed) : Prop :=
  observed next noteAnswers x label = some x'

def observedStart : Observed := (start, fun _ => false)

/-- The request has been sent and was neither answered nor has it timed out. -/
def Outstanding (x : Observed) (handle : ℕ) : Prop :=
  x.1.Processed handle ∧ x.2 handle = false ∧ .called handle .timedOut ∉ x.1.log

instance (x : Observed) (handle : ℕ) : Decidable (Outstanding x handle) :=
  inferInstanceAs (Decidable (_ ∧ _))

/-- The ids in the map are those of the outstanding requests. -/
def PendingExact (x : Observed) : Prop :=
  ∀ id, id ∈ x.1.pending ↔ ∃ handle, Outstanding x handle ∧ requestId handle = id

/-- The wait of a request is over, and nothing has come. -/
def TimesOut (x : Pings) (handle : ℕ) (elapsed : Bool) : Prop :=
  x.tasks.lookup handle = some none ∧ x.awaits handle ∧ elapsed

instance (x : Pings) (handle : ℕ) (elapsed : Bool) : Decidable (x.TimesOut handle elapsed) :=
  inferInstanceAs (Decidable (_ ∧ _))

/-- The step leaves no entry behind: no request is registered that was answered
already, and none times out unless another one with the same id is outstanding. -/
def Tidy (x : Observed) : Label → Prop
  | .register => ∀ request ∈ x.1.sent, x.2 request.handle = false
  | .poll handle elapsed => x.1.TimesOut handle elapsed →
      ∃ other < x.1.handles, other ≠ handle ∧ Outstanding x other ∧
        requestId other = requestId handle
  | _ => True

/-! ## Two steps in full -/

variable {p p' : Pings}

theorem register_cases (h : Step p .register p') :
    ∃ request, p.sent = some request ∧
      ((∃ handle, p.pending.lookup request.id = some handle) ∧ p' = { p with sent := none } ∨
        p.pending.lookup request.id = none ∧ p' = { p with
          sent := none
          pending := p.pending.insert request.id request.handle
          tasks := p.tasks.insert request.handle none
          log := p.log ++ [.registered request.handle] }) := by
  have hstep := next_eq_some.mp h
  rw [step] at hstep
  split at hstep
  · cases hstep
  next request hsent =>
    refine ⟨request, hsent, ?_⟩
    split at hstep
    next handle hoccupied =>
      cases hstep
      exact .inl ⟨⟨handle, hoccupied⟩, rfl⟩
    next hvacant =>
      cases hstep
      exact .inr ⟨hvacant, rfl⟩

/-- A poll that does something calls the callback. -/
theorem poll_cases {handle : ℕ} {elapsed : Bool} (h : Step p (.poll handle elapsed) p') :
    ∃ result, p' = p.call handle result ∧ (result = .timedOut ↔ p.TimesOut handle elapsed) := by
  have hstep := next_eq_some.mp h
  rw [step] at hstep
  split at hstep
  · cases hstep
  next position packet htask =>
    cases hstep
    exact ⟨_, rfl, by simp [TimesOut, htask]⟩
  next htask =>
    split at hstep
    next hdropped =>
      cases hstep
      refine ⟨_, rfl, iff_of_false (by intro h; cases h) fun h => ?_⟩
      rw [h.2.1] at hdropped
      cases hdropped
    next hawaits =>
      split at hstep
      next helapsed =>
        cases hstep
        exact ⟨_, rfl, iff_of_true rfl ⟨htask, by simpa using hawaits, helapsed⟩⟩
      · cases hstep

/-! ## Which requests were sent -/

/-- Only what waits matters. -/
theorem processed_congr (hwaiting : p'.waiting = p.waiting) (hhandles : p'.handles = p.handles)
    (handle : ℕ) : p'.Processed handle ↔ p.Processed handle := by
  rw [Processed, Processed, hhandles, hwaiting]

/-- A new request is not sent yet. -/
theorem not_mem_concat_iff {requests : List PingRequest} {request : PingRequest} {n handle : ℕ}
    (hrequest : request.handle = n) :
    (handle < n + 1 ∧ handle ∉ (requests ++ [request]).map PingRequest.handle) ↔
      handle < n ∧ handle ∉ requests.map PingRequest.handle := by
  rw [List.map_append, List.mem_append, List.map_singleton, List.mem_singleton, hrequest]
  constructor
  · rintro ⟨hlt, hnot⟩
    have hne : handle ≠ n := fun h => hnot (.inr h)
    exact ⟨by omega, fun h => hnot (.inl h)⟩
  · rintro ⟨hlt, hnot⟩
    refine ⟨by omega, ?_⟩
    rintro (h | h)
    · exact hnot h
    · omega

theorem pinged_request (socketAddr : SocketAddr) (handle : ℕ) :
    ({ p with
      pingCount := p.pingCount + 1
      handles := p.handles + 1
      requests := p.requests ++ [⟨p.pingCount, socketAddr, p.handles⟩] } : Pings).Pinged handle ↔
      p.Pinged handle :=
  not_mem_concat_iff rfl

theorem processed_request (socketAddr : SocketAddr) (handle : ℕ) :
    ({ p with
      pingCount := p.pingCount + 1
      handles := p.handles + 1
      requests := p.requests ++ [⟨p.pingCount, socketAddr, p.handles⟩] } : Pings).Processed
        handle ↔ p.Processed handle := by
  rw [Processed, Processed, waiting, ← List.append_assoc]
  exact not_mem_concat_iff rfl

/-- The first request leaves the queue. -/
theorem not_mem_tail_iff {request : PingRequest} {requests : List PingRequest} {n handle : ℕ}
    (hlt : request.handle < n)
    (hincreasing : ((request :: requests).map PingRequest.handle).Pairwise (· < ·)) :
    (handle < n ∧ handle ∉ requests.map PingRequest.handle) ↔
      (handle < n ∧ handle ∉ (request :: requests).map PingRequest.handle) ∨
        handle = request.handle := by
  rw [List.map_cons, List.pairwise_cons] at hincreasing
  rw [List.map_cons, List.mem_cons, not_or]
  constructor
  · rintro ⟨hhandle, hrest⟩
    by_cases heq : handle = request.handle
    · exact .inr heq
    · exact .inl ⟨hhandle, heq, hrest⟩
  · rintro (⟨hhandle, -, hrest⟩ | rfl)
    · exact ⟨hhandle, hrest⟩
    · exact ⟨hlt, fun h => absurd (hincreasing.1 _ h) (Nat.lt_irrefl _)⟩

theorem pinged_send (hordered : Ordered p) {request : PingRequest} {requests : List PingRequest}
    (hrequests : p.requests = request :: requests) (handle : ℕ) :
    ({ p with requests := requests, sent := some request } : Pings).Pinged handle ↔
      p.Pinged handle ∨ handle = request.handle := by
  have hids := hordered.ids
  have hincreasing := hordered.increasing
  rw [waiting, hrequests] at hids hincreasing
  rw [List.map_append, List.pairwise_append] at hincreasing
  rw [Pinged, Pinged, hrequests]
  exact not_mem_tail_iff (hids request (List.mem_append_right _ List.mem_cons_self)).2
    hincreasing.2.1

theorem processed_register (hordered : Ordered p) {request : PingRequest}
    (hsent : p.sent = some request) (hstep : Step p .register p') (handle : ℕ) :
    p'.Processed handle ↔ p.Processed handle ∨ handle = request.handle := by
  obtain ⟨hhandles, hwaiting⟩ : p'.handles = p.handles ∧ p'.waiting = p.requests := by
    obtain ⟨request', -, ⟨-, rfl⟩ | ⟨-, rfl⟩⟩ := register_cases hstep
    · exact ⟨rfl, rfl⟩
    · exact ⟨rfl, rfl⟩
  have hold := waiting_of_sent hsent
  have hids := hordered.ids
  have hincreasing := hordered.increasing
  rw [hold] at hids hincreasing
  rw [Processed, Processed, hhandles, hwaiting, hold]
  exact not_mem_tail_iff (hids request List.mem_cons_self).2 hincreasing

theorem Processed.pinged {handle : ℕ} (h : p.Processed handle) : p.Pinged handle := by
  refine ⟨h.1, fun hmem => h.2 ?_⟩
  rw [waiting, List.map_append]
  exact List.mem_append_right _ hmem

/-! ## What the notes say -/

/-- What holds of the tasks and the notes in every run. -/
structure Kept (x : Observed) : Prop where
  ordered : Ordered x.1
  tracked : Tracked x.1.pending x.1.tasks x.1.log
  /-- Only requests that were sent are answered. -/
  answered : ∀ handle, x.2 handle → x.1.Pinged handle
  /-- With the request that is being registered, all requests with its id were
  answered. -/
  together : ∀ request ∈ x.1.sent, x.2 request.handle →
    ∀ handle, x.1.Pinged handle → requestId handle = request.id → x.2 handle

theorem kept_start : Kept observedStart where
  ordered := ordered_start
  tracked := tracked_start
  answered := fun _ h => by cases h
  together := fun _ h => by cases h

/-- A request that waits to be sent was not answered. -/
theorem Kept.unanswered {x : Observed} (h : Kept x) {request : PingRequest}
    (hrequest : request ∈ x.1.requests) : x.2 request.handle = false := by
  rw [Bool.eq_false_iff]
  intro hanswered
  exact (h.answered _ hanswered).2 (List.mem_map_of_mem hrequest)

/-- A pong, known or not. -/
theorem Kept.receive {x : Observed} (h : Kept x) {packet : PongPacket}
    (hordered : Ordered p') (htracked : Tracked p'.pending p'.tasks p'.log)
    (hhandles : p'.handles = x.1.handles) (hrequests : p'.requests = x.1.requests)
    (hsent : p'.sent = x.1.sent) :
    Kept (p', noteAnswers x.2 x.1 (.receive packet) p') := by
  have hpinged : ∀ handle, p'.Pinged handle ↔ x.1.Pinged handle := by
    intro handle
    rw [Pinged, Pinged, hhandles, hrequests]
  have hnote : ∀ handle, noteAnswers x.2 x.1 (.receive packet) p' handle ↔
      x.2 handle ∨ x.1.Pinged handle ∧ requestId handle = packet.id := by
    intro handle
    rw [noteAnswers, Bool.or_eq_true, decide_eq_true_eq]
  refine ⟨hordered, htracked, fun handle hanswered => ?_, fun request hrequest hanswered handle
    hhandle hid => ?_⟩
  · rw [hpinged]
    rcases (hnote handle).mp hanswered with hold | hnew
    · exact h.answered handle hold
    · exact hnew.1
  · dsimp only at hrequest hanswered hhandle
    rw [hsent] at hrequest
    rw [hpinged] at hhandle
    refine (hnote handle).mpr ?_
    rcases (hnote _).mp hanswered with hold | hnew
    · exact .inl (h.together request hrequest hold handle hhandle hid)
    · rw [← (h.ordered.sent (Option.mem_def.mp hrequest)).1] at hnew
      exact .inr ⟨hhandle, hid.trans hnew.2⟩

theorem kept_step {x x' : Observed} {label : Label} (h : Kept x) (hstep : ObservedStep x label x') :
    Kept x' := by
  obtain ⟨hnext, hnote⟩ := observed_eq_some.mp hstep
  obtain ⟨p', answered'⟩ := x'
  dsimp only at hnext hnote
  subst hnote
  have hordered := ordered_step h.ordered hnext
  have htracked := tracked_step h.ordered h.tracked hnext
  cases step_cases hnext with
  | request socketAddr =>
      refine ⟨hordered, htracked, fun handle hanswered => ?_, fun request hrequest hanswered handle
        hhandle hid => ?_⟩
      · exact (pinged_request socketAddr handle).mpr (h.answered handle hanswered)
      · exact h.together request hrequest hanswered handle
          ((pinged_request socketAddr handle).mp hhandle) hid
  | send hsent hrequests =>
      refine ⟨hordered, htracked, fun handle hanswered => ?_, fun request hrequest hanswered => ?_⟩
      · exact (pinged_send h.ordered hrequests handle).mpr (.inl (h.answered handle hanswered))
      · cases hrequest
        have hhead := h.unanswered (by rw [hrequests]; exact List.mem_cons_self)
        exact absurd hanswered (Bool.eq_false_iff.mp hhead)
  | duplicate | register =>
      exact ⟨hordered, htracked, h.answered, fun request hrequest => by cases hrequest⟩
  | unknown | receive => exact h.receive hordered htracked rfl rfl rfl
  | receiveOther | receiveError | pong | noPong =>
      exact ⟨hordered, htracked, h.answered, h.together⟩

/-! ## The ids in the map -/

variable {x x' : Observed}

/-- A step that keeps the map and the outstanding requests. -/
theorem PendingExact.congr (h : PendingExact x) (hpending : x'.1.pending = x.1.pending)
    (houtstanding : ∀ handle, Outstanding x' handle ↔ Outstanding x handle) :
    PendingExact x' := by
  intro id
  rw [hpending, h id]
  exact exists_congr fun handle => and_congr_left fun _ => (houtstanding handle).symm

/-- A pong, known or not, takes its id out of the map. -/
theorem PendingExact.receive (h : PendingExact x) {packet : PongPacket}
    (hwaiting : p'.waiting = x.1.waiting) (hhandles : p'.handles = x.1.handles)
    (hlog : p'.log = x.1.log ++ [.received packet])
    (hpending : ∀ id, id ∈ p'.pending ↔ id ∈ x.1.pending ∧ id ≠ packet.id) :
    PendingExact (p', noteAnswers x.2 x.1 (.receive packet) p') := by
  have houtstanding : ∀ handle,
      Outstanding (p', noteAnswers x.2 x.1 (.receive packet) p') handle ↔
        Outstanding x handle ∧ requestId handle ≠ packet.id := by
    intro handle
    unfold Outstanding
    dsimp only
    rw [processed_congr hwaiting hhandles, noteAnswers, Bool.or_eq_false_iff,
      decide_eq_false_iff_not, hlog, List.mem_append, List.mem_singleton]
    constructor
    · rintro ⟨hprocessed, ⟨hanswered, hother⟩, hlog⟩
      exact ⟨⟨hprocessed, hanswered, fun h => hlog (.inl h)⟩,
        fun hid => hother ⟨hprocessed.pinged, hid⟩⟩
    · rintro ⟨⟨hprocessed, hanswered, hlog⟩, hid⟩
      refine ⟨hprocessed, ⟨hanswered, fun h => hid h.2⟩, ?_⟩
      rintro (h | h)
      · exact hlog h
      · cases h
  intro id
  rw [hpending, h id]
  constructor
  · rintro ⟨⟨handle, hout, rfl⟩, hne⟩
    exact ⟨handle, (houtstanding handle).mpr ⟨hout, hne⟩, rfl⟩
  · rintro ⟨handle, hout, rfl⟩
    obtain ⟨hout, hne⟩ := (houtstanding handle).mp hout
    exact ⟨⟨handle, hout, rfl⟩, hne⟩

/-- Nobody else with the id is outstanding when a request was answered before it is
registered. -/
theorem Kept.alone (h : Kept x) {request : PingRequest} (hsent : x.1.sent = some request)
    (hanswered : x.2 request.handle) {handle : ℕ} (hhandle : Outstanding x handle) :
    requestId handle ≠ request.id := by
  intro hid
  have hothers := h.together request hsent hanswered handle hhandle.1.pinged hid
  rw [hhandle.2.1] at hothers
  cases hothers

/-- After a registration the id is in the map, new or not. -/
theorem mem_pending_register {request : PingRequest} (hsent : p.sent = some request)
    (hstep : Step p .register p') (id : UInt64) :
    id ∈ p'.pending ↔ id ∈ p.pending ∨ id = request.id := by
  obtain ⟨request', hsent', hcase⟩ := register_cases hstep
  cases hsent.symm.trans hsent'
  rcases hcase with ⟨⟨handle, hoccupied⟩, rfl⟩ | ⟨-, rfl⟩
  · refine ⟨.inl, ?_⟩
    rintro (hmem | rfl)
    · exact hmem
    · exact HashMap.mem_iff_lookup.mpr ⟨handle, hoccupied⟩
  · rw [AList.mem_insert, or_comm]

/-- A request becomes outstanding when the sender is done with it, unless it was
answered already. -/
theorem outstanding_register (hkept : Kept x) {request : PingRequest}
    (hsent : x.1.sent = some request) (hstep : Step x.1 .register p') (handle : ℕ) :
    Outstanding (p', x.2) handle ↔
      Outstanding x handle ∨ handle = request.handle ∧ x.2 request.handle = false := by
  have hlog : .called handle .timedOut ∈ p'.log ↔ .called handle .timedOut ∈ x.1.log := by
    obtain ⟨request', -, ⟨-, rfl⟩ | ⟨-, rfl⟩⟩ := register_cases hstep
    · rfl
    · simp
  -- its callback cannot have been called before it is registered
  have hnot : .called request.handle .timedOut ∉ x.1.log := by
    intro hcalled
    obtain ⟨j, hj⟩ := List.mem_iff_getElem?.mp hcalled
    obtain ⟨i, hi⟩ := hkept.tracked.called j _ _ hj
    exact (hkept.ordered.sent hsent).2 i hi
  unfold Outstanding
  dsimp only
  rw [processed_register hkept.ordered hsent hstep, hlog]
  constructor
  · rintro ⟨hold | rfl, hanswered, hcalled⟩
    · exact .inl ⟨hold, hanswered, hcalled⟩
    · exact .inr ⟨rfl, hanswered⟩
  · rintro (⟨hold, hanswered, hcalled⟩ | ⟨rfl, hanswered⟩)
    · exact ⟨.inl hold, hanswered, hcalled⟩
    · exact ⟨.inr rfl, hanswered, hnot⟩

/-- A registration is tidy if the request was not answered before. -/
theorem pendingExact_register_iff (hkept : Kept x) (h : PendingExact x)
    (hstep : Step x.1 .register p') : PendingExact (p', x.2) ↔ Tidy x .register := by
  obtain ⟨request, hsent, -⟩ := register_cases hstep
  have htidy : Tidy x .register ↔ x.2 request.handle = false := by
    rw [Tidy, hsent]
    simp
  have hid := (hkept.ordered.sent hsent).1
  have hout := outstanding_register hkept hsent hstep
  have hpending := mem_pending_register hsent hstep
  rw [htidy]
  constructor
  · intro hexact
    rw [Bool.eq_false_iff]
    intro hanswered
    obtain ⟨handle, hhandle, hsame⟩ := (hexact request.id).mp ((hpending _).mpr (.inr rfl))
    rcases (hout handle).mp hhandle with hold | ⟨-, hnot⟩
    · exact hkept.alone hsent hanswered hold hsame
    · rw [hanswered] at hnot
      cases hnot
  · intro hnot id
    rw [hpending, h id]
    constructor
    · rintro (⟨handle, hhandle, rfl⟩ | rfl)
      · exact ⟨handle, (hout handle).mpr (.inl hhandle), rfl⟩
      · exact ⟨request.handle, (hout _).mpr (.inr ⟨rfl, hnot⟩), hid.symm⟩
    · rintro ⟨handle, hhandle, rfl⟩
      rcases (hout handle).mp hhandle with hold | ⟨rfl, -⟩
      · exact .inl ⟨handle, hold, rfl⟩
      · exact .inr hid.symm

/-- The id of a request whose sending end is in the map is pending. -/
theorem mem_pending_of_awaits (hkept : Kept x) {handle : ℕ} (h : x.1.awaits handle) :
    requestId handle ∈ x.1.pending := by
  obtain ⟨⟨id, handle'⟩, hmem, heq⟩ := List.any_eq_true.mp h
  obtain rfl : handle' = handle := by simpa using heq
  have hlookup := HashMap.mem_iter.mp hmem
  rw [← (hkept.tracked.entry id handle' hlookup).1]
  exact HashMap.mem_iff_lookup.mpr ⟨handle', hlookup⟩

theorem outstanding_call {handle : ℕ} {result : PingResult} (other : ℕ) :
    Outstanding (x.1.call handle result, x.2) other ↔
      Outstanding x other ∧ ¬ (other = handle ∧ result = .timedOut) := by
  have hlog : .called other .timedOut ∈ (x.1.call handle result).log ↔
      .called other .timedOut ∈ x.1.log ∨ other = handle ∧ result = .timedOut := by
    rw [call, List.mem_append, List.mem_singleton, PingEvent.called.injEq, eq_comm (b := result)]
  unfold Outstanding
  dsimp only
  rw [processed_congr rfl rfl, hlog, not_or]
  tauto

/-- A poll is tidy if it is no timeout, or another request has the same id. -/
theorem pendingExact_poll_iff (hkept : Kept x) (h : PendingExact x) {handle : ℕ} {elapsed : Bool}
    (hstep : Step x.1 (.poll handle elapsed) p') :
    PendingExact (p', x.2) ↔ Tidy x (.poll handle elapsed) := by
  obtain ⟨result, rfl, hresult⟩ := poll_cases hstep
  by_cases htimesOut : x.1.TimesOut handle elapsed
  · have hpending := mem_pending_of_awaits hkept htimesOut.2.1
    obtain rfl := hresult.mpr htimesOut
    constructor
    · intro hexact _
      obtain ⟨other, hother, hid⟩ := (hexact _).mp hpending
      obtain ⟨hother, hne⟩ := (outstanding_call other).mp hother
      exact ⟨other, hother.1.1, fun heq => hne ⟨heq, rfl⟩, hother, hid⟩
    · intro htidy id
      obtain ⟨other, -, hne, hother, hid⟩ := htidy htimesOut
      refine (h id).trans ⟨?_, ?_⟩
      · rintro ⟨handle', hhandle', rfl⟩
        by_cases heq : handle' = handle
        · rw [heq]
          exact ⟨other, (outstanding_call other).mpr ⟨hother, fun h => hne h.1⟩, hid⟩
        · exact ⟨handle', (outstanding_call handle').mpr ⟨hhandle', fun h => heq h.1⟩, rfl⟩
      · rintro ⟨handle', hhandle', rfl⟩
        exact ⟨handle', ((outstanding_call handle').mp hhandle').1, rfl⟩
  · have hne : result ≠ .timedOut := fun heq => htimesOut (hresult.mp heq)
    refine iff_of_true (h.congr rfl fun other => ?_) fun h => absurd h htimesOut
    rw [outstanding_call]
    exact and_iff_left fun h => hne h.2

/-- A step is tidy if the ids in the map are those of the outstanding requests after
it. -/
theorem pendingExact_step_iff (hkept : Kept x) (h : PendingExact x) {label : Label}
    (hstep : ObservedStep x label x') : PendingExact x' ↔ Tidy x label := by
  obtain ⟨hnext, hnote⟩ := observed_eq_some.mp hstep
  obtain ⟨p', answered'⟩ := x'
  dsimp only at hnext hnote
  subst hnote
  cases label with
  | register => exact pendingExact_register_iff hkept h hnext
  | poll handle elapsed => exact pendingExact_poll_iff hkept h hnext
  | request socketAddr =>
      cases step_cases hnext
      refine iff_of_true (h.congr rfl fun handle => ?_) trivial
      exact and_congr_left fun _ => processed_request socketAddr handle
  | send sent =>
      cases step_cases hnext with
      | @send request requests hsent hrequests =>
          let sending : Pings := { x.1 with requests := requests, sent := some request }
          have hwaiting : sending.waiting = x.1.waiting := by
            rw [waiting, waiting, hsent, hrequests]
            rfl
          refine iff_of_true (h.congr rfl fun handle => ?_) trivial
          exact and_congr_left fun _ => processed_congr hwaiting rfl handle
  | receive packet =>
      refine iff_of_true ?_ trivial
      cases step_cases hnext with
      | unknown hvacant =>
          refine h.receive rfl rfl rfl fun id => (and_iff_left_of_imp ?_).symm
          rintro hmem rfl
          obtain ⟨handle, hlookup⟩ := HashMap.mem_iff_lookup.mp hmem
          cases hvacant.symm.trans hlookup
      | receive hoccupied =>
          refine h.receive rfl rfl rfl fun id => ?_
          rw [AList.mem_erase, and_comm]
  | receiveOther =>
      cases step_cases hnext
      exact iff_of_true (h.congr rfl fun handle => Iff.rfl) trivial
  | receiveError =>
      cases step_cases hnext
      exact iff_of_true (h.congr rfl fun handle => Iff.rfl) trivial

theorem pendingExact_start : PendingExact observedStart := by
  intro id
  refine iff_of_false (AList.notMem_empty id) ?_
  rintro ⟨handle, hhandle, -⟩
  exact absurd hhandle.1.1 (Nat.not_lt_zero handle)

/-- **Pending pings.**  In a run, the ids in the map are those of the outstanding
requests in every state that is reached if and only if no ping times out, unless
another request with its id is outstanding, and none is answered before it is
registered. -/
theorem pendingExact_iff {trace : List (Label × Observed)}
    (hrun : Run ObservedStep observedStart trace) :
    AllSteps (fun _ _ x' => PendingExact x') observedStart trace ↔
      AllSteps (fun x label _ => Tidy x label) observedStart trace := by
  refine hrun.allSteps_iff (fun x => Kept x ∧ PendingExact x) ⟨kept_start, pendingExact_start⟩
    ?_ ?_
  · intro x label x' hinv hstep
    exact pendingExact_step_iff hinv.1 hinv.2 hstep
  · intro x label x' hinv hstep hexact
    exact ⟨kept_step hinv.1 hstep, hexact⟩

instance (x : Observed) : ∀ label, Decidable (Tidy x label)
  | .register => Option.decidableForallMem _
  | .poll handle elapsed => inferInstanceAs (Decidable (x.1.TimesOut handle elapsed → _))
  | .request _ | .send _ | .receive _ | .receiveOther | .receiveError => .isTrue trivial

/-- Two requests that are answered; a pong that nobody asked for comes between. -/
theorem pendingExact_answered :
    ∃ trace, follow (observed next noteAnswers) observedStart
        [.request ⟨1, 64738⟩, .request ⟨2, 64738⟩, .send true, .register, .send true, .register,
          .receive ⟨0, 0, 3, 100, 72000⟩, .receive ⟨0, 7, 3, 100, 72000⟩, .poll 0 true,
          .receive ⟨0, 1, 5, 100, 72000⟩, .poll 1 true] = some trace ∧
      AllSteps (fun _ _ x' => PendingExact x') observedStart trace :=
  ⟨Option.get _ (by decide), (Option.some_get _).symm,
    (pendingExact_iff (run_follow (fun _ _ _ h => h) (Option.some_get _).symm)).mpr (by decide)⟩

/-- A ping that is not answered. -/
theorem not_pendingExact_timedOut :
    ∃ trace, follow (observed next noteAnswers) observedStart
        [.request ⟨1, 64738⟩, .send true, .register, .poll 0 true] = some trace ∧
      ¬ AllSteps (fun _ _ x' => PendingExact x') observedStart trace := by
  refine ⟨_, rfl, fun h => ?_⟩
  obtain ⟨handle, hhandle, -⟩ := (h.2.2.2.1 0).mp (by decide)
  obtain rfl : handle = 0 := Nat.lt_one_iff.mp hhandle.1.1
  exact absurd hhandle (by decide)

/-! ## How large the map gets -/

/-- Without leftovers there are no more entries than outstanding requests. -/
theorem PendingExact.length_le (h : PendingExact x) :
    x.1.pending.iter.length ≤
      ((List.range x.1.handles).filter fun handle => Outstanding x handle).length := by
  have hkeys : x.1.pending.iter.length = x.1.pending.keys.length := by
    simp [HashMap.iter, AList.keys, List.keys]
  rw [hkeys, ← List.length_map requestId]
  refine (List.subperm_of_subset x.1.pending.keys_nodup fun id hid => ?_).length_le
  obtain ⟨handle, hhandle, rfl⟩ := (h id).mp hid
  refine List.mem_map_of_mem (List.mem_filter.mpr ⟨List.mem_range.mpr hhandle.1.1, ?_⟩)
  exact decide_eq_true hhandle

/-- So many pings timed out, and nothing is left but their entries. -/
structure Stale (n : ℕ) (p : Pings) : Prop where
  count : p.pingCount = requestId n
  handles : p.handles = n
  requests : p.requests = []
  sent : p.sent = none
  pending : ∀ id ∈ p.pending, ∃ handle < n, requestId handle = id
  length : p.pending.iter.length = n
  tasks : p.tasks = ∅

theorem stale_start : Stale 0 start :=
  ⟨rfl, rfl, rfl, rfl, fun _ h => absurd h (AList.notMem_empty _), rfl, rfl⟩

theorem requestId_injective {n n' : ℕ} (hlt : n < UInt64.size) (hlt' : n' < UInt64.size)
    (h : requestId n = requestId n') : n = n' := by
  have hnat := congrArg UInt64.toNat h
  rwa [requestId, requestId, UInt64.toNat_ofNat_of_lt' hlt, UInt64.toNat_ofNat_of_lt' hlt'] at hnat

/-- One more request is made, sent, registered and not answered. -/
theorem Stale.timeout {n : ℕ} (h : Stale n p) (hn : n < UInt64.size) (socketAddr : SocketAddr) :
    ∃ trace, Run Step p trace ∧ Stale (n + 1) (final p trace) := by
  obtain ⟨pingCount, handles, requests, sent, receiving, pending, tasks, log⟩ := p
  obtain ⟨hcount, hhandles, hrequests, hsent, hpending, hlength, htasks⟩ := h
  dsimp only at hcount hhandles hrequests hsent hpending hlength htasks
  subst hcount hhandles hrequests hsent htasks
  have hvacant : requestId handles ∉ pending := by
    intro hmem
    obtain ⟨handle, hlt, hid⟩ := hpending _ hmem
    exact absurd (requestId_injective (Nat.lt_trans hlt hn) hn hid) (Nat.ne_of_lt hlt)
  let request : PingRequest := ⟨requestId handles, socketAddr, handles⟩
  let made : Pings :=
    ⟨requestId handles + 1, handles + 1, [request], none, receiving, pending, ∅, log⟩
  let sent : Pings := { made with requests := [], sent := some request }
  let registered : Pings := { sent with
    sent := none
    pending := pending.insert (requestId handles) handles
    tasks := (∅ : HashMap ℕ _).insert handles none
    log := log ++ [.registered handles] }
  have hregister : Step sent .register registered := by
    have hlookup : sent.pending.lookup request.id = none := AList.lookup_eq_none.mpr hvacant
    refine next_eq_some.mpr ?_
    simp only [step, sent, hlookup]
    rfl
  have hpoll : Step registered (.poll handles true) (registered.call handles .timedOut) := by
    have htask : registered.tasks.lookup handles = some none := AList.lookup_insert _
    have hawaits : registered.awaits handles := by
      refine List.any_eq_true.mpr ⟨(requestId handles, handles), ?_, decide_eq_true rfl⟩
      exact HashMap.mem_iter.mpr (AList.lookup_insert _)
    refine next_eq_some.mpr ?_
    simp only [step, htask, hawaits]
    rfl
  refine ⟨[(.request socketAddr, made), (.send true, sent), (.register, registered),
    (.poll handles true, registered.call handles .timedOut)],
    .cons rfl (.cons rfl (.cons hregister (.cons hpoll .nil))), ?_⟩
  refine ⟨?_, rfl, rfl, rfl, ?_, ?_, ?_⟩
  · exact (requestId_succ handles).symm
  · intro id hid
    rcases (AList.mem_insert _).mp hid with rfl | hold
    · exact ⟨handles, Nat.lt_succ_self _, rfl⟩
    · obtain ⟨handle, hlt, hhandle⟩ := hpending id hold
      exact ⟨handle, Nat.lt_succ_of_lt hlt, hhandle⟩
  · have hentries : registered.pending.entries = ⟨requestId handles, handles⟩ :: pending.entries :=
      AList.entries_insert_of_notMem hvacant
    show registered.pending.iter.length = handles + 1
    rw [HashMap.iter, hentries, List.map_cons, List.length_cons]
    exact congrArg (· + 1) hlength
  · show ((∅ : HashMap ℕ (Option (ℕ × PongPacket))).insert handles none).erase handles = ∅
    rw [AList.insert_empty]
    exact AList.ext (List.kerase_cons_eq rfl)

/-- **The map grows with every ping that is not answered.**  As many entries as ids
can be left in it while no task waits. -/
theorem exists_run_stale {n : ℕ} (hn : n ≤ UInt64.size) :
    ∃ trace, Run Step start trace ∧ Stale n (final start trace) := by
  induction n with
  | zero => exact ⟨[], .nil, stale_start⟩
  | succ n ih =>
      obtain ⟨before, hbefore, hstale⟩ := ih (Nat.le_of_succ_le hn)
      obtain ⟨after, hafter, hstale'⟩ := hstale.timeout hn ⟨0, 64738⟩
      refine ⟨before ++ after, Run.append_iff.mpr ⟨hbefore, hafter⟩, ?_⟩
      rwa [final_append]

end Mum.Pings
