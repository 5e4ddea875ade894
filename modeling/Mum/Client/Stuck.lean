import Mum.Client.Lifecycle

/-!
# A daemon that nothing gets out of `Connecting`

`ServerDisconnect` works only while we are connected, and `ServerConnect` only while we
are disconnected.  In between it is for the TCP task to come to an end.  If it waits for
connection info then, and none is on its way, it never runs again: the only command that
publishes some is refused.

`View.Stuck` is this state, and `Event.Strands` says which steps lead there.  Nothing
leads out of it.

`View.Step.stuck_iff` is the step lemma in both directions: after a step the daemon is stuck
if it was before or if the step strands it.  It needs that a `ServerConnect` whose address
resolves leaves connection info that the TCP task has not seen, which is so because what was
seen is no later than what was published (`SeesPast`).  In a stuck state, the TCP task cannot
take a step (`not_tcp_of_stuck`), and commands about the server are refused
(`handleCommand_connecting`).
-/

namespace Mum

open Library Library.Eval
open Mumlib (Command)

namespace View

/-- Nobody works for the server that we are connecting to. -/
structure Stuck (v : View) : Prop where
  server : v.server = .connecting
  tcp : v.tcp = .waiting
  seen : v.unseen = false

end View

/-- The events that leave the server behind. -/
def Event.Strands (v : View) : Event → Prop
  | .serverMade resolved => resolved = false ∧ v.tcp = .waiting ∧ v.unseen = false
  | .infoIgnored => v.server = .connecting
  | .tlsFailed | .sessionStopped | .streamGone | .sendFailed =>
      v.server = .connecting ∧ v.unseen = false
  | _ => False

namespace View.Step

variable {v v' : View} {event : Event}

theorem stuck_iff (h : v.Step event v') (hinfo : event = .serverMade true → v'.unseen) :
    v'.Stuck ↔ v.Stuck ∨ event.Strands v := by
  cases h with
  | quiet => exact (or_iff_left id).symm
  | stopped | voicePhase =>
      constructor
      · exact fun ⟨hserver, htcp, hseen⟩ => .inl ⟨hserver, htcp, hseen⟩
      · rintro (⟨hserver, htcp, hseen⟩ | hstrands)
        · exact ⟨hserver, htcp, hseen⟩
        · cases hstrands
  | @serverMade resolved unseen hserver hunseen =>
      have hnot : ¬ v.Stuck := fun hstuck => nomatch hserver.symm.trans hstuck.server
      cases resolved with
      | true =>
          refine iff_of_false (fun hstuck => ?_) ?_
          · exact Bool.false_ne_true (hstuck.seen.symm.trans (hinfo rfl))
          · exact not_or.mpr ⟨hnot, nofun⟩
      | false =>
          constructor
          · exact fun hstuck => .inr ⟨rfl, hstuck.tcp, (hunseen rfl).symm.trans hstuck.seen⟩
          · rintro (hstuck | ⟨-, htcp, hseen⟩)
            · exact absurd hstuck hnot
            · exact ⟨rfl, htcp, (hunseen rfl).trans hseen⟩
  | serverLeft hserver =>
      refine iff_of_false (fun hstuck => nomatch hstuck.server) (not_or.mpr ⟨?_, id⟩)
      exact fun hstuck => nomatch hserver.symm.trans hstuck.server
  | infoIgnored htcp =>
      constructor
      · exact fun hstuck => .inr hstuck.server
      · rintro (hstuck | hserver)
        · exact ⟨hstuck.server, htcp, rfl⟩
        · exact ⟨hserver, htcp, rfl⟩
  | infoTaken htcp hunseen =>
      refine iff_of_false (fun hstuck => nomatch hstuck.tcp) (not_or.mpr ⟨?_, id⟩)
      exact fun hstuck => Bool.false_ne_true (hstuck.seen.symm.trans hunseen)
  | sessionBegan htcp =>
      refine iff_of_false (fun hstuck => nomatch hstuck.tcp) (not_or.mpr ⟨?_, id⟩)
      exact fun hstuck => nomatch htcp.symm.trans hstuck.tcp
  | loggedIn htcp =>
      refine iff_of_false (fun hstuck => nomatch hstuck.server) (not_or.mpr ⟨?_, id⟩)
      exact fun hstuck => nomatch htcp.symm.trans hstuck.tcp
  | tlsFailed htcp | sessionStopped htcp | streamGone htcp | sendFailed htcp =>
      constructor
      · exact fun hstuck => .inr ⟨hstuck.server, hstuck.seen⟩
      · rintro (hstuck | ⟨hserver, hseen⟩)
        · exact nomatch htcp.symm.trans hstuck.tcp
        · exact ⟨hserver, rfl, hseen⟩

end View.Step

/-- Nothing that can happen changes it. -/
theorem View.Stuck.step {v v' : View} {event : Event} (h : v.Stuck) (hstep : v.Step event v') :
    v'.Stuck := by
  refine (hstep.stuck_iff ?_).mpr (.inl h)
  rintro rfl
  cases hstep with
  | serverMade hserver => exact nomatch h.server.symm.trans hserver

/-! ## Commands -/

/-- The commands that are about the server that we are at, or want to be at. -/
def Mumlib.Command.isAboutServer : Command → Bool
  | .configReload | .events _ | .inputVolumeSet _ | .outputVolumeSet _ | .ping
  | .serverStatus _ _ => false
  | _ => true

/-- While we are connecting all of them are refused. -/
theorem handleCommand_connecting (host : Host) {state : State} {sb : ConnectingServer}
    (hserver : state.server = .connecting sb) {command : Command}
    (habout : command.isAboutServer) :
    handleCommand host state command = .ok (state.answer (.error .disconnected)) := by
  cases command with
  | configReload | events | inputVolumeSet | outputVolumeSet | ping | serverStatus => cases habout
  | _ => simp only [handleCommand, hserver]

namespace System

variable {host : Host} {label : Label} {sys sys' : System}

theorem mailbox_of_sendResponses {response : Mumlib.Response}
    (h : sys.sendResponses [response] = .ok sys') :
    sys'.mailbox = sys.mailbox.send sys.requests response := by
  rw [sendResponses, sendResponses] at h
  split at h
  · cases h
    rfl
  · cases h

/-- A command that is answered at once sends its answer. -/
theorem mailbox_of_answer {command : Command} {response : Mumlib.Response}
    (hstep : Step sys (host, .command command) sys')
    (h : handleCommand host sys.state command = .ok (sys.state.answer response)) :
    sys'.mailbox = sys.mailbox.send sys.requests response := by
  obtain ⟨-, hstep⟩ := Option.ite_none_right_eq_some.mp (step_eq_ok hstep)
  have hcommand := Option.some.inj hstep
  rw [System.command, h, ok_bind] at hcommand
  obtain ⟨sent, hsent, hcommand⟩ := bind_eq_ok.mp hcommand
  cases hcommand
  have hmailbox := mailbox_of_sendResponses hsent
  exact hmailbox

/-- No task has seen connection info that was not published. -/
def SeesPast (sys : System) : Prop := sys.tcpSeen ≤ sys.connectionInfo.version

theorem SeesPast.step (h : sys.SeesPast) (hstep : Step sys (host, label) sys') :
    sys'.SeesPast := by
  unfold SeesPast at h ⊢
  cases step_cases hstep with
  | @command command outcome eventQueue mailbox pingRequests houtcome =>
      cases hinfo : outcome.connectionInfo with
      | none => exact h
      | some info => exact Nat.le_succ_of_le h
  | controllerGone => exact h
  | tcp hcase =>
      cases hcase with
      | ignoreInfo | takeInfo => exact Nat.le_refl _
      | _ => exact h
  | udp hcase =>
      cases hcase with
      | _ => exact h

/-- A `ServerConnect` whose address resolves wakes the TCP task up. -/
theorem unseen_of_event (h : sys.SeesPast) (hstep : Step sys (host, label) sys')
    (hevent : sys.event host label = .serverMade true) : sys'.view.unseen := by
  have hmade : ∃ command, label = .command command ∧
      (handleCommand host sys.state command).toOption.all (·.connectionInfo.isSome) := by
    unfold event at hevent
    split at hevent
    next hostname port username password acceptInvalidCert =>
      split at hevent
      next hserver =>
        obtain ⟨sb, -, -, hinfo⟩ := sys.state.serverConnect_eq host hostname port username
          password acceptInvalidCert
        refine ⟨_, rfl, ?_⟩
        rw [handleCommand, Server.kind_eq_disconnected.mp hserver]
        injection hevent with hresolved
        simpa [Except.toOption, hinfo] using hresolved
      · cases hevent
    -- no other label is such an event
    all_goals grind
  obtain ⟨command, rfl, hsome⟩ := hmade
  cases step_cases hstep with
  | @command command outcome eventQueue mailbox pingRequests houtcome =>
      rw [houtcome] at hsome
      obtain ⟨info, hinfo⟩ := Option.isSome_iff_exists.mp (by simpa [Except.toOption] using hsome)
      have hlt : sys.tcpSeen < sys.connectionInfo.version + 1 := Nat.lt_succ_of_le h
      simp only [view, hinfo, Option.elim_some, Watch.version_send]
      exact decide_eq_true (Nat.ne_of_gt hlt)

theorem stuck_iff_of_seesPast {trace : List ((Host × Label) × System)} (hpast : sys.SeesPast)
    (hrun : Run Step sys trace) :
    (final sys trace).view.Stuck ↔ sys.view.Stuck ∨
      ¬ AllSteps (fun sys label _ => ¬ (sys.event label.1 label.2).Strands sys.view) sys trace := by
  induction hrun with
  | nil => exact (or_iff_left (not_not_intro trivial)).symm
  | cons hstep _ ih =>
      have hstuck := (step_view hstep).stuck_iff (unseen_of_event hpast hstep)
      rw [final, ih (hpast.step hstep), hstuck, allSteps_cons, not_and_or, not_not, or_assoc]

/-- **How a daemon gets stuck.**  A run leaves the daemon stuck if and only if one of its
steps strands it. -/
theorem stuck_iff_of_run {state : State} {trace : List ((Host × Label) × System)}
    (hnew : State.new host = .ok (some state)) (hrun : Run Step (start state) trace) :
    (final (start state) trace).view.Stuck ↔
      ¬ AllSteps (fun sys label _ => ¬ (sys.event label.1 label.2).Strands sys.view)
        (start state) trace := by
  have hstart : ¬ (start state).view.Stuck := by
    intro hstuck
    have hserver : state.server.kind = .connecting := hstuck.server
    rw [(State.new_eq_ok hnew).1] at hserver
    cases hserver
  have hpast : (start state).SeesPast := Nat.le_refl 0
  rw [stuck_iff_of_seesPast hpast hrun]
  exact or_iff_right hstart

instance (v : View) : ∀ event : Event, Decidable (event.Strands v)
  | .serverMade resolved =>
      inferInstanceAs (Decidable (resolved = false ∧ v.tcp = .waiting ∧ v.unseen = false))
  | .infoIgnored => inferInstanceAs (Decidable (v.server = .connecting))
  | .tlsFailed | .sessionStopped | .streamGone | .sendFailed =>
      inferInstanceAs (Decidable (v.server = .connecting ∧ v.unseen = false))
  | .quiet | .serverLeft | .infoTaken | .stopped | .sessionBegan | .loggedIn | .voicePhase _ =>
      .isFalse id

/-- TLS fails. -/
theorem stuck_iff_of_run_tls :
    ∃ trace, (start .idle).follow .online
        [.command (.serverConnect "localhost" 64738 "me" none false), .tcp .takeInfo,
          .tcp (.connect .tlsConnectError)] = some trace ∧
      (final (start .idle) trace).view.Stuck := by
  have hnew : State.new .offline = .ok (some .idle) := rfl
  exact ⟨Option.get _ (by decide), (Option.some_get _).symm,
    (stuck_iff_of_run hnew (run_follow (Option.some_get _).symm)).mpr (by decide)⟩

/-- A TCP task that waits and has seen everything does not run. -/
theorem not_tcp_of_stuck (h : sys.view.Stuck) (hstep : Step sys (host, label) sys')
    (tcp : TcpLabel) : label ≠ .tcp tcp := by
  rintro rfl
  have htcp : sys.tcp = .waiting := TcpTask.kind_eq_waiting.mp h.tcp
  have hseen : sys.connectionInfo.version = sys.tcpSeen := by
    simpa [view] using h.seen
  obtain ⟨-, hstep⟩ := Option.ite_none_right_eq_some.mp (step_eq_ok hstep)
  have hnone : sys.tcpStep host tcp = none := by
    cases tcp <;> simp [tcpStep, inSession, htcp, hseen]
  cases hnone.symm.trans hstep

/-- Nothing gets the daemon out of it: no step of the TCP task, and no command. -/
theorem stuck_of_run {trace : List ((Host × Label) × System)} (h : sys.view.Stuck)
    (hrun : Run Step sys trace) :
    (final sys trace).view.Stuck ∧ AllSteps (fun sys label sys' =>
      (∀ tcp, label.2 ≠ .tcp tcp) ∧ ∀ command, label.2 = .command command →
        command.isAboutServer →
          sys'.mailbox = sys.mailbox.send sys.requests (.error .disconnected)) sys trace := by
  have hkeep : ∀ (sys : System) (label : Host × Label) sys', sys.view.Stuck →
      Step sys label sys' → sys'.view.Stuck ∧ (∀ tcp, label.2 ≠ .tcp tcp) ∧
        ∀ command, label.2 = .command command → command.isAboutServer →
          sys'.mailbox = sys.mailbox.send sys.requests (.error .disconnected) := by
    rintro sys ⟨host, label⟩ sys' hstuck hstep
    refine ⟨hstuck.step (step_view hstep), not_tcp_of_stuck hstuck hstep, ?_⟩
    rintro command rfl habout
    obtain ⟨sb, hserver⟩ := Server.kind_eq_connecting.mp hstuck.server
    exact mailbox_of_answer hstep (handleCommand_connecting host hserver habout)
  exact ⟨hrun.inv_final _ h fun sys label sys' hstuck hstep =>
      (hkeep sys label sys' hstuck hstep).1,
    hrun.allSteps_of_inv _ h hkeep⟩

/-- We ask to leave, and for another server. -/
theorem stuck_of_run_refused :
    ∃ trace, (start (.fresh (.connecting (.new "nowhere:64738" "me" none)) .connecting)).follow
        .online [.command .serverDisconnect,
          .command (.serverConnect "localhost" 64738 "me" none false)] = some trace ∧
      (final (start (.fresh (.connecting (.new "nowhere:64738" "me" none)) .connecting))
        trace).view.Stuck :=
  ⟨Option.get _ (by decide), (Option.some_get _).symm,
    (stuck_of_run ⟨rfl, rfl, rfl⟩ (run_follow (Option.some_get _).symm)).1⟩

end System

end Mum
