import Mum.Client.Lifecycle

/-!
# The phase as a signal

`ServerDisconnect` tells the tasks through the phase that a session is over.
The phase is the latest value only, and others write it too: a pong or a lost
ping of UDP says `Connected` whatever the server is, and a `ServerConnect` says
`Connecting` before the TCP task has seen `Disconnected`.

`View.Step.phaseSafe_iff` and `View.Step.joined` say what a step must not do for
the signal to do its work.

Both are about the view (`Mum.Client.Lifecycle`).  Whether a step leaves the phase at
`Connected` without a server depends on nothing but the event, so that the equivalence for a
step is one for runs.  For packets, `View.Joined` goes through a run: the TCP task works for
the server made last.  A packet of its session is then for that server
(`System.streamSafe_of_joined`).
-/

namespace Mum

open Library Library.Eval

namespace View

/-- The phase is not `Connected` without a server. -/
def PhaseSafe (v : View) : Prop := ∀ stream, v.phase = .connected stream → v.server ≠ .disconnected

/-- The TCP task works for the server that was made last, and a server whose
connection info waits for the TCP task is still connecting. -/
def Joined (v : View) : Prop :=
  match v.tcp with
  | .waiting => v.unseen → v.server = .connecting ∧ v.published = v.servers
  | .attempt | .session => v.unseen = false ∧ v.joined = v.servers

end View

namespace Event

/-- UDP pings speak of the phase only while there is a server. -/
def VoiceHasServer (v : View) : Event → Prop
  | .voicePhase _ => v.server ≠ .disconnected
  | _ => True

/-- A server is made only while the TCP task waits for connection info. -/
def MadeWhileWaiting (v : View) : Event → Prop
  | .serverMade _ => v.tcp = .waiting
  | _ => True

end Event

namespace View.Step

variable {v v' : View} {event : Event}

theorem phaseSafe_iff (h : v.Step event v') (hsafe : v.PhaseSafe) :
    v'.PhaseSafe ↔ event.VoiceHasServer v := by
  cases h with
  | quiet | infoIgnored | infoTaken | stopped | sessionBegan | sessionStopped | sendFailed =>
      exact iff_of_true hsafe trivial
  | serverMade | serverLeft | tlsFailed | streamGone => exact iff_of_true nofun trivial
  | loggedIn => exact iff_of_true (fun _ _ => nofun) trivial
  | @voicePhase stream => exact ⟨fun h => h stream rfl, fun hserver _ _ => hserver⟩

theorem joined (h : v.Step event v') (hjoined : v.Joined) (hmade : event.MadeWhileWaiting v) :
    v'.Joined := by
  unfold View.Joined at hjoined ⊢
  cases h with
  | quiet | stopped | voicePhase => exact hjoined
  | @serverMade resolved unseen hserver hunseen =>
      have htcp : v.tcp = .waiting := hmade
      simp only [htcp] at hjoined ⊢
      refine fun hseen => ⟨trivial, ?_⟩
      cases resolved with
      | true => rfl
      | false =>
          -- the old connection info would belong to a server that is connecting
          rw [hunseen rfl] at hseen
          exact nomatch hserver.symm.trans (hjoined hseen).1
  | serverLeft hserver =>
      cases htcp : v.tcp with
      | waiting =>
          simp only [htcp] at hjoined ⊢
          exact fun hseen => nomatch hserver.symm.trans (hjoined hseen).1
      | attempt | session =>
          simp only [htcp] at hjoined ⊢
          exact hjoined
  | infoIgnored htcp =>
      simp only [htcp]
      exact nofun
  | infoTaken htcp hunseen =>
      simp only [htcp] at hjoined ⊢
      exact ⟨trivial, (hjoined hunseen).2⟩
  | sessionBegan htcp =>
      simp only [htcp] at hjoined ⊢
      exact hjoined
  | loggedIn htcp =>
      simp only [htcp] at hjoined ⊢
      exact hjoined
  | tlsFailed htcp | sessionStopped htcp | streamGone htcp | sendFailed htcp =>
      simp only [htcp] at hjoined ⊢
      simp [hjoined.1]

end View.Step

namespace System

/-- No packet of a session is handled for a server that was made later. -/
def StreamSafe (sys : System) : Label → Prop
  | .tcp (.packet _) =>
      sys.state.server.kind ≠ .disconnected → sys.history.joined = sys.history.servers
  | _ => True

theorem streamSafe_of_joined {host : Host} {sys sys' : System} {label : Label}
    (hstep : Step sys (host, label) sys') (hjoined : sys.view.Joined) : sys.StreamSafe label := by
  cases step_cases hstep with
  | tcp hcase =>
      cases hcase with
      | packet htcp _ =>
          have hsession : sys.view.tcp = .session := by
            rw [view, htcp]
            rfl
          simp only [View.Joined, hsession] at hjoined
          exact fun _ => hjoined.2
      | _ => exact trivial
  | _ => exact trivial

/-- **The phase as a signal.**  In a run of the daemon the phase is never
`Connected` without a server if and only if UDP pings speak of it only while
there is a server; and no packet reaches the server of a later `ServerConnect`
if servers are made only while the TCP task waits. -/
theorem phaseSafe_streamSafe {host : Host} {state : State}
    {trace : List ((Host × Label) × System)} (hnew : State.new host = .ok (some state))
    (hrun : Run Step (start state) trace) :
    (AllSteps (fun _ _ sys' => sys'.view.PhaseSafe) (start state) trace ↔
        AllSteps (fun sys label _ => (sys.event label.1 label.2).VoiceHasServer sys.view)
          (start state) trace) ∧
      (AllSteps (fun sys label _ => (sys.event label.1 label.2).MadeWhileWaiting sys.view)
          (start state) trace →
        AllSteps (fun sys label _ => sys.StreamSafe label.2) (start state) trace) := by
  constructor
  · have hstart : (start state).view.PhaseSafe := by
      intro stream hphase
      rw [view, start, (State.new_eq_ok hnew).2.1] at hphase
      cases hphase
    have hiff : ∀ sys label sys', sys.view.PhaseSafe → Step sys label sys' →
        (sys'.view.PhaseSafe ↔ (sys.event label.1 label.2).VoiceHasServer sys.view) :=
      fun sys label sys' hsafe hstep => (step_view hstep).phaseSafe_iff hsafe
    exact hrun.allSteps_iff (fun sys => sys.view.PhaseSafe) hstart hiff
      fun _ _ _ _ _ hsafe => hsafe
  · have hstart : (start state).view.Joined := by
      intro hunseen
      simp [view, start, Watch.new] at hunseen
    refine hrun.allSteps (fun sys => sys.view.Joined) hstart ?_
    intro sys label sys' hjoined hstep hmade
    exact ⟨(step_view hstep).joined hjoined hmade, streamSafe_of_joined hstep hjoined⟩

instance (v : View) : ∀ event : Event, Decidable (event.VoiceHasServer v)
  | .voicePhase _ => inferInstanceAs (Decidable (v.server ≠ .disconnected))
  | .quiet | .serverMade _ | .serverLeft | .infoIgnored | .infoTaken | .tlsFailed | .stopped
  | .sessionBegan | .sessionStopped | .streamGone | .sendFailed | .loggedIn => .isTrue trivial

instance (v : View) : ∀ event : Event, Decidable (event.MadeWhileWaiting v)
  | .serverMade _ => inferInstanceAs (Decidable (v.tcp = .waiting))
  | .quiet | .serverLeft | .infoIgnored | .infoTaken | .tlsFailed | .stopped | .sessionBegan
  | .sessionStopped | .streamGone | .sendFailed | .loggedIn | .voicePhase _ => .isTrue trivial

/-- The UDP task comes up after the login. -/
def udpUp : List Label := [.udp .takeInfo, .udp (.bind true), .udp .connect]

theorem phaseSafe_streamSafe_pong :
    ∃ trace, (start .idle).follow .online
        (login "localhost" ++ udpUp ++ [.udp (.packet (.ping 1))]) = some trace ∧
      AllSteps (fun _ _ sys' => sys'.view.PhaseSafe) (start .idle) trace ∧
      AllSteps (fun sys label _ => sys.StreamSafe label.2) (start .idle) trace := by
  have hnew : State.new .offline = .ok (some .idle) := rfl
  exact ⟨Option.get _ (by decide), (Option.some_get _).symm,
    (phaseSafe_streamSafe hnew (run_follow (Option.some_get _).symm)).1.mpr (by decide),
    (phaseSafe_streamSafe hnew (run_follow (Option.some_get _).symm)).2 (by decide)⟩

instance (sys : System) : ∀ label, Decidable (sys.StreamSafe label)
  | .tcp (.packet _) => inferInstanceAs (Decidable (_ ≠ _ → _))
  | .command _ | .controllerGone _ | .udp _ => .isTrue trivial
  | .tcp .takeInfo | .tcp (.connect _) | .tcp (.authenticate _) | .tcp .poll | .tcp .streamGone
  | .tcp .invalidPacket | .tcp .ping | .tcp .voicePoll | .tcp (.voice _) | .tcp .takePacket
  | .tcp (.packetSent _) => .isTrue trivial

/-- A pong after a `ServerDisconnect` says that we are connected; and after a
`ServerDisconnect` and a `ServerConnect` at once, the old stream speaks to the
new server. -/
theorem not_phaseSafe_not_streamSafe :
    (∃ trace, (start .idle).follow .online
        (login "localhost" ++ udpUp ++
          [.command .serverDisconnect, .udp (.packet (.ping 1))]) = some trace ∧
      ¬ AllSteps (fun _ _ sys' => sys'.view.PhaseSafe) (start .idle) trace) ∧
    ∃ trace, (start .idle).follow .online
        (login "first" ++
          [.command .serverDisconnect, .command (.serverConnect "second" 64738 "me" none false),
            .tcp (.packet (.userState { session := some 2, selfMute := some true }))]) =
          some trace ∧
      ¬ AllSteps (fun sys label _ => sys.StreamSafe label.2) (start .idle) trace := by
  constructor
  · refine ⟨Option.get _ (by decide), (Option.some_get _).symm, fun hsafe => ?_⟩
    have hudp := hsafe.mono
      (Q := fun _ _ sys' => sys'.view.phase = .connected .udp → sys'.view.server ≠ .disconnected)
      fun _ _ _ hsafe => hsafe .udp
    exact absurd hudp (by decide)
  · exact ⟨Option.get _ (by decide), (Option.some_get _).symm, by decide⟩

end System

end Mum
