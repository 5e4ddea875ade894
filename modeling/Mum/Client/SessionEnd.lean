import Mum.Client.Lifecycle

/-!
# The end of a connection

When an attempt to connect or a session is over, for whatever reason, the daemon
should be as it was before: the TCP task waits, the server and the phase are
`Disconnected`, and the next `ServerConnect` is accepted.

An end is signalled on many paths, and most of them reset a part of this only.
`View.Step.isOver_iff` says which ends are clean.

It is an equivalence at each step of the view (`Mum.Client.Lifecycle`), provided that the
phase is not `Disconnected` while there is a server (`View.PhaseSound`).  Only an end that is
not clean may break this, and `Run.allSteps_iff` lets us assume that the ends before were
clean.
-/

namespace Mum

open Library Library.Eval

namespace View

/-- An attempt to connect or a session is over: the TCP task stops working for
it, or `client::handle` returns while it does, or the address of a
`ServerConnect` does not resolve. -/
def Ends (v : View) (event : Event) (v' : View) : Prop :=
  v.tcp ≠ .waiting ∧ (v'.tcp = .waiting ∨ v'.running = false) ∨ event = .serverMade false

/-- The connection has left nothing behind. -/
structure IsOver (v : View) : Prop where
  running : v.running
  tcp : v.tcp = .waiting
  server : v.server = .disconnected
  phase : v.phase = .disconnected

/-- A phase `Disconnected` is never wrong. -/
def PhaseSound (v : View) : Prop := v.phase = .disconnected → v.server = .disconnected

end View

/-- The ends that leave nothing behind.  A session that sees the phase
`Disconnected` always does. -/
def Event.EndsCleanly (v : View) : Event → Prop
  | .serverMade resolved => resolved
  | .tlsFailed => v.server = .disconnected
  | .stopped => v.tcp = .waiting
  | .streamGone => v.server = .disconnected
  | .sendFailed => v.server = .disconnected ∧ v.phase = .disconnected
  | _ => True

namespace View.Step

variable {v v' : View} {event : Event}

/-- While the TCP task goes on, nothing ends. -/
theorem not_ends (hrunning : v'.running) (htcp : v.tcp ≠ .waiting → v'.tcp ≠ .waiting)
    (hevent : event ≠ .serverMade false) : ¬ v.Ends event v' := by
  rintro (⟨hne, hwaiting | hstopped⟩ | hrefused)
  · exact htcp hne hwaiting
  · rw [hrunning] at hstopped
    cases hstopped
  · exact hevent hrefused

theorem isOver_iff (h : v.Step event v') (hrunning : v.running) (hsound : v.PhaseSound) :
    (v.Ends event v' → v'.IsOver) ↔ event.EndsCleanly v := by
  cases h with
  | quiet | infoIgnored | serverLeft | loggedIn | voicePhase =>
      exact iff_of_true (fun hends => absurd hends (not_ends hrunning id nofun)) trivial
  | infoTaken | sessionBegan =>
      refine iff_of_true (fun hends => ?_) trivial
      exact absurd hends (not_ends hrunning (fun _ => nofun) nofun)
  | @serverMade resolved unseen hserver hunseen =>
      cases resolved with
      | true => exact iff_of_true (fun hends => absurd hends (not_ends hrunning id nofun)) rfl
      | false => exact iff_of_false (fun hover => nomatch (hover (Or.inr rfl)).server) nofun
  | stopped =>
      constructor
      · intro hover
        by_contra hne
        exact nomatch (hover (Or.inl ⟨hne, Or.inr rfl⟩)).running
      · rintro hwaiting (⟨hne, -⟩ | hrefused)
        · exact absurd hwaiting hne
        · cases hrefused
  | tlsFailed htcp =>
      have hends : v.tcp ≠ .waiting := by simp [htcp]
      exact ⟨fun hover => (hover (Or.inl ⟨hends, Or.inl rfl⟩)).server,
        fun hserver _ => ⟨hrunning, rfl, hserver, rfl⟩⟩
  | streamGone htcp =>
      have hends : v.tcp ≠ .waiting := by simp [htcp]
      exact ⟨fun hover => (hover (Or.inl ⟨hends, Or.inl rfl⟩)).server,
        fun hserver _ => ⟨hrunning, rfl, hserver, rfl⟩⟩
  | sessionStopped htcp hphase =>
      -- whoever wrote `Disconnected` had reset the server
      exact iff_of_true (fun _ => ⟨hrunning, rfl, hsound hphase, hphase⟩) trivial
  | sendFailed htcp =>
      have hends : v.tcp ≠ .waiting := by simp [htcp]
      constructor
      · intro hover
        have hover := hover (Or.inl ⟨hends, Or.inl rfl⟩)
        exact ⟨hover.server, hover.phase⟩
      · exact fun ⟨hserver, hphase⟩ _ => ⟨hrunning, rfl, hserver, hphase⟩

theorem phaseSound (h : v.Step event v') (hsound : v.PhaseSound) (hclean : event.EndsCleanly v) :
    v'.PhaseSound := by
  cases h with
  | quiet | infoIgnored | infoTaken | stopped | sessionBegan | sessionStopped | sendFailed =>
      exact hsound
  | serverMade | loggedIn | voicePhase => exact fun hphase => nomatch hphase
  | serverLeft => exact fun _ => rfl
  | tlsFailed => exact fun _ => hclean
  | streamGone => exact fun _ => hclean

end View.Step

/-! ## The daemon -/

namespace System

/-- A `ServerConnect` whose address resolves is accepted. -/
def Accepts (sys : System) : Prop :=
  ∀ host hostname port username password acceptInvalidCert addr,
    host.resolve hostname port = some addr →
      ∃ outcome,
        handleCommand host sys.state
          (.serverConnect hostname port username password acceptInvalidCert) = .ok outcome ∧
        outcome.connectionInfo = some ⟨addr, hostname, acceptInvalidCert⟩

theorem accepts_of_isOver {sys : System} (h : sys.view.IsOver) : sys.Accepts := by
  intro host hostname port username password acceptInvalidCert addr haddr
  obtain ⟨sb, -, -, hinfo⟩ := sys.state.serverConnect_eq host hostname port username password
    acceptInvalidCert
  refine ⟨_, ?_, by rw [hinfo, haddr]; rfl⟩
  rw [handleCommand, Server.kind_eq_disconnected.mp h.server]

/-- If an attempt or a session is over after the step, it has left nothing behind
and the next `ServerConnect` is accepted. -/
def EndsWell (sys : System) (label : Host × Label) (sys' : System) : Prop :=
  sys.view.Ends (sys.event label.1 label.2) sys'.view → sys'.view.IsOver ∧ sys'.Accepts

/-- **Which connections end well.**  In a run of the daemon, every attempt and
every session ends well if and only if all of them end cleanly. -/
theorem endsWell_iff {host : Host} {state : State} {trace : List ((Host × Label) × System)}
    (hnew : State.new host = .ok (some state)) (hrun : Run Step (start state) trace) :
    AllSteps EndsWell (start state) trace ↔
      AllSteps (fun sys label _ => (sys.event label.1 label.2).EndsCleanly sys.view)
        (start state) trace := by
  have hstart : (start state).view.PhaseSound :=
    fun _ => Server.kind_eq_disconnected.mpr (State.new_eq_ok hnew).1
  have hends : ∀ sys label sys', sys.view.PhaseSound → Step sys label sys' →
      (EndsWell sys label sys' ↔ (sys.event label.1 label.2).EndsCleanly sys.view) := by
    intro sys label sys' hsound hstep
    rw [← (step_view hstep).isOver_iff (running_of_step hstep) hsound]
    exact ⟨fun h hover => (h hover).1, fun h hover => ⟨h hover, accepts_of_isOver (h hover)⟩⟩
  refine hrun.allSteps_iff (fun sys => sys.view.PhaseSound) hstart hends ?_
  intro sys label sys' hsound hstep hwell
  exact (step_view hstep).phaseSound hsound ((hends sys label sys' hsound hstep).mp hwell)

instance (v : View) : ∀ event : Event, Decidable (event.EndsCleanly v)
  | .serverMade resolved => inferInstanceAs (Decidable (resolved = true))
  | .tlsFailed => inferInstanceAs (Decidable (v.server = .disconnected))
  | .stopped => inferInstanceAs (Decidable (v.tcp = .waiting))
  | .streamGone => inferInstanceAs (Decidable (v.server = .disconnected))
  | .sendFailed => inferInstanceAs (Decidable (v.server = .disconnected ∧ v.phase = .disconnected))
  | .quiet | .serverLeft | .infoIgnored | .infoTaken | .sessionBegan | .sessionStopped
  | .loggedIn | .voicePhase _ => .isTrue trivial

theorem endsWell_iff_serverDisconnect :
    ∃ trace, (start .idle).follow .online
        (login "localhost" ++ [.command .serverDisconnect, .tcp .poll]) = some trace ∧
      AllSteps EndsWell (start .idle) trace := by
  have hnew : State.new .offline = .ok (some .idle) := rfl
  exact ⟨Option.get _ (by decide), (Option.some_get _).symm,
    (endsWell_iff hnew (run_follow (Option.some_get _).symm)).mpr (by decide)⟩

instance (v : View) (event : Event) (v' : View) : Decidable (v.Ends event v') :=
  inferInstanceAs (Decidable (_ ∧ _ ∨ _))

/-- A server that closes the stream leaves us connected to it. -/
theorem not_endsWell_streamGone :
    ∃ trace, (start .idle).follow .online (login "localhost" ++ [.tcp .streamGone]) = some trace ∧
      ¬ AllSteps EndsWell (start .idle) trace := by
  refine ⟨Option.get _ (by decide), (Option.some_get _).symm, fun hwell => ?_⟩
  have hserver := hwell.mono
    (Q := fun sys label sys' => sys.view.Ends (sys.event label.1 label.2) sys'.view →
      sys'.view.server = .disconnected)
    fun _ _ _ hstep hends => (hstep hends).1.server
  exact absurd hserver (by decide)

end System

end Mum
