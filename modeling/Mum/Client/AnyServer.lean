import Mum.Client.WayOut

/-!
# To any server

Controllers can bring the daemon from one server to any other, out of every state but those
that `NoWayOut` names.  The way has four parts.

1. If we are connecting, we are let in first, since a `ServerDisconnect` is refused until
   then.
2. `ServerDisconnect`.
3. The TCP task gives up what it has for the old server.  A TLS error ends its connection,
   and the end of the stream its session.  Whoever waits for an answer is told.
4. `ServerConnect` publishes connection info that neither task has seen.  This makes room
   for crypt states as well, as the UDP task starts anew with it.

Part 3 comes before the `ServerConnect`: a session that polls the phase only after it misses
that we were disconnected, and would be let in for the new server.

Between the parts there are kinds of states: `Apart` (no server, while the tasks may still
be at work for the old one), and `Awaits` (the connection info of the new one is there to be
taken).  The last part is that of `Mum.Client.WayOut`, from a state that has nothing in the
way.  In the other direction nothing is new: out of `NoWayOut` no step leads.
-/

namespace Mum

open Library Library.Eval
open Mumlib (Command)

namespace System

variable {host : Host} {label : Label} {sys sys' : System}

/-! ## Nobody works for a server -/

/-- A daemon without a server. -/
structure Apart (sys : System) : Prop where
  running : sys.running
  ready : sys.Ready
  server : sys.state.server = .disconnected

/-- The stream of a session ends. -/
theorem canReach_waiting_of_session (host : Host) (h : sys.Apart) {session : TcpSession}
    (htcp : sys.tcp = .session session) :
    CanReach Step (fun sys' => sys'.Apart ∧ sys'.tcp = .waiting) sys := by
  obtain ⟨eventQueue, mailbox, hend⟩ :=
    h.ready.exists_endSession host (sys.state.broadcastPhase .disconnected) .user
  rw [htcp] at hend
  have hstep : TaskStep sys (host, .tcp .streamGone) _ :=
    taskStep_of_tcpStep h.running (by simp only [tcpStep, inSession, htcp, hend]; rfl)
  exact .cons hstep.1 (.here ⟨⟨h.running, h.ready.step hstep.1, h.server⟩, rfl⟩)

/-- The TCP task comes to wait for connection info. -/
theorem canReach_waiting (host : Host) (h : sys.Apart) :
    CanReach Step (fun sys' => sys'.Apart ∧ sys'.tcp = .waiting) sys := by
  cases htcp : sys.tcp with
  | waiting => exact .here ⟨h, htcp⟩
  | connecting info =>
      obtain ⟨eventQueue, mailbox, hend⟩ :=
        h.ready.exists_endSession host (sys.state.broadcastPhase .disconnected) .invalidTls
      rw [htcp] at hend
      have hstep : TaskStep sys (host, .tcp (.connect .tlsConnectError)) _ :=
        taskStep_of_tcpStep h.running (by simp only [tcpStep, htcp, hend]; rfl)
      exact .cons hstep.1 (.here ⟨⟨h.running, h.ready.step hstep.1, h.server⟩, rfl⟩)
  | authenticating msg =>
      have hstep : TaskStep sys (host, .tcp (.authenticate true)) _ :=
        taskStep_of_tcpStep h.running (by simp only [tcpStep, htcp, if_true]; rfl)
      refine .cons hstep.1 (canReach_waiting_of_session host ?_ rfl)
      exact ⟨h.running, h.ready.step hstep.1, h.server⟩
  | session session => exact canReach_waiting_of_session host h htcp

/-! ## Connection info that is taken -/

/-- The published connection info is taken before the TCP task connects. -/
structure Awaits (info : ConnectionInfo) (sys : System) : Prop where
  info : sys.connectionInfo.value = some info
  taken : sys.tcp = .waiting ∨ sys.tcpSeen = sys.connectionInfo.version

theorem Awaits.step {info : ConnectionInfo} (h : Awaits info sys)
    (hstep : TaskStep sys (host, label) sys') : Awaits info sys' := by
  refine ⟨?_, ?_⟩
  · cases step_cases hstep.1 with
    | command => exact absurd rfl (hstep.2 _)
    | controllerGone => exact h.info
    | tcp hcase =>
        cases hcase with
        | _ => exact h.info
    | udp hcase =>
        cases hcase with
        | _ => exact h.info
  · have htaken : sys.tcp ≠ .waiting → sys.tcpSeen = sys.connectionInfo.version :=
      fun hne => h.taken.resolve_left hne
    cases step_cases hstep.1 with
    | command => exact absurd rfl (hstep.2 _)
    | controllerGone => exact h.taken
    | udp hcase =>
        cases hcase with
        | _ => exact h.taken
    | tcp hcase =>
        cases hcase with
        | ignoreInfo | takeInfo => exact .inr rfl
        | tlsConnectError | stopped | streamGone | sendError => exact .inl rfl
        | connectError | authenticateError | invalidPacket | ping | voice => exact h.taken
        | connect htcp | authenticate htcp | seen htcp | packet htcp | voicePoll htcp
        | takePacket htcp | packetSent htcp => exact .inr (htaken (by simp [htcp]))

/-! ## The two commands -/

/-- A command that can be handled is. -/
theorem exists_step_command (hrunning : sys.running) (h : sys.Ready) {command : Command}
    {outcome : Outcome} (houtcome : handleCommand host sys.state command = .ok outcome) :
    ∃ sys', Step sys (host, .command command) sys' ∧ sys'.running ∧ sys'.Ready ∧
      sys'.state = outcome.state ∧ sys'.tcp = sys.tcp ∧ sys'.tcpSeen = sys.tcpSeen ∧
      sys'.udpSeen = sys.udpSeen ∧
      sys'.connectionInfo = outcome.connectionInfo.elim sys.connectionInfo
        fun info => sys.connectionInfo.send (some info) := by
  obtain ⟨sys', hcommand⟩ := (command_returns_iff h).mpr
    (handleCommand_returns_iff.mp ⟨outcome, houtcome⟩)
  have hstep : Step sys (host, .command command) sys' := by
    simp only [Step, next, step, hrunning, if_true, hcommand]
  refine ⟨sys', hstep, ?_⟩
  have hready := h.step hstep
  cases step_cases hstep with
  | command houtcome' =>
      cases houtcome'.symm.trans houtcome
      exact ⟨hrunning, hready, rfl, rfl, rfl, rfl, rfl⟩

/-- A connected daemon can be disconnected. -/
theorem exists_step_serverDisconnect (host : Host) (hrunning : sys.running) (h : sys.Ready)
    {s : ConnectedServer} (hserver : sys.state.server = .connected s) :
    ∃ sys', Step sys (host, .command .serverDisconnect) sys' ∧ sys'.Apart := by
  obtain ⟨outcome, houtcome⟩ := State.serverDisconnect_returns sys.state
  obtain ⟨audioOutput, hdisconnected⟩ := State.serverDisconnect_eq_ok houtcome
  have hcommand : handleCommand host sys.state .serverDisconnect = .ok outcome := by
    rw [handleCommand, hserver]
    exact houtcome
  obtain ⟨sys', hstep, hrunning', hready, hstate, -⟩ :=
    exists_step_command hrunning h hcommand
  refine ⟨sys', hstep, hrunning', hready, ?_⟩
  rw [hstate, hdisconnected]
  rfl

/-- A daemon that waits for connection info can be sent to any server. -/
theorem Apart.serverConnect {hostname username : String} {port : UInt16}
    {password : Option String} {accept : Bool} {addr : SocketAddr} {addrs : List SocketAddr}
    (h : sys.Apart) (htcp : sys.tcp = .waiting)
    (haddr : host.toSocketAddrs hostname port = some (addr :: addrs)) :
    ∃ sys', Step sys (host, .command (.serverConnect hostname port username password accept)) sys' ∧
      sys'.Underway (.new (hostname ++ ":" ++ toString port.toNat) username password) ∧
      ¬ sys'.NoWayOut ∧ Awaits ⟨addr, hostname, accept⟩ sys' := by
  let sb : ConnectingServer := .new (hostname ++ ":" ++ toString port.toNat) username password
  let state := State.broadcastPhase { sys.state with server := .connecting sb } .connecting
  have houtcome : handleCommand host sys.state
      (.serverConnect hostname port username password accept) = .ok {
        state := state
        connectionInfo := some ⟨addr, hostname, accept⟩
        context := .tcpEventCallback } := by
    rw [handleCommand, h.server]
    dsimp only
    rw [State.serverConnect, haddr]
  obtain ⟨sys', hstep, hrunning, hready, hstate, htcp', htcpSeen, hudpSeen, hinfo⟩ :=
    exists_step_command h.running h.ready houtcome
  have hversion : sys'.connectionInfo.version = sys.connectionInfo.version + 1 := by
    rw [hinfo]
    rfl
  have htcpPast : sys.tcpSeen ≤ sys.connectionInfo.version := h.ready.tcpSeen
  have hudpPast := h.ready.udpSeen
  refine ⟨sys', hstep, ⟨hrunning, hready, hstate ▸ rfl⟩, ?_, ?_,
    .inl (htcp'.trans htcp)⟩
  · rintro (hnot | hstuck | hblocked)
    · exact hnot hrunning
    · have hseen : sys'.connectionInfo.version = sys'.tcpSeen := by
        simpa [view] using hstuck.seen
      omega
    · have hseen := hblocked.seen
      omega
  · rw [hinfo]
    rfl

/-! ## All states -/

/-- We are connected to a server under a name, in a session with the address that its
`ServerConnect` found. -/
structure LoggedIn (info : ConnectionInfo) (port : UInt16) (username : String) (sys : System) :
    Prop where
  running : sys.running
  server : ∃ s, sys.state.server = .connected s ∧ s.username = username ∧
    s.host = info.hostname ++ ":" ++ toString port.toNat
  session : ∃ session, sys.tcp = .session session
  info : sys.connectionInfo.value = some info
  taken : sys.tcpSeen = sys.connectionInfo.version

theorem canReach_apart (host : Host) (hrunning : sys.running) (h : sys.Ready)
    (hway : sys.state.server.kind = .connecting → ¬ sys.NoWayOut) :
    CanReach Step Apart sys := by
  have hleave : ∀ {sys : System} {s : ConnectedServer}, sys.running → sys.Ready →
      sys.state.server = .connected s → CanReach Step Apart sys := by
    intro sys s hrunning h hserver
    obtain ⟨sys', hstep, hapart⟩ := exists_step_serverDisconnect host hrunning h hserver
    exact .cons hstep (.here hapart)
  cases hserver : sys.state.server with
  | disconnected => exact .here ⟨hrunning, h, hserver⟩
  | connected s => exact hleave hrunning h hserver
  | connecting sb =>
      have hjoined := canReach_joined host ⟨hrunning, h, hserver⟩ (hway (by rw [hserver]; rfl))
      refine (hjoined.of_step fun _ _ _ hstep => hstep.1).trans fun sys' h' => ?_
      obtain ⟨s, hconnected, -⟩ := h'.server
      exact hleave h'.running h'.ready hconnected

/-- **From server to server.**  The daemon can be brought to any server, unless
`client::handle` has returned or there is no way out of `Connecting`. -/
theorem canReach_loggedIn_iff {state : State} {trace : List ((Host × Label) × System)}
    (hrun : Run Step (start state) trace) (info : ConnectionInfo) (port : UInt16)
    (username : String) :
    CanReach Step (LoggedIn info port username) (final (start state) trace) ↔
      (final (start state) trace).running ∧
        ((final (start state) trace).state.server.kind = .connecting →
          ¬ (final (start state) trace).NoWayOut) := by
  have hready := ready_of_run hrun
  generalize final (start state) trace = sys at hready
  constructor
  · refine fun hreach => ⟨?_, fun hconnecting hno => ?_⟩
    · by_contra hnot
      obtain ⟨sys', hnot', h'⟩ := hreach.exists_of_inv (fun sys => ¬ sys.running) hnot
        fun _ _ _ hnot hstep => absurd (running_of_step hstep) hnot
      exact hnot' h'.running
    · obtain ⟨sys', ⟨-, hkind⟩, h'⟩ := hreach.exists_of_inv
        (fun sys => sys.NoWayOut ∧ sys.state.server.kind = .connecting) ⟨hno, hconnecting⟩
        fun _ _ _ hinv hstep => hinv.1.step hinv.2 hstep
      obtain ⟨s, hserver, -⟩ := h'.server
      rw [hserver] at hkind
      cases hkind
  · rintro ⟨hrunning, hway⟩
    let host : Host := { Host.offline with toSocketAddrs := fun _ _ => some [info.socketAddr] }
    refine (canReach_apart host hrunning hready hway).trans fun sys₁ h₁ => ?_
    refine (canReach_waiting host h₁).trans fun sys₂ ⟨h₂, htcp⟩ => ?_
    obtain ⟨sys₃, hstep, hunderway, hway', hawaits⟩ :
        ∃ sys', Step sys₂ (host, .command
            (.serverConnect info.hostname port username none info.acceptInvalidCert)) sys' ∧
          sys'.Underway (.new (info.hostname ++ ":" ++ toString port.toNat) username none) ∧
          ¬ sys'.NoWayOut ∧ Awaits info sys' := h₂.serverConnect htcp rfl
    have hjoined := (canReach_joined host hunderway hway').and_inv (Awaits info) hawaits
      fun _ _ _ h hstep => h.step hstep
    refine .cons hstep ((hjoined.of_step fun _ _ _ hstep => hstep.1).trans ?_)
    rintro sys' ⟨hawaits', h'⟩
    obtain ⟨session, hsession⟩ := h'.session
    obtain ⟨s, hserver, hhost, husername⟩ := h'.server
    exact .here {
      running := h'.running
      server := ⟨s, hserver, husername, hhost⟩
      session := ⟨session, hsession⟩
      info := hawaits'.info
      taken := hawaits'.taken.resolve_left (by simp [hsession]) }

/-- A crypt state that was left over does not matter as long as we are connected. -/
theorem canReach_loggedIn_iff_leftover :
    ∃ trace, Run Step (start .idle) trace ∧ (final (start .idle) trace).cryptStates ≠ [] ∧
      CanReach Step (LoggedIn ⟨⟨0, 64738⟩, "fourth", false⟩ 64738 "me")
        (final (start .idle) trace) := by
  obtain ⟨trace, htrace, hkind, hrunning, hfull⟩ : ∃ trace,
      (start .idle).follow .online leftover = some trace ∧
      (final (start .idle) trace).state.server.kind = .connected ∧
      (final (start .idle) trace).running ∧ (final (start .idle) trace).cryptStates ≠ [] :=
    ⟨Option.get _ (by decide +kernel), (Option.some_get _).symm, by decide +kernel,
      by decide +kernel, by decide +kernel⟩
  refine ⟨trace, run_follow htrace, hfull, (canReach_loggedIn_iff (run_follow htrace) _ _ _).mpr ?_⟩
  refine ⟨hrunning, fun hconnecting => ?_⟩
  cases hconnecting.symm.trans hkind

end System

end Mum
