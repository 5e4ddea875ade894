import Mum.Client.Lifecycle
import Mum.Client.OwnChannel

/-!
# Whose password a server gets

The connection info of a `ServerConnect` says where to connect to, and goes to the TCP
task over a watch channel.  The user name and the password stay behind with the server
of the shared state, and `connect` reads them when the connection is there.  So they are
those of the server that is being logged in to at that moment, not those that came with
the connection info.

They belong together while every `ServerSync` that completes a login comes in the
session of the server made last (`OwnLogin`).

The invariant is `Introduced`: while connection info is on its way, and while the TCP task
connects with it, the server of the shared state is one that the same `ServerConnect` made.
A `ServerConnect` brings both at once (`connects`).  A `ServerSync` could complete the login
of the new server in the session of an older one: the history tells the two apart, and
`OwnLogin` excludes just that.  Other steps leave the server and the connection info as they
are (`goesOn`), and while we are disconnected nothing is on its way (`idle`).
Since the connection info has to have been asked for at some time, the induction over a run
carries the labels along (`introduced_of_run`).
-/

namespace Mum

open Library Library.Eval Msgs
open Mumlib (Command)

namespace State

/-- We are logging in with this name and this password. -/
def LogsInWith (state : State) (username : String) (password : Option String) : Prop :=
  ∃ sb, state.server = .connecting sb ∧ sb.username = username ∧ sb.password = password

variable {host : Host} {state state' : State} {username : String} {password : Option String}

theorem LogsInWith.of_eq (h : state.LogsInWith username password)
    (hserver : state'.server = state.server) : state'.LogsInWith username password := by
  obtain ⟨sb, hsb, hcredentials⟩ := h
  exact ⟨sb, hserver.trans hsb, hcredentials⟩

/-- What `connect` tells the server. -/
theorem LogsInWith.authenticates (h : state.LogsInWith username password) :
    state.username = some username ∧ state.password = password := by
  obtain ⟨sb, hsb, rfl, rfl⟩ := h
  rw [State.username, State.password, hsb]
  exact ⟨rfl, rfl⟩

theorem logsInWith_serverConnect (hostname : String) (port : UInt16) (acceptInvalidCert : Bool) :
    (state.serverConnect host hostname port username password
      acceptInvalidCert).state.LogsInWith username password := by
  unfold State.serverConnect
  split
  · exact ⟨_, rfl, rfl, rfl⟩
  · exact ⟨_, rfl, rfl, rfl⟩

/-- No command changes them on the way. -/
theorem LogsInWith.command (h : state.LogsInWith username password) {command : Command}
    {outcome : Outcome} (houtcome : handleCommand host state command = .ok outcome) :
    outcome.state.LogsInWith username password ∧ outcome.connectionInfo = none := by
  obtain ⟨sb, hsb, -⟩ := id h
  have hnot : ∀ server, state.server = server → server.kind = .connecting := by
    rintro server rfl
    rw [hsb]
    rfl
  cases handleCommand_eq_ok houtcome with
  | answer | send | events | inputVolumeSet | outputVolumeSet | subscribe | pastMessages
  | serverStatus => exact ⟨h.of_eq rfl, rfl⟩
  | configReload hstate => exact ⟨h.of_eq (server_reloadConfig hstate), rfl⟩
  | updateSelf hserver | muteOther hserver | serverConnect hserver | serverDisconnect hserver
  | userVolumeSet hserver => cases hnot _ hserver

/-- Nor does a packet, as long as it is not the one that completes the login. -/
theorem LogsInWith.packet (h : state.LogsInWith username password) {listen : Listen}
    {packet : Clientbound} {handled : Handled}
    (hhandled : handlePacket host state listen packet = .ok handled)
    (hpacket : ∀ msg, packet ≠ .serverSync msg) :
    handled.state.LogsInWith username password := by
  obtain ⟨sb, hsb, hcredentials⟩ := id h
  have hcase := handles_of_handlePacket hhandled
  obtain ⟨state', listen', cryptState, event⟩ := handled
  cases hcase with
  | serverSync => exact absurd rfl (hpacket _)
  | textMessage msg =>
      refine h.of_eq ?_
      cases textMessageNews state msg <;> rfl
  | userState hstate =>
      rw [State.userState, hsb] at hstate
      cases hstate
      exact ⟨_, rfl, hcredentials⟩
  | userRemove hstate =>
      rw [State.removeUser, hsb] at hstate
      cases hstate
      exact ⟨_, rfl, hcredentials⟩
  | channelState msg =>
      refine ⟨sb.channelState msg, ?_, hcredentials⟩
      simp only [hsb]
  | channelRemove msg =>
      refine ⟨sb.channelRemove msg, ?_, hcredentials⟩
      simp only [hsb]
  | audio => exact h.of_eq rfl
  | cryptSetup | wrongPassword | reject | voicePing | ping | authenticate | unhandled => exact h

end State

/-! ## Servers and connection info -/

/-- A controller has asked for a connection like this, with this name and this
password. -/
def Asked (labels : List (Host × Label)) (info : ConnectionInfo) (username : String)
    (password : Option String) : Prop :=
  ∃ machine port, (machine, .command (.serverConnect info.hostname port username password
    info.acceptInvalidCert)) ∈ labels ∧ machine.resolve info.hostname port = some info.socketAddr

/-- The server that we are logging in to is the one that the connection info is for. -/
def Introduces (labels : List (Host × Label)) (state : State) (info : ConnectionInfo) : Prop :=
  ∃ username password, state.LogsInWith username password ∧ Asked labels info username password

theorem Introduces.mono {labels labels' : List (Host × Label)} {state state' : State}
    {info : ConnectionInfo} (h : Introduces labels state info)
    (hstate : ∀ username password, state.LogsInWith username password →
      state'.LogsInWith username password) (hlabels : labels ⊆ labels') :
    Introduces labels' state' info := by
  obtain ⟨username, password, hlogs, machine, port, hmem, hresolve⟩ := h
  exact ⟨username, password, hstate _ _ hlogs, machine, port, hlabels hmem, hresolve⟩

namespace System

variable {host : Host} {label : Label} {sys sys' : System} {labels : List (Host × Label)}
  {info : ConnectionInfo}

/-- A `ServerSync` that completes a login comes from the server made last. -/
def OwnLogin (sys : System) (label : Host × Label) (_ : System) : Prop :=
  ∀ msg, label.2 = .tcp (.packet (.serverSync msg)) →
    sys.state.server.kind = .connecting → sys.history.joined = sys.history.servers

/-- While connection info is on its way, and while the TCP task connects with it, we are
logging in to the server that it is for. -/
structure Introduced (labels : List (Host × Label)) (sys : System) : Prop where
  published_le : sys.history.published ≤ sys.history.servers
  joined_le : sys.history.joined ≤ sys.history.servers
  /-- The session that goes on, if any, is of an older server. -/
  older : sys.connectionInfo.version ≠ sys.tcpSeen → sys.history.joined < sys.history.servers
  unseen : sys.connectionInfo.version ≠ sys.tcpSeen →
    ∃ info, sys.connectionInfo.value = some info ∧ Introduces labels sys.state info
  attempt : ∀ info, sys.tcp = .connecting info → Introduces labels sys.state info

theorem introduced_start (state : State) : Introduced [] (start state) where
  published_le := Nat.le_refl _
  joined_le := Nat.le_refl _
  older := fun h => absurd rfl h
  unseen := fun h => absurd rfl h
  attempt := fun _ h => nomatch h

namespace Introduced

/-- A step that brings no server and no connection info. -/
theorem goesOn (h : Introduced labels sys) (hhistory : sys'.history = sys.history)
    (hinfo : sys'.connectionInfo = sys.connectionInfo) (hseen : sys'.tcpSeen = sys.tcpSeen)
    (htcp : ∀ info, sys'.tcp = .connecting info → sys.tcp = .connecting info)
    (hstate : (sys.connectionInfo.version ≠ sys.tcpSeen ∨ ∃ info, sys.tcp = .connecting info) →
      ∀ username password, sys.state.LogsInWith username password →
        sys'.state.LogsInWith username password) :
    Introduced (labels ++ [(host, label)]) sys' := by
  have hlabels : labels ⊆ labels ++ [(host, label)] := List.subset_append_left _ _
  refine ⟨hhistory ▸ h.published_le, hhistory ▸ h.joined_le, ?_, ?_, fun info hconnecting => ?_⟩
  · rw [hinfo, hseen, hhistory]
    exact h.older
  · rw [hinfo, hseen]
    intro hunseen
    obtain ⟨info, hvalue, hintroduces⟩ := h.unseen hunseen
    exact ⟨info, hvalue, hintroduces.mono (hstate (Or.inl hunseen)) hlabels⟩
  · have hold := htcp info hconnecting
    exact (h.attempt info hold).mono (hstate (Or.inr ⟨info, hold⟩)) hlabels

/-- Nothing is on its way or in use while we are disconnected. -/
theorem idle (h : Introduced labels sys) (hserver : sys.state.server = .disconnected) :
    sys.connectionInfo.version = sys.tcpSeen ∧ ∀ info, sys.tcp ≠ .connecting info := by
  have hnot : ∀ username password, ¬ sys.state.LogsInWith username password := by
    rintro username password ⟨sb, hsb, -⟩
    rw [hserver] at hsb
    cases hsb
  refine ⟨?_, fun info hconnecting => ?_⟩
  · by_contra hunseen
    obtain ⟨info, -, username, password, hlogs, -⟩ := h.unseen hunseen
    exact hnot _ _ hlogs
  · obtain ⟨username, password, hlogs, -⟩ := h.attempt info hconnecting
    exact hnot _ _ hlogs

/-- A server is made, with connection info if its address resolves. -/
theorem connects (h : Introduced labels sys) {hostname username : String} {port : UInt16}
    {password : Option String} {acceptInvalidCert : Bool}
    (hserver : sys.state.server = .disconnected) {outcome : Outcome}
    (houtcome : outcome = sys.state.serverConnect host hostname port username password
      acceptInvalidCert) (hstate : sys'.state = outcome.state)
    (hinfo : sys'.connectionInfo = outcome.connectionInfo.elim sys.connectionInfo
      fun info => sys.connectionInfo.send (some info))
    (hhistory : sys'.history = History.made sys.history sys.state.server outcome)
    (hseen : sys'.tcpSeen = sys.tcpSeen) (htcp : sys'.tcp = sys.tcp) :
    Introduced (labels ++ [(host,
      .command (.serverConnect hostname port username password acceptInvalidCert))]) sys' := by
  obtain ⟨hidle, hnot⟩ := h.idle hserver
  have hlogs : sys'.state.LogsInWith username password := by
    rw [hstate, houtcome]
    exact State.logsInWith_serverConnect hostname port acceptInvalidCert
  obtain ⟨sb, hsb, -, hpublished⟩ :=
    sys.state.serverConnect_eq host hostname port username password acceptInvalidCert
  rw [← houtcome] at hpublished hsb
  have hmade : sys'.history = { sys.history with
      servers := sys.history.servers + 1
      published := if outcome.connectionInfo.isSome then sys.history.servers + 1
        else sys.history.published } := by
    have hne : outcome.state.server ≠ .disconnected := by
      rw [hsb]
      exact nofun
    rw [hhistory, History.made, if_pos ⟨hserver, hne⟩]
  have hattempt : ∀ info, sys'.tcp ≠ .connecting info := htcp ▸ hnot
  cases hresolve : host.resolve hostname port with
  | none =>
      rw [hresolve] at hpublished
      have hversion : sys'.connectionInfo.version = sys'.tcpSeen := by
        rw [hinfo, hpublished, hseen]
        exact hidle
      refine ⟨?_, ?_, absurd hversion, absurd hversion, fun info hc => absurd hc (hattempt info)⟩
      · rw [hmade, hpublished]
        exact Nat.le_succ_of_le h.published_le
      · rw [hmade]
        exact Nat.le_succ_of_le h.joined_le
  | some socketAddr =>
      rw [hresolve] at hpublished
      refine ⟨?_, ?_, fun _ => ?_, fun _ => ⟨⟨socketAddr, hostname, acceptInvalidCert⟩, ?_, ?_⟩,
        fun info hc => absurd hc (hattempt info)⟩
      · rw [hmade, hpublished]
        exact Nat.le_refl _
      · rw [hmade]
        exact Nat.le_succ_of_le h.joined_le
      · rw [hmade]
        exact Nat.lt_succ_of_le h.joined_le
      · rw [hinfo, hpublished]
        rfl
      · exact ⟨username, password, hlogs, host, port,
          List.mem_append_right _ (List.mem_singleton_self _), hresolve⟩

/-- Every step keeps it, unless a `ServerSync` completes the login of another server. -/
theorem step (h : Introduced labels sys) (hstep : Step sys (host, label) sys')
    (hown : OwnLogin sys (host, label) sys') : Introduced (labels ++ [(host, label)]) sys' := by
  cases step_cases hstep with
  | command houtcome =>
      have hstate : (sys.connectionInfo.version ≠ sys.tcpSeen ∨
          ∃ info, sys.tcp = .connecting info) → ∀ username password,
          sys.state.LogsInWith username password → _ :=
        fun _ username password hlogs => (hlogs.command houtcome).1
      cases handleCommand_cases houtcome with
      | keeps hkeeps hinfo =>
          exact h.goesOn (made_of_kind hkeeps.kind) (by rw [hinfo]; rfl) rfl (fun _ => id) hstate
      | mutes hserver _ _ _ _ hinfo | disconnects hserver _ _ hinfo =>
          refine h.goesOn (if_neg ?_) (by rw [hinfo]; rfl) rfl (fun _ => id) hstate
          rintro ⟨hdisconnected, -⟩
          cases hserver.symm.trans hdisconnected
      | connects hserver => exact h.connects hserver rfl rfl rfl rfl rfl rfl
  | controllerGone => exact h.goesOn rfl rfl rfl (fun _ => id) fun _ _ _ => id
  | udp hcase =>
      cases hcase with
      | _ => exact h.goesOn rfl rfl rfl (fun _ => id) fun _ _ _ => (·.of_eq rfl)
  | tcp hcase =>
      cases hcase with
      | ignoreInfo htcp =>
          have hseen : ¬ sys.connectionInfo.version ≠ sys.connectionInfo.version := (· rfl)
          exact ⟨h.published_le, h.joined_le, (absurd · hseen), (absurd · hseen),
            fun info hc => nomatch htcp.symm.trans hc⟩
      | takeInfo htcp hunseen hvalue =>
          have hseen : ¬ sys.connectionInfo.version ≠ sys.connectionInfo.version := (· rfl)
          refine ⟨h.published_le, h.published_le, (absurd · hseen), (absurd · hseen),
            fun info hc => ?_⟩
          cases hc
          obtain ⟨info, hinfo, hintroduces⟩ := h.unseen hunseen
          cases hvalue.symm.trans hinfo
          exact hintroduces.mono (fun _ _ => id) (List.subset_append_left _ _)
      | @packet session packet handled _ _ _ htcp hhandled =>
          refine h.goesOn rfl rfl rfl (fun _ hc => nomatch hc) fun hbusy _ _ hlogs => ?_
          rcases hbusy with hunseen | ⟨info, hc⟩
          · refine hlogs.packet hhandled ?_
            rintro msg rfl
            -- a login would be that of an older server
            obtain ⟨sb, hsb, -⟩ := hlogs
            have hconnecting : sys.state.server.kind = .connecting := by
              rw [hsb]
              rfl
            exact absurd (hown msg rfl hconnecting) (Nat.ne_of_lt (h.older hunseen))
          · cases htcp.symm.trans hc
      | connect | tlsConnectError | stopped | streamGone | sendError | seen | voicePoll
      | takePacket | packetSent =>
          exact h.goesOn rfl rfl rfl (fun _ hc => nomatch hc) fun _ _ _ => (·.of_eq rfl)
      | authenticate =>
          refine ⟨h.published_le, h.joined_le, h.older, fun hunseen => ?_, fun _ hc => nomatch hc⟩
          obtain ⟨info, hvalue, hintroduces⟩ := h.unseen hunseen
          exact ⟨info, hvalue, hintroduces.mono (fun _ _ => id) (List.subset_append_left _ _)⟩
      | connectError | authenticateError | invalidPacket | ping | voice =>
          exact h.goesOn rfl rfl rfl (fun _ => id) fun _ _ _ => id

end Introduced

theorem introduced_of_run {trace : List ((Host × Label) × System)} (hrun : Run Step sys trace)
    (h : Introduced labels sys) (hown : AllSteps OwnLogin sys trace) :
    Introduced (labels ++ trace.map Prod.fst) (final sys trace) := by
  induction hrun generalizing labels with
  | nil =>
      rw [List.map_nil, List.append_nil]
      exact h
  | cons hstep _ ih =>
      have hrest := ih (h.step hstep hown.1) hown.2
      rw [List.append_assoc] at hrest
      exact hrest

/-- Whoever we connect to is told the name and the password of a `ServerConnect` for this
very connection, and `connect` finds a name. -/
theorem authenticates_of_run {state : State} {trace : List ((Host × Label) × System)}
    (hrun : Run Step (start state) trace) (hown : AllSteps OwnLogin (start state) trace)
    {info : ConnectionInfo} (htcp : (final (start state) trace).tcp = .connecting info)
    (host : Host) :
    ∃ username password, Asked (trace.map Prod.fst) info username password ∧
      (final (start state) trace).tcpStep host (.connect .ok) =
        some (.ok { final (start state) trace with
          tcp := .authenticating
            { username := some username, password := password, opus := some true } }) := by
  have h := introduced_of_run hrun (introduced_start state) hown
  obtain ⟨username, password, hlogs, hasked⟩ := h.attempt info htcp
  obtain ⟨husername, hpassword⟩ := hlogs.authenticates
  refine ⟨username, password, hasked, ?_⟩
  simp only [tcpStep, htcp, husername, hpassword, unwrap_some, ok_bind]

/-- A controller asks for a server with a password. -/
def joinWith (hostname password : String) : Label :=
  .command (.serverConnect hostname 64738 "me" (some password) false)

theorem follow_join : ∃ trace,
    follow .online (start .idle) [joinWith "home" "secret", .tcp .takeInfo] = some trace ∧
      AllSteps OwnLogin (start .idle) trace ∧
      (final (start .idle) trace).tcp = .connecting ⟨⟨0, 64738⟩, "home", false⟩ := by
  refine ⟨_, rfl, ?_, rfl⟩
  exact ⟨fun _ h => (nomatch h), fun _ h => (nomatch h), trivial⟩

theorem authenticates_of_run_join :
    ∃ trace, follow .online (start .idle) [joinWith "home" "secret", .tcp .takeInfo] = some trace ∧
      ∃ username password,
        Asked (trace.map Prod.fst) ⟨⟨0, 64738⟩, "home", false⟩ username password ∧
        (final (start .idle) trace).tcpStep .online (.connect .ok) =
          some (.ok { final (start .idle) trace with
            tcp := .authenticating
              { username := some username, password := password, opus := some true } }) := by
  obtain ⟨trace, htrace, hown, htcp⟩ := follow_join
  exact ⟨trace, htrace, authenticates_of_run (run_follow htrace) hown htcp .online⟩

/-- The server that we have left sends a `ServerSync` while we ask for "home", and again
we leave before the TCP task has seen it.  The name of the third server does not resolve. -/
def lateSync : List (Host × Label) :=
  (login "left").map (.online, ·) ++
  [(.online, .command .serverDisconnect), (.online, joinWith "home" "secret"),
    (.online, .tcp (.packet (.channelState { channelId := some 0, name := some "Root" }))),
    (.online, .tcp (.packet (.serverSync { session := some 1 }))),
    (.online, .command .serverDisconnect), (.offline, joinWith "work" "other secret"),
    (.online, .tcp .streamGone), (.online, .tcp .takeInfo)]

/-- Then "home" is told the password for "work". -/
theorem authenticates_lateSync : ∃ trace, Library.follow next (start .idle) lateSync = some trace ∧
    (final (start .idle) trace).tcp = .connecting ⟨⟨0, 64738⟩, "home", false⟩ ∧
      ((final (start .idle) trace).next (.online, .tcp (.connect .ok))).map System.tcp =
        some (.authenticating
          { username := some "me", password := some "other secret", opus := some true }) := by
  refine ⟨Option.get _ (by decide +kernel), (Option.some_get _).symm, ?_, ?_⟩
  · decide +kernel
  · decide +kernel

end System

end Mum
