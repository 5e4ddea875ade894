import Mum.Client.PhaseWatch

/-!
# Whose keys the voice has

The keys for voice over UDP come over TCP.  The TCP task puts the crypt state of a
session on a channel that has room for one, with the first `ServerSync`; the UDP task
takes one when it has bound its socket, and sends voice to the address of the connection
info that it has taken itself.  The two tasks take connection info, and see the end of a
session, each in its own time.

An observer writes down which address a crypt state came from.  Keys and address belong
together while a server is made only when both tasks are done with the server before
(`MadeAtRest`): then at most one crypt state is on its way for each connection info, and
the UDP task takes just that one.

The argument is a count.  `owed` is how many crypt states the TCP task is to send for the
connection info that is the latest, and `wanted` how many the UDP task is to take for it;
either is at most one.  `Keyed` says that those on the channel and those that are owed are
no more than are wanted, and that all of them are for the latest connection info.  Hence
the channel is empty when a session puts its crypt state on it (`Keyed.room`), and while a
session of the UDP task goes on, which wants no other.  The step lemma goes by tasks;
`UdpMove` lists what the steps of the UDP task do to the counts.
-/

namespace Mum

open Library Library.Eval Msgs
open Mumlib (Command)

/-- What an observer has written down. -/
structure Keys where
  /-- The address of the connection info that the TCP task took last. -/
  joined : Option SocketAddr
  /-- Where the crypt states on the channel came from. -/
  sent : List (Option SocketAddr)
  /-- Where the crypt state came from that the UDP task took last. -/
  key : Option SocketAddr
deriving DecidableEq

/-- `listen` hands out a crypt state once in a session, with a `ServerSync`. -/
theorem cryptState_handlePacket {host : Host} {state : State} {listen : Listen}
    {packet : Clientbound} {handled : Handled}
    (h : handlePacket host state listen packet = .ok handled) :
    (handled.cryptState = none ∧
        handled.listen.cryptStateSender = listen.cryptStateSender) ∨
      (∃ msg, packet = .serverSync msg) ∧ listen.cryptStateSender = true ∧
        handled.listen.cryptStateSender = false := by
  cases packet with
  | serverSync msg =>
      rw [handlePacket] at h
      split at h
      next hsender =>
        obtain ⟨cryptState, -, h⟩ := bind_eq_ok.mp h
        obtain ⟨state', -, h⟩ := bind_eq_ok.mp h
        cases h
        exact .inr ⟨⟨msg, rfl⟩, hsender, rfl⟩
      · obtain ⟨state', -, h⟩ := bind_eq_ok.mp h
        cases h
        exact .inl ⟨rfl, rfl⟩
  | cryptSetup msg =>
      obtain ⟨key, -, h⟩ := bind_eq_ok.mp h
      obtain ⟨clientNonce, -, h⟩ := bind_eq_ok.mp h
      obtain ⟨serverNonce, -, h⟩ := bind_eq_ok.mp h
      cases h
      exact .inl ⟨rfl, rfl⟩
  | reject msg =>
      rw [handlePacket] at h
      split at h
      · cases h
        exact .inl ⟨rfl, rfl⟩
      · cases h
        exact .inl ⟨rfl, rfl⟩
  | userState msg | userRemove msg =>
      obtain ⟨state', -, h⟩ := bind_eq_ok.mp h
      cases h
      exact .inl ⟨rfl, rfl⟩
  | udpTunnel voice =>
      cases voice with
      | ping timestamp =>
          cases h
          exact .inl ⟨rfl, rfl⟩
      | audio sessionId seqNum payload =>
          obtain ⟨audioOutput, -, h⟩ := bind_eq_ok.mp h
          cases h
          exact .inl ⟨rfl, rfl⟩
  | ping msg =>
      obtain ⟨late, -, h⟩ := bind_eq_ok.mp h
      obtain ⟨lost, -, h⟩ := bind_eq_ok.mp h
      obtain ⟨resync, -, h⟩ := bind_eq_ok.mp h
      obtain ⟨lastLate, -, h⟩ := bind_eq_ok.mp h
      obtain ⟨lastLost, -, h⟩ := bind_eq_ok.mp h
      obtain ⟨lastResync, -, h⟩ := bind_eq_ok.mp h
      cases h
      exact .inl ⟨rfl, rfl⟩
  | textMessage msg | channelState msg | channelRemove msg | authenticate msg | unhandled =>
      cases h
      exact .inl ⟨rfl, rfl⟩

namespace System

variable {host : Host} {sys sys' : System}

/-! ## Crypt states on their way -/

/-- How many crypt states the TCP task will send for the connection info. -/
def owed (sys : System) : ℕ :=
  match sys.tcp with
  | .waiting => if sys.connectionInfo.version = sys.tcpSeen then 0 else 1
  | .connecting _ | .authenticating _ => 1
  | .session session => if session.listen.cryptStateSender then 1 else 0

/-- How many the UDP task will take for it, before its session begins. -/
def wanted (sys : System) : ℕ :=
  match sys.udp with
  | .waiting => if sys.connectionInfo.version = sys.udpSeen then 0 else 1
  | .binding _ | .connecting _ => 1
  | .session _ => 0

theorem owed_le_one (sys : System) : sys.owed ≤ 1 := by
  unfold owed
  split <;> try split
  all_goals omega

theorem wanted_le_one (sys : System) : sys.wanted ≤ 1 := by
  unfold wanted
  split <;> try split
  all_goals omega

/-- What the packets of the server do to the channel for crypt states. -/
theorem cryptStates_packet {packet : Clientbound}
    (hstep : Step sys (host, .tcp (.packet packet)) sys') :
    ∃ handled : Handled, sys'.cryptStates = sys.cryptStates ++ handled.cryptState.toList ∧
      handled.cryptState.toList.length + sys'.owed ≤ sys.owed ∧ sys.tcp ≠ .waiting ∧
      sys'.udp = sys.udp ∧ sys'.udpSeen = sys.udpSeen ∧
      sys'.connectionInfo = sys.connectionInfo := by
  obtain ⟨-, hpacket⟩ := Option.ite_none_right_eq_some.mp (step_eq_ok hstep)
  obtain ⟨session, htcp, hlisten⟩ := inSession_eq_some.mp hpacket
  obtain ⟨handled, eventQueue, mailbox, hhandled, rfl⟩ := listen_eq_ok hlisten
  refine ⟨handled, rfl, ?_, by simp [htcp], rfl, rfl, rfl⟩
  simp only [owed, htcp]
  rcases cryptState_handlePacket hhandled with ⟨hnone, hsame⟩ | ⟨-, hsender, hused⟩
  · rw [hnone, hsame]
    exact Nat.le_of_eq (Nat.zero_add _)
  · rw [hsender, hused]
    cases handled.cryptState <;> simp

/-- The steps of the UDP task, and the channel for crypt states. -/
inductive UdpMove (sys sys' : System) : UdpLabel → Prop
  | takeInfo {info : ConnectionInfo} (hudp : sys.udp = .waiting)
      (hvalue : sys.connectionInfo.value = some info) (hudp' : sys'.udp = .binding info)
      (hcrypt : sys'.cryptStates = sys.cryptStates) : UdpMove sys sys' .takeInfo
  | ignoreInfo (hudp : sys.udp = .waiting) (hvalue : sys.connectionInfo.value = none)
      (hudp' : sys'.udp = .waiting) (hcrypt : sys'.cryptStates = sys.cryptStates) :
      UdpMove sys sys' .takeInfo
  | bind {info : ConnectionInfo} (hudp : sys.udp = .binding info)
      (hudp' : sys'.udp = .connecting info) (hcrypt : sys'.cryptStates = sys.cryptStates) :
      UdpMove sys sys' (.bind true)
  | connect {info : ConnectionInfo} {cryptState : ClientCryptState}
      (hudp : sys.udp = .connecting info)
      (hcrypt : sys.cryptStates = cryptState :: sys'.cryptStates)
      (hudp' : sys'.udp = .session (.new info)) : UdpMove sys sys' .connect
  | newCryptState {session : UdpSession} {cryptState : ClientCryptState}
      (hudp : sys.udp = .session session)
      (hcrypt : sys.cryptStates = cryptState :: sys'.cryptStates)
      (hudp' : sys'.udp = sys.udp) : UdpMove sys sys' .newCryptState
  | goesOn {label : UdpLabel} {session session' : UdpSession} (hudp : sys.udp = .session session)
      (hlabel : label ≠ .connect ∧ label ≠ .newCryptState)
      (hudp' : sys'.udp = .session session') (haddr : session'.serverAddr = session.serverAddr)
      (hcrypt : sys'.cryptStates = sys.cryptStates) : UdpMove sys sys' label
  | stopped {session : UdpSession} (hudp : sys.udp = .session session)
      (hudp' : sys'.udp = .waiting) (hcrypt : sys'.cryptStates = sys.cryptStates) :
      UdpMove sys sys' .poll
  | bindError {info : ConnectionInfo} (hudp : sys.udp = .binding info)
      (hudp' : sys'.udp = sys.udp) (hcrypt : sys'.cryptStates = sys.cryptStates) :
      UdpMove sys sys' (.bind false)

theorem serverAddr_listen {state state' : State} {session session' : UdpSession}
    {packet : VoicePacket UInt32}
    (h : session.listen host state packet = .ok (state', session')) :
    session'.serverAddr = session.serverAddr := by
  cases packet with
  | ping timestamp =>
      cases h
      rfl
  | audio sessionId seqNum payload =>
      obtain ⟨audioOutput, -, h⟩ := bind_eq_ok.mp h
      cases h
      rfl

theorem serverAddr_tick {state state' : State} {session session' : UdpSession} {sent : Bool}
    (h : session.tick host state sent = .ok (state', session')) :
    session'.serverAddr = session.serverAddr := by
  obtain ⟨timestamp, -, h⟩ := bind_eq_ok.mp h
  cases h
  split <;> rfl

theorem udpMove {label : UdpLabel} (hstep : Step sys (host, .udp label) sys') :
    UdpMove sys sys' label := by
  obtain ⟨-, hudpStep⟩ := Option.ite_none_right_eq_some.mp (step_eq_ok hstep)
  cases label with
  | takeInfo =>
      rw [udpStep] at hudpStep
      split at hudpStep
      next hudp =>
        split at hudpStep
        · cases hudpStep
        · cases hvalue : sys.connectionInfo.value with
          | none =>
              simp only [hvalue] at hudpStep
              cases hudpStep
              exact .ignoreInfo hudp hvalue hudp rfl
          | some info =>
              simp only [hvalue] at hudpStep
              cases hudpStep
              exact .takeInfo hudp hvalue rfl rfl
      · cases hudpStep
  | bind bound =>
      rw [udpStep] at hudpStep
      split at hudpStep
      next info hudp =>
        cases bound with
        | true =>
            cases hudpStep
            exact .bind hudp rfl rfl
        | false =>
            cases hudpStep
            exact .bindError hudp rfl rfl
      · cases hudpStep
  | connect =>
      rw [udpStep] at hudpStep
      split at hudpStep
      next info cryptState rest hudp hcrypt =>
        cases hudpStep
        exact .connect hudp hcrypt rfl
      · cases hudpStep
  | poll =>
      rw [udpStep] at hudpStep
      split at hudpStep
      next session hudp =>
        split at hudpStep
        · cases hudpStep
        · cases hudpStep
          exact .goesOn hudp ⟨by simp, by simp⟩ rfl rfl rfl
        · cases hudpStep
          exact .stopped hudp rfl rfl
      · cases hudpStep
  | packet packet =>
      rw [udpStep] at hudpStep
      split at hudpStep
      next session hudp =>
        obtain ⟨⟨state, session'⟩, hlisten, h⟩ := bind_eq_ok.mp (Option.some.inj hudpStep)
        cases h
        exact .goesOn hudp ⟨by simp, by simp⟩ rfl (serverAddr_listen hlisten) rfl
      · cases hudpStep
  | tick sent =>
      rw [udpStep] at hudpStep
      split at hudpStep
      next session hudp =>
        obtain ⟨⟨state, session'⟩, htick, h⟩ := bind_eq_ok.mp (Option.some.inj hudpStep)
        cases h
        exact .goesOn hudp ⟨by simp, by simp⟩ rfl (serverAddr_tick htick) rfl
      · cases hudpStep
  | newCryptState =>
      rw [udpStep] at hudpStep
      split at hudpStep
      next session cryptState rest hudp hcrypt =>
        cases hudpStep
        exact .newCryptState hudp hcrypt rfl
      · cases hudpStep

/-- The UDP task leaves the TCP task alone. -/
theorem tcp_udp {label : UdpLabel} (hstep : Step sys (host, .udp label) sys') :
    sys'.tcp = sys.tcp ∧ sys'.connectionInfo = sys.connectionInfo ∧
      sys'.tcpSeen = sys.tcpSeen := by
  cases step_cases hstep with
  | udp hcase => cases hcase <;> exact ⟨rfl, rfl, rfl⟩

/-- A command may publish connection info; the tasks stay where they are. -/
theorem command_tasks {command : Command} (hstep : Step sys (host, .command command) sys') :
    ∃ outcome, handleCommand host sys.state command = .ok outcome ∧
      sys'.connectionInfo = outcome.connectionInfo.elim sys.connectionInfo
        (fun info => sys.connectionInfo.send (some info)) ∧
      sys'.cryptStates = sys.cryptStates ∧ sys'.tcp = sys.tcp ∧ sys'.tcpSeen = sys.tcpSeen ∧
      sys'.udp = sys.udp ∧ sys'.udpSeen = sys.udpSeen := by
  cases step_cases hstep with
  | command houtcome => exact ⟨_, houtcome, rfl, rfl, rfl, rfl, rfl, rfl⟩

theorem owed_congr (htcp : sys'.tcp = sys.tcp) (hinfo : sys'.connectionInfo = sys.connectionInfo)
    (hseen : sys'.tcpSeen = sys.tcpSeen) : sys'.owed = sys.owed := by
  rw [owed, owed, htcp, hinfo, hseen]

/-- A server is made only when both tasks wait for its connection info. -/
def MadeAtRest (sys : System) (label : Host × Label) : Prop :=
  match sys.event label.1 label.2 with
  | .serverMade _ => sys.tcp = .waiting ∧ sys.udp = .waiting ∧
      sys.connectionInfo.version = sys.udpSeen
  | _ => True

end System

namespace Keys

open Mum.System (MadeAtRest owed wanted)

/-- What the observer writes down at a step. -/
def note (keys : Keys) (sys : System) (label : Host × Label) (sys' : System) : Keys :=
  match label.2 with
  | .tcp .takeInfo =>
      { keys with joined := sys.connectionInfo.value.map ConnectionInfo.socketAddr }
  | .tcp (.packet _) =>
      { keys with sent := keys.sent ++
          (sys'.cryptStates.drop sys.cryptStates.length).map fun _ => keys.joined }
  | .udp .connect | .udp .newCryptState =>
      { keys with sent := keys.sent.tail, key := keys.sent.head?.join }
  | _ => keys

theorem note_udp {keys : Keys} {sys sys' : System} {host : Host} {label : UdpLabel}
    (hlabel : label ≠ .connect ∧ label ≠ .newCryptState) :
    keys.note sys (host, .udp label) sys' = keys := by
  unfold note
  split
  next heq => cases heq
  next heq => cases heq
  next heq => exact absurd (Label.udp.inj heq) hlabel.1
  next heq => exact absurd (Label.udp.inj heq) hlabel.2
  · rfl

/-- A step of the daemon that is observed. -/
def Step (x : System × Keys) (label : Host × Label) (x' : System × Keys) : Prop :=
  observed System.next note x label = some x'

/-- The address of the connection info that was published last. -/
def published (sys : System) : Option SocketAddr :=
  sys.connectionInfo.value.map ConnectionInfo.socketAddr

/-- Everything that is under way is for the connection info that was published last. -/
structure Keyed (x : System × Keys) : Prop where
  joined : x.1.view.Joined
  parallel : x.2.sent.length = x.1.cryptStates.length
  count : x.1.cryptStates.length + x.1.owed ≤ x.1.wanted
  unpublished : x.1.connectionInfo.value = none → x.1.cryptStates.length + x.1.owed = 0
  session : x.1.tcp ≠ .waiting → x.2.joined = published x.1
  sent : ∀ addr ∈ x.2.sent, addr = published x.1
  binding : ∀ info, x.1.udp = .binding info ∨ x.1.udp = .connecting info →
    x.1.connectionInfo.value = some info
  key : ∀ session, x.1.udp = .session session → x.2.key = some session.serverAddr

theorem seen_of_joined {sys : System} (hjoined : sys.view.Joined) (htcp : sys.tcp ≠ .waiting) :
    sys.connectionInfo.version = sys.tcpSeen := by
  have hseen : sys.view.unseen = false := by
    unfold View.Joined at hjoined
    cases hkind : sys.view.tcp with
    | waiting => exact absurd (TcpTask.kind_eq_waiting.mp hkind) htcp
    | attempt | session =>
        rw [hkind] at hjoined
        exact hjoined.1
  simpa [System.view] using hseen

/-- A TCP task that waits and has seen everything owes nothing. -/
theorem owed_of_waiting {sys sys' : System} (hjoined : sys.view.Joined)
    (htcp : sys.tcp ≠ .waiting) (htcp' : sys'.tcp = .waiting)
    (hinfo : sys'.connectionInfo = sys.connectionInfo) (hseen : sys'.tcpSeen = sys.tcpSeen) :
    sys'.owed ≤ sys.owed := by
  have hzero : sys'.owed = 0 := by
    simp only [owed, htcp']
    rw [hinfo, hseen]
    exact if_pos (seen_of_joined hjoined htcp)
  rw [hzero]
  exact Nat.zero_le _

namespace Keyed

variable {host : Host} {label : Label} {x x' : System × Keys}

theorem start (state : State) : Keyed (System.start state, ⟨none, [], none⟩) where
  joined := by simp [System.view, System.start, View.Joined, TcpTask.kind, Watch.new]
  parallel := rfl
  count := Nat.le_refl 0
  unpublished := fun _ => rfl
  session := fun h => absurd rfl h
  sent := fun _ h => nomatch h
  binding := fun _ h => h.elim nofun nofun
  key := fun _ h => nomatch h

/-- A step that leaves the channel and the UDP task alone. -/
theorem goesOn (h : Keyed x) (hjoined : x'.1.view.Joined) (hkeys : x'.2 = x.2)
    (hcrypt : x'.1.cryptStates = x.1.cryptStates) (hudp : x'.1.udp = x.1.udp)
    (hudpSeen : x'.1.udpSeen = x.1.udpSeen) (hinfo : x'.1.connectionInfo = x.1.connectionInfo)
    (howed : x'.1.owed ≤ x.1.owed) (htcp : x'.1.tcp ≠ .waiting → x.1.tcp ≠ .waiting) :
    Keyed x' where
  joined := hjoined
  parallel := by
    rw [hkeys, hcrypt]
    exact h.parallel
  count := by
    have hwanted : x'.1.wanted = x.1.wanted := by
      rw [wanted, wanted, hudp, hudpSeen, hinfo]
    have hcount := h.count
    rw [hcrypt, hwanted]
    omega
  unpublished := by
    intro hnone
    rw [hinfo] at hnone
    have hzero := h.unpublished hnone
    rw [hcrypt]
    omega
  session := by
    intro hne
    rw [hkeys, published, hinfo]
    exact h.session (htcp hne)
  sent := by
    rw [hkeys, published, hinfo]
    exact h.sent
  binding := by
    rw [hudp, hinfo]
    exact h.binding
  key := by
    rw [hudp, hkeys]
    exact h.key

/-- Connection info is published while both tasks wait. -/
theorem publishes (h : Keyed x) {info : ConnectionInfo} (hjoined : x'.1.view.Joined)
    (hkeys : x'.2 = x.2) (hinfo : x'.1.connectionInfo = x.1.connectionInfo.send (some info))
    (hcrypt : x'.1.cryptStates = x.1.cryptStates) (hudp : x'.1.udp = x.1.udp)
    (hudpSeen : x'.1.udpSeen = x.1.udpSeen) (htcp : x'.1.tcp = x.1.tcp)
    (hwaits : x.1.tcp = .waiting ∧ x.1.udp = .waiting ∧
      x.1.connectionInfo.version = x.1.udpSeen) : Keyed x' := by
  obtain ⟨htcpWaits, hudpWaits, hseen⟩ := hwaits
  have hidle : x.1.cryptStates = [] := by
    have hwanted : x.1.wanted = 0 := by
      simp only [wanted, hudpWaits]
      exact if_pos hseen
    have hcount := h.count
    exact List.eq_nil_of_length_eq_zero (by omega)
  have hsent : x.2.sent = [] := by
    refine List.eq_nil_of_length_eq_zero ?_
    rw [h.parallel, hidle]
    rfl
  refine ⟨hjoined, ?_, ?_, ?_, fun hne => absurd (htcp.trans htcpWaits) hne, ?_, ?_, ?_⟩
  · rw [hkeys, hcrypt]
    exact h.parallel
  · have hwanted : x'.1.wanted = 1 := by
      simp only [wanted, hudp, hudpWaits, hinfo, hudpSeen, Watch.version_send]
      exact if_neg (by omega)
    rw [hcrypt, hidle, hwanted, List.length_nil, Nat.zero_add]
    exact x'.1.owed_le_one
  · intro hnone
    rw [hinfo] at hnone
    cases hnone
  · rw [hkeys, hsent]
    exact fun _ hmem => nomatch hmem
  · rw [hudp, hudpWaits]
    exact fun _ hbinding => hbinding.elim nofun nofun
  · rw [hudp, hudpWaits]
    exact fun _ hsession => nomatch hsession

theorem command (h : Keyed x) {command : Command}
    (hstep : Step x (host, .command command) x') (hjoined : x'.1.view.Joined)
    (hrest : MadeAtRest x.1 (host, .command command)) : Keyed x' := by
  obtain ⟨hsys, hnote⟩ := observed_eq_some.mp hstep
  obtain ⟨outcome, houtcome, hinfo, hcrypt, htcp, hseen, hudp, hudpSeen⟩ :=
    System.command_tasks hsys
  cases hpublished : outcome.connectionInfo with
  | none =>
      rw [hpublished] at hinfo
      have howed := System.owed_congr htcp hinfo hseen
      exact h.goesOn hjoined hnote hcrypt hudp hudpSeen hinfo howed.le fun hne => htcp ▸ hne
  | some info =>
      rw [hpublished] at hinfo
      refine h.publishes hjoined hnote hinfo hcrypt hudp hudpSeen htcp ?_
      cases handleCommand_cases houtcome with
      | keeps _ hnone | mutes _ _ _ _ _ hnone | disconnects _ _ _ hnone =>
          exact nomatch hnone.symm.trans hpublished
      | connects hserver =>
          have hkind : x.1.state.server.kind = .disconnected :=
            Server.kind_eq_disconnected.mpr hserver
          unfold MadeAtRest System.event at hrest
          simp only [hkind, if_true] at hrest
          exact hrest

/-- A crypt state that goes onto the channel is that of the session. -/
theorem packet (h : Keyed x) {packet : Clientbound}
    (hstep : Step x (host, .tcp (.packet packet)) x') (hjoined : x'.1.view.Joined) :
    Keyed x' := by
  obtain ⟨hsys, hnote⟩ := observed_eq_some.mp hstep
  obtain ⟨handled, hcrypt, howed, htcp, hudp, hudpSeen, hinfo⟩ := System.cryptStates_packet hsys
  have hsent : x'.2.sent = x.2.sent ++ handled.cryptState.toList.map fun _ => x.2.joined := by
    rw [hnote, note]
    dsimp only
    rw [hcrypt, List.drop_left]
  have hsession : x'.2.joined = x.2.joined := by rw [hnote, note]
  have hkey : x'.2.key = x.2.key := by rw [hnote, note]
  have hcount := h.count
  refine ⟨hjoined, ?_, ?_, ?_, fun _ => ?_, ?_, ?_, ?_⟩
  · rw [hsent, hcrypt, List.length_append, List.length_append, List.length_map, h.parallel]
  · have hwanted : x'.1.wanted = x.1.wanted := by
      rw [wanted, wanted, hudp, hudpSeen, hinfo]
    rw [hcrypt, hwanted, List.length_append]
    omega
  · rw [hinfo, hcrypt, List.length_append]
    intro hnone
    have hzero := h.unpublished hnone
    omega
  · rw [hsession, published, hinfo]
    exact h.session htcp
  · rw [hsent, published, hinfo]
    intro addr haddr
    rcases List.mem_append.mp haddr with hold | hnew
    · exact h.sent addr hold
    · obtain ⟨_, -, rfl⟩ := List.mem_map.mp hnew
      exact h.session htcp
  · rw [hudp, hinfo]
    exact h.binding
  · rw [hudp, hkey]
    exact h.key

theorem tcp (h : Keyed x) {label : TcpLabel} (hstep : Step x (host, .tcp label) x')
    (hjoined : x'.1.view.Joined) : Keyed x' := by
  obtain ⟨hsys, hnote⟩ := observed_eq_some.mp hstep
  obtain ⟨sys, keys⟩ := x
  obtain ⟨sys', keys'⟩ := x'
  dsimp only at hsys hnote hjoined
  have hends : sys.tcp ≠ .waiting → sys'.tcp = .waiting →
      sys'.connectionInfo = sys.connectionInfo → sys'.tcpSeen = sys.tcpSeen →
      sys'.owed ≤ sys.owed := fun hne => owed_of_waiting h.joined hne
  cases System.step_cases hsys with
  | tcp hcase =>
      cases hcase with
      | packet => exact h.packet hstep hjoined
      | ignoreInfo htcp hvalue =>
          subst hnote
          have howed : owed { sys with tcpSeen := sys.connectionInfo.version } = 0 := by
            simp [owed, htcp]
          have hcount := h.count
          have hzero := h.unpublished hvalue
          refine ⟨hjoined, h.parallel, ?_, fun _ => ?_, fun hne => absurd htcp hne, h.sent,
            h.binding, h.key⟩
          · rw [howed]
            exact (Nat.le_add_right _ _).trans hcount
          · rw [howed]
            exact (Nat.add_eq_zero_iff.mp hzero).1
      | takeInfo htcp hunseen hvalue =>
          subst hnote
          have howed : sys.owed = 1 := by
            simp [owed, htcp, hunseen]
          have hcount := h.count
          dsimp only at hcount
          rw [howed] at hcount
          refine ⟨hjoined, h.parallel, hcount, fun hnone => ?_, fun _ => rfl, h.sent, h.binding,
            h.key⟩
          exact nomatch hvalue.symm.trans hnone
      | connect htcp | authenticate htcp =>
          refine h.goesOn hjoined hnote rfl rfl rfl rfl ?_ fun _ => by simp [htcp]
          simp [owed, htcp, TcpSession.new, Listen.new]
      | tlsConnectError htcp | stopped htcp | streamGone htcp | sendError htcp =>
          refine h.goesOn hjoined hnote rfl rfl rfl rfl ?_ fun hne => absurd rfl hne
          exact hends (by simp [htcp]) rfl rfl rfl
      | seen htcp | voicePoll htcp | takePacket htcp | packetSent htcp =>
          refine h.goesOn hjoined hnote rfl rfl rfl rfl ?_ fun _ => by simp [htcp]
          simp [owed, htcp]
      | connectError | authenticateError | invalidPacket | ping | voice =>
          exact h.goesOn hjoined hnote rfl rfl rfl rfl (Nat.le_refl _) id

/-- The UDP task goes on without taking a crypt state. -/
theorem udpGoesOn (h : Keyed x) {label : UdpLabel} (hstep : Step x (host, .udp label) x')
    (hlabel : label ≠ .connect ∧ label ≠ .newCryptState) (hjoined : x'.1.view.Joined)
    (hcrypt : x'.1.cryptStates = x.1.cryptStates)
    (hcount : x.1.cryptStates.length + x.1.owed ≤ x'.1.wanted)
    (hbinding : ∀ info, x'.1.udp = .binding info ∨ x'.1.udp = .connecting info →
      x.1.connectionInfo.value = some info)
    (hkey : ∀ session', x'.1.udp = .session session' → ∃ session, x.1.udp = .session session ∧
      session'.serverAddr = session.serverAddr) : Keyed x' := by
  obtain ⟨hsys, hnote⟩ := observed_eq_some.mp hstep
  rw [note_udp hlabel] at hnote
  obtain ⟨htcp, hinfo, hseen⟩ := System.tcp_udp hsys
  have howed := System.owed_congr htcp hinfo hseen
  refine ⟨hjoined, ?_, ?_, ?_, ?_, ?_, ?_, fun session' hsession' => ?_⟩
  · rw [hnote, hcrypt]
    exact h.parallel
  · rw [hcrypt, howed]
    exact hcount
  · rw [hcrypt, howed, hinfo]
    exact h.unpublished
  · rw [hnote, htcp, published, hinfo]
    exact h.session
  · rw [hnote, published, hinfo]
    exact h.sent
  · rw [hinfo]
    exact hbinding
  · obtain ⟨session, hsession, haddr⟩ := hkey session' hsession'
    rw [hnote, haddr]
    exact h.key session hsession

/-- The UDP task takes the crypt state that is on the channel. -/
theorem connect (h : Keyed x) (hstep : Step x (host, .udp .connect) x')
    (hjoined : x'.1.view.Joined) {info : ConnectionInfo} {cryptState : ClientCryptState}
    (hudp : x.1.udp = .connecting info) (hcrypt : x.1.cryptStates = cryptState :: x'.1.cryptStates)
    (hudp' : x'.1.udp = .session (.new info)) : Keyed x' := by
  obtain ⟨hsys, hnote⟩ := observed_eq_some.mp hstep
  obtain ⟨htcp, hinfo, hseen⟩ := System.tcp_udp hsys
  have howed := System.owed_congr htcp hinfo hseen
  have hcount := h.count
  have hwanted : x.1.wanted = 1 := by simp only [wanted, hudp]
  rw [hcrypt, hwanted, List.length_cons] at hcount
  have hparallel := h.parallel
  rw [hcrypt, List.length_cons] at hparallel
  obtain ⟨addr, rest, hsent⟩ := List.exists_cons_of_length_eq_add_one hparallel
  have hkeys : x'.2 = { x.2 with sent := rest, key := addr } := by
    rw [hnote, note]
    simp [hsent]
  have haddr : addr = some info.socketAddr := by
    rw [h.sent addr (by rw [hsent]; exact List.mem_cons_self), published,
      h.binding info (.inr hudp)]
    rfl
  refine ⟨hjoined, ?_, ?_, ?_, ?_, ?_, ?_, ?_⟩
  · rw [hsent, List.length_cons] at hparallel
    rw [hkeys]
    exact Nat.succ.inj hparallel
  · omega
  · intro
    omega
  · rw [hkeys, htcp, published, hinfo]
    exact h.session
  · rw [hkeys, published, hinfo]
    exact fun addr' hmem => h.sent addr' (hsent ▸ List.mem_cons_of_mem _ hmem)
  · rw [hudp']
    exact fun _ hbinding => hbinding.elim nofun nofun
  · rw [hudp', hkeys]
    rintro session hsession
    cases hsession
    exact haddr

theorem udp (h : Keyed x) {label : UdpLabel} (hstep : Step x (host, .udp label) x')
    (hjoined : x'.1.view.Joined) : Keyed x' ∧ label ≠ .newCryptState := by
  obtain ⟨hsys, -⟩ := observed_eq_some.mp hstep
  have hcount := h.count
  have hone : x.1.cryptStates.length + x.1.owed ≤ 1 := hcount.trans x.1.wanted_le_one
  cases System.udpMove hsys with
  | @takeInfo info hudp hvalue hudp' hcrypt =>
      have hwanted : x'.1.wanted = 1 := by simp only [wanted, hudp']
      refine ⟨h.udpGoesOn hstep ⟨by simp, by simp⟩ hjoined hcrypt (hwanted ▸ hone) ?_ ?_, nofun⟩
      · rw [hudp']
        rintro info' (hbinding | hconnecting)
        · cases hbinding
          exact hvalue
        · cases hconnecting
      · rw [hudp']
        exact fun _ hsession => nomatch hsession
  | ignoreInfo hudp hvalue hudp' hcrypt =>
      have hzero := h.unpublished hvalue
      refine ⟨h.udpGoesOn hstep ⟨by simp, by simp⟩ hjoined hcrypt (by omega) ?_ ?_, nofun⟩
      · rw [hudp']
        exact fun _ hbinding => hbinding.elim nofun nofun
      · rw [hudp']
        exact fun _ hsession => nomatch hsession
  | bind hudp hudp' hcrypt =>
      have hwanted : x'.1.wanted = 1 := by simp only [wanted, hudp']
      refine ⟨h.udpGoesOn hstep ⟨by simp, by simp⟩ hjoined hcrypt (hwanted ▸ hone) ?_ ?_, nofun⟩
      · rw [hudp']
        rintro info' (hbinding | hconnecting)
        · cases hbinding
        · cases hconnecting
          exact h.binding _ (.inl hudp)
      · rw [hudp']
        exact fun _ hsession => nomatch hsession
  | connect hudp hcrypt hudp' => exact ⟨h.connect hstep hjoined hudp hcrypt hudp', nofun⟩
  | newCryptState hudp hcrypt hudp' =>
      -- the session has begun, and there is nothing left to take
      have hwanted : x.1.wanted = 0 := by simp only [wanted, hudp]
      rw [hcrypt, List.length_cons] at hcount
      omega
  | goesOn hudp hlabel hudp' haddr hcrypt =>
      have hwanted : x.1.wanted = 0 := by simp only [wanted, hudp]
      refine ⟨h.udpGoesOn hstep hlabel hjoined hcrypt (by omega) ?_ ?_, hlabel.2⟩
      · rw [hudp']
        exact fun _ hbinding => hbinding.elim nofun nofun
      · rw [hudp']
        rintro session' hsession'
        cases hsession'
        exact ⟨_, hudp, haddr⟩
  | stopped hudp hudp' hcrypt =>
      have hwanted : x.1.wanted = 0 := by simp only [wanted, hudp]
      refine ⟨h.udpGoesOn hstep ⟨by simp, by simp⟩ hjoined hcrypt (by omega) ?_ ?_, nofun⟩
      · rw [hudp']
        exact fun _ hbinding => hbinding.elim nofun nofun
      · rw [hudp']
        exact fun _ hsession => nomatch hsession
  | bindError hudp hudp' hcrypt =>
      have hwanted : x'.1.wanted = 1 := by simp only [wanted, hudp', hudp]
      refine ⟨h.udpGoesOn hstep ⟨by simp, by simp⟩ hjoined hcrypt (hwanted ▸ hone) ?_ ?_, nofun⟩
      · rw [hudp']
        exact h.binding
      · rw [hudp', hudp]
        exact fun _ hsession => nomatch hsession

theorem step (h : Keyed x) (hstep : Step x (host, label) x')
    (hrest : MadeAtRest x.1 (host, label)) : Keyed x' ∧ label ≠ .udp .newCryptState := by
  obtain ⟨hsys, hnote⟩ := observed_eq_some.mp hstep
  have hmade : (x.1.event host label).MadeWhileWaiting x.1.view := by
    unfold MadeAtRest at hrest
    unfold Event.MadeWhileWaiting
    split
    next heq =>
      rw [heq] at hrest
      exact TcpTask.kind_eq_waiting.mpr hrest.1
    · trivial
  have hjoined := (System.step_view hsys).joined h.joined hmade
  cases label with
  | command command => exact ⟨h.command hstep hjoined hrest, nofun⟩
  | controllerGone request =>
      refine ⟨?_, nofun⟩
      obtain ⟨sys', keys'⟩ := x'
      cases System.step_cases hsys with
      | controllerGone => exact h.goesOn hjoined hnote rfl rfl rfl rfl (Nat.le_refl _) id
  | tcp label => exact ⟨h.tcp hstep hjoined, nofun⟩
  | udp label =>
      obtain ⟨hkeyed, hlabel⟩ := h.udp hstep hjoined
      exact ⟨hkeyed, fun heq => hlabel (Label.udp.inj heq)⟩

/-- A session that has a crypt state to send finds room for it. -/
theorem room (h : Keyed x) {session : TcpSession} (htcp : x.1.tcp = .session session)
    (hsender : session.listen.cryptStateSender) : x.1.cryptStates = [] := by
  have howed : x.1.owed = 1 := by simp [owed, htcp, hsender]
  have hcount := h.count.trans x.1.wanted_le_one
  exact List.eq_nil_of_length_eq_zero (by omega)

end Keyed

/-- The voice is encrypted with keys from where it is sent to, they do not change in a
session, and `listen` does not wait for room on the channel. -/
def Fits (label : Host × Label) (x' : System × Keys) : Prop :=
  (∀ session, x'.1.udp = .session session → x'.2.key = some session.serverAddr) ∧
    label.2 ≠ .udp .newCryptState ∧
    ∀ session, x'.1.tcp = .session session → session.listen.cryptStateSender →
      x'.1.cryptStates = []

/-- **Keys and address belong together.**  In every run of the daemon in which servers are
made only when both tasks are done with the one before. -/
theorem fits_of_run {state : State} {trace : List ((Host × Label) × (System × Keys))}
    (hrun : Run Step (System.start state, ⟨none, [], none⟩) trace)
    (hrest : AllSteps (fun x label _ => MadeAtRest x.1 label)
      (System.start state, ⟨none, [], none⟩) trace) :
    AllSteps (fun _ label x' => Fits label x') (System.start state, ⟨none, [], none⟩) trace := by
  refine hrun.allSteps Keyed (.start state) ?_ hrest
  rintro x ⟨host, label⟩ x' h hstep hrest
  obtain ⟨hkeyed, hlabel⟩ := h.step hstep hrest
  exact ⟨hkeyed, hkeyed.key, hlabel, fun _ htcp hsender => hkeyed.room htcp hsender⟩

instance (sys : System) (label : Host × Label) : Decidable (MadeAtRest sys label) :=
  decidable_of_iff (∀ resolved, sys.event label.1 label.2 = .serverMade resolved →
      sys.tcp = .waiting ∧ sys.udp = .waiting ∧ sys.connectionInfo.version = sys.udpSeen) (by
    unfold MadeAtRest
    cases sys.event label.1 label.2 <;> simp)

/-- The trace of labels that come on one machine. -/
def follow (host : Host) (labels : List Label) :
    Option (List ((Host × Label) × (System × Keys))) :=
  Library.follow (observed System.next note) (System.start .idle, ⟨none, [], none⟩)
    (labels.map (host, ·))

theorem run_follow {host : Host} {labels : List Label}
    {trace : List ((Host × Label) × (System × Keys))} (h : follow host labels = some trace) :
    Run Step (System.start .idle, ⟨none, [], none⟩) trace :=
  Library.run_follow (fun _ _ _ h => h) h

theorem fits_of_run_login :
    ∃ trace, follow .online (System.login "localhost" ++ System.udpUp) = some trace ∧
      AllSteps (fun _ label x' => Fits label x') (System.start .idle, ⟨none, [], none⟩) trace :=
  ⟨Option.get _ (by decide), (Option.some_get _).symm,
    fits_of_run (run_follow (Option.some_get _).symm) (by decide)⟩

/-- We connect to another server before the UDP task has seen that we have left the first,
which listens at another port. -/
def reconnect : List Label :=
  let block : Bytes := List.replicate 16 0
  System.login "first" ++ System.udpUp ++
  [.command .serverDisconnect, .tcp .poll,
    .command (.serverConnect "second" 64739 "me" none false), .tcp .takeInfo,
    .tcp (.connect .ok), .tcp (.authenticate true),
    .tcp (.packet (.cryptSetup ⟨some block, some block, some block⟩)),
    .tcp (.packet (.channelState { channelId := some 0, name := some "Root" })),
    .tcp (.packet (.serverSync { session := some 1 })), .udp .newCryptState]

/-- Then it sends to the first server with the keys of the second. -/
theorem not_fits_reconnect : ∃ trace, follow .online reconnect = some trace ∧
    (final (System.start .idle, ⟨none, [], none⟩) trace).2.key = some ⟨0, 64739⟩ ∧
    ∃ session, (final (System.start .idle, ⟨none, [], none⟩) trace).1.udp = .session session ∧
      session.serverAddr = ⟨0, 64738⟩ := by
  refine ⟨Option.get _ (by decide +kernel), (Option.some_get _).symm, ?_, ⟨⟨0, 64738⟩, 0, 0, none⟩,
    ?_, rfl⟩
  · decide +kernel
  · decide +kernel

end Keys

end Mum
