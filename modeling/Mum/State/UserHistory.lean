import Mum.Library.KeyedStore
import Mum.State.Membership

/-!
# The user map of a connection

What the `UserState` and `UserRemove` packets of one connection leave in the user
map, wherever the login falls between them.

The map is a keyed store.  The record of a user is written in two places, when
the user is new and when a packet changes it; `User.carriedBy` reads it off all
packets at once, each field as it was carried last, and is what both come to.
A packet without session is nothing for a `UserState`, and session `0` for a
`UserRemove`.

`lookup_applyAll_userOps` is the induction, by what the library says of a store whose entries
are updated and deleted; here only the value of an entry is to be found
(`User.carriedBy_concat`).  Two packets commute when they are about different users, since
what is left for a user depends on the packets about that user alone
(`sameUsers_of_packetsOn`).
-/

namespace Mum

open Library Library.Eval Library.KeyedStore Msgs

namespace UserPacket

/-- The session whose record the packet changes. -/
def session : UserPacket → Option UInt32
  | state msg => msg.session
  | remove msg => some msg.getSession

/-- The packet in a user map that takes it. -/
def update (users : Users) : UserPacket → Users
  | state msg => userState msg users
  | remove msg => users.erase msg.getSession

def removes (session : UInt32) : UserPacket → Bool
  | state _ => false
  | remove msg => msg.getSession = session

def op : UserPacket → Option (Op UInt32 UserState)
  | state msg => msg.session.map (.put · msg)
  | remove msg => some (.del msg.getSession)

theorem map_key_op (packet : UserPacket) : packet.op.map Op.key = packet.session := by
  cases packet with
  | state msg => cases h : msg.session <;> simp [op, session, h]
  | remove msg => rfl

end UserPacket

/-! ## Servers that take packets -/

def ConnectingServer.userPacket (server : ConnectingServer) : UserPacket → ConnectingServer
  | .state msg => server.userState msg
  | .remove msg => server.userRemove msg

def ConnectedServer.userPacket (server : ConnectedServer) : UserPacket → ConnectedServer
  | .state msg => server.userState msg
  | .remove msg => server.userRemove msg

def ConnectingServer.userPackets (server : ConnectingServer) (packets : List UserPacket) :
    ConnectingServer :=
  packets.foldl ConnectingServer.userPacket server

def ConnectedServer.userPackets (server : ConnectedServer) (packets : List UserPacket) :
    ConnectedServer :=
  packets.foldl ConnectedServer.userPacket server

def Server.userPacket : Server → UserPacket → Server
  | .disconnected, _ => .disconnected
  | .connecting server, packet => .connecting (server.userPacket packet)
  | .connected server, packet => .connected (server.userPacket packet)

/-- This is what `listen` does to the server, unless it panics. -/
theorem UserPacket.server_of_apply {host : Host} {state state' : State} {packet : UserPacket}
    (happly : packet.apply host state = .ok state') :
    state'.server = state.server.userPacket packet := by
  cases hserver : state.server with
  | disconnected =>
      have hsame : packet.apply host state = .ok state := by
        cases packet <;> simp [UserPacket.apply, State.userState, State.removeUser, hserver]
      cases happly.symm.trans hsame
      exact hserver
  | connecting server =>
      have hconnecting : packet.apply host state =
          .ok { state with server := .connecting (server.userPacket packet) } := by
        cases packet <;>
          simp [UserPacket.apply, State.userState, State.removeUser, hserver,
            ConnectingServer.userPacket]
      cases happly.symm.trans hconnecting
      rfl
  | connected s =>
      cases packet with
      | state msg =>
          obtain ⟨own, audioOutput, -, rfl, -⟩ := State.userState_connected hserver happly
          rfl
      | remove msg =>
          obtain ⟨own, user, audioOutput, -, -, rfl, -⟩ :=
            State.removeUser_connected hserver happly
          rfl

/-! ## The record that packets leave -/

/-- Of every field the value that was carried last, or the default. -/
def User.carriedBy (msgs : List UserState) : User where
  channel := (lastCarried UserState.channelId msgs).getD 0
  comment := lastCarried UserState.comment msgs
  hash := lastCarried UserState.hash msgs
  name := (lastCarried UserState.name msgs).getD ""
  prioritySpeaker := (lastCarried UserState.prioritySpeaker msgs).getD false
  recording := (lastCarried UserState.recording msgs).getD false
  suppress := (lastCarried UserState.suppress msgs).getD false
  selfMute := (lastCarried UserState.selfMute msgs).getD false
  selfDeaf := (lastCarried UserState.selfDeaf msgs).getD false
  mute := (lastCarried UserState.mute msgs).getD false
  deaf := (lastCarried UserState.deaf msgs).getD false

theorem User.carriedBy_singleton (msg : UserState) : carriedBy [msg] = new msg := by
  simp [carriedBy, new, lastCarried, UserState.getChannelId, UserState.getName]

theorem User.carriedBy_concat (msgs : List UserState) (msg : UserState) :
    carriedBy (msgs ++ [msg]) = (carriedBy msgs).parseUserState msg := by
  simp [carriedBy, parseUserState, lastCarried_concat, Option.getD_or]

/-- How `UserState` packets create and change users. -/
def userPolicy : Policy UserState User := ⟨User.new, User.parseUserState⟩

def userOps (packets : List UserPacket) : List (Op UInt32 UserState) :=
  packets.filterMap UserPacket.op

/-- The packets about a session. -/
def packetsOn (session : UInt32) (packets : List UserPacket) : List UserPacket :=
  packets.filter fun packet => packet.session = some session

/-- The `UserState`s that name a session since it was last removed. -/
def statesSince (session : UInt32) (packets : List UserPacket) : List UserState :=
  since session (userOps packets)

theorem UserPacket.update_eq (users : Users) (packet : UserPacket) :
    packet.update users = packet.op.elim users (KeyedStore.apply userPolicy users) := by
  cases packet with
  | state msg =>
      rw [update, op, userState]
      cases msg.session <;> rfl
  | remove msg => rfl

theorem ConnectingServer.users_userPackets (server : ConnectingServer)
    (packets : List UserPacket) :
    (server.userPackets packets).users = applyAll userPolicy server.users (userOps packets) := by
  rw [userOps, ← foldl_eq_applyAll userPolicy UserPacket.update_eq, userPackets]
  exact (List.foldl_hom ConnectingServer.users fun _ packet => by cases packet <;> rfl).symm

theorem ConnectedServer.users_userPackets (server : ConnectedServer) (packets : List UserPacket) :
    (server.userPackets packets).users = applyAll userPolicy server.users (userOps packets) := by
  rw [userOps, ← foldl_eq_applyAll userPolicy UserPacket.update_eq, userPackets]
  exact (List.foldl_hom ConnectedServer.users fun _ packet => by cases packet <;> rfl).symm

/-- The packets about users on one connection, and the login between them. -/
structure UserHistory where
  before : List UserPacket
  sync : ServerSync
  after : List UserPacket

namespace UserHistory

def packets (history : UserHistory) : List UserPacket := history.before ++ history.after

/-- The server after all packets. -/
def server (history : UserHistory) (atStart : ConnectingServer) : ConnectedServer :=
  ((atStart.userPackets history.before).serverSync history.sync).userPackets history.after

/-- The login changes nothing about the users. -/
theorem users_server (history : UserHistory) (atStart : ConnectingServer) :
    (history.server atStart).users =
      applyAll userPolicy atStart.users (userOps history.packets) := by
  have hlogin : ((atStart.userPackets history.before).serverSync history.sync).users =
      (atStart.userPackets history.before).users := rfl
  rw [server, ConnectedServer.users_userPackets, hlogin, ConnectingServer.users_userPackets,
    packets, userOps, userOps, userOps, List.filterMap_append]
  exact List.foldl_append.symm

end UserHistory

/-! ## Who is known -/

theorem deleted_userOps (session : UInt32) (packets : List UserPacket) :
    deleted session (userOps packets) = packets.any (UserPacket.removes session) := by
  induction packets with
  | nil => rfl
  | cons packet rest ih =>
      rw [userOps] at ih ⊢
      cases packet with
      | state msg =>
          cases hsession : msg.session <;>
            simp [UserPacket.op, hsession, deleted, UserPacket.removes, ih]
      | remove msg => simp [UserPacket.op, deleted, UserPacket.removes, ih]

/-- Where the `UserState`s since the last removal stand. -/
theorem mem_statesSince_iff (session : UInt32) (packets : List UserPacket) (msg : UserState) :
    msg ∈ statesSince session packets ↔
      ∃ before after, packets = before ++ .state msg :: after ∧ msg.session = some session ∧
        ∀ packet ∈ after, packet.removes session = false := by
  rw [statesSince, mem_since_iff]
  constructor
  · rintro ⟨before, after, hops, hafter⟩
    obtain ⟨before, named, rfl, -, hnamed⟩ := List.filterMap_eq_append_iff.mp hops
    obtain ⟨skipped, packet, after, rfl, -, hop, rfl⟩ := List.filterMap_eq_cons_iff.mp hnamed
    have hpacket : packet = .state msg ∧ msg.session = some session := by
      cases packet with
      | state msg' =>
          cases hsession : msg'.session with
          | none => simp [UserPacket.op, hsession] at hop
          | some session' =>
              simp only [UserPacket.op, hsession, Option.map_some, Option.some.injEq,
                Op.put.injEq] at hop
              obtain ⟨rfl, rfl⟩ := hop
              exact ⟨rfl, hsession⟩
      | remove msg' => simp [UserPacket.op] at hop
    obtain ⟨rfl, hsession⟩ := hpacket
    refine ⟨before ++ skipped, after, by rw [List.append_assoc], hsession, ?_⟩
    rw [← userOps, deleted_userOps] at hafter
    simpa using hafter
  · rintro ⟨before, after, rfl, hsession, hafter⟩
    refine ⟨userOps before, userOps after, ?_, ?_⟩
    · simp [userOps, UserPacket.op, hsession]
    · rw [deleted_userOps]
      simpa using hafter

/-- What the packets of a connection leave under a session. -/
theorem lookup_applyAll_userOps (packets : List UserPacket) (session : UInt32) :
    (applyAll userPolicy ∅ (userOps packets)).lookup session =
      if statesSince session packets = [] then none
      else some (User.carriedBy (statesSince session packets)) := by
  have hempty : (if deleted session (userOps packets) then none
      else (∅ : Users).lookup session) = none := ite_self none
  rw [lookup_applyAll, hempty]
  exact value_none_of_concat userPolicy User.carriedBy_singleton User.carriedBy_concat _

/-- The record under a session is the one that the packets tell. -/
structure PacketRecord (packets : List UserPacket) (session : UInt32) (entry : Option User) :
    Prop where
  known_iff : entry.isSome ↔
    ∃ before msg after, packets = before ++ .state msg :: after ∧ msg.session = some session ∧
      ∀ packet ∈ after, packet.removes session = false
  carried : ∀ user ∈ entry, user = User.carriedBy (statesSince session packets)

theorem packetRecord_applyAll (packets : List UserPacket) (session : UInt32) :
    PacketRecord packets session ((applyAll userPolicy ∅ (userOps packets)).lookup session) := by
  rw [lookup_applyAll_userOps]
  constructor
  · constructor
    · intro hsome
      have hne : statesSince session packets ≠ [] := by
        intro h
        simp [h] at hsome
      obtain ⟨msg, hmsg⟩ := List.exists_mem_of_ne_nil _ hne
      obtain ⟨before, after, h⟩ := (mem_statesSince_iff session packets msg).mp hmsg
      exact ⟨before, msg, after, h⟩
    · rintro ⟨before, msg, after, h⟩
      have hmsg := (mem_statesSince_iff session packets msg).mpr ⟨before, after, h⟩
      rw [if_neg (List.ne_nil_of_mem hmsg)]
      rfl
  · intro user huser
    split at huser
    · cases huser
    · exact (Option.some.inj huser).symm

/-! ## Packets of different sessions -/

/-- The maps hold the same records. -/
def SameUsers (users users' : Users) : Prop :=
  ∀ session, users.lookup session = users'.lookup session

theorem userOps_packetsOn (session : UInt32) (packets : List UserPacket) :
    userOps (packetsOn session packets) = opsOn session (userOps packets) := by
  induction packets with
  | nil => rfl
  | cons packet rest ih =>
      have hkey := packet.map_key_op
      unfold userOps packetsOn at ih ⊢
      rw [List.filter_cons, List.filterMap_cons]
      cases hop : packet.op with
      | none =>
          rw [hop, Option.map_none] at hkey
          rw [← hkey, if_neg (by simp), ih]
      | some op =>
          rw [hop, Option.map_some] at hkey
          rw [opsOn_cons, ← ih, ← hkey]
          by_cases h : op.key = session
          · simp [h, hop]
          · simp [h]

/-- Only the order of the packets of one session counts. -/
theorem sameUsers_of_packetsOn {packets packets' : List UserPacket}
    (hsame : ∀ session, packetsOn session packets = packetsOn session packets') (users : Users) :
    SameUsers (applyAll userPolicy users (userOps packets))
      (applyAll userPolicy users (userOps packets')) := by
  intro session
  refine lookup_applyAll_congr userPolicy rfl ?_
  rw [← userOps_packetsOn, hsame, userOps_packetsOn]

theorem packetsOn_swap {packet packet' : UserPacket} (hsession : packet.session ≠ packet'.session)
    (session : UInt32) :
    packetsOn session [packet, packet'] = packetsOn session [packet', packet] := by
  unfold packetsOn
  by_cases h : packet.session = some session
  · have h' : packet'.session ≠ some session := fun h' => hsession (h.trans h'.symm)
    simp [h, h']
  · simp [List.filter_cons, h]

/-- Two packets of different sessions leave the same records in either order,
during the login and after it. -/
structure Commute (packet packet' : UserPacket) : Prop where
  connecting : ∀ server : ConnectingServer,
    SameUsers (server.userPackets [packet, packet']).users
      (server.userPackets [packet', packet]).users
  connected : ∀ server : ConnectedServer,
    SameUsers (server.userPackets [packet, packet']).users
      (server.userPackets [packet', packet]).users

theorem commute_of_session_ne {packet packet' : UserPacket}
    (hsession : packet.session ≠ packet'.session) : Commute packet packet' where
  connecting server := by
    rw [ConnectingServer.users_userPackets, ConnectingServer.users_userPackets]
    exact sameUsers_of_packetsOn (packetsOn_swap hsession) server.users
  connected server := by
    rw [ConnectedServer.users_userPackets, ConnectedServer.users_userPackets]
    exact sameUsers_of_packetsOn (packetsOn_swap hsession) server.users

/-- **The user map tells what the packets told.**  During the login and after it
the records are those of all packets so far, only the order of the packets of one
session counts, and the difference of a packet changes a record as the packet. -/
theorem ConnectingServer.packetRecord_users (host username : String) (password : Option String) :
    (∀ packets session, PacketRecord packets session
      (((new host username password).userPackets packets).users.lookup session)) ∧
    (∀ (history : UserHistory) (session : UInt32), PacketRecord history.packets session
      ((history.server (new host username password)).users.lookup session)) ∧
    (∀ history history' : UserHistory,
      (∀ session, packetsOn session history.packets = packetsOn session history'.packets) →
      SameUsers (history.server (new host username password)).users
        (history'.server (new host username password)).users) ∧
    (∀ packet packet' : UserPacket, packet.session ≠ packet'.session → Commute packet packet') ∧
    ∀ (user : User) (msg : UserState),
      user.applyUserDiff (.ofUserState msg) = user.parseUserState msg := by
  refine ⟨fun packets session => ?_, fun history session => ?_, fun history history' hsame => ?_,
    fun packet packet' => commute_of_session_ne, User.applyUserDiff_ofUserState⟩
  · rw [users_userPackets]
    exact packetRecord_applyAll packets session
  · rw [UserHistory.users_server]
    exact packetRecord_applyAll history.packets session
  · rw [UserHistory.users_server, UserHistory.users_server]
    exact sameUsers_of_packetsOn hsame ∅

end Mum
