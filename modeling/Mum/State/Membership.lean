import Mum.State

/-!
# Who comes to our channel and who leaves it

A `UserState` or `UserRemove` packet changes the user map, and it appends events
that tell who came to our channel and who left it.  The map and the events are
computed apart: the map keeps the channel of a user when a packet does not name
one, the events take it for a move to channel `0`.

`membershipChange` reads the events off the two maps, and `UserPacket.Sound` says
for which packets the program appends just these.

The events of a `UserState` about a user whom we know are those for the flags and those for
the move, one after the other.  The former say nothing about membership
(`membershipOf_muteNews`), so the question is when `moveNews` tells of the move that took
place (`membershipOf_moveNews_eq_change_iff`).  A user whom we do not know, and one who
leaves, are cases of their own.
-/

namespace Mum

open Library Library.Eval Msgs
open Mumlib (MumbleEvent MumbleEventKind)

/-- How the users of our channel change. -/
inductive Membership
  | connected
  | joinedChannel
  | leftChannel
  | disconnected
deriving DecidableEq, Repr

/-- The change that an event tells of, and the user it names. -/
def membershipOf : MumbleEventKind → Option (Membership × String)
  | .userConnected user _ => some (.connected, user)
  | .userJoinedChannel user _ => some (.joinedChannel, user)
  | .userLeftChannel user _ => some (.leftChannel, user)
  | .userDisconnected user _ => some (.disconnected, user)
  | .userMuteStateChanged _ => none
  | .textMessageReceived _ => none

/-- What has to be told about a user, from the user's records before and after. -/
def membershipChange (ourChannel : UInt32) :
    Option User → Option User → List (Membership × String)
  | none, some user => if user.channel = ourChannel then [(.connected, user.name)] else []
  | some user, some user' =>
      if user.channel ≠ ourChannel ∧ user'.channel = ourChannel then
        [(.joinedChannel, user.name)]
      else if user.channel = ourChannel ∧ user'.channel ≠ ourChannel then
        [(.leftChannel, user.name)]
      else []
  | some user, none => if user.channel = ourChannel then [(.disconnected, user.name)] else []
  | none, none => []

/-- A packet about a user. -/
inductive UserPacket
  | state (msg : UserState)
  | remove (msg : UserRemove)
deriving DecidableEq, Repr

namespace UserPacket

def getSession : UserPacket → UInt32
  | state msg => msg.getSession
  | remove msg => msg.getSession

def apply (host : Host) (s : State) : UserPacket → Eval State
  | state msg => s.userState host msg
  | remove msg => s.removeUser host msg

/-- The packet is handled, and the events that it appends tell of the change
that it makes to the user map. -/
def Describes (packet : UserPacket) (host : Host) (state : State) (s : ConnectedServer)
    (ourChannel : UInt32) : Prop :=
  ∃ state' s' news, packet.apply host state = .ok state' ∧ state'.server = .connected s' ∧
    state'.events = state.events ++ news ∧
    news.filterMap (fun event => membershipOf event.kind) =
      membershipChange ourChannel (s.users.lookup packet.getSession)
        (s'.users.lookup packet.getSession)

end UserPacket

/-- No move of the user to the channel would be told. -/
def Untold (s : ConnectedServer) (ourChannel : UInt32) (user : User) (toChannel : UInt32) : Prop :=
  user.channel = toChannel ∨
    (if user.channel = ourChannel then toChannel ∉ s.channels else toChannel ≠ ourChannel)

/-- What makes the events right.  A packet with a session and a channel must not
move a user of ours to an unknown channel; without one of them, nothing must be
told; and a user who is removed must be known. -/
def UserPacket.Sound (s : ConnectedServer) (ourChannel : UInt32) : UserPacket → Prop
  | .state msg =>
      match msg.session, s.users.lookup msg.getSession, msg.channelId with
      | some _, some user, some toChannel =>
          user.channel = ourChannel → toChannel ≠ ourChannel → toChannel ∈ s.channels
      | some _, some user, none => Untold s ourChannel user 0
      | some _, none, _ => True
      | none, some user, _ => Untold s ourChannel user msg.getChannelId
      | none, none, _ => ourChannel ≠ msg.getChannelId
  | .remove msg => msg.getSession ∈ s.users

/-! ## The events of the program -/

theorem membershipOf_muteNews (user : User) (msg : UserState) :
    (ConnectedServer.muteNews user msg).filterMap membershipOf = [] := by
  unfold ConnectedServer.muteNews
  rw [apply_ite (List.filterMap membershipOf)]
  exact ite_self _

section News

variable {s : ConnectedServer} {user : User} {ourChannel toChannel : UInt32}

/-- The move that the events tell of. -/
theorem membershipOf_moveNews (hchannel : user.channel ∈ s.channels) :
    (s.moveNews user ourChannel toChannel).1.filterMap membershipOf =
      if user.channel = toChannel then []
      else if user.channel = ourChannel then
        if toChannel ∈ s.channels then [(.leftChannel, user.name)] else []
      else if toChannel = ourChannel then [(.joinedChannel, user.name)]
      else [] := by
  obtain ⟨from', hfrom⟩ := HashMap.mem_iff_lookup.mp hchannel
  unfold ConnectedServer.moveNews
  split
  · rfl
  · split
    · split
      next hto =>
        obtain ⟨channel, hlookup⟩ := HashMap.mem_iff_lookup.mp hto
        simp [hlookup, membershipOf]
      next hto =>
        simp [AList.lookup_eq_none.mpr hto]
    · split
      · simp [hfrom, membershipOf]
      · rfl

/-- A move is told when it goes between our channel and a known other one. -/
theorem membershipOf_moveNews_eq_nil_iff (hchannel : user.channel ∈ s.channels) :
    (s.moveNews user ourChannel toChannel).1.filterMap membershipOf = [] ↔
      Untold s ourChannel user toChannel := by
  rw [membershipOf_moveNews hchannel, Untold]
  by_cases hsame : user.channel = toChannel
  · simp [hsame]
  · by_cases hours : user.channel = ourChannel
    · subst hours
      simp [hsame]
    · simp [hsame, hours]

/-- A move to a channel that is named is told as it is, unless we do not know
the channel. -/
theorem membershipOf_moveNews_eq_change_iff {user' : User} (hchannel : user.channel ∈ s.channels)
    (huser' : user'.channel = toChannel) :
    (s.moveNews user ourChannel toChannel).1.filterMap membershipOf =
        membershipChange ourChannel (some user) (some user') ↔
      (user.channel = ourChannel → toChannel ≠ ourChannel → toChannel ∈ s.channels) := by
  rw [membershipOf_moveNews hchannel, membershipChange, huser']
  by_cases hours : user.channel = ourChannel
  · by_cases hto : toChannel = ourChannel
    · simp [hours, hto]
    · simp [hours, hto, Ne.symm hto]
  · by_cases hto : toChannel = ourChannel
    · simp [hours, hto]
    · simp [hours, hto]

end News

namespace UserPacket

variable {host : Host} {state : State} {s : ConnectedServer} {own : User}

/-- What a packet appends is determined by what handling it returns. -/
theorem describes_iff_of_apply {packet : UserPacket} {ourChannel : UInt32} {state' : State}
    {s' : ConnectedServer} {news : List MumbleEvent} (happly : packet.apply host state = .ok state')
    (hserver : state'.server = .connected s') (hevents : state'.events = state.events ++ news) :
    packet.Describes host state s ourChannel ↔
      news.filterMap (fun event => membershipOf event.kind) =
        membershipChange ourChannel (s.users.lookup packet.getSession)
          (s'.users.lookup packet.getSession) := by
  constructor
  · rintro ⟨state'', s'', news', happly', hserver', hevents', htold⟩
    cases happly.symm.trans happly'
    cases hserver.symm.trans hserver'
    cases List.append_cancel_left (hevents.symm.trans hevents')
    exact htold
  · exact fun htold => ⟨state', s', news, happly, hserver, hevents, htold⟩

theorem describes_state_iff (hserver : state.server = .connected s)
    (hown : s.users.lookup s.sessionId = some own) (msg : UserState) :
    (UserPacket.state msg).Describes host state s own.channel ↔
      (s.userStateNews msg own.channel).1.filterMap membershipOf =
        membershipChange own.channel (s.users.lookup msg.getSession)
          ((s.userState msg).users.lookup msg.getSession) := by
  obtain ⟨audioOutput, happly, -⟩ := State.userState_eq_ok host hserver hown msg
  have hstate : (UserPacket.state msg).apply host state = .ok _ := happly
  rw [describes_iff_of_apply hstate rfl rfl, List.filterMap_map]
  rfl

theorem describes_remove_iff (hserver : state.server = .connected s)
    (hown : s.users.lookup s.sessionId = some own) (msg : UserRemove) :
    (UserPacket.remove msg).Describes host state s own.channel ↔ msg.getSession ∈ s.users := by
  constructor
  · rintro ⟨state', s', news, happly, -⟩
    obtain ⟨_, user, _, -, huser, -⟩ := State.removeUser_connected hserver happly
    exact HashMap.mem_iff_lookup.mpr ⟨user, huser⟩
  · intro hmem
    obtain ⟨user, huser⟩ := HashMap.mem_iff_lookup.mp hmem
    obtain ⟨audioOutput, happly, -⟩ := State.removeUser_eq_ok host hserver hown huser
    have hremove : (UserPacket.remove msg).apply host state = .ok _ := happly
    refine (describes_iff_of_apply hremove rfl rfl).mpr ?_
    have hafter : (s.userRemove msg).users.lookup msg.getSession = none := AList.lookup_erase ..
    show _ = membershipChange own.channel (s.users.lookup msg.getSession)
      ((s.userRemove msg).users.lookup msg.getSession)
    rw [hafter, huser, membershipChange]
    by_cases h : own.channel = user.channel
    · simp [h, membershipOf]
    · simp [h, Ne.symm h]

/-- Without a session, no record changes, and user `0` counts as the one who
moves. -/
theorem userStateNews_eq_nil_iff {ourChannel : UInt32} {msg : UserState}
    (hchannels : ∀ session user, s.users.lookup session = some user → user.channel ∈ s.channels)
    (hother : msg.getSession ≠ s.sessionId) (hsession : msg.session = none) :
    (s.userStateNews msg ourChannel).1.filterMap membershipOf = [] ↔
      (UserPacket.state msg).Sound s ourChannel := by
  rw [ConnectedServer.userStateNews, if_neg hother, Sound, hsession]
  cases huser : s.users.lookup msg.getSession with
  | none =>
      simp only [ConnectedServer.newcomerNews]
      by_cases h : ourChannel = msg.getChannelId
      · simp [h, membershipOf]
      · simp [h]
  | some user =>
      simp only [List.filterMap_append, membershipOf_muteNews, List.append_nil]
      exact membershipOf_moveNews_eq_nil_iff (hchannels _ user huser)

/-- A newcomer is told as they come. -/
theorem membershipOf_newcomerNews (ourChannel : UInt32) (msg : UserState) :
    (s.newcomerNews msg ourChannel).1.filterMap membershipOf =
      membershipChange ourChannel none (some (User.new msg)) := by
  rw [membershipChange, User.channel_new]
  unfold ConnectedServer.newcomerNews
  by_cases h : ourChannel = msg.getChannelId
  · simp [h, membershipOf, User.new]
  · simp [h, Ne.symm h]

/-- A known user is told by `moveNews`, which takes the default channel for the
one that a packet does not name. -/
theorem membershipOf_moveNews_eq_iff {ourChannel : UInt32} {user : User} (msg : UserState)
    (hchannel : user.channel ∈ s.channels) :
    (s.moveNews user ourChannel msg.getChannelId).1.filterMap membershipOf =
        membershipChange ourChannel (some user) (some (user.parseUserState msg)) ↔
      match msg.channelId with
      | some toChannel =>
          user.channel = ourChannel → toChannel ≠ ourChannel → toChannel ∈ s.channels
      | none => Untold s ourChannel user 0 := by
  cases hto : msg.channelId with
  | some toChannel =>
      have hget : msg.getChannelId = toChannel := by simp [UserState.getChannelId, hto]
      rw [hget]
      exact membershipOf_moveNews_eq_change_iff hchannel (by simp [hto])
  | none =>
      have hget : msg.getChannelId = 0 := by simp [UserState.getChannelId, hto]
      -- the record keeps its channel, so that nothing has to be told
      have hnochange : membershipChange ourChannel (some user)
          (some (user.parseUserState msg)) = [] := by
        simp [membershipChange, hto]
      rw [hget, hnochange]
      exact membershipOf_moveNews_eq_nil_iff hchannel

/-- **When the events tell of the change.**  For a packet about another user,
the events are those of the change of the user map exactly when the packet is
sound. -/
theorem describes_iff (host : Host) (state : State) (s : ConnectedServer) (own : User)
    (packet : UserPacket) (hserver : state.server = .connected s)
    (hown : s.users.lookup s.sessionId = some own)
    (hchannels : ∀ session user, s.users.lookup session = some user → user.channel ∈ s.channels)
    (hother : packet.getSession ≠ s.sessionId) :
    packet.Describes host state s own.channel ↔ packet.Sound s own.channel := by
  cases packet with
  | remove msg => exact describes_remove_iff hserver hown msg
  | state msg =>
      have hafter : (s.userState msg).users.lookup msg.getSession =
          if msg.session = some msg.getSession then
            some ((s.users.lookup msg.getSession).elim (User.new msg) (·.parseUserState msg))
          else s.users.lookup msg.getSession := lookup_userState msg s.users msg.getSession
      rw [describes_state_iff hserver hown, hafter]
      cases hid : msg.session with
      | none =>
          have hnochange : ∀ user, membershipChange own.channel user user = [] := by
            intro user
            cases user <;> simp [membershipChange]
          rw [if_neg (by simp), hnochange]
          exact userStateNews_eq_nil_iff hchannels hother hid
      | some session =>
          have hget : msg.getSession = session := by simp [UserState.getSession, hid]
          have hsession : msg.getSession ≠ s.sessionId := hother
          rw [if_pos (by rw [hget]), ConnectedServer.userStateNews, if_neg hsession, Sound, hid]
          cases huser : s.users.lookup msg.getSession with
          | none => exact iff_of_true (membershipOf_newcomerNews own.channel msg) trivial
          | some user =>
              simp only [List.filterMap_append, membershipOf_muteNews, List.append_nil,
                Option.elim_some]
              refine (membershipOf_moveNews_eq_iff msg (hchannels _ user huser)).trans ?_
              cases msg.channelId <;> rfl

end UserPacket

/-! ## A user who mutes themselves -/

/-- We are in a channel below the root, with one other user. -/
def twoInLobby : ConnectedServer where
  channels := ((∅ : Channels).insert 0 ⟨none, [], 0, "Root", none, 0⟩).insert 1
    ⟨none, [], 0, "Lobby", some 0, 0⟩
  users := ((∅ : Users).insert 4 (User.new { channelId := some 1, name := some "me" })).insert 5
    (User.new { channelId := some 1, name := some "you" })
  welcomeText := none
  username := "me"
  sessionId := 4
  muted := false
  deafened := false
  host := "localhost:64738"

theorem channels_twoInLobby (session : UInt32) (user : User)
    (h : twoInLobby.users.lookup session = some user) : user.channel ∈ twoInLobby.channels := by
  have hkey : session ∈ [5, 4] :=
    AList.mem_keys.mp (HashMap.mem_iff_lookup.mpr ⟨user, h⟩)
  simp only [List.mem_cons, List.not_mem_nil, or_false] at hkey
  rcases hkey with rfl | rfl <;>
  · cases h
    decide

/-- The other user moves to the root, and the event tells that they left us. -/
theorem describes_iff_move :
    (UserPacket.state { session := some 5, channelId := some 0 }).Describes .offline
        (.onServer twoInLobby) twoInLobby 1 ↔
      (UserPacket.state { session := some 5, channelId := some 0 }).Sound twoInLobby 1 :=
  UserPacket.describes_iff .offline (.onServer twoInLobby) twoInLobby
    (User.new { channelId := some 1, name := some "me" }) _ rfl rfl channels_twoInLobby (by decide)

/-- The other user mutes themselves without moving, in a packet that names no
channel, and the event tells that they left us. -/
theorem not_describes_selfMute :
    ¬ (UserPacket.state { session := some 5, selfMute := some true }).Describes .offline
      (.onServer twoInLobby) twoInLobby 1 := by
  have hown : twoInLobby.users.lookup twoInLobby.sessionId =
      some (User.new { channelId := some 1, name := some "me" }) := rfl
  intro hdescribes
  exact absurd ((UserPacket.describes_state_iff rfl hown _).mp hdescribes) (by decide)

end Mum
