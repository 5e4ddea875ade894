import Mum.Client.OwnChannel
import Mum.Client.PastMessages
import Mum.Library.Tally
import Mum.State.Membership

/-!
# Who is in our channel, by the events

A controller that has a list of who is in our channel can keep it by the events alone:
whoever connects to the channel or joins it is added, and whoever leaves it or
disconnects is taken off.  Names may occur more than once.

`UserPacket.Sound` says which packets are told as they are.  In a session whose packets
are all sound, change no name and are about others (`Orderly`), the list stays right
through any number of steps of all tasks.

A step `Tells` if the events that it appends, replayed on the list before, give the list
after.  That composes, so a run tells if its steps do.  For a step there are three cases.

1. Commands append no events, and change nobody's name or channel (`events_command`,
   `State.Tells.of_showsSame`).
2. A `ChannelRemove` takes a channel away, and nobody is in it, or the users would not be
   `Charted` after it (`State.Tells.channelRemove`).
3. A `UserState` or a `UserRemove` about another user writes one entry of the user map, which
   moves one name in or out of the list (`othersIn_change`); `news_of_sound` says that the
   events are those of this move.
-/

namespace Mum

open Library Library.Eval Library.HashMap Msgs
open Mumlib (Command MumbleEvent)

/-- What an event does to the list. -/
def Membership.apply (names : Multiset String) : Membership × String → Multiset String
  | (.connected, name) | (.joinedChannel, name) => name ::ₘ names
  | (.leftChannel, name) | (.disconnected, name) => names.erase name

/-- The list after the events. -/
def replay (names : Multiset String) (events : List MumbleEvent) : Multiset String :=
  (events.filterMap fun event => membershipOf event.kind).foldl Membership.apply names

theorem replay_append (names : Multiset String) (events events' : List MumbleEvent) :
    replay names (events ++ events') = replay (replay names events) events' := by
  rw [replay, List.filterMap_append, List.foldl_append]
  rfl

namespace ConnectedServer

variable {s s' : ConnectedServer} {here : UInt32}

/-- The name that a user brings to the list of a channel. -/
def nameIn (s : ConnectedServer) (channel : UInt32) (session : UInt32) (user : User) :
    Option String :=
  if session ≠ s.sessionId ∧ user.channel = channel then some user.name else none

/-- The names of the others in a channel. -/
def othersIn (s : ConnectedServer) (channel : UInt32) : Multiset String :=
  tally (s.nameIn channel) s.users

theorem ShowsSame.othersIn (h : s.ShowsSame s') : s'.othersIn here = s.othersIn here := by
  have hname : s'.nameIn here = s.nameIn here := by
    funext session user
    rw [nameIn, nameIn, h.sessionId]
  rw [ConnectedServer.othersIn, ConnectedServer.othersIn, hname]
  refine tally_congr fun session => ?_
  cases huser : s.users.lookup session with
  | none =>
      have hnone := h.users session
      rw [huser, Option.map_none, Option.map_eq_none_iff] at hnone
      rw [hnone]
  | some user =>
      obtain ⟨user', huser', hsameName, hsameChannel⟩ := h.lookup huser
      rw [huser', Option.bind_some, Option.bind_some, nameIn, nameIn, hsameName, hsameChannel]

/-- The list changes as one user does. -/
theorem othersIn_change {session : UInt32} (hother : session ≠ s.sessionId)
    (hsession : s'.sessionId = s.sessionId)
    (hrest : ∀ id, id ≠ session → s'.users.lookup id = s.users.lookup id)
    (hname : ∀ user user', s.users.lookup session = some user →
      s'.users.lookup session = some user' → user'.name = user.name) :
    s'.othersIn here =
      (membershipChange here (s.users.lookup session) (s'.users.lookup session)).foldl
        Membership.apply (s.othersIn here) := by
  have hsame : s'.nameIn here = s.nameIn here := by
    funext id user
    rw [nameIn, nameIn, hsession]
  have hshare : ∀ user : User, share (s.nameIn here) session (some user) =
      if user.channel = here then {user.name} else 0 := by
    intro user
    rw [share, Option.bind_some, nameIn]
    by_cases hchannel : user.channel = here
    · simp [hother, hchannel]
    · simp [hchannel]
  have hnone : share (s.nameIn here) session none = 0 := rfl
  have hchange := tally_change (f := s.nameIn here) hrest
  rw [othersIn, othersIn, hsame]
  cases hbefore : s.users.lookup session with
  | none =>
      cases hafter : s'.users.lookup session with
      | none =>
          rw [hbefore, hafter] at hchange
          exact Multiset.add_left_inj.mp hchange
      | some user' =>
          rw [hbefore, hafter, hnone, hshare, Multiset.add_zero] at hchange
          rw [hchange, membershipChange]
          by_cases hours : user'.channel = here
          · rw [if_pos hours, if_pos hours, Multiset.add_comm, Multiset.singleton_add]
            rfl
          · rw [if_neg hours, if_neg hours, Multiset.add_zero]
            rfl
  | some user =>
      cases hafter : s'.users.lookup session with
      | none =>
          rw [hbefore, hafter, hnone, hshare, Multiset.add_zero] at hchange
          rw [← hchange, membershipChange]
          by_cases hours : user.channel = here
          · rw [if_pos hours, if_pos hours, Multiset.add_comm, Multiset.singleton_add]
            exact (Multiset.erase_cons_head _ _).symm
          · rw [if_neg hours, if_neg hours, Multiset.add_zero]
            rfl
      | some user' =>
          rw [hbefore, hafter, hshare, hshare, hname user user' hbefore hafter] at hchange
          rw [membershipChange]
          by_cases hours : user.channel = here
          · by_cases hours' : user'.channel = here
            · rw [if_pos hours, if_pos hours'] at hchange
              rw [if_neg (fun h => h.1 hours), if_neg (fun h => h.2 hours')]
              exact Multiset.add_left_inj.mp hchange
            · rw [if_pos hours, if_neg hours', Multiset.add_zero] at hchange
              rw [if_neg (fun h => h.1 hours), if_pos ⟨hours, hours'⟩, ← hchange,
                Multiset.add_comm, Multiset.singleton_add]
              exact (Multiset.erase_cons_head _ _).symm
          · by_cases hours' : user'.channel = here
            · rw [if_neg hours, if_pos hours', Multiset.add_zero] at hchange
              rw [if_pos ⟨hours, hours'⟩, hchange, Multiset.add_comm, Multiset.singleton_add]
              rfl
            · rw [if_neg hours, if_neg hours'] at hchange
              rw [if_neg (fun h => hours' h.2), if_neg (fun h => hours h.1)]
              exact Multiset.add_left_inj.mp hchange

/-- Every user is in a channel that we know. -/
def Charted (s : ConnectedServer) : Prop :=
  ∀ session user, s.users.lookup session = some user → user.channel ∈ s.channels

end ConnectedServer

namespace State

/-- The names of the others in a channel, if we are connected. -/
def othersIn (state : State) (channel : UInt32) : Multiset String :=
  match state.server with
  | .connected s => s.othersIn channel
  | _ => 0

theorem othersIn_of_connected {state : State} {s : ConnectedServer} {channel : UInt32}
    (hserver : state.server = .connected s) : state.othersIn channel = s.othersIn channel := by
  rw [othersIn, hserver]

/-- We are in the channel, and every user is in one that we know. -/
def Present (here : UInt32) (state : State) : Prop :=
  ∃ s own, state.server = .connected s ∧ s.users.lookup s.sessionId = some own ∧
    own.channel = here ∧ s.Charted

end State

/-- We are still there, and what was appended to the events tells how the list changed. -/
structure Tells (here : UInt32) (state state' : State) : Prop where
  present : state'.Present here
  told : ∃ news, state'.events = state.events ++ news ∧
    state'.othersIn here = replay (state.othersIn here) news

namespace Tells

variable {host : Host} {here : UInt32} {state state' : State} {s s' : ConnectedServer}
  {news : List MumbleEvent}

/-- Nobody has moved, and no event says so. -/
theorem of_showsSame (hpresent : state.Present here) (hserver' : state'.server = .connected s')
    (hshows : state.ShowsSame state') (hevents : state'.events = state.events ++ news)
    (hquiet : news.filterMap (fun event => membershipOf event.kind) = []) :
    Tells here state state' := by
  obtain ⟨s, own, hserver, hown, hhere, hcharted⟩ := hpresent
  obtain ⟨_, hserver'', hsame⟩ := hshows s' hserver'
  cases hserver.symm.trans hserver''
  obtain ⟨own', hown', -, hchannel⟩ := hsame.lookup hown
  refine ⟨⟨s', own', hserver', ?_, hchannel.trans hhere, fun session user' huser' => ?_⟩, news,
    hevents, ?_⟩
  · rw [hsame.sessionId]
    exact hown'
  · obtain ⟨user, huser, -, huserChannel⟩ := hsame.symm.lookup huser'
    rw [hsame.channels, ← huserChannel]
    exact hcharted session user huser
  · rw [State.othersIn_of_connected hserver', State.othersIn_of_connected hserver, replay, hquiet]
    exact hsame.othersIn

theorem of_eq (hpresent : state.Present here) (hserver : state'.server = state.server)
    (hevents : state'.events = state.events) : Tells here state state' := by
  obtain ⟨s, own, hconnected, -⟩ := id hpresent
  exact of_showsSame hpresent (hserver.trans hconnected) (.of_eq hserver)
    (hevents.trans (List.append_nil _).symm) rfl

/-- A channel that nobody is in is removed. -/
theorem channelRemove {msg : ChannelRemove} (hpresent : state.Present here)
    (hserver' : (state.channelRemove msg).server = .connected s') (hcharted' : s'.Charted) :
    Tells here state (state.channelRemove msg) := by
  obtain ⟨s, own, hserver, hown, hhere, -⟩ := hpresent
  have hremove : state.channelRemove msg =
      { state with server := .connected (s.channelRemove msg) } := by
    unfold State.channelRemove
    rw [hserver]
  rw [hremove] at hserver' ⊢
  cases hserver'
  refine ⟨⟨_, own, rfl, hown, hhere, hcharted'⟩, [], (List.append_nil _).symm, ?_⟩
  rw [State.othersIn_of_connected rfl, State.othersIn_of_connected hserver]
  rfl

theorem trans {state'' : State} (h : Tells here state state') (h' : Tells here state' state'') :
    Tells here state state'' := by
  obtain ⟨news, hevents, hothers⟩ := h.told
  obtain ⟨news', hevents', hothers'⟩ := h'.told
  refine ⟨h'.present, news ++ news', ?_, ?_⟩
  · rw [hevents', hevents, List.append_assoc]
  · rw [hothers', hothers, replay_append]

end Tells

/-- The packets that change nobody's name. -/
def UserPacket.KeepsName (s : ConnectedServer) : UserPacket → Prop
  | .state msg => ∀ user, s.users.lookup msg.getSession = some user →
      (user.parseUserState msg).name = user.name
  | .remove _ => True

namespace UserPacket

variable {host : Host} {here : UInt32} {state state' : State} {s s' : ConnectedServer}
  {packet : UserPacket}

/-- What a packet leaves of the server. -/
theorem changes_of_apply (hserver : state.server = .connected s)
    (happly : packet.apply host state = .ok state') (hserver' : state'.server = .connected s')
    (hkeeps : packet.KeepsName s) :
    s'.sessionId = s.sessionId ∧
      (∀ id, id ≠ packet.getSession → s'.users.lookup id = s.users.lookup id) ∧
      ∀ user user', s.users.lookup packet.getSession = some user →
        s'.users.lookup packet.getSession = some user' → user'.name = user.name := by
  cases packet with
  | state msg =>
      obtain ⟨own, audioOutput, -, rfl, -⟩ := State.userState_connected hserver happly
      cases hserver'
      have hlookup : ∀ id, (s.userState msg).users.lookup id =
          if msg.session = some id then
            some ((s.users.lookup id).elim (User.new msg) (·.parseUserState msg))
          else s.users.lookup id := lookup_userState msg s.users
      refine ⟨rfl, fun id hid => ?_, fun user user' huser huser' => ?_⟩
      · rw [hlookup, if_neg]
        intro hsession
        exact hid (by simp [getSession, UserState.getSession, hsession])
      · rw [hlookup] at huser'
        split at huser'
        · rw [huser] at huser'
          cases huser'
          exact hkeeps user huser
        · rw [huser] at huser'
          cases huser'
          rfl
  | remove msg =>
      obtain ⟨own, user, audioOutput, -, -, rfl, -⟩ := State.removeUser_connected hserver happly
      cases hserver'
      refine ⟨rfl, fun id hid => AList.lookup_erase_ne hid, fun user user' _ huser' => ?_⟩
      have hnone : (s.userRemove msg).users.lookup msg.getSession = none := AList.lookup_erase ..
      cases hnone.symm.trans huser'

/-- The events of a sound packet are those of the change that it makes. -/
theorem membershipOf_userStateNews {ourChannel : UInt32} {msg : UserState} (hcharted : s.Charted)
    (hother : msg.getSession ≠ s.sessionId) (hsound : (UserPacket.state msg).Sound s ourChannel) :
    (s.userStateNews msg ourChannel).1.filterMap membershipOf =
      membershipChange ourChannel (s.users.lookup msg.getSession)
        ((s.userState msg).users.lookup msg.getSession) := by
  have hafter : (s.userState msg).users.lookup msg.getSession =
      if msg.session = some msg.getSession then
        some ((s.users.lookup msg.getSession).elim (User.new msg) (·.parseUserState msg))
      else s.users.lookup msg.getSession := lookup_userState msg s.users msg.getSession
  rw [hafter]
  cases hid : msg.session with
  | none =>
      have hnochange : ∀ user, membershipChange ourChannel user user = [] := by
        intro user
        cases user <;> simp [membershipChange]
      rw [if_neg (Option.some_ne_none _).symm, hnochange]
      exact (userStateNews_eq_nil_iff hcharted hother hid).mpr hsound
  | some session =>
      have hget : some session = some msg.getSession := by simp [UserState.getSession, hid]
      rw [if_pos hget, ConnectedServer.userStateNews, if_neg hother]
      rw [Sound, hid] at hsound
      cases huser : s.users.lookup msg.getSession with
      | none => exact membershipOf_newcomerNews ourChannel msg
      | some user =>
          rw [huser] at hsound
          have hchannel : user.channel ∈ s.channels := hcharted _ user huser
          simp only [List.filterMap_append, membershipOf_muteNews, List.append_nil]
          refine (membershipOf_moveNews_eq_iff msg hchannel).mpr ?_
          cases hto : msg.channelId with
          | none =>
              rw [hto] at hsound
              exact hsound
          | some toChannel =>
              rw [hto] at hsound
              exact hsound

/-- What a sound packet appends. -/
theorem news_of_sound {ourChannel : UInt32} {own : User} (hcharted : s.Charted)
    (hserver : state.server = .connected s) (hown : s.users.lookup s.sessionId = some own)
    (hours : own.channel = ourChannel) (happly : packet.apply host state = .ok state')
    (hserver' : state'.server = .connected s') (hother : packet.getSession ≠ s.sessionId)
    (hsound : packet.Sound s ourChannel) :
    ∃ news, state'.events = state.events ++ news ∧
      news.filterMap (fun event => membershipOf event.kind) =
        membershipChange ourChannel (s.users.lookup packet.getSession)
          (s'.users.lookup packet.getSession) := by
  cases packet with
  | state msg =>
      obtain ⟨own', audioOutput, hown', rfl, -⟩ := State.userState_connected hserver happly
      cases hown.symm.trans hown'
      cases hserver'
      refine ⟨_, rfl, (List.filterMap_map ..).trans ?_⟩
      rw [hours]
      exact membershipOf_userStateNews hcharted hother hsound
  | remove msg =>
      obtain ⟨own', user, audioOutput, hown', huser, rfl, -⟩ :=
        State.removeUser_connected hserver happly
      cases hown.symm.trans hown'
      cases hserver'
      refine ⟨_, rfl, ?_⟩
      have hafter : (s.userRemove msg).users.lookup msg.getSession = none := AList.lookup_erase ..
      show _ = membershipChange ourChannel (s.users.lookup msg.getSession)
        ((s.userRemove msg).users.lookup msg.getSession)
      rw [hafter, huser, membershipChange, hours]
      by_cases h : ourChannel = user.channel
      · rw [if_pos h, if_pos h.symm]
        rfl
      · rw [if_neg h, if_neg (Ne.symm h)]
        rfl

/-- A sound packet about somebody else tells. -/
theorem tells (hpresent : state.Present here) (hserver : state.server = .connected s)
    (happly : packet.apply host state = .ok state') (hserver' : state'.server = .connected s')
    (hcharted' : s'.Charted) (hother : packet.getSession ≠ s.sessionId)
    (hsound : packet.Sound s here) (hkeeps : packet.KeepsName s) : Tells here state state' := by
  obtain ⟨_, own, hsame, hown, hhere, hcharted⟩ := hpresent
  cases hserver.symm.trans hsame
  obtain ⟨hsession, hrest, hname⟩ := changes_of_apply hserver happly hserver' hkeeps
  obtain ⟨news, hevents, htold⟩ :=
    news_of_sound hcharted hserver hown hhere happly hserver' hother hsound
  have hown' : s'.users.lookup s'.sessionId = some own := by
    rw [hsession, hrest _ hother.symm]
    exact hown
  refine ⟨⟨s', own, hserver', hown', hhere, hcharted'⟩, news, hevents, ?_⟩
  rw [State.othersIn_of_connected hserver', State.othersIn_of_connected hserver, replay, htold]
  exact ConnectedServer.othersIn_change hother hsession hrest hname

end UserPacket

/-! ## The other steps -/

/-- No command is an event. -/
theorem events_command {host : Host} {state : State} {command : Command} {outcome : Outcome}
    (h : handleCommand host state command = .ok outcome) :
    outcome.state.events = state.events := by
  rcases keepsTold_command h with hkeeps | ⟨-, hstate⟩
  · exact hkeeps.events
  · rw [hstate]

/-- The packet about a user that a step handles. -/
def Label.userPacket? : Label → Option UserPacket
  | .tcp (.packet (.userState msg)) => some (.state msg)
  | .tcp (.packet (.userRemove msg)) => some (.remove msg)
  | _ => none

namespace System

variable {host : Host} {here : UInt32} {sys sys' : System} {label : Label}

/-- The session goes on with charted users; a packet about a user is sound, about somebody
else, and changes no name. -/
def Orderly (sys : System) (label : Host × Label) (sys' : System) : Prop :=
  (∃ s', sys'.state.server = .connected s' ∧ s'.Charted) ∧
  ∀ packet ∈ label.2.userPacket?, ∀ s own, sys.state.server = .connected s →
    s.users.lookup s.sessionId = some own →
    packet.getSession ≠ s.sessionId ∧ packet.Sound s own.channel ∧ packet.KeepsName s

theorem tells_packet {listen : Listen} {packet : Clientbound} {handled : Handled}
    (hpresent : sys.state.Present here)
    (hhandled : handlePacket host sys.state listen packet = .ok handled)
    (hstate : sys'.state = handled.state)
    (horderly : Orderly sys (host, .tcp (.packet packet)) sys') :
    Tells here sys.state handled.state := by
  obtain ⟨⟨s', hserver', hcharted'⟩, hpackets⟩ := horderly
  rw [hstate] at hserver'
  obtain ⟨s, own, hserver, hown, hhere, -⟩ := id hpresent
  have huser : ∀ user, (Label.tcp (.packet packet)).userPacket? = some user →
      user.apply host sys.state = .ok handled.state → Tells here sys.state handled.state := by
    intro user hlabel happly
    obtain ⟨hother, hsound, hkeeps⟩ := hpackets user hlabel s own hserver hown
    rw [hhere] at hsound
    exact user.tells hpresent hserver happly hserver' hcharted' hother hsound hkeeps
  have hcase := handles_of_handlePacket hhandled
  obtain ⟨state', listen', cryptState, event⟩ := handled
  cases hcase with
  | userState hstate => exact huser (.state _) rfl hstate
  | userRemove hstate => exact huser (.remove _) rfl hstate
  | textMessage msg =>
      cases hnews : textMessageNews sys.state msg with
      | none => exact .of_eq hpresent rfl rfl
      | some kind =>
          have hkind : membershipOf kind = none := by
            simp only [textMessageNews, hserver] at hnews
            obtain ⟨user, -, rfl⟩ := Option.map_eq_some_iff.mp hnews
            rfl
          have hquiet : [(⟨host.now, kind⟩ : MumbleEvent)].filterMap
              (fun event => membershipOf event.kind) = [] := by
            rw [List.filterMap_cons, hkind]
            rfl
          exact .of_showsSame hpresent hserver (.of_eq rfl) rfl hquiet
  | serverSync hstate =>
      rw [State.serverSync, hserver] at hstate
      cases hstate
      exact .of_eq hpresent rfl rfl
  | channelState msg =>
      have hsame : sys.state.channelState msg = sys.state := by
        unfold State.channelState
        rw [hserver]
      exact .of_eq hpresent (congrArg State.server hsame) (congrArg State.events hsame)
  | channelRemove msg => exact .channelRemove hpresent hserver' hcharted'
  | audio | cryptSetup | wrongPassword | reject | voicePing | ping | authenticate | unhandled =>
      exact .of_eq hpresent rfl rfl

theorem tells_step (hpresent : sys.state.Present here) (hstep : Step sys (host, label) sys')
    (horderly : Orderly sys (host, label) sys') : Tells here sys.state sys'.state := by
  cases step_cases hstep with
  | command houtcome =>
      obtain ⟨⟨s', hserver', -⟩, -⟩ := horderly
      exact .of_showsSame hpresent hserver' (State.showsSame_command houtcome)
        ((events_command houtcome).trans (List.append_nil _).symm) rfl
  | controllerGone => exact .of_eq hpresent rfl rfl
  | tcp hcase =>
      cases hcase with
      | packet htcp hhandled => exact tells_packet hpresent hhandled rfl horderly
      | _ => exact .of_eq hpresent rfl rfl
  | udp hcase =>
      cases hcase with
      | _ => exact .of_eq hpresent rfl rfl

/-- **The events tell who is in our channel.**  Through every run of an orderly session. -/
theorem replay_of_run {trace : List ((Host × Label) × System)} (hpresent : sys.state.Present here)
    (hrun : Run Step sys trace) (horderly : AllSteps Orderly sys trace) :
    ∃ news, (final sys trace).state.events = sys.state.events ++ news ∧
      (final sys trace).state.othersIn here = replay (sys.state.othersIn here) news := by
  have htells : Tells here sys.state (final sys trace).state := by
    refine hrun.inv_final_of_allSteps (fun sys' => Tells here sys.state sys'.state)
      (.of_eq hpresent rfl rfl) ?_ horderly
    rintro sys' ⟨host, label⟩ sys'' htells hstep horderly
    exact htells.trans (tells_step htells.present hstep horderly)
  exact htells.told

instance (s : ConnectedServer) : Decidable s.Charted :=
  decidable_of_iff (∀ entry ∈ s.users.iter, entry.2.channel ∈ s.channels)
    ⟨fun h session user huser => h (session, user) (mem_iter.mpr huser),
      fun h entry hentry => h entry.1 entry.2 (mem_iter.mp hentry)⟩

/-- Another user leaves the lobby for the root, a third one connects to the lobby, the second
comes back, and the third one disconnects. -/
def comings : List Label :=
  [.tcp (.packet (.userState { session := some 5, channelId := some 0 })),
    .tcp (.packet (.userState { session := some 6, name := some "she", channelId := some 1 })),
    .tcp (.packet (.userState { session := some 5, channelId := some 1 })),
    .tcp (.packet (.userRemove { session := some 6 }))]

theorem replay_of_run_comings :
    ∃ trace news, follow .offline { start (.onServer twoInLobby) with tcp := .session .new }
        comings = some trace ∧
      (final { start (.onServer twoInLobby) with tcp := .session .new } trace).state.othersIn 1 =
        replay (State.othersIn (.onServer twoInLobby) 1) news := by
  let sys : System := { start (.onServer twoInLobby) with tcp := .session .new }
  obtain ⟨trace, htrace, horderly⟩ : ∃ trace, sys.follow .offline comings = some trace ∧
      AllSteps Orderly sys trace := by
    refine ⟨_, rfl, ⟨⟨_, rfl, by decide⟩, ?_⟩, ⟨⟨_, rfl, by decide⟩, ?_⟩, ⟨⟨_, rfl, by decide⟩, ?_⟩,
      ⟨⟨_, rfl, by decide⟩, ?_⟩, trivial⟩
    · intro packet hpacket s own hserver hown
      cases hpacket
      cases hserver
      cases hown
      have hroot : (0 : UInt32) ∈ twoInLobby.channels := by decide
      refine ⟨by decide, fun _ _ => hroot, fun user huser => ?_⟩
      cases huser
      rfl
    · intro packet hpacket s own hserver hown
      cases hpacket
      cases hserver
      cases hown
      refine ⟨by decide, trivial, fun user huser => ?_⟩
      cases huser
    · intro packet hpacket s own hserver hown
      cases hpacket
      cases hserver
      cases hown
      refine ⟨by decide, fun h => absurd h (by decide), fun user huser => ?_⟩
      cases huser
      rfl
    · intro packet hpacket s own hserver hown
      cases hpacket
      cases hserver
      cases hown
      exact ⟨by decide, HashMap.mem_iff_lookup.mpr ⟨_, rfl⟩, trivial⟩
  have hpresent : sys.state.Present 1 := ⟨twoInLobby, _, rfl, rfl, rfl, by decide⟩
  obtain ⟨news, -, hothers⟩ := replay_of_run hpresent (run_follow htrace) horderly
  exact ⟨trace, news, htrace, hothers⟩

end System

end Mum
