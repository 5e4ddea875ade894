import Mum.Client.Credentials
import Mum.Client.Faults
import Mum.Client.MembershipLog
import Mum.State.UserHistory

/-!
# Servers that cannot stop the daemon

What a server has to keep to, packet by packet, so that nothing that it sends stops the
daemon, and nothing that the controllers ask for does.

* It lets us in once it has sent a `CryptSetup`, and has told us about its channels, which
  are a tree, and about the users in them, ourselves among them.  It does so in the session
  of the server made last.
* Then it removes a channel only if nothing is left in it, moves users to channels that we
  have heard of, and removes users that we have heard of.  We are not removed.
* Keys have the right length, voice can be decoded, counters do not fall, and a text
  message does not come when we have left and somebody still reads.

`Furnished` is what a server that keeps to this has told us at any time.  The lookups of all
commands are in it.  Only a `ConfigReload` needs something else, the sounds.

## Strategy

`Steady` is the invariant: the two of `Mum.Client.Faults`, that whoever is connected is at a
furnished server, and that the login was that of the server made last.  A packet that is good
is safe, because what its handler looks up is in a furnished server (`GoodPacket.safe`), and
it leaves the server furnished (`GoodPacket.furnished`), where each of the three packets that
change the maps has a lemma of its own.  Commands show the same server before and after.
-/

namespace Mum

open Library Library.Eval Library.ParentChain Msgs
open Mumlib (Command)

/-! ## What we have been told -/

instance (channels : Channels) : Decidable channels.Shown :=
  decidable_of_iff (Returns (intoChannel .insertion channels ∅))
    (intoChannel_returns_iff .insertion channels ∅)

namespace ConnectedServer

variable {s s' : ConnectedServer}

/-- The channels are a tree, and all users are in it, ourselves among them. -/
structure Furnished (s : ConnectedServer) : Prop where
  shown : s.channels.Shown
  own : s.Knows s.sessionId
  charted : s.Charted

theorem Furnished.knowsOwnChannel (h : s.Furnished) : s.KnowsOwnChannel := by
  obtain ⟨own, hown⟩ := Option.isSome_iff_exists.mp h.own
  obtain ⟨channel, hchannel⟩ := HashMap.mem_iff_lookup.mp (h.charted _ own hown)
  rw [KnowsOwnChannel, hown, Option.bind_some, hchannel]
  rfl

theorem Furnished.of_showsSame (h : s.Furnished) (hsame : s.ShowsSame s') : s'.Furnished where
  shown := hsame.channels ▸ h.shown
  own := by
    obtain ⟨own, hown⟩ := Option.isSome_iff_exists.mp h.own
    obtain ⟨own', hown', -⟩ := hsame.lookup hown
    rw [← hsame.sessionId] at hown'
    exact Option.isSome_of_mem hown'
  charted session user' huser' := by
    obtain ⟨user, huser, -, hchannel⟩ := hsame.symm.lookup huser'
    rw [hsame.channels, ← hchannel]
    exact h.charted session user huser

instance (s : ConnectedServer) : Decidable s.Furnished :=
  decidable_of_iff (s.channels.Shown ∧ s.Knows s.sessionId ∧ s.Charted)
    ⟨fun ⟨shown, own, charted⟩ => ⟨shown, own, charted⟩, fun h => ⟨h.shown, h.own, h.charted⟩⟩

/-- A channel that has nothing below it and nobody in it. -/
structure IsEmpty (s : ConnectedServer) (id : UInt32) : Prop where
  ne_root : id ≠ 0
  childless : ∀ child, s.channels.parentOf child ≠ some (some id)
  userless : ∀ session user, s.users.lookup session = some user → user.channel ≠ id

theorem Furnished.channelRemove (h : s.Furnished) {msg : ChannelRemove}
    (hempty : ∀ id ∈ msg.channelId, s.IsEmpty id) : (s.channelRemove msg).Furnished := by
  cases hid : msg.channelId with
  | none =>
      have hsame : s.channelRemove msg = s := by
        rw [ConnectedServer.channelRemove, Mum.channelRemove, hid]
      rw [hsame]
      exact h
  | some id =>
      have hchannels : (s.channelRemove msg).channels = s.channels.erase id := by
        rw [ConnectedServer.channelRemove, Mum.channelRemove, hid]
      obtain ⟨hroot, hchildless, huserless⟩ := hempty id hid
      refine ⟨⟨?_, fun id' hid' => ?_⟩, h.own, fun session user huser => ?_⟩
      · rw [hchannels, AList.mem_erase]
        exact ⟨hroot.symm, h.shown.1⟩
      · rw [hchannels, AList.mem_erase] at hid'
        obtain ⟨walk, r, hleads⟩ := h.shown.2 id' hid'.2
        refine ⟨walk, r, hleads.of_leaf hchildless (fun a hne => ?_) hid'.1⟩
        rw [hchannels, Channels.parentOf, AList.lookup_erase_ne hne]
        rfl
      · rw [hchannels, AList.mem_erase]
        exact ⟨huserless session user huser, h.charted session user huser⟩

theorem Furnished.userState (h : s.Furnished) {msg : UserState}
    (hknown : ∀ channel ∈ msg.channelId, channel ∈ s.channels) : (s.userState msg).Furnished := by
  refine ⟨h.shown, ?_, fun session user huser => ?_⟩
  · have hlookup := lookup_userState msg s.users s.sessionId
    obtain ⟨own, hown⟩ := Option.isSome_iff_exists.mp h.own
    refine Option.isSome_iff_exists.mpr ?_
    rw [hown] at hlookup
    split at hlookup
    · exact ⟨_, hlookup⟩
    · exact ⟨_, hlookup⟩
  · have hlookup : (s.userState msg).users.lookup session = _ :=
      lookup_userState msg s.users session
    rw [huser] at hlookup
    have hchannel : ∀ old ∈ s.channels, msg.channelId.getD old ∈ s.channels := by
      intro old hold
      cases hid : msg.channelId with
      | none => exact hold
      | some channel => exact hknown channel hid
    split at hlookup
    · cases hold : s.users.lookup session with
      | none =>
          rw [hold] at hlookup
          cases hlookup
          exact hchannel 0 h.shown.1
      | some old =>
          rw [hold] at hlookup
          cases hlookup
          exact hchannel old.channel (h.charted session old hold)
    · exact h.charted session user hlookup.symm

theorem Furnished.userRemove (h : s.Furnished) {msg : UserRemove}
    (hother : msg.getSession ≠ s.sessionId) : (s.userRemove msg).Furnished := by
  have hlookup : ∀ session, session ≠ msg.getSession →
      (s.userRemove msg).users.lookup session = s.users.lookup session :=
    fun session hne => AList.lookup_erase_ne hne
  refine ⟨h.shown, ?_, fun session user huser => ?_⟩
  · have hown := hlookup s.sessionId hother.symm
    exact (congrArg Option.isSome hown).trans h.own
  · by_cases hremoved : session = msg.getSession
    · subst hremoved
      have hnone : (s.userRemove msg).users.lookup msg.getSession = none := AList.lookup_erase ..
      cases hnone.symm.trans huser
    · rw [hlookup session hremoved] at huser
      exact h.charted session user huser

end ConnectedServer

/-- Whoever is connected is at a server that has told us all this. -/
def Server.Furnished (server : Server) : Prop := ∀ s ∈ server.connected?, s.Furnished

/-! ## What a server keeps to -/

namespace System

variable {host : Host} {sys sys' : System} {listen : Listen} {packet : Clientbound}

/-- What a packet keeps to. -/
def GoodPacket (host : Host) (sys : System) (listen : Listen) : Clientbound → Prop
  | .serverSync msg =>
      (listen.cryptStateSender → listen.cryptState.isSome) ∧
        ∀ sb, sys.state.server = .connecting sb →
          sys.history.joined = sys.history.servers ∧ (sb.serverSync msg).Furnished
  | .userState msg =>
      ∀ s ∈ sys.state.server.connected?, ∀ channel ∈ msg.channelId, channel ∈ s.channels
  | .userRemove msg =>
      ∀ s ∈ sys.state.server.connected?, s.Knows msg.getSession ∧ msg.getSession ≠ s.sessionId
  | .channelRemove msg =>
      ∀ s ∈ sys.state.server.connected?, ∀ id ∈ msg.channelId, s.IsEmpty id
  | packet => sys.state.SafePacket host listen packet ∧ sys.SafeEvent listen packet

/-- What the server, the voice and the configuration keep to.  The controllers may ask for
anything. -/
def GoodLabel (host : Host) (sys : System) : Label → Prop
  | .command .configReload => sys.state.LoadsSounds host
  | .tcp (.packet packet) =>
      ∀ session, sys.tcp = .session session → sys.GoodPacket host session.listen packet
  | .udp label => SafeLabel host sys (.udp label)
  | _ => True

def Behaves (sys : System) (label : Host × Label) : Prop :=
  sys.running → GoodLabel label.1 sys label.2

/-! ## What follows -/

theorem GoodPacket.safe (h : sys.GoodPacket host listen packet)
    (hfurnished : sys.state.server.Furnished) :
    sys.state.SafePacket host listen packet ∧ sys.SafeEvent listen packet := by
  cases packet with
  | serverSync msg => exact ⟨h.1, fun _ _ sb hserver => (h.2 sb hserver).2.shown⟩
  | userState msg => exact ⟨fun s hs => (hfurnished s hs).own, trivial⟩
  | userRemove msg => exact ⟨fun s hs => ⟨(hfurnished s hs).own, (h s hs).1⟩, trivial⟩
  | channelRemove msg => exact ⟨trivial, trivial⟩
  | _ => exact h

/-- A user who moves or leaves does so on the server that we are connected to. -/
theorem furnished_of_apply (user : UserPacket) {state' : State}
    (happly : user.apply host sys.state = .ok state')
    (h : ∀ s ∈ sys.state.server.connected?, (s.userPacket user).Furnished) :
    state'.server.Furnished := by
  rw [UserPacket.server_of_apply happly]
  intro s' hs'
  cases hserver : sys.state.server with
  | connected s =>
      rw [hserver] at hs'
      cases hs'
      exact h s (Server.mem_connected?.mpr hserver)
  | connecting sb | disconnected =>
      rw [hserver] at hs'
      cases hs'

/-- All packets leave the server furnished. -/
theorem GoodPacket.furnished (h : sys.GoodPacket host listen packet)
    (hfurnished : sys.state.server.Furnished) {handled : Handled}
    (hhandled : handlePacket host sys.state listen packet = .ok handled) :
    handled.state.server.Furnished := by
  have hcase := handles_of_handlePacket hhandled
  obtain ⟨state', listen', cryptState, event⟩ := handled
  cases hcase with
  | textMessage msg =>
      cases textMessageNews sys.state msg with
      | none => exact hfurnished
      | some kind => exact hfurnished
  | @serverSync msg _ hstate =>
      cases hserver : sys.state.server with
      | connecting sb =>
          obtain ⟨audioOutput, hsync, -⟩ := State.serverSync_eq_ok hserver msg
          cases hsync.symm.trans hstate
          intro s' hs'
          cases hs'
          exact (h.2 sb hserver).2
      | disconnected | connected s =>
          rw [State.serverSync, hserver] at hstate
          cases hstate
          exact hfurnished
  | userState hstate =>
      refine furnished_of_apply (.state _) hstate fun s hs => ?_
      exact (hfurnished s hs).userState (h s hs)
  | userRemove hstate =>
      refine furnished_of_apply (.remove _) hstate fun s hs => ?_
      exact (hfurnished s hs).userRemove (h s hs).2
  | channelState msg =>
      intro s' hs'
      cases hserver : sys.state.server with
      | connected s =>
          simp only [hserver] at hs'
          rw [← hserver] at hs'
          exact hfurnished s' hs'
      | connecting sb | disconnected => simp [hserver, Server.connected?] at hs'
  | channelRemove msg =>
      intro s' hs'
      cases hserver : sys.state.server with
      | connected s =>
          have hs := Server.mem_connected?.mpr hserver
          simp only [hserver] at hs'
          cases hs'
          exact (hfurnished s hs).channelRemove (h s hs)
      | connecting sb | disconnected => simp [hserver, Server.connected?] at hs'
  | _ => exact hfurnished

/-- What holds while the server keeps to it. -/
structure Steady (sys : System) : Prop where
  ready : sys.Ready
  joining : sys.Joining
  introduced : ∃ labels, Introduced labels sys
  furnished : sys.state.server.Furnished

theorem Steady.safeCommand (h : sys.Steady) {command : Command}
    (hgood : GoodLabel host sys (.command command)) : sys.state.SafeCommand host command := by
  have hpaths : ∀ s ∈ sys.state.server.connected?, s.channels.PathsEnd :=
    fun s hs => (h.furnished s hs).shown.2
  cases command with
  | channelJoin name => exact hpaths
  | channelList | status => exact fun s hs => (h.furnished s hs).shown
  | configReload => exact hgood
  | sendMessage message targets =>
      intro s hs
      cases targets with
      | user names => exact trivial
      | channel channels =>
          exact ⟨fun _ => hpaths s hs, fun _ => (h.furnished s hs).knowsOwnChannel⟩
  | _ => exact trivial

/-- Every step has what it needs. -/
theorem Steady.safe (h : sys.Steady) {label : Host × Label} (hgood : sys.Behaves label) :
    sys.Safe label := by
  obtain ⟨host, label⟩ := label
  intro hrunning
  have hgood := hgood hrunning
  cases label with
  | command command => exact h.safeCommand hgood
  | controllerGone request => exact trivial
  | udp label => exact hgood
  | tcp label =>
      cases label with
      | packet packet =>
          exact fun session htcp => (hgood session htcp).safe h.furnished
      | connect result =>
          cases result with
          | ok =>
              -- whoever is connected to is the server that we are logging in to
              intro info htcp hserver
              obtain ⟨labels, hintroduced⟩ := h.introduced
              exact (hintroduced.idle hserver).2 info htcp
          | _ => exact trivial
      | _ => exact trivial

/-- The login that a good packet completes is that of the server made last. -/
theorem Behaves.ownLogin {label : Label} (h : sys.Behaves (host, label))
    (hstep : Step sys (host, label) sys') : OwnLogin sys (host, label) sys' := by
  have hgood := h (running_of_step hstep)
  rintro msg rfl hconnecting
  obtain ⟨sb, hserver⟩ := Server.kind_eq_connecting.mp hconnecting
  cases step_cases hstep with
  | tcp hcase =>
      cases hcase with
      | packet htcp hhandled => exact ((hgood _ htcp).2 sb hserver).1

/-- Every step keeps it. -/
theorem Steady.step (h : sys.Steady) {label : Label} (hgood : sys.Behaves (host, label))
    (hstep : Step sys (host, label) sys') : sys'.Steady := by
  refine ⟨h.ready.step hstep, h.joining.step hstep, ?_, ?_⟩
  · obtain ⟨labels, hintroduced⟩ := h.introduced
    exact ⟨_, hintroduced.step hstep (hgood.ownLogin hstep)⟩
  · have hgood := hgood (running_of_step hstep)
    cases step_cases hstep with
    | command houtcome =>
        intro s' hs'
        obtain ⟨s, hserver, hsame⟩ :=
          State.showsSame_command houtcome s' (Server.mem_connected?.mp hs')
        exact (h.furnished s (Server.mem_connected?.mpr hserver)).of_showsSame hsame
    | controllerGone => exact h.furnished
    | tcp hcase =>
        cases hcase with
        | packet htcp hhandled => exact (hgood _ htcp).furnished h.furnished hhandled
        | _ => exact h.furnished
    | udp hcase =>
        cases hcase with
        | _ => exact h.furnished

theorem steady_start {state : State} (hnew : State.new host = .ok (some state)) :
    (start state).Steady := by
  refine ⟨ready_start state, joining_start, ⟨[], introduced_start state⟩, fun s hs => ?_⟩
  cases (State.new_eq_ok hnew).1.symm.trans (Server.mem_connected?.mp hs)

end System

end Mum
