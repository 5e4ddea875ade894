import Mum.Client.Changes
import Mum.Client.Steps

/-!
# The two copies of a mute flag

Whether another user is muted is stored twice: as `suppressed` in the user map,
which `MuteOther` tests, and in the volumes of the audio output, which the
callback obeys.  `MuteOther` writes both; but the server writes the first with
every `suppress` flag it sends, and nothing clears the second when a user or the
server goes away.

The copies agree as long as all `suppress` flags that the server sends are the
stored ones, and in a session they have to be (`FlagsAgree.userState_iff`).

What is carried through a run is `FlagsAgree`, of which the property that is wanted is
the case where we are connected.  The steps that write a flag are a `MuteOther`, which
writes both copies (`FlagsAgree.mute`), and the two packets about users; a new server has no
users, and all other steps keep the user map and the volumes (`State.Keeps`).
-/

namespace Mum

open Library Library.Eval Msgs
open Mumlib (Command)

/-- The two copies agree for every user of the map. -/
def FlagsAgree (users : Users) (audioOutput : AudioOutput F32) : Prop :=
  ∀ session user, users.lookup session = some user → user.suppressed = audioOutput.muted session

/-- The `suppress` flag that a packet brings for a user, who may be new: a user
who is new is not suppressed unless the packet says so. -/
def broughtFlag (msg : UserState) : Option User → Option Bool
  | none => some (msg.suppress.getD false)
  | some _ => msg.suppress

/-- The flag of a user after a packet: the one that it brings, or the old one. -/
theorem suppressed_brought (msg : UserState) (known : Option User) :
    (known.elim (User.new msg) (·.parseUserState msg)).suppressed =
      (broughtFlag msg known).getD (known.elim false User.suppressed) := by
  cases known <;> rfl

/-- The `suppress` flag that the packet brings is the stored mute flag. -/
def BringsFlag (users : Users) (audioOutput : AudioOutput F32) (msg : UserState) : Prop :=
  ∀ session ∈ msg.session, ∀ suppress ∈ broughtFlag msg (users.lookup session),
    suppress = audioOutput.muted session

instance (users : Users) (audioOutput : AudioOutput F32) (msg : UserState) :
    Decidable (BringsFlag users audioOutput msg) :=
  -- By name, since a `Fintype` instance would run through all session ids.
  have (session : UInt32) :
      Decidable (∀ suppress ∈ broughtFlag msg (users.lookup session),
        suppress = audioOutput.muted session) :=
    Option.decidableForallMem _
  Option.decidableForallMem _

namespace FlagsAgree

variable {users : Users} {audioOutput : AudioOutput F32}

theorem empty : FlagsAgree ∅ audioOutput := by
  intro session user huser
  simp at huser

/-- Only the stored flags matter. -/
theorem congr {audioOutput' : AudioOutput F32} (h : FlagsAgree users audioOutput)
    (hmutes : ∀ session, audioOutput'.muted session = audioOutput.muted session) :
    FlagsAgree users audioOutput' :=
  fun session user huser => (h session user huser).trans (hmutes session).symm

/-- A `UserState` packet keeps the copies equal if its flag is the stored one. -/
theorem userState_iff (h : FlagsAgree users audioOutput) (msg : UserState) :
    FlagsAgree (Mum.userState msg users) audioOutput ↔ BringsFlag users audioOutput msg := by
  constructor
  · intro hagree session hsession suppress hsuppress
    have hlookup := lookup_userState msg users session
    rw [if_pos (Option.mem_def.mp hsession)] at hlookup
    have hflag := hagree session _ hlookup
    rwa [suppressed_brought, Option.mem_def.mp hsuppress] at hflag
  · intro hbrings session user huser
    rw [lookup_userState] at huser
    by_cases hsession : msg.session = some session
    · rw [if_pos hsession] at huser
      cases huser
      rw [suppressed_brought]
      cases hflag : broughtFlag msg (users.lookup session) with
      | some suppress => exact hbrings session hsession suppress hflag
      | none =>
          -- a packet brings a flag for everybody who is new
          cases hknown : users.lookup session with
          | none =>
              rw [hknown] at hflag
              cases hflag
          | some known => exact h session known hknown
    · rw [if_neg hsession] at huser
      exact h session user huser

theorem erase (h : FlagsAgree users audioOutput) (session : UInt32) :
    FlagsAgree (users.erase session) audioOutput := by
  intro session' user huser
  exact h session' user (HashMap.lookup_erase_eq_some.mp huser).2

/-- `MuteOther` writes both copies. -/
theorem mute (h : FlagsAgree users audioOutput) (id : UInt32) (user : User) (mute : Bool) :
    FlagsAgree (users.replace id (user.setSuppressed mute)) (audioOutput.setMute id mute) := by
  intro session user' huser
  rw [HashMap.lookup_replace] at huser
  rw [AudioOutput.muted_setMute]
  by_cases hsession : session = id
  · rw [if_pos hsession] at huser ⊢
    obtain ⟨_, -, rfl⟩ := Option.map_eq_some_iff.mp huser
    rfl
  · rw [if_neg hsession] at huser ⊢
    exact h session user' huser

end FlagsAgree

namespace State

/-- The copies agree for every user that we know at a server, logged in or not. -/
def FlagsAgree (state : State) : Prop := Mum.FlagsAgree state.server.users state.audioOutput

/-- While we are connected, `suppressed` is the stored mute flag. -/
def Synced (state : State) : Prop :=
  ∀ s, state.server = .connected s → Mum.FlagsAgree s.users state.audioOutput

theorem FlagsAgree.synced {state : State} (h : state.FlagsAgree) : state.Synced := by
  intro s hserver
  rw [FlagsAgree, hserver] at h
  exact h

theorem FlagsAgree.of_keeps {state state' : State} (h : state.FlagsAgree)
    (hkeeps : Keeps state state') : state'.FlagsAgree := by
  rw [FlagsAgree, hkeeps.users]
  exact h.congr hkeeps.mutes

end State

namespace System

/-- The `suppress` flags of users at a server are the stored ones. -/
def BringsFlags (sys : System) : Label → Prop
  | .tcp (.packet (.userState msg)) =>
      sys.state.server.kind ≠ .disconnected →
        BringsFlag sys.state.server.users sys.state.audioOutput msg
  | _ => True

/-- The `suppress` flags that come while we are connected are the stored ones. -/
def BringsFlagsConnected (sys : System) : Label → Prop
  | .tcp (.packet (.userState msg)) =>
      sys.state.server.kind = .connected →
        BringsFlag sys.state.server.users sys.state.audioOutput msg
  | _ => True

/-- A `MuteOther` that finds its user makes the stored flag the one asked for. -/
def MutesOther (sys : System) (sys' : System) : Label → Prop
  | .command (.muteOther username (some mute)) =>
      ∀ s id user, sys.state.server = .connected s →
        State.findUser s.users username = some (id, user) →
        sys'.state.audioOutput.muted id = mute
  | _ => True

variable {host : Host} {sys sys' : System}

theorem flagsAgree_command {command : Command} {outcome : Outcome}
    (h : sys.state.FlagsAgree) (houtcome : handleCommand host sys.state command = .ok outcome) :
    outcome.state.FlagsAgree := by
  cases handleCommand_cases houtcome with
  | keeps hstate hinfo => exact h.of_keeps hstate
  | mutes hserver huser hne htoggle hstate hinfo =>
      rw [State.FlagsAgree, hserver] at h
      rw [hstate]
      exact FlagsAgree.mute h _ _ _
  | connects hserver =>
      obtain ⟨sb, hstate, husers, -⟩ := sys.state.serverConnect_eq host _ _ _ _ _
      rw [State.FlagsAgree, hstate]
      exact (congrArg (FlagsAgree · _) husers).mpr .empty
  | disconnects hserver hdisconnected hphase hinfo =>
      rw [State.FlagsAgree, hdisconnected]
      exact .empty

theorem flagsAgree_packet {session : TcpSession} {packet : Clientbound} {handled : Handled}
    (h : sys.state.FlagsAgree) (hbrings : sys.BringsFlags (.tcp (.packet packet)))
    (hhandled : handlePacket host sys.state session.listen packet = .ok handled) :
    handled.state.FlagsAgree := by
  cases handlePacket_cases hhandled with
  | keeps hstate => exact h.of_keeps hstate
  | login hserver hconnected hphase hmutes =>
      rw [State.FlagsAgree, hserver] at h
      rw [State.FlagsAgree, hconnected]
      exact FlagsAgree.congr h hmutes
  | userState hne hkind hphase husers hmutes =>
      rw [State.FlagsAgree, husers]
      have hflag := hbrings fun hdisconnected => hne (Server.kind_eq_disconnected.mp hdisconnected)
      exact ((FlagsAgree.userState_iff h _).mpr hflag).congr hmutes
  | userRemove hkind hphase husers hmutes =>
      rw [State.FlagsAgree, husers]
      exact (FlagsAgree.erase h _).congr hmutes

theorem flagsAgree_step {label : Label} (h : sys.state.FlagsAgree)
    (hstep : Step sys (host, label) sys') (hbrings : sys.BringsFlags label) :
    sys'.state.FlagsAgree := by
  cases step_cases hstep with
  | command houtcome => exact flagsAgree_command h houtcome
  | controllerGone => exact h
  | tcp hcase =>
      cases hcase with
      | packet htcp hhandled => exact flagsAgree_packet h hbrings hhandled
      | _ => exact h
  | udp hcase =>
      cases hcase with
      | audio hvolumes => exact h.of_keeps (.audioOutput hvolumes)
      | _ => exact h

theorem mutesOther_step {label : Label} (h : sys.state.FlagsAgree)
    (hstep : Step sys (host, label) sys') : MutesOther sys sys' label := by
  cases step_cases hstep with
  | @command command outcome _ _ _ houtcome =>
      cases command with
      | muteOther username toggle =>
          cases toggle with
          | none => exact trivial
          | some mute =>
              intro s id user hserver huser
              rw [handleCommand, hserver] at houtcome
              cases houtcome
              have hflag := h id user (by rw [hserver]; exact (State.findUser_eq_some huser).1)
              -- nothing is written when the first copy has the flag already
              by_cases hne : user.suppressed ≠ mute
              · simp [State.muteOther, huser, hne, State.answer]
              · rw [ne_eq, not_not] at hne
                simp [State.muteOther, huser, hne, State.answer, ← hflag]
      | _ => exact trivial
  | _ => exact trivial

/-- In a session, a packet that keeps the copies equal brings the stored flag. -/
theorem bringsFlagsConnected_step {label : Label} (h : sys.state.Synced)
    (hstep : Step sys (host, label) sys') (h' : sys'.state.Synced) :
    sys.BringsFlagsConnected label := by
  cases step_cases hstep with
  | tcp hcase =>
      cases hcase with
      | @packet session packet handled _ _ _ htcp hhandled =>
          cases packet with
          | userState msg =>
              intro hconnected
              obtain ⟨s, hserver⟩ := Server.kind_eq_connected.mp hconnected
              obtain ⟨state', hstate, hhandled⟩ := bind_eq_ok.mp hhandled
              cases hhandled
              obtain ⟨hkind, -, husers, hmutes⟩ :=
                State.userState_changes hstate (by simp [hserver])
              -- the server is still connected, so that the copies agree after the packet
              obtain ⟨s', hserver'⟩ := Server.kind_eq_connected.mp (hkind.trans hconnected)
              have hagree := h' s' hserver'
              rw [hserver, hserver'] at husers
              have husers : s'.users = Mum.userState msg s.users := husers
              rw [husers] at hagree
              rw [hserver]
              exact (FlagsAgree.userState_iff (h s hserver) msg).mp
                (hagree.congr fun session => (hmutes session).symm)
          | _ => exact trivial
      | _ => exact trivial
  | _ => exact trivial

/-- **The two copies of a mute flag.**  In a run of the daemon whose `suppress`
flags are all the stored ones, `suppressed` is the stored mute flag in every
session, and `MuteOther` does what it is asked; and if so, the flags that come
while we are connected are the stored ones. -/
theorem synced_of_bringsFlags {state : State} {trace : List ((Host × Label) × System)}
    (hnew : State.new host = .ok (some state)) (hrun : Run Step (start state) trace) :
    (AllSteps (fun sys label _ => sys.BringsFlags label.2) (start state) trace →
        AllSteps (fun sys label sys' => sys'.state.Synced ∧ sys.MutesOther sys' label.2)
          (start state) trace) ∧
      (AllSteps (fun sys label sys' => sys'.state.Synced ∧ sys.MutesOther sys' label.2)
          (start state) trace →
        AllSteps (fun sys label _ => sys.BringsFlagsConnected label.2) (start state) trace) := by
  have hdisconnected : (start state).state.server = .disconnected := (State.new_eq_ok hnew).1
  constructor
  · have hstart : (start state).state.FlagsAgree := by
      rw [State.FlagsAgree, hdisconnected]
      exact .empty
    refine hrun.allSteps (fun sys => sys.state.FlagsAgree) hstart ?_
    intro sys label sys' hagree hstep hbrings
    have hagree' := flagsAgree_step hagree hstep hbrings
    exact ⟨hagree', hagree'.synced, mutesOther_step hagree hstep⟩
  · have hstart : (start state).state.Synced := by
      intro s hserver
      cases hdisconnected.symm.trans hserver
    refine hrun.allSteps (fun sys => sys.state.Synced) hstart ?_
    intro sys label sys' hsynced hstep hsynced'
    exact ⟨hsynced'.1, bringsFlagsConnected_step hsynced hstep hsynced'.1⟩

instance (sys : System) : ∀ label, Decidable (sys.BringsFlags label)
  | .tcp (.packet (.userState _)) => inferInstanceAs (Decidable (_ → BringsFlag _ _ _))
  | .command _ | .controllerGone _ | .udp _ => .isTrue trivial
  | .tcp .takeInfo | .tcp (.connect _) | .tcp (.authenticate _) | .tcp .poll | .tcp .streamGone
  | .tcp .invalidPacket | .tcp .ping | .tcp .voicePoll | .tcp (.voice _) | .tcp .takePacket
  | .tcp (.packetSent _) => .isTrue trivial
  | .tcp (.packet (.udpTunnel _)) | .tcp (.packet (.authenticate _)) | .tcp (.packet (.ping _))
  | .tcp (.packet (.reject _)) | .tcp (.packet (.serverSync _))
  | .tcp (.packet (.channelRemove _)) | .tcp (.packet (.channelState _))
  | .tcp (.packet (.userRemove _)) | .tcp (.packet (.textMessage _))
  | .tcp (.packet (.cryptSetup _)) | .tcp (.packet .unhandled) => .isTrue trivial

theorem synced_of_bringsFlags_muteOther :
    ∃ trace, (start .idle).follow .online
        (login "localhost" ++ [.command (.muteOther "you" (some true))]) = some trace ∧
      AllSteps (fun sys label sys' => sys'.state.Synced ∧ sys.MutesOther sys' label.2)
        (start .idle) trace := by
  have hnew : State.new .offline = .ok (some .idle) := rfl
  exact ⟨Option.get _ (by decide), (Option.some_get _).symm,
    (synced_of_bringsFlags hnew (run_follow (Option.some_get _).symm)).1 (by decide)⟩

/-- The server suppresses somebody, whom we then hear as before. -/
theorem not_synced_suppress :
    ∃ trace, (start .idle).follow .online
        (login "localhost" ++
          [.tcp (.packet (.userState { session := some 2, suppress := some true }))]) =
        some trace ∧
      ¬ AllSteps (fun sys label sys' => sys'.state.Synced ∧ sys.MutesOther sys' label.2)
        (start .idle) trace := by
  refine ⟨Option.get _ (by decide), (Option.some_get _).symm, fun hsynced => ?_⟩
  have hsuppressed := hsynced.mono
    (Q := fun _ _ sys' => sys'.state.server.kind = .connected →
      ∀ user ∈ sys'.state.server.users.lookup 2,
        user.suppressed = sys'.state.audioOutput.muted 2)
    fun _ _ sys' h hconnected user huser => by
      obtain ⟨s, hserver⟩ := Server.kind_eq_connected.mp hconnected
      rw [hserver] at huser
      exact h.1 s hserver 2 user huser
  exact absurd hsuppressed (by decide)

end System

end Mum
