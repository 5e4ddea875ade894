import Mum.Client

/-!
# What the packets of a server may not do

The unwraps of `listen` in `mum/src/network/tcp.rs` and of what it calls in
`mum/src/state.rs` and `mum/src/state/server.rs`.  They rely on the server: on
the blocks of a `CryptSetup`, on one before the first `ServerSync`, and while we
are connected on our own user, on a user who leaves, and on our channel.

`Fits` is what each packet and command needs, in terms of the state before it.

For each function with an unwrap there is a lemma that says exactly when it returns
(`State.userState_returns_iff` and those like it), and `handlePacket_returns_iff` puts them
together.  Steps in a row need no invariant then: the condition is about the state before
the step, whatever led there.
-/

namespace Mum

open Library Library.Eval Msgs
open Mumlib (ChannelTarget Command MessageTarget)

namespace ConnectedServer

def Knows (s : ConnectedServer) (session : UInt32) : Prop := (s.users.lookup session).isSome

instance (s : ConnectedServer) (session : UInt32) : Decidable (s.Knows session) :=
  inferInstanceAs (Decidable (_ = true))

/-- Our own user is known, and so is the channel that it is in. -/
def KnowsOwnChannel (s : ConnectedServer) : Prop :=
  ((s.users.lookup s.sessionId).bind fun user => s.channels.lookup user.channel).isSome

instance (s : ConnectedServer) : Decidable s.KnowsOwnChannel :=
  inferInstanceAs (Decidable (_ = true))

theorem currentChannel_returns_iff {s : ConnectedServer} :
    Returns s.currentChannel ↔ s.KnowsOwnChannel := by
  unfold currentChannel KnowsOwnChannel
  cases s.users.lookup s.sessionId with
  | none => simp
  | some user =>
      simp only [unwrap_some, ok_bind, Option.bind_some]
      cases s.channels.lookup user.channel with
      | none => simp
      | some channel => exact iff_of_true ⟨(user.channel, channel), rfl⟩ rfl

/-- A message gets to the channel that we are in if all channels that are named
before it are found. -/
def reachesCurrent (host : Host) (s : ConnectedServer) : List (ChannelTarget × Bool) → Bool
  | [] => false
  | (.current, _) :: _ => true
  | (.named name, _) :: rest =>
      match s.channelName host.toLowercase name with
      | .ok (.ok _) => reachesCurrent host s rest
      | _ => false

end ConnectedServer

open ConnectedServer in
/-- The channels of a message are all found, or one is not, unless a name cannot
be spelled out or our own channel is not known. -/
theorem State.pushChannels_returns_iff {host : Host} {s : ConnectedServer}
    {channels : List (ChannelTarget × Bool)}
    (hnames : ∀ name recursive, (.named name, recursive) ∈ channels →
      Returns (s.channelName host.toLowercase name)) (msg : TextMessage) :
    Returns (pushChannels host s msg channels) ↔
      (reachesCurrent host s channels → Returns s.currentChannel) := by
  induction channels generalizing msg with
  | nil => exact iff_of_true (returns_ok _) fun h => nomatch h
  | cons target rest ih =>
      obtain ⟨channel, recursive⟩ := target
      have hrest := ih fun name recursive hmem =>
        hnames name recursive (List.mem_cons_of_mem _ hmem)
      cases channel with
      | named name =>
          obtain ⟨found, hfound⟩ := hnames name recursive List.mem_cons_self
          cases found with
          | error e =>
              simp only [pushChannels, reachesCurrent, hfound, ok_bind]
              exact iff_of_true (returns_ok _) fun h => nomatch h
          | ok channel =>
              simp only [pushChannels, reachesCurrent, hfound, ok_bind]
              exact hrest _
      | current =>
          cases hcurrent : s.currentChannel with
          | error fault =>
              simp only [pushChannels, reachesCurrent, hcurrent, error_bind]
              exact iff_of_false (not_returns_error _) fun h => not_returns_error _ (h trivial)
          | ok channel =>
              have hreturns := (hrest (if recursive then
                { msg with treeId := msg.treeId ++ [channel.1] }
                else { msg with channelId := msg.channelId ++ [channel.1] })).mpr
                  fun _ => ⟨channel, hcurrent⟩
              simp only [pushChannels, hcurrent, ok_bind]
              exact iff_of_true hreturns fun _ => returns_ok _

/-! ## Packets -/

/-- The server, if we are connected to it. -/
def Server.connected? : Server → Option ConnectedServer
  | .connected s => some s
  | _ => none

theorem Server.mem_connected? {server : Server} {s : ConnectedServer} :
    s ∈ server.connected? ↔ server = .connected s := by
  cases server <;> simp [connected?]

/-- What a packet needs. -/
def State.FitsPacket (state : State) (listen : Listen) : Clientbound → Prop
  | .cryptSetup msg =>
      msg.getKey.length = 16 ∧ msg.getClientNonce.length = 16 ∧ msg.getServerNonce.length = 16
  | .serverSync _ => listen.cryptStateSender → listen.cryptState.isSome
  | .userState _ => ∀ s ∈ state.server.connected?, s.Knows s.sessionId
  | .userRemove msg =>
      ∀ s ∈ state.server.connected?, s.Knows s.sessionId ∧ s.Knows msg.getSession
  | _ => True

theorem Block.returns_tryInto_iff {bytes : Bytes} :
    Returns (unwrap (Block.tryInto bytes)) ↔ bytes.length = 16 := by
  unfold Block.tryInto
  split
  next h => exact iff_of_true (returns_ok _) h
  next h => exact iff_of_false (not_returns_error _) h

theorem State.serverSync_returns (state : State) (msg : ServerSync) :
    Returns (state.serverSync msg) := by
  cases hserver : state.server with
  | connecting sb =>
      obtain ⟨audioOutput, hsync, -⟩ := state.serverSync_eq_ok hserver msg
      exact ⟨_, hsync⟩
  | disconnected => exact ⟨state, by rw [serverSync, hserver]⟩
  | connected s => exact ⟨state, by rw [serverSync, hserver]⟩

theorem State.userState_returns_iff {host : Host} {state : State} {msg : UserState} :
    Returns (state.userState host msg) ↔
      ∀ s ∈ state.server.connected?, s.Knows s.sessionId := by
  simp only [Server.mem_connected?]
  cases hserver : state.server with
  | disconnected =>
      refine iff_of_true ⟨state, by rw [userState, hserver]⟩ ?_
      intro s hs
      cases hs
  | connecting sb =>
      refine iff_of_true ⟨_, by rw [userState, hserver]⟩ ?_
      intro s hs
      cases hs
  | connected s =>
      constructor
      · rintro ⟨state', h⟩ s' hs'
        cases hs'
        obtain ⟨own, -, hown, -⟩ := userState_connected hserver h
        exact Option.isSome_of_mem hown
      · intro h
        obtain ⟨own, hown⟩ := Option.isSome_iff_exists.mp (h s rfl)
        obtain ⟨audioOutput, huserState, -⟩ := state.userState_eq_ok host hserver hown msg
        exact ⟨_, huserState⟩

theorem State.removeUser_returns_iff {host : Host} {state : State} {msg : UserRemove} :
    Returns (state.removeUser host msg) ↔
      ∀ s ∈ state.server.connected?, s.Knows s.sessionId ∧ s.Knows msg.getSession := by
  simp only [Server.mem_connected?]
  cases hserver : state.server with
  | disconnected =>
      refine iff_of_true ⟨state, by rw [removeUser, hserver]⟩ ?_
      intro s hs
      cases hs
  | connecting sb =>
      refine iff_of_true ⟨_, by rw [removeUser, hserver]⟩ ?_
      intro s hs
      cases hs
  | connected s =>
      constructor
      · rintro ⟨state', h⟩ s' hs'
        cases hs'
        obtain ⟨own, user, -, hown, huser, -⟩ := removeUser_connected hserver h
        exact ⟨Option.isSome_of_mem hown, Option.isSome_of_mem huser⟩
      · intro h
        obtain ⟨own, hown⟩ := Option.isSome_iff_exists.mp (h s rfl).1
        obtain ⟨user, huser⟩ := Option.isSome_iff_exists.mp (h s rfl).2
        obtain ⟨audioOutput, hremove, -⟩ := state.removeUser_eq_ok host hserver hown huser
        exact ⟨_, hremove⟩

/-- Whether the packet gets to an unwrap of `listen` or of the state.  Voice packets
and pings do not. -/
def Listen.unwraps : Clientbound → Bool
  | .udpTunnel _ => false
  | .ping _ => false
  | _ => true

theorem handlePacket_returns_iff {host : Host} {state : State} {listen : Listen}
    {packet : Clientbound} (hunwraps : Listen.unwraps packet) :
    Returns (handlePacket host state listen packet) ↔ state.FitsPacket listen packet := by
  cases packet with
  | cryptSetup msg =>
      rw [handlePacket, State.FitsPacket, ← Block.returns_tryInto_iff,
        ← Block.returns_tryInto_iff, ← Block.returns_tryInto_iff]
      cases unwrap (Block.tryInto msg.getKey) with
      | error fault => simp
      | ok key =>
          cases unwrap (Block.tryInto msg.getClientNonce) with
          | error fault => simp
          | ok clientNonce =>
              cases unwrap (Block.tryInto msg.getServerNonce) with
              | error fault => simp
              | ok serverNonce => simp
  | serverSync msg =>
      rw [handlePacket, State.FitsPacket]
      by_cases hsender : listen.cryptStateSender
      · rw [if_pos hsender]
        cases hcrypt : listen.cryptState with
        | none => simp [hsender]
        | some cryptState =>
            refine iff_of_true ?_ fun _ => rfl
            rw [unwrap_some, ok_bind, returns_bind_iff fun _ _ => returns_ok _]
            exact state.serverSync_returns msg
      · rw [if_neg hsender, returns_bind_iff fun _ _ => returns_ok _]
        exact iff_of_true (state.serverSync_returns msg) fun h => absurd h hsender
  | userState msg =>
      rw [handlePacket, returns_bind_iff fun _ _ => returns_ok _]
      exact State.userState_returns_iff
  | userRemove msg =>
      rw [handlePacket, returns_bind_iff fun _ _ => returns_ok _]
      exact State.removeUser_returns_iff
  | reject msg =>
      refine iff_of_true ?_ trivial
      rw [handlePacket]
      split
      · exact returns_ok _
      · exact returns_ok _
  | udpTunnel packet => cases hunwraps
  | ping msg => cases hunwraps
  | _ => exact iff_of_true (returns_ok _) trivial

/-! ## Runs -/

/-- What `listen` remembers, while there is a session. -/
def TcpTask.listen? : TcpTask → Option Listen
  | .session s => some s.listen
  | _ => none

/-- The packet that comes. -/
def Label.packet? : Label → Option Clientbound
  | .tcp (.packet packet) => some packet
  | _ => none

/-- The channels that a message is sent to. -/
def Label.channels? : Label → Option (List (ChannelTarget × Bool))
  | .command (.sendMessage _ (.channel channels)) => some channels
  | _ => none

namespace System

/-- What a packet or a command makes `listen` and `current_channel` do returns. -/
def NoUnwrapFails (sys : System) (label : Host × Label) : Prop :=
  (∀ packet ∈ label.2.packet?, ∀ listen ∈ sys.tcp.listen?, Listen.unwraps packet →
    Returns (handlePacket label.1 sys.state listen packet)) ∧
  ∀ channels ∈ label.2.channels?, ∀ s ∈ sys.state.server.connected?,
    s.reachesCurrent label.1 channels → Returns s.currentChannel

/-- What a packet or a command needs is there. -/
def Fits (sys : System) (label : Host × Label) : Prop :=
  (∀ packet ∈ label.2.packet?, ∀ listen ∈ sys.tcp.listen?, sys.state.FitsPacket listen packet) ∧
  ∀ channels ∈ label.2.channels?, ∀ s ∈ sys.state.server.connected?,
    s.reachesCurrent label.1 channels → s.KnowsOwnChannel

/-- **What the unwraps rely on.**  Whatever the server sends and the controllers
ask for, from the start of the daemon or from any other state of it, no unwrap
fails if and only if every packet and every command finds what it needs. -/
theorem noUnwrapFails_iff (sys : System) (labels : List (Host × Label)) :
    AllAttempts next NoUnwrapFails sys labels ↔ AllAttempts next Fits sys labels := by
  refine allAttempts_iff (fun _ => True) trivial (fun sys label _ => and_congr ?_ ?_)
    fun _ _ _ _ _ => trivial
  · refine forall₂_congr fun packet _ => forall₂_congr fun listen _ => ?_
    by_cases hunwraps : Listen.unwraps packet
    · rw [handlePacket_returns_iff hunwraps]
      exact ⟨fun h => h hunwraps, fun h _ => h⟩
    · refine iff_of_true (fun h => absurd h hunwraps) ?_
      cases packet with
      | udpTunnel packet => exact trivial
      | ping msg => exact trivial
      | _ => exact absurd rfl hunwraps
  · refine forall₂_congr fun channels _ => forall₂_congr fun s _ => ?_
    rw [ConnectedServer.currentChannel_returns_iff]

instance (sys : System) (label : Host × Label) : Decidable (sys.NoUnwrapFails label) :=
  inferInstanceAs (Decidable (_ ∧ _))

/-- A server that tells us that somebody left whom it has not told us about. -/
theorem not_noUnwrapFails_userRemove :
    State.new .offline = .ok (some .idle) ∧
      ¬ AllAttempts next NoUnwrapFails (start .idle)
        ((login "localhost" ++ [Label.tcp (.packet (.userRemove { session := some 7 }))]).map
          (.online, ·)) :=
  ⟨rfl, by decide⟩

end System

end Mum
