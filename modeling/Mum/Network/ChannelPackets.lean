import Mum.Library.KeyedStore
import Mum.Network.Tcp
import Mum.State.Identifiers

/-!
# The channel map of a connection

What the `ChannelState` and `ChannelRemove` packets of one connection leave in
the channel map, and what can then be done with it.  The packets are handled by
`listen`, the login falls anywhere between them.

The map is a keyed store: what it holds for a channel is read off the packets
with the library.  After the login `ChannelState` packets are dropped, so the map
is that of all packets only if the late ones bring nothing new
(`shown_removes_iff`).  No packet is checked, so the parent chains are good only
if the packets make them so (`parentOf_applyPackets`).

Whether the chains are good is a question about the parents alone
(`ConnectedServer.lookupsReturn_iff`), and these are read off the packets as a function
(`packetParent`), with no map in between.
-/

namespace Mum

open Library Library.Eval Library.KeyedStore Library.ParentChain Msgs

/-- A packet about a channel. -/
inductive ChannelPacket
  | state (msg : ChannelState)
  | remove (msg : ChannelRemove)
deriving DecidableEq, Repr

namespace ChannelPacket

def toClientbound : ChannelPacket → Clientbound
  | state msg => .channelState msg
  | remove msg => .channelRemove msg

/-- The packet in a channel map that takes it. -/
def apply (channels : Channels) : ChannelPacket → Channels
  | state msg => channelState msg channels
  | remove msg => channelRemove msg channels

def isRemove : ChannelPacket → Bool
  | state _ => false
  | remove _ => true

/-- What the packet does to the map; nothing without a channel id. -/
def op : ChannelPacket → Option (Op UInt32 ChannelState)
  | state msg => msg.channelId.map (.put · msg)
  | remove msg => msg.channelId.map .del

end ChannelPacket

def applyPackets (channels : Channels) (packets : List ChannelPacket) : Channels :=
  packets.foldl ChannelPacket.apply channels

def channelOps (packets : List ChannelPacket) : List (Op UInt32 ChannelState) :=
  packets.filterMap ChannelPacket.op

/-- How `ChannelState` packets create and change channels. -/
def channelPolicy : Policy ChannelState Channel := ⟨Channel.new, Channel.parseChannelState⟩

theorem applyPackets_eq (channels : Channels) (packets : List ChannelPacket) :
    applyPackets channels packets = applyAll channelPolicy channels (channelOps packets) := by
  refine foldl_eq_applyAll channelPolicy (fun channels packet => ?_) channels packets
  cases packet with
  | state msg =>
      rw [ChannelPacket.apply, ChannelPacket.op, channelState]
      cases msg.channelId <;> rfl
  | remove msg =>
      rw [ChannelPacket.apply, ChannelPacket.op, channelRemove]
      cases msg.channelId <;> rfl

theorem applyPackets_append (channels : Channels) (before after : List ChannelPacket) :
    applyPackets channels (before ++ after) = applyPackets (applyPackets channels before) after :=
  List.foldl_append

/-- What packets leave under an id. -/
theorem lookup_applyPackets (channels : Channels) (packets : List ChannelPacket) (id : UInt32) :
    (applyPackets channels packets).lookup id =
      value channelPolicy
        (if deleted id (channelOps packets) then none else channels.lookup id)
        (since id (channelOps packets)) := by
  rw [applyPackets_eq, lookup_applyAll]

/-! ## Packets in `listen` -/

/-- Handles packets one after the other. -/
def handlePackets (host : Host) : State → Listen → List Clientbound → Eval (State × Listen)
  | state, listen, [] => .ok (state, listen)
  | state, listen, packet :: rest => do
      let handled ← handlePacket host state listen packet
      handlePackets host handled.state handled.listen rest

theorem handlePackets_append (host : Host) (state : State) (listen : Listen)
    (packets packets' : List Clientbound) :
    handlePackets host state listen (packets ++ packets') =
      handlePackets host state listen packets >>= fun next =>
        handlePackets host next.1 next.2 packets' := by
  induction packets generalizing state listen with
  | nil => rfl
  | cons packet rest ih =>
      rw [List.cons_append, handlePackets, handlePackets]
      cases handlePacket host state listen packet with
      | error e => rfl
      | ok handled => exact ih ..

/-- While we are connecting, all packets count. -/
theorem handlePackets_connecting (host : Host) (state : State) (listen : Listen)
    (sb : ConnectingServer) (packets : List ChannelPacket) :
    handlePackets host { state with server := .connecting sb } listen
        (packets.map ChannelPacket.toClientbound) =
      .ok ({ state with
        server := .connecting { sb with channels := applyPackets sb.channels packets } },
        listen) := by
  induction packets generalizing sb with
  | nil => rfl
  | cons packet rest ih =>
      cases packet with
      | state msg => exact ih (sb.channelState msg)
      | remove msg => exact ih (sb.channelRemove msg)

/-- While we are connected, only removals count. -/
theorem handlePackets_connected (host : Host) (state : State) (listen : Listen)
    (s : ConnectedServer) (packets : List ChannelPacket) :
    handlePackets host { state with server := .connected s } listen
        (packets.map ChannelPacket.toClientbound) =
      .ok ({ state with server := .connected { s with
        channels := applyPackets s.channels (packets.filter ChannelPacket.isRemove) } },
        listen) := by
  induction packets generalizing s with
  | nil => rfl
  | cons packet rest ih =>
      cases packet with
      | state msg => exact ih s
      | remove msg => exact ih (s.channelRemove msg)

/-- The login, once the server has set up the encryption. -/
theorem handlePacket_serverSync (host : Host) {state : State} {listen : Listen}
    {sb : ConnectingServer} {crypt : ClientCryptState} (hserver : state.server = .connecting sb)
    (hcrypt : listen.cryptState = some crypt) (sync : ServerSync) :
    ∃ handled, handlePacket host state listen (.serverSync sync) = .ok handled ∧
      handled.state.server = .connected (sb.serverSync sync) := by
  obtain ⟨audioOutput, hsync, -⟩ := State.serverSync_eq_ok hserver sync
  rw [handlePacket, hcrypt, unwrap_some, hsync]
  cases listen.cryptStateSender with
  | true => exact ⟨_, rfl, rfl⟩
  | false => exact ⟨_, rfl, rfl⟩

/-- The packets of a connection: some before the login, some after it. -/
def connectionPackets (before : List ChannelPacket) (sync : ServerSync)
    (after : List ChannelPacket) : List Clientbound :=
  before.map ChannelPacket.toClientbound ++
    .serverSync sync :: after.map ChannelPacket.toClientbound

/-- What a connection leaves: everything before the login and the removals
after it. -/
theorem handlePackets_connection (host : Host) {state : State} {listen : Listen}
    {sb : ConnectingServer} {crypt : ClientCryptState} (hserver : state.server = .connecting sb)
    (hcrypt : listen.cryptState = some crypt) (before : List ChannelPacket) (sync : ServerSync)
    (after : List ChannelPacket) :
    ∃ final listen' s,
      handlePackets host state listen (connectionPackets before sync after) =
        .ok (final, listen') ∧
      final.server = .connected s ∧
      s.channels = applyPackets sb.channels (before ++ after.filter ChannelPacket.isRemove) := by
  have hstate : state = { state with server := .connecting sb } := by rw [← hserver]
  let atLogin : ConnectingServer := { sb with channels := applyPackets sb.channels before }
  let login : State := { state with server := .connecting atLogin }
  obtain ⟨handled, hhandled, hconnected⟩ :=
    handlePacket_serverSync host (show login.server = .connecting atLogin from rfl) hcrypt sync
  have hlogin : handled.state =
      { handled.state with server := .connected (atLogin.serverSync sync) } := by
    rw [← hconnected]
  let s : ConnectedServer := { atLogin.serverSync sync with
    channels := applyPackets atLogin.channels (after.filter ChannelPacket.isRemove) }
  refine ⟨{ handled.state with server := .connected s }, handled.listen, s, ?_, rfl,
    (applyPackets_append ..).symm⟩
  rw [connectionPackets, handlePackets_append, hstate, handlePackets_connecting, ok_bind,
    handlePackets, hhandled, ok_bind, hlogin]
  exact handlePackets_connected host handled.state handled.listen (atLogin.serverSync sync) after

/-! ## The same map on both sides of the login -/

/-- What the channel lists show about a channel. -/
def Channel.shown (channel : Channel) :
    String × Option UInt32 × Int × Option String × UInt32 :=
  (channel.name, channel.parent, channel.position, channel.description, channel.maxUsers)

/-- The late packets carry nothing new about the channel. -/
structure Repeats (channel : Channel) (late : List ChannelState) : Prop where
  name : ∀ name ∈ lastCarried ChannelState.name late, name = channel.name
  parent : ∀ parent ∈ lastCarried ChannelState.parent late, some parent = channel.parent
  position : ∀ position ∈ lastCarried ChannelState.position late, position = channel.position
  description : ∀ description ∈ lastCarried ChannelState.description late,
    some description = channel.description
  maxUsers : ∀ maxUsers ∈ lastCarried ChannelState.maxUsers late, maxUsers = channel.maxUsers

/-- The packets after the login say nothing new about the id: it gets no
`ChannelState` after its last removal, or it was known at the login, is not
removed, and its `ChannelState`s repeat what was known. -/
def Settled (atLogin : Channels) (after : List ChannelPacket) (id : UInt32) : Prop :=
  since id (channelOps after) = [] ∨
    deleted id (channelOps after) = false ∧
      ∃ channel, atLogin.lookup id = some channel ∧ Repeats channel (since id (channelOps after))

theorem getD_eq_iff {α : Type} {o : Option α} {a : α} : o.getD a = a ↔ ∀ b ∈ o, b = a := by
  cases o <;> simp

theorem getD_map_some_eq_iff {α : Type} {o a : Option α} :
    (o.map some).getD a = a ↔ ∀ b ∈ o, some b = a := by
  cases o <;> simp

/-- What later packets make of a known channel. -/
theorem value_known (channel : Channel) (late : List ChannelState) :
    ∃ channel', value channelPolicy (some channel) late = some channel' ∧
      channel'.name = (lastCarried ChannelState.name late).getD channel.name ∧
      channel'.parent = ((lastCarried ChannelState.parent late).map some).getD channel.parent ∧
      channel'.position = (lastCarried ChannelState.position late).getD channel.position ∧
      channel'.description =
        ((lastCarried ChannelState.description late).map some).getD channel.description ∧
      channel'.maxUsers = (lastCarried ChannelState.maxUsers late).getD channel.maxUsers := by
  have hname : ∃ channel', value channelPolicy (some channel) late = some channel' ∧
      channel'.name = (lastCarried ChannelState.name late).getD channel.name :=
    value_some_field (fun _ _ => rfl) channel late
  obtain ⟨channel', hvalue, hname⟩ := hname
  -- every field is read off the same value
  have hfield : ∀ {A : Type} {field : Channel → A} {carried : ChannelState → Option A},
      (∀ v m, field (channelPolicy.update v m) = (carried m).getD (field v)) →
      field channel' = (lastCarried carried late).getD (field channel) := by
    intro A field carried hupdate
    obtain ⟨_, hvalue', h⟩ := value_some_field hupdate channel late
    cases hvalue.symm.trans hvalue'
    exact h
  have hor : ∀ {A : Type} (o o' : Option A), o.or o' = (o.map some).getD o' := by
    intro A o o'
    cases o <;> rfl
  refine ⟨channel', hvalue, hname, ?_, hfield fun _ _ => rfl, ?_, hfield fun _ _ => rfl⟩
  · rw [← lastCarried_map]
    exact hfield fun _ _ => hor _ _
  · rw [← lastCarried_map]
    exact hfield fun _ _ => hor _ _

/-- A known channel looks the same after packets that carry nothing new. -/
theorem shown_value_iff (channel : Channel) (late : List ChannelState) :
    (value channelPolicy (some channel) late).map Channel.shown = some channel.shown ↔
      Repeats channel late := by
  obtain ⟨channel', hvalue, hname, hparent, hposition, hdescription, hmaxUsers⟩ :=
    value_known channel late
  rw [hvalue, Option.map_some, Option.some.injEq, Channel.shown, Channel.shown, hname, hparent,
    hposition, hdescription, hmaxUsers]
  simp only [Prod.mk.injEq, getD_map_some_eq_iff]
  simp only [getD_eq_iff]
  constructor
  · rintro ⟨name, parent, position, description, maxUsers⟩
    exact ⟨name, parent, position, description, maxUsers⟩
  · rintro ⟨name, parent, position, description, maxUsers⟩
    exact ⟨name, parent, position, description, maxUsers⟩

theorem channelOps_removes (packets : List ChannelPacket) :
    channelOps (packets.filter ChannelPacket.isRemove) =
      (channelOps packets).filter Op.isDel := by
  unfold channelOps
  induction packets with
  | nil => rfl
  | cons packet rest ih =>
      cases packet with
      | state msg =>
          cases hid : msg.channelId <;>
            simp [ChannelPacket.isRemove, ChannelPacket.op, hid, Op.isDel, ih]
      | remove msg =>
          cases hid : msg.channelId <;>
            simp [List.filter_cons, ChannelPacket.isRemove, ChannelPacket.op, hid, Op.isDel, ih]

/-- Dropping the late `ChannelState`s makes no difference for a settled id. -/
theorem shown_removes_iff (atLogin : Channels) (after : List ChannelPacket) (id : UInt32) :
    ((applyPackets atLogin (after.filter ChannelPacket.isRemove)).lookup id).map Channel.shown =
        ((applyPackets atLogin after).lookup id).map Channel.shown ↔
      Settled atLogin after id := by
  rw [lookup_applyPackets, lookup_applyPackets, channelOps_removes, since_dels, deleted_dels,
    Settled, value]
  cases hlate : since id (channelOps after) with
  | nil => simp [value]
  | cons msg rest =>
      -- a channel that only late packets create is missed
      have hcreated : none ≠ (value channelPolicy none (msg :: rest)).map Channel.shown := by
        rw [ne_comm, ne_eq, Option.map_eq_none_iff, value_none_eq_none]
        exact List.cons_ne_nil msg rest
      cases hdeleted : deleted id (channelOps after) with
      | true => simpa using hcreated
      | false =>
          cases hlookup : atLogin.lookup id with
          | none => simpa using hcreated
          | some channel => simpa using eq_comm.trans (shown_value_iff channel (msg :: rest))

/-- The connection leaves the channels of all its packets. -/
def SameChannels (host : Host) (state : State) (listen : Listen) (sb : ConnectingServer)
    (before : List ChannelPacket) (sync : ServerSync) (after : List ChannelPacket) : Prop :=
  ∃ final listen' s,
    handlePackets host state listen (connectionPackets before sync after) = .ok (final, listen') ∧
    final.server = .connected s ∧
    ∀ id, (s.channels.lookup id).map Channel.shown =
      ((applyPackets sb.channels (before ++ after)).lookup id).map Channel.shown

theorem sameChannels_iff_lookup (host : Host) {state : State} {listen : Listen}
    {sb : ConnectingServer} {crypt : ClientCryptState} (hserver : state.server = .connecting sb)
    (hcrypt : listen.cryptState = some crypt) (before : List ChannelPacket) (sync : ServerSync)
    (after : List ChannelPacket) :
    SameChannels host state listen sb before sync after ↔
      ∀ id, ((applyPackets sb.channels
          (before ++ after.filter ChannelPacket.isRemove)).lookup id).map Channel.shown =
        ((applyPackets sb.channels (before ++ after)).lookup id).map Channel.shown := by
  obtain ⟨final, listen', s, hpackets, hfinal, hchannels⟩ :=
    handlePackets_connection host hserver hcrypt before sync after
  rw [← hchannels]
  constructor
  · rintro ⟨final', _, s', hpackets', hfinal', hsame⟩
    cases hpackets.symm.trans hpackets'
    cases hfinal.symm.trans hfinal'
    exact hsame
  · exact fun hsame => ⟨final, listen', s, hpackets, hfinal, hsame⟩

/-- **The channel map misses late news.**  A connection leaves the channels of
all its packets if and only if every id is settled at the login. -/
theorem sameChannels_iff (host : Host) {state : State} {listen : Listen} {sb : ConnectingServer}
    {crypt : ClientCryptState} (hserver : state.server = .connecting sb)
    (hcrypt : listen.cryptState = some crypt) (before : List ChannelPacket) (sync : ServerSync)
    (after : List ChannelPacket) :
    SameChannels host state listen sb before sync after ↔
      ∀ id, Settled (applyPackets sb.channels before) after id := by
  rw [sameChannels_iff_lookup host hserver hcrypt]
  refine forall_congr' fun id => ?_
  rw [applyPackets_append, applyPackets_append]
  exact shown_removes_iff ..

/-- A login has begun and the server has sent the key of the encryption. -/
def keyReceived : Listen :=
  let block : Block := ⟨List.replicate 16 0, rfl⟩
  { Listen.new with cryptState := some ⟨block, block, block⟩ }

/-- A server that we log in to. -/
def localhost : ConnectingServer := .new "localhost" "me" none

theorem sameChannels_iff_remove :
    SameChannels .offline (.fresh (.connecting localhost) .connecting) keyReceived localhost
      [.state { channelId := some 0, name := some "Root" },
        .state { channelId := some 1, parent := some 0, name := some "Lobby" }] {}
      [.remove { channelId := some 1 }] :=
  (sameChannels_iff .offline rfl rfl _ {} _).mpr fun _ => Or.inl rfl

/-- A channel that is renamed after the login keeps its old name. -/
theorem not_sameChannels_rename :
    ¬ SameChannels .offline (.fresh (.connecting localhost) .connecting) keyReceived localhost
      [.state { channelId := some 0, name := some "Root" }] {}
      [.state { channelId := some 0, name := some "Renamed" }] := by
  rw [sameChannels_iff_lookup .offline rfl rfl]
  intro hsame
  exact absurd (hsame 0) (by decide)

/-! ## Which maps can be walked -/

/-- Every key that is there has a good chain, and `0` is there. -/
structure GoodChains (parent : UInt32 → Option (Option UInt32)) : Prop where
  root : (parent 0).isSome
  leads : ∀ id, (parent id).isSome → ∃ walk r, Leads parent id walk r

/-- Everything that follows parents in the channel map returns. -/
structure ConnectedServer.LookupsReturn (s : ConnectedServer) : Prop where
  path : ∀ id channel, s.channels.lookup id = some channel → Returns (channel.path s.channels)
  channelName : ∀ toLowercase name, Returns (s.channelName toLowercase name)
  intoChannel : ∀ order users, Returns (intoChannel order s.channels users)

theorem ConnectedServer.lookupsReturn_iff (s : ConnectedServer) :
    s.LookupsReturn ↔ GoodChains s.channels.parentOf := by
  constructor
  · intro h
    obtain ⟨hroot, hleads⟩ :=
      (intoChannel_returns_iff .insertion s.channels ∅).mp (h.intoChannel .insertion ∅)
    exact ⟨Channels.parentOf_isSome.mpr hroot,
      fun id hid => hleads id (Channels.parentOf_isSome.mp hid)⟩
  · intro h
    have hleads : ∀ id ∈ s.channels, ∃ walk r, Leads s.channels.parentOf id walk r :=
      fun id hid => h.leads id (Channels.parentOf_isSome.mpr hid)
    have hpath : ∀ id channel, s.channels.lookup id = some channel →
        Returns (channel.path s.channels) := by
      intro id channel hchannel
      exact (Channels.path_returns_iff hchannel).mpr
        (hleads id (AList.lookup_isSome.mp (Option.isSome_of_mem hchannel)))
    exact {
      path := hpath
      channelName := channelName_returns hpath
      intoChannel := fun order users => (intoChannel_returns_iff order s.channels users).mpr
        ⟨Channels.parentOf_isSome.mp h.root, hleads⟩ }

/-- The parent that packets give an id: the one that was carried last since the
id was last removed. -/
def packetParent (ops : List (Op UInt32 ChannelState)) (id : UInt32) : Option (Option UInt32) :=
  if since id ops = [] then none else some (lastCarried ChannelState.parent (since id ops))

theorem parentOf_applyPackets (packets : List ChannelPacket) (id : UInt32) :
    Channels.parentOf (applyPackets ∅ packets) id = packetParent (channelOps packets) id := by
  have hparent : (value channelPolicy none (since id (channelOps packets))).map Channel.parent =
      if since id (channelOps packets) = [] then none
      else some ((lastCarried (fun msg => msg.parent.map some)
        (since id (channelOps packets))).getD none) := by
    refine value_none_field (fun msg => ?_) (fun channel msg => ?_) _
    · cases h : msg.parent <;> simp [channelPolicy, Channel.new, h]
    · cases h : msg.parent <;> simp [channelPolicy, Channel.parseChannelState, h]
  have hgetD : ∀ o : Option UInt32, (o.map some).getD none = o := by
    intro o
    cases o <;> rfl
  rw [lastCarried_map, hgetD] at hparent
  rw [Channels.parentOf, lookup_applyPackets, packetParent, ← hparent]
  cases deleted id (channelOps packets) <;> rfl

/-- After the packets of a connection, everything that follows parents returns,
whatever the iteration order of the map. -/
def LookupsReturnAfter (host : Host) (state : State) (listen : Listen)
    (packets : List Clientbound) : Prop :=
  ∃ final listen' s,
    handlePackets host state listen packets = .ok (final, listen') ∧
    final.server = .connected s ∧
    ∀ channels : Channels, (∀ id, channels.lookup id = s.channels.lookup id) →
      ConnectedServer.LookupsReturn { s with channels := channels }

/-- **Nothing checks the parents.**  After `ChannelState`s and `ChannelRemove`s
before the login and `ChannelRemove`s after it, everything that follows parents
returns if and only if the packets leave channel `0` and good chains. -/
theorem lookupsReturnAfter_iff (host : Host) {state : State} {listen : Listen}
    {sb : ConnectingServer} {crypt : ClientCryptState} (hserver : state.server = .connecting sb)
    (hempty : sb.channels = ∅) (hcrypt : listen.cryptState = some crypt)
    (before : List ChannelPacket) (sync : ServerSync) (after : List ChannelRemove) :
    LookupsReturnAfter host state listen
        (connectionPackets before sync (after.map .remove)) ↔
      GoodChains (packetParent (channelOps (before ++ after.map .remove))) := by
  obtain ⟨final, listen', s, hpackets, hfinal, hchannels⟩ :=
    handlePackets_connection host hserver hcrypt before sync (after.map .remove)
  have hremoves : (after.map ChannelPacket.remove).filter ChannelPacket.isRemove =
      after.map .remove := by
    rw [List.filter_eq_self]
    intro packet hpacket
    obtain ⟨msg, -, rfl⟩ := List.mem_map.mp hpacket
    rfl
  rw [hremoves, hempty] at hchannels
  have hparent : ∀ channels : Channels, (∀ id, channels.lookup id = s.channels.lookup id) →
      channels.parentOf = packetParent (channelOps (before ++ after.map .remove)) := by
    intro channels hsame
    funext id
    rw [← parentOf_applyPackets, ← hchannels, Channels.parentOf, Channels.parentOf, hsame]
  constructor
  · rintro ⟨final', _, s', hpackets', hfinal', h⟩
    cases hpackets.symm.trans hpackets'
    cases hfinal.symm.trans hfinal'
    have hchains := (ConnectedServer.lookupsReturn_iff _).mp (h s.channels fun _ => rfl)
    rwa [hparent s.channels fun _ => rfl] at hchains
  · intro hchains
    refine ⟨final, listen', s, hpackets, hfinal, fun channels hsame => ?_⟩
    rw [ConnectedServer.lookupsReturn_iff, hparent channels hsame]
    exact hchains

/-- A root, a channel below it, and two channels below that. -/
def twoCorners : List ChannelPacket :=
  [.state { channelId := some 0, name := some "Root" },
    .state { channelId := some 1, parent := some 0, name := some "Lobby" },
    .state { channelId := some 2, parent := some 1, name := some "Corner" },
    .state { channelId := some 3, parent := some 1, name := some "Other" }]

/-- The packets before the login, and then one of the corners is removed. -/
def cornerRemoved : List ChannelPacket :=
  twoCorners ++ [{ channelId := some 3 }].map .remove

theorem goodChains_cornerRemoved : GoodChains (packetParent (channelOps cornerRemoved)) := by
  have hparent : packetParent (channelOps cornerRemoved) =
      Channels.parentOf (applyPackets ∅ cornerRemoved) :=
    funext fun id => (parentOf_applyPackets cornerRemoved id).symm
  rw [hparent]
  have hzero : Leads (Channels.parentOf (applyPackets ∅ cornerRemoved)) 0 [] 0 :=
    .top (by decide)
  have hone := Leads.up (k := 1) (by decide) hzero
  have htwo := Leads.up (k := 2) (by decide) hone
  refine ⟨by decide, fun id hid => ?_⟩
  have hkeys : id ∈ [2, 1, 0] := AList.mem_keys.mp (Channels.parentOf_isSome.mp hid)
  simp only [List.mem_cons, List.not_mem_nil, or_false] at hkeys
  rcases hkeys with rfl | rfl | rfl
  exacts [⟨_, _, htwo⟩, ⟨_, _, hone⟩, ⟨_, _, hzero⟩]

theorem lookupsReturnAfter_iff_twoCorners :
    LookupsReturnAfter .offline (.fresh (.connecting localhost) .connecting) keyReceived
      (connectionPackets twoCorners {} ([{ channelId := some 3 }].map .remove)) :=
  (lookupsReturnAfter_iff .offline rfl rfl rfl twoCorners {} _).mpr goodChains_cornerRemoved

/-- A root, and a channel whose parent is not there. -/
def danglingParent : List ChannelPacket :=
  [.state { channelId := some 0, name := some "Root" },
    .state { channelId := some 1, parent := some 2, name := some "Lobby" }]

/-- A channel whose parent the server never sends breaks every lookup. -/
theorem not_lookupsReturnAfter_dangling :
    ¬ LookupsReturnAfter .offline (.fresh (.connecting localhost) .connecting) keyReceived
      (connectionPackets danglingParent {} []) := by
  rintro ⟨final, listen', s, hpackets, hfinal, hreturns⟩
  have hserver : (State.fresh (.connecting localhost) .connecting).server =
      .connecting localhost := rfl
  have hcrypt : keyReceived.cryptState.isSome := rfl
  obtain ⟨crypt, hcrypt⟩ := Option.isSome_iff_exists.mp hcrypt
  obtain ⟨final', _, s', hpackets', hfinal', hchannels⟩ :=
    handlePackets_connection .offline hserver hcrypt danglingParent {} []
  cases hpackets.symm.trans hpackets'
  cases hfinal.symm.trans hfinal'
  have hnames := (hreturns s.channels fun _ => rfl).channelName id "Lobby"
  have hpanic : s.channelName id "Lobby" = .error .panic := by
    rw [ConnectedServer.channelName, ConnectedServer.channelsEndingWith, hchannels]
    rfl
  rw [hpanic] at hnames
  exact not_returns_error _ hnames

end Mum
