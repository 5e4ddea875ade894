import Mum.Network.ChannelPackets
import Mum.State.Listing

/-!
# What `mumctl status` shows

`parse_state` of `mum/src/bin/mumctl.rs`.  The daemon knows us by our session;
what it sends has no session ids, and `parse_state` looks for the first channel
with a user whose name is the one we connected with.

So it finds our channel as long as our channel is shown, somebody in it has that
name, and nobody has it in a channel that may be listed before
(`ConnectedServer.findsUs_iff`).

`ownChannel_eq` makes `parse_state` a `find` over the channels as they are listed.  Siblings
with the same sort key are listed in the order of a hash map, so that which channels may come
before ours is a relation (`MayPrecede`).  For the converse, a hash order is chosen in which
such a channel does come first (`not_finds_of_mayPrecede`).
-/

namespace Mum

open Library Library.Eval Library.ParentChain Library.PathOrder Msgs
open Mumlib (CommandResponse)

/-- `Display` of a user: the name and one letter for each flag. -/
def Mumlib.User.display (user : Mumlib.User) : String :=
  user.name ++ " " ++ (if user.suppress then "s" else "") ++
    (if user.selfMute then "M" else "") ++ (if user.selfDeaf then "D" else "") ++
    (if user.mute then "m" else "") ++ (if user.deaf then "d" else "")

namespace Ctl

def indentation : String := "  "

/-- A user of the channel has the name. -/
def hasUser (name : String) (channel : Mumlib.Channel) : Bool :=
  channel.users.any fun e => e.name = name

/-- The channel that `parse_state` takes to be ours. -/
def ownChannel (serverState : Mumlib.Server) : Eval Mumlib.Channel := do
  let channels := serverState.channels
  let found ← channels.iter.find (hasUser serverState.username) (channels.preorder.length + 1)
  unwrap found

/-- The lines that are printed. -/
def parseState (serverState : Mumlib.Server) : Eval (List String) := do
  let own ← ownChannel serverState
  .ok ([
    "Connected to " ++ serverState.host ++ " as " ++ serverState.username,
    "Currently in " ++ own.name ++ " with " ++ toString (own.users.length - 1) ++
      " other client" ++ (if own.users.length = 2 then "" else "s") ++ ":",
    indentation ++ own.name] ++
    own.users.map fun user => indentation ++ indentation ++ user.display)

/-- Finding our channel is all that can fail. -/
theorem parseState_returns_iff {serverState : Mumlib.Server} :
    (∃ lines, parseState serverState = .ok lines) ↔
      ∃ channel, ownChannel serverState = .ok channel := by
  constructor
  · rintro ⟨lines, hlines⟩
    obtain ⟨channel, hchannel, -⟩ := bind_eq_ok.mp hlines
    exact ⟨channel, hchannel⟩
  · rintro ⟨channel, hchannel⟩
    rw [parseState, hchannel, ok_bind]
    exact ⟨_, rfl⟩

theorem ownChannel_eq (serverState : Mumlib.Server) :
    ownChannel serverState =
      unwrap (serverState.channels.preorder.find? (hasUser serverState.username)) := by
  have hfuel : serverState.channels.iter.remaining.length <
      serverState.channels.preorder.length + 1 := by
    rw [Mumlib.Channel.remaining_iter]
    exact Nat.lt_succ_self _
  rw [ownChannel, Mumlib.Iter.find_eq_ok _ hfuel, ok_bind, Mumlib.Channel.remaining_iter]

/-- The search in terms of a listing. -/
theorem ownChannel_eq_ok_iff {serverState : Mumlib.Server} {channels : Channels}
    {users : HashMap UInt32 User} {R : UInt32 → UInt32 → Prop}
    {nodes : List (List UInt32 × Mumlib.Channel)}
    (h : Listing channels users R serverState.channels nodes) {channel : Mumlib.Channel} :
    ownChannel serverState = .ok channel ↔
      ∃ walk, nodes.find? (fun node => hasUser serverState.username node.2) =
        some (walk, channel) := by
  rw [ownChannel_eq, unwrap_eq_ok, ← h.shows.map_snd, List.find?_map]
  constructor
  · intro hfind
    obtain ⟨⟨walk, found⟩, hnode, hfound⟩ := Option.map_eq_some_iff.mp hfind
    have hchannel : found = channel := hfound
    rw [hchannel] at hnode
    exact ⟨walk, hnode⟩
  · rintro ⟨walk, hfind⟩
    exact Option.map_eq_some_iff.mpr ⟨(walk, channel), hfind, rfl⟩

end Ctl

/-! ## Which channel is found -/

/-- Siblings are sorted by position and name. -/
def Channels.Sorted (channels : Channels) (x y : UInt32) : Prop :=
  channels.sortKey x ≤ channels.sortKey y

/-- In the state that is sent, `parse_state` finds the channel that we are in. -/
def ConnectedServer.Finds (s : ConnectedServer) (own : User) (serverState : Mumlib.Server) : Prop :=
  ∃ channel walk, Ctl.ownChannel serverState = .ok channel ∧
    ShownAt s.channels own.channel walk ∧
    ∀ nodes, Listing s.channels s.users s.channels.Sorted serverState.channels nodes →
      nodes.find? (fun node => Ctl.hasUser serverState.username node.2) = some (walk, channel)

/-- If we and our channel are known, `parse_state` finds our channel in every state
that may be sent. -/
def ConnectedServer.FindsUs (s : ConnectedServer) : Prop :=
  ∀ own, s.users.lookup s.sessionId = some own → own.channel ∈ s.channels →
    ∀ order serverState, s.toMumlib order = .ok serverState → s.Finds own serverState

/-- If we and our channel are known, and there is a tree to be sent: our channel is
in it, a user there has the name that we connected with, and nobody has it in a
channel that may be listed before ours. -/
def ConnectedServer.NamesUs (s : ConnectedServer) : Prop :=
  ∀ own, s.users.lookup s.sessionId = some own → own.channel ∈ s.channels →
    GoodChains s.channels.parentOf →
      (own.channel = 0 ∨ ∃ parent, s.channels.parentOf own.channel = some (some parent)) ∧
      (∃ session user, s.users.lookup session = some user ∧ user.channel = own.channel ∧
        user.name = s.username) ∧
      ∀ session user, s.users.lookup session = some user → user.name = s.username →
        user.channel ≠ own.channel → ¬ MayPrecede s.channels user.channel own.channel

namespace ConnectedServer

variable {s : ConnectedServer}

theorem toMumlib_eq_ok_iff {order : HashOrder} {serverState : Mumlib.Server} :
    s.toMumlib order = .ok serverState ↔
      intoChannel order s.channels s.users = .ok serverState.channels ∧
        serverState.welcomeText = s.welcomeText ∧ serverState.username = s.username ∧
        serverState.host = s.host := by
  unfold toMumlib
  rw [bind_eq_ok]
  constructor
  · rintro ⟨channels, hchannels, h⟩
    cases h
    exact ⟨hchannels, rfl, rfl, rfl⟩
  · rintro ⟨hchannels, hwelcome, husername, hhost⟩
    obtain ⟨channels, welcomeText, username, host⟩ := serverState
    cases hwelcome
    cases husername
    cases hhost
    exact ⟨channels, hchannels, rfl⟩

theorem goodChains_iff {channels : Channels} :
    GoodChains channels.parentOf ↔
      0 ∈ channels ∧ ∀ id ∈ channels, ∃ walk r, Leads channels.parentOf id walk r := by
  constructor
  · intro h
    exact ⟨Channels.parentOf_isSome.mp h.root,
      fun id hid => h.leads id (Channels.parentOf_isSome.mpr hid)⟩
  · rintro ⟨hzero, hleads⟩
    exact ⟨Channels.parentOf_isSome.mpr hzero,
      fun id hid => hleads id (Channels.parentOf_isSome.mp hid)⟩

/-- A node has a user of the name if a user in its channel has it. -/
theorem hasUser_iff {R : UInt32 → UInt32 → Prop} {tree : Mumlib.Channel}
    {nodes : List (List UInt32 × Mumlib.Channel)}
    (h : Listing s.channels s.users R tree nodes) {walk : List UInt32} {channel : Mumlib.Channel}
    (hmem : (walk, channel) ∈ nodes) {name : String} :
    Ctl.hasUser name channel ↔
      ∃ session user, s.users.lookup session = some user ∧ user.channel = endOf walk ∧
        user.name = name := by
  have husers := h.shows.users_eq _ hmem
  dsimp only at husers
  rw [Ctl.hasUser, husers, List.any_eq_true]
  constructor
  · rintro ⟨_, hmap, hname⟩
    obtain ⟨user, huser, rfl⟩ := List.mem_map.mp hmap
    obtain ⟨hvalue, hchannel⟩ := List.mem_filter.mp huser
    obtain ⟨⟨session, _⟩, hiter, rfl⟩ := List.mem_map.mp hvalue
    exact ⟨session, _, HashMap.mem_iter.mp hiter, by simpa using hchannel,
      of_decide_eq_true hname⟩
  · rintro ⟨session, user, hlookup, hchannel, hname⟩
    refine ⟨.ofUser user, List.mem_map_of_mem (List.mem_filter.mpr ⟨?_, ?_⟩), ?_⟩
    · exact List.mem_map.mpr ⟨(session, user), HashMap.mem_iter.mpr hlookup, rfl⟩
    · simpa using hchannel
    · exact decide_eq_true hname

/-- What is found in a listing, if the right users have the name. -/
theorem find_listing {tree : Mumlib.Channel} {nodes : List (List UInt32 × Mumlib.Channel)}
    (h : Listing s.channels s.users s.channels.Sorted tree nodes) {id : UInt32}
    {walk : List UInt32} (hwalk : ShownAt s.channels id walk) {name : String}
    (hnamed : ∃ session user, s.users.lookup session = some user ∧ user.channel = id ∧
      user.name = name)
    (hothers : ∀ session user, s.users.lookup session = some user → user.name = name →
      user.channel ≠ id → ¬ MayPrecede s.channels user.channel id) :
    ∃ channel, nodes.find? (fun node => Ctl.hasUser name node.2) = some (walk, channel) := by
  obtain ⟨node, hnode⟩ := hwalk.mem_walks h
  have hhas : Ctl.hasUser name node := by
    rw [hasUser_iff h hnode, hwalk.endOf_eq]
    exact hnamed
  have hsome : (nodes.find? fun node => Ctl.hasUser name node.2).isSome :=
    List.find?_isSome.mpr ⟨(walk, node), hnode, hhas⟩
  obtain ⟨⟨walk', channel⟩, hfind⟩ := Option.isSome_iff_exists.mp hsome
  obtain ⟨hfound, before, after, hsplit, hbefore⟩ := List.find?_eq_some_iff_append.mp hfind
  refine ⟨channel, ?_⟩
  have hmem : (walk', channel) ∈ nodes := by simp [hsplit]
  rw [hsplit, List.mem_append, List.mem_cons] at hnode
  rcases hnode with hnode | hnode | hnode
  · -- nothing before it has the user
    have hnot := hbefore _ hnode
    rw [hhas] at hnot
    cases hnot
  · cases hnode
    exact hfind
  · exfalso
    have hpairwise := h.shows.pairwise
    rw [hsplit, List.pairwise_append, List.pairwise_cons] at hpairwise
    have horder := hpairwise.2.1.1 _ hnode
    obtain ⟨hne, hprecede⟩ :=
      Listing.mayPrecede h (List.mem_map_of_mem hmem) hwalk horder
    obtain ⟨session, user, hlookup, hchannel, hname⟩ := (hasUser_iff h hmem).mp hfound
    rw [← hchannel] at hne hprecede
    exact hothers session user hlookup hname hne hprecede

/-- A user with the name in a channel that is listed before ours is found first. -/
theorem not_find_listing {R : UInt32 → UInt32 → Prop} {tree : Mumlib.Channel}
    {nodes : List (List UInt32 × Mumlib.Channel)} (h : Listing s.channels s.users R tree nodes)
    {id id' : UInt32} {walk walk' : List UInt32} (hwalk : ShownAt s.channels id walk)
    (hwalk' : ShownAt s.channels id' walk') (hne : id ≠ id') (horder : ¬ Before R walk' walk)
    {session : UInt32} {user : User} (huser : s.users.lookup session = some user)
    (hchannel : user.channel = id) {channel : Mumlib.Channel} :
    nodes.find? (fun node => Ctl.hasUser user.name node.2) ≠ some (walk', channel) := by
  intro hfind
  obtain ⟨-, before, after, hsplit, hbefore⟩ := List.find?_eq_some_iff_append.mp hfind
  obtain ⟨node, hnode⟩ := hwalk.mem_walks h
  have hhas : Ctl.hasUser user.name node :=
    (hasUser_iff h hnode).mpr ⟨session, user, huser, hchannel.trans hwalk.endOf_eq.symm, rfl⟩
  rw [hsplit, List.mem_append, List.mem_cons] at hnode
  rcases hnode with hnode | hnode | hnode
  · have hnot := hbefore _ hnode
    rw [hhas] at hnot
    cases hnot
  · cases hnode
    exact hne (hwalk.endOf_eq.symm.trans hwalk'.endOf_eq)
  · have hpairwise := h.shows.pairwise
    rw [hsplit, List.pairwise_append, List.pairwise_cons] at hpairwise
    exact horder (hpairwise.2.1.1 _ hnode)

/-- Some iteration order lists a channel that may precede ours before ours. -/
theorem not_finds_of_mayPrecede {own user : User} {session : UInt32}
    (hchains : GoodChains s.channels.parentOf) (huser : s.users.lookup session = some user)
    (hname : user.name = s.username) (hne : user.channel ≠ own.channel)
    (hprecede : MayPrecede s.channels user.channel own.channel) :
    ∃ order serverState, s.toMumlib order = .ok serverState ∧ ¬ s.Finds own serverState := by
  obtain ⟨walk, walk', hwalk, hwalk', hbefore⟩ := hprecede
  have hrefuted : ∀ {order : HashOrder} {R : UInt32 → UInt32 → Prop},
      order.Sorts s.channels R → (∀ x y, R x y → s.channels.Sorted x y) →
      ¬ Before R walk' walk →
      ∃ order serverState, s.toMumlib order = .ok serverState ∧ ¬ s.Finds own serverState := by
    intro order R hsorts hR horder
    obtain ⟨tree, htree⟩ :=
      (intoChannel_returns_iff order s.channels s.users).mpr (goodChains_iff.mp hchains)
    obtain ⟨nodes, hnodes⟩ := intoChannel_listing hsorts htree
    refine ⟨order, ⟨tree, s.welcomeText, s.username, s.host⟩,
      toMumlib_eq_ok_iff.mpr ⟨htree, rfl, rfl, rfl⟩, ?_⟩
    rintro ⟨channel, shown, -, hshown, hfind⟩
    have hfind := hfind nodes (hnodes.mono hR)
    rw [hshown.unique hwalk'] at hfind
    dsimp only at hfind
    rw [← hname] at hfind
    exact not_find_listing hnodes hwalk hwalk' hne horder huser rfl hfind
  generalize hw : walk = w at hbefore
  generalize hw' : walk' = w' at hbefore
  cases hbefore with
  | above hbelow =>
      -- a channel is listed before everything below it
      refine hrefuted (HashOrder.insertion.sorts s.channels) (fun _ _ h => h) ?_
      rw [hw, hw']
      exact not_before_of_prefix (List.prefix_append _ _)
  | @aside above below below' x y hsiblings hle =>
      -- the first of the two siblings may be the first in the iteration
      refine hrefuted (HashOrder.sorts_first x s.channels) (fun _ _ h => h.1) fun hback => ?_
      rw [hw, hw'] at hback
      have hyx := hback.of_parted (Ne.symm hsiblings)
      exact absurd (hyx.2 rfl (Ne.symm hsiblings)) (not_lt_of_ge hle)

/-- **Finding our channel.**  `parse_state` finds our channel in every state that
may be sent exactly when our channel is shown, a user in it has the name that we
connected with, and nobody has it in a channel that may be listed before. -/
theorem findsUs_iff : s.FindsUs ↔ s.NamesUs := by
  refine forall_congr' fun own => forall_congr' fun hown => forall_congr' fun hchannel => ?_
  constructor
  · intro hfinds hchains
    obtain ⟨tree, htree⟩ := (intoChannel_returns_iff .insertion s.channels s.users).mpr
      (goodChains_iff.mp hchains)
    obtain ⟨nodes, hnodes⟩ := intoChannel_listing (HashOrder.insertion.sorts s.channels) htree
    obtain ⟨channel, walk, -, hwalk, hfind⟩ := hfinds .insertion
      ⟨tree, s.welcomeText, s.username, s.host⟩ (toMumlib_eq_ok_iff.mpr ⟨htree, rfl, rfl, rfl⟩)
    have hfind := hfind nodes hnodes
    refine ⟨(ShownAt.exists_iff (goodChains_iff.mp hchains).2 hchannel).mp ⟨walk, hwalk⟩, ?_, ?_⟩
    · have hhas : Ctl.hasUser s.username channel := by simpa using List.find?_some hfind
      rw [hasUser_iff hnodes (List.mem_of_find?_eq_some hfind), hwalk.endOf_eq] at hhas
      exact hhas
    · intro session user huser hname hne hprecede
      obtain ⟨order, serverState, hsent, hnot⟩ :=
        not_finds_of_mayPrecede hchains huser hname hne hprecede
      exact hnot (hfinds order serverState hsent)
  · intro hnames order serverState hsent
    obtain ⟨htree, -, husername, -⟩ := toMumlib_eq_ok_iff.mp hsent
    have hchains : GoodChains s.channels.parentOf :=
      goodChains_iff.mpr ((intoChannel_returns_iff order s.channels s.users).mp ⟨_, htree⟩)
    obtain ⟨hshown, hnamed, hothers⟩ := hnames hchains
    obtain ⟨walk, hwalk⟩ :=
      (ShownAt.exists_iff (goodChains_iff.mp hchains).2 hchannel).mpr hshown
    rw [← husername] at hnamed hothers
    obtain ⟨nodes, hnodes⟩ := intoChannel_listing (order.sorts s.channels) htree
    obtain ⟨channel, hfind⟩ := find_listing hnodes hwalk hnamed hothers
    have hfound := (Ctl.ownChannel_eq_ok_iff hnodes).mpr ⟨walk, hfind⟩
    refine ⟨channel, walk, hfound, hwalk, fun nodes' hnodes' => ?_⟩
    -- every listing is one of the same tree
    obtain ⟨channel', hfind'⟩ := find_listing hnodes' hwalk hnamed hothers
    have hfound' := (Ctl.ownChannel_eq_ok_iff hnodes').mpr ⟨walk, hfind'⟩
    cases hfound.symm.trans hfound'
    exact hfind'

end ConnectedServer

end Mum
