import Mum.State.ProtoTree

/-!
# The channel tree is the channel map

`intoChannel` adds the walks in the order in which the channel map is iterated,
so a node may first appear as a placeholder on the way to a descendant.  The
trie library says what the finished `ProtoTree` holds at a path: the channel
whose walk the path is (`at?_protoTree`), and nothing off the walks.  Since the
beginning of a walk is itself a walk, no placeholder is left
(`channel_isSome_of_at?`), which is what the conversion needs to return.

`Represents` is the relation between a map and a tree of `mumlib` channels that
follows from the root down, node by node (`represents_of_ofProtoTree`).

Both directions of `intoChannel_returns_iff` go through the walks: the tree is built if they
all lead to a root (`walksOf_returns_iff`), and then the conversion finds a channel at each
node.
-/

namespace Mum

open Library Library.Eval Library.ParentChain
open scoped List

/-! ## Trees and their nodes -/

/-- The channel map is a tree rooted at `0`: the root is there and has no
parent, and every parent chain stays in the map and ends at the root. -/
structure Channels.IsTree (channels : Channels) : Prop where
  root : channels.parentOf 0 = some none
  leads : ∀ id ∈ channels, ∃ walk, Leads channels.parentOf id walk 0

/-- `tree` shows the channel `id` with everything below it; `ids` are the ids of
its nodes in pre-order. -/
inductive Represents (channels : Channels) (users : HashMap UInt32 User) :
    UInt32 → Mumlib.Channel → List UInt32 → Prop
  | node {id : UInt32} {channel : Channel} {tree : Mumlib.Channel}
      {kids : List (UInt32 × Mumlib.Channel × List UInt32)}
      (hchannel : channels.lookup id = some channel)
      (hname : tree.name = channel.name)
      (hdescription : tree.description = channel.description)
      (hmaxUsers : tree.maxUsers = channel.maxUsers)
      (husers : tree.users =
        (users.values.filter fun user => user.channel = id).map Mumlib.User.ofUser)
      (hchildren : tree.children = kids.map fun kid => kid.2.1)
      (hparent : ∀ kid ∈ kids, channels.parentOf kid.1 = some (some id))
      (hkids : ∀ kid ∈ kids, Represents channels users kid.1 kid.2.1 kid.2.2) :
      Represents channels users id tree (id :: (kids.map fun kid => kid.2.2).flatten)

/-! ## The users of a channel -/

theorem lookup_channelLookup_foldl (users : List User) (lookup : HashMap UInt32 (List User))
    (id : UInt32) :
    ((users.foldl (fun lookup user => lookup.upsert user.channel [user] (· ++ [user]))
        lookup).lookup id).getD [] =
      (lookup.lookup id).getD [] ++ users.filter fun user => user.channel = id := by
  induction users generalizing lookup with
  | nil => simp
  | cons user rest ih =>
      rw [List.foldl_cons, ih, HashMap.lookup_upsert]
      by_cases h : user.channel = id
      · subst h
        cases lookup.lookup user.channel <;> simp
      · rw [if_neg (Ne.symm h), List.filter_cons_of_neg (by simpa using h)]

/-- Every user is listed once, under its channel. -/
theorem getD_lookup_channelLookup (users : HashMap UInt32 User) (id : UInt32) :
    ((channelLookup users).lookup id).getD [] =
      users.values.filter fun user => user.channel = id := by
  rw [channelLookup, lookup_channelLookup_foldl]
  simp

/-! ## The walks -/

theorem walkOf_eq_ok_iff {channels : Channels} {id : UInt32} {walk : List UInt32} :
    walkOf channels id = .ok walk ↔ ∃ r, Leads channels.parentOf id walk r := by
  unfold walkOf
  rw [bind_eq_ok]
  constructor
  · rintro ⟨out, hout, h⟩
    obtain ⟨path, r, hpath, -, rfl⟩ := climb_eq_ok_iff.mp hout
    cases h
    exact ⟨r, by simpa using hpath⟩
  · rintro ⟨r, hwalk⟩
    have hlen := hwalk.length_lt fun _ => Channels.mem_keys_of_parentOf_isSome
    exact ⟨_, climb_eq_ok_iff.mpr ⟨walk, r, hwalk, hlen, rfl⟩, by simp⟩

/-- The walks that `intoChannel` collects, one for every channel. -/
def walksOf (channels : Channels) : Eval (List (List UInt32 × Channel)) :=
  channels.iter.mapM fun entry => do
    let walk ← walkOf channels entry.1
    return (walk, entry.2)

theorem mem_walks_iff {channels : Channels} {walks : List (List UInt32 × Channel)}
    (h : walksOf channels = .ok walks) {walk : List UInt32} {channel : Channel} :
    (walk, channel) ∈ walks ↔
      ∃ id r, channels.lookup id = some channel ∧ Leads channels.parentOf id walk r := by
  rw [mem_of_mapM_eq_ok h]
  constructor
  · rintro ⟨⟨id, channel'⟩, hmem, hwalk⟩
    obtain ⟨walk', hwalk', heq⟩ := bind_eq_ok.mp hwalk
    cases heq
    obtain ⟨r, hr⟩ := walkOf_eq_ok_iff.mp hwalk'
    exact ⟨id, r, HashMap.mem_iter.mp hmem, hr⟩
  · rintro ⟨id, r, hchannel, hwalk⟩
    exact ⟨(id, channel), HashMap.mem_iter.mpr hchannel,
      bind_eq_ok.mpr ⟨walk, walkOf_eq_ok_iff.mpr ⟨r, hwalk⟩, rfl⟩⟩

/-- All walks can be collected exactly when all chains are good. -/
theorem walksOf_returns_iff {channels : Channels} :
    Returns (walksOf channels) ↔
      ∀ id ∈ channels, ∃ walk r, Leads channels.parentOf id walk r := by
  rw [walksOf, mapM_returns_iff]
  constructor
  · intro h id hid
    obtain ⟨channel, hchannel⟩ := HashMap.mem_iff_lookup.mp hid
    obtain ⟨entry, hentry⟩ := h (id, channel) (HashMap.mem_iter.mpr hchannel)
    obtain ⟨walk, hwalk, -⟩ := bind_eq_ok.mp hentry
    exact ⟨walk, walkOf_eq_ok_iff.mp hwalk⟩
  · rintro h ⟨id, channel⟩ hmem
    obtain ⟨walk, r, hwalk⟩ :=
      h id (HashMap.mem_iff_lookup.mpr ⟨channel, HashMap.mem_iter.mp hmem⟩)
    exact ⟨(walk, channel), bind_eq_ok.mpr ⟨walk, walkOf_eq_ok_iff.mpr ⟨r, hwalk⟩, rfl⟩⟩

/-! ## The finished `ProtoTree` -/

/-- What the node at the end of a channel's walk holds. -/
def nodeOf (users : HashMap UInt32 User) (walk : List UInt32) (channel : Channel) : ProtoNode :=
  ⟨some channel, (walk.getLast?.bind (channelLookup users).lookup).getD []⟩

theorem walkAndAdd_eq_ok {users : HashMap UInt32 User} {channel : Channel} {walk : List UInt32}
    (hwalk : walk ≠ []) (tree : ProtoTree) :
    ProtoTree.walkAndAdd channel (channelLookup users) walk tree =
      .ok (Trie.update .placeholder (fun _ => nodeOf users walk channel) walk tree) := by
  induction walk generalizing tree with
  | nil => exact absurd rfl hwalk
  | cons first rest ih =>
      cases rest with
      | nil => rfl
      | cons second rest =>
          rw [ProtoTree.walkAndAdd, ih (by simp), ok_bind, Trie.update]
          rfl

/-- The `ProtoTree` after all walks. -/
def protoTreeOf (users : HashMap UInt32 User) (root : Channel)
    (walks : List (List UInt32 × Channel)) : ProtoTree :=
  Trie.build .placeholder
    ((walks.filter fun walk => !walk.1.isEmpty).map fun walk =>
      (walk.1, nodeOf users walk.1 walk.2))
    (.node ⟨some root, ((channelLookup users).lookup 0).getD []⟩ [])

/-- `intoChannel` in two parts: the finished `ProtoTree` and its conversion. -/
theorem intoChannel_eq (order : HashOrder) {channels : Channels} (users : HashMap UInt32 User)
    {walks : List (List UInt32 × Channel)} {root : Channel}
    (hwalks : walksOf channels = .ok walks) (hroot : channels.lookup 0 = some root) :
    intoChannel order channels users =
      Mumlib.Channel.ofProtoTree order (protoTreeOf users root walks) := by
  have hloop : ∀ (added : List (List UInt32 × Channel)) (tree : ProtoTree),
      (∀ walk ∈ added, walk.1 ≠ []) →
      added.foldlM (fun tree walk =>
          ProtoTree.walkAndAdd walk.2 (channelLookup users) walk.1 tree) tree =
        .ok (Trie.build .placeholder
          (added.map fun walk => (walk.1, nodeOf users walk.1 walk.2)) tree) := by
    intro added tree hne
    rw [Trie.build, List.foldl_map]
    exact foldlM_eq_ok (fun walk hwalk tree => walkAndAdd_eq_ok (hne walk hwalk) tree) tree
  unfold intoChannel
  unfold walksOf at hwalks
  dsimp only
  rw [hwalks, ok_bind, hroot, unwrap_some, ok_bind, hloop _ _ fun walk hwalk => ?_, ok_bind]
  · rfl
  · simpa using (List.mem_filter.mp hwalk).2

section Finished

variable {channels : Channels} {users : HashMap UInt32 User} {root : Channel}
  {walks : List (List UInt32 × Channel)}

theorem keyed_protoTree : Trie.Keyed (protoTreeOf users root walks) :=
  Trie.keyed_build (Trie.keyed_leaf _)

theorem mem_added_iff {path : List UInt32} {node : ProtoNode} :
    (path, node) ∈ (walks.filter fun walk => !walk.1.isEmpty).map
        (fun walk => (walk.1, nodeOf users walk.1 walk.2)) ↔
      path ≠ [] ∧ ∃ channel, (path, channel) ∈ walks ∧ node = nodeOf users path channel := by
  simp only [List.mem_map, List.mem_filter, Prod.mk.injEq]
  constructor
  · rintro ⟨⟨walk, channel⟩, ⟨hmem, hne⟩, rfl, rfl⟩
    exact ⟨by simpa using hne, channel, hmem, rfl⟩
  · rintro ⟨hne, channel, hmem, rfl⟩
    exact ⟨(path, channel), ⟨hmem, by simpa using hne⟩, rfl, rfl⟩

/-- The key at the end of a walk is the channel whose walk it is. -/
theorem getLast?_of_leads {parent : UInt32 → Option (Option UInt32)} {id r : UInt32}
    {walk : List UInt32} (h : Leads parent id walk r) (hne : walk ≠ []) :
    walk.getLast? = some id := by
  cases h with
  | top => exact absurd rfl hne
  | up => simp

theorem at?_nil_protoTree : (protoTreeOf users root walks).at? [] =
    some ⟨some root, ((channelLookup users).lookup 0).getD []⟩ := by
  refine Trie.at?_build_of_some rfl fun node hnode => ?_
  exact absurd rfl (mem_added_iff.mp hnode).1

variable (hwalks : walksOf channels = .ok walks)

include hwalks

/-- The channel of a walk stands at its end. -/
theorem at?_protoTree_of_leads {id r : UInt32} {channel : Channel} {walk : List UInt32}
    (hchannel : channels.lookup id = some channel) (hlead : Leads channels.parentOf id walk r)
    (hne : walk ≠ []) :
    (protoTreeOf users root walks).at? walk = some (nodeOf users walk channel) := by
  refine Trie.at?_build_of_mem (mem_added_iff.mpr ⟨hne, channel,
    (mem_walks_iff hwalks).mpr ⟨id, r, hchannel, hlead⟩, rfl⟩) fun node hnode => ?_
  obtain ⟨-, channel', hmem, rfl⟩ := mem_added_iff.mp hnode
  obtain ⟨id', r', hchannel', hlead'⟩ := (mem_walks_iff hwalks).mp hmem
  have hid := (getLast?_of_leads hlead' hne).symm.trans (getLast?_of_leads hlead hne)
  cases hid
  cases hchannel.symm.trans hchannel'
  rfl

/-- Every node below the root stands at the end of the walk of a channel. -/
theorem leads_of_at?_protoTree {path : List UInt32} {node : ProtoNode} (hne : path ≠ [])
    (hnode : (protoTreeOf users root walks).at? path = some node) :
    ∃ id r channel, channels.lookup id = some channel ∧ Leads channels.parentOf id path r ∧
      path.getLast? = some id ∧ node = nodeOf users path channel := by
  by_cases hprefix : ∃ walk channel, (walk, channel) ∈ walks ∧ path <+: walk
  · obtain ⟨walk, channel, hmem, below, rfl⟩ := hprefix
    obtain ⟨id, r, -, hlead⟩ := (mem_walks_iff hwalks).mp hmem
    -- the beginning of a walk is the walk of its last key
    obtain ⟨above, last, rfl⟩ := (List.eq_nil_or_concat' path).resolve_left hne
    have hsplit : Leads channels.parentOf id (above ++ last :: below) r := by simpa using hlead
    have hlast : Leads channels.parentOf last (above ++ [last]) r := hsplit.of_prefix
    obtain ⟨parent, hparent⟩ := Option.isSome_iff_exists.mp hlast.parent_isSome
    obtain ⟨channel', hchannel', -⟩ := Channels.parentOf_eq_some.mp hparent
    have hat : (protoTreeOf users root walks).at? (above ++ [last]) = some _ :=
      at?_protoTree_of_leads hwalks hchannel' hlast hne
    rw [hat] at hnode
    exact ⟨last, r, channel', hchannel', hlast, by simp, (Option.some.inj hnode).symm⟩
  · have hleaf : (protoTreeOf users root walks).at? path = none := by
      refine (Trie.at?_build_of_not_prefix fun entry hentry hpre => hprefix ?_).trans ?_
      · obtain ⟨-, channel, hmem, -⟩ := mem_added_iff.mp hentry
        exact ⟨entry.1, channel, hmem, hpre⟩
      · rw [Trie.at?_leaf, if_neg hne]
    rw [hleaf] at hnode
    cases hnode

/-- No placeholder is left. -/
theorem channel_isSome_of_at? {path : List UInt32} {node : ProtoNode}
    (hnode : (protoTreeOf users root walks).at? path = some node) : node.channel.isSome := by
  by_cases hne : path = []
  · subst hne
    rw [at?_nil_protoTree] at hnode
    cases hnode
    rfl
  · obtain ⟨_, _, _, -, -, -, rfl⟩ := leads_of_at?_protoTree hwalks hne hnode
    rfl

end Finished

/-! ## The conversion -/

/-- The conversion of one child. -/
def ofChild (order : HashOrder) (child : UInt32 × ProtoTree) :
    Eval (UInt32 × (Int × Mumlib.Channel)) := do
  let channel ← unwrap child.2.value.channel
  let converted ← Mumlib.Channel.ofProtoTree order child.2
  return (child.1, (channel.position, converted))

theorem ofChildren_eq_mapM (order : HashOrder) (children : List (UInt32 × ProtoTree)) :
    Mumlib.Channel.ofChildren order children = children.mapM (ofChild order) := by
  induction children with
  | nil => rfl
  | cons child rest ih =>
      obtain ⟨id, tree⟩ := child
      rw [Mumlib.Channel.ofChildren, List.mapM_cons, ih]
      unfold ofChild
      cases unwrap tree.value.channel with
      | error e => rfl
      | ok channel => cases Mumlib.Channel.ofProtoTree order tree <;> rfl

theorem ofChild_eq_ok_iff {order : HashOrder} {child : UInt32 × ProtoTree}
    {entry : UInt32 × (Int × Mumlib.Channel)} :
    ofChild order child = .ok entry ↔
      entry.1 = child.1 ∧ (∃ channel, child.2.value.channel = some channel ∧
        entry.2.1 = channel.position) ∧
      Mumlib.Channel.ofProtoTree order child.2 = .ok entry.2.2 := by
  unfold ofChild
  constructor
  · intro h
    obtain ⟨channel, hchannel, h⟩ := bind_eq_ok.mp h
    obtain ⟨converted, hconverted, h⟩ := bind_eq_ok.mp h
    cases h
    exact ⟨rfl, ⟨channel, unwrap_eq_ok.mp hchannel, rfl⟩, hconverted⟩
  · rintro ⟨hid, ⟨channel, hchannel, hposition⟩, hconverted⟩
    obtain ⟨id, position, converted⟩ := entry
    cases hid
    cases hposition
    exact bind_eq_ok.mpr ⟨channel, unwrap_eq_ok.mpr hchannel,
      bind_eq_ok.mpr ⟨converted, hconverted, rfl⟩⟩

theorem map_fst_of_mapM_ofChild {order : HashOrder} {children : List (UInt32 × ProtoTree)}
    {converted : List (UInt32 × (Int × Mumlib.Channel))}
    (h : children.mapM (ofChild order) = .ok converted) :
    converted.map Prod.fst = children.map Prod.fst :=
  map_eq_of_mapM_eq_ok (fun _ _ hab => (ofChild_eq_ok_iff.mp hab).1) h

/-- What the conversion of a node is made of: its own data and a list of the
converted children, in some order. -/
theorem ofProtoTree_eq_ok {order : HashOrder} {value : ProtoNode}
    {children : List (UInt32 × ProtoTree)} {tree : Mumlib.Channel}
    (h : Mumlib.Channel.ofProtoTree order (.node value children) = .ok tree) :
    ∃ (channel : Channel) (entries converted : List (UInt32 × (Int × Mumlib.Channel))),
      value.channel = some channel ∧ children.mapM (ofChild order) = .ok converted ∧
      entries.Perm converted ∧
      tree = { Mumlib.Channel.ofChannel channel with
        children := entries.map fun entry => entry.2.2
        users := value.users.map Mumlib.User.ofUser } := by
  rw [Mumlib.Channel.ofProtoTree] at h
  obtain ⟨channel, hchannel, h⟩ := bind_eq_ok.mp h
  obtain ⟨converted, hconverted, h⟩ := bind_eq_ok.mp h
  have hsorted := (List.mergeSort_perm ((order.apply converted).map Prod.snd)
    fun e e' => childKey e ≤ childKey e').trans ((order.perm converted).map Prod.snd)
  -- the sorted pairs are the second components of some reordering of the entries
  obtain ⟨entries, hentries, hperm⟩ := HashMap.exists_perm_of_perm_map hsorted
  cases h
  refine ⟨channel, entries, converted, unwrap_eq_ok.mp hchannel,
    ofChildren_eq_mapM order children ▸ hconverted, hperm, ?_⟩
  rw [hentries, List.map_map]
  rfl

/-- The conversion returns when no placeholder is left. -/
theorem ofProtoTree_returns (order : HashOrder) {tree : ProtoTree} (hkeyed : tree.Keyed)
    (hfilled : ∀ path node, tree.at? path = some node → node.channel.isSome) :
    Returns (Mumlib.Channel.ofProtoTree order tree) := by
  induction tree using Trie.induction with
  | hnode value children ih =>
      obtain ⟨channel, hchannel⟩ := Option.isSome_iff_exists.mp (hfilled [] value rfl)
      cases hkeyed with
      | node hkeys hchildren =>
          have hreturns : Returns (children.mapM (ofChild order)) := by
            refine mapM_returns_iff.mpr fun child hchild => ?_
            have hat := Trie.at?_cons_of_mem hkeys hchild value
            obtain ⟨converted, hconverted⟩ := ih child hchild (hchildren child hchild)
              fun path node hnode => hfilled _ node ((hat path).trans hnode)
            obtain ⟨own, hown⟩ := Option.isSome_iff_exists.mp
              (hfilled [child.1] child.2.value (hat []))
            exact ⟨(child.1, own.position, converted),
              ofChild_eq_ok_iff.mpr ⟨rfl, ⟨own, hown, rfl⟩, hconverted⟩⟩
          obtain ⟨converted, hconverted⟩ := hreturns
          rw [Mumlib.Channel.ofProtoTree, hchannel, unwrap_some, ok_bind, ofChildren_eq_mapM,
            hconverted]
          exact ⟨_, rfl⟩

/-! ## The tree shows the map -/

section Shows

variable {channels : Channels} {users : HashMap UInt32 User} {root : Channel}
  {walks : List (List UInt32 × Channel)}

/-- What stands at the end of the walk of `id`, the root included. -/
theorem at?_protoTree (hwalks : walksOf channels = .ok walks)
    (hroot : channels.lookup 0 = some root) {id : UInt32} {channel : Channel}
    {walk : List UInt32} (hchannel : channels.lookup id = some channel)
    (hlead : Leads channels.parentOf id walk 0) :
    (protoTreeOf users root walks).at? walk =
      some ⟨some channel, users.values.filter fun user => user.channel = id⟩ := by
  by_cases hne : walk = []
  · subst hne
    cases hlead.eq_top
    cases hroot.symm.trans hchannel
    rw [at?_nil_protoTree, getD_lookup_channelLookup]
  · rw [at?_protoTree_of_leads hwalks hchannel hlead hne, nodeOf, getLast?_of_leads hlead hne,
      Option.bind_some, getD_lookup_channelLookup]

/-- A node below that of `id` is a channel whose parent is `id`. -/
theorem leads_of_at?_append (htree : channels.IsTree) (hwalks : walksOf channels = .ok walks)
    {id key : UInt32} {above : List UInt32} {node : ProtoNode}
    (hlead : Leads channels.parentOf id above 0)
    (hnode : (protoTreeOf users root walks).at? (above ++ [key]) = some node) :
    Leads channels.parentOf key (above ++ [key]) 0 ∧ channels.parentOf key = some (some id) := by
  obtain ⟨id', r, channel, hchannel, hkey, hlast, -⟩ :=
    leads_of_at?_protoTree hwalks (by simp) hnode
  rw [List.getLast?_concat, Option.some.injEq] at hlast
  subst hlast
  obtain ⟨walk, hwalk⟩ := htree.leads key (HashMap.mem_iff_lookup.mpr ⟨channel, hchannel⟩)
  obtain ⟨-, rfl⟩ := hkey.unique hwalk
  refine ⟨hkey, ?_⟩
  generalize hw : above ++ [key] = walk' at hkey
  cases hkey with
  | top => simp at hw
  | up hparent habove =>
      obtain ⟨rfl, -⟩ := List.append_inj' hw rfl
      rw [hparent, hlead.key_eq habove]

/-- A channel is shown once its children are. -/
theorem represents_of_children {id : UInt32} {channel : Channel} {above : List UInt32}
    {entries : List (UInt32 × (Int × Mumlib.Channel))}
    (hchannel : channels.lookup id = some channel) (hlead : Leads channels.parentOf id above 0)
    (hkeys : (entries.map Prod.fst).Nodup)
    (hcover : ∀ key, Leads channels.parentOf key (above ++ [key]) 0 → key ∈ entries.map Prod.fst)
    (hentry : ∀ entry ∈ entries, ∃ ids, channels.parentOf entry.1 = some (some id) ∧
      Represents channels users entry.1 entry.2.2 ids ∧
      ListsBelow channels.parentOf 0 (above ++ [entry.1]) ids) :
    ∃ ids, Represents channels users id { Mumlib.Channel.ofChannel channel with
        children := entries.map fun entry => entry.2.2
        users := (users.values.filter fun user => user.channel = id).map Mumlib.User.ofUser } ids ∧
      ListsBelow channels.parentOf 0 above ids := by
  choose! idsOf hparent hrep hlists using hentry
  refine ⟨_, @Represents.node channels users id channel _
    (entries.map fun entry => (entry.1, entry.2.2, idsOf entry))
    hchannel rfl rfl rfl rfl ?_ ?_ ?_, ?_⟩
  · rw [List.map_map]
    rfl
  · intro kid hkid
    obtain ⟨entry, hentry, rfl⟩ := List.mem_map.mp hkid
    exact hparent entry hentry
  · intro kid hkid
    obtain ⟨entry, hentry, rfl⟩ := List.mem_map.mp hkid
    exact hrep entry hentry
  · have hfst : (entries.map fun entry => (entry.1, idsOf entry)).map Prod.fst =
        entries.map Prod.fst := by
      rw [List.map_map]
      rfl
    have hnode := @ListsBelow.node _ _ _ _ _ (entries.map fun entry => (entry.1, idsOf entry))
      hlead (hfst ▸ hkeys) ?_ (hfst ▸ hcover)
    · rw [List.map_map] at hnode ⊢
      exact hnode
    · intro kid hkid
      obtain ⟨entry, hentry, rfl⟩ := List.mem_map.mp hkid
      exact hlists entry hentry

/-- The conversion of the node of `id` shows `id` with everything below it. -/
theorem represents_of_ofProtoTree (order : HashOrder) (htree : channels.IsTree)
    (hwalks : walksOf channels = .ok walks) (hroot : channels.lookup 0 = some root)
    {proto : ProtoTree} {id : UInt32} {above : List UInt32} {tree : Mumlib.Channel}
    (hkeyed : proto.Keyed) (hlead : Leads channels.parentOf id above 0)
    (hat : ∀ path, proto.at? path = (protoTreeOf users root walks).at? (above ++ path))
    (hconvert : Mumlib.Channel.ofProtoTree order proto = .ok tree) :
    ∃ ids, Represents channels users id tree ids ∧
      ListsBelow channels.parentOf 0 above ids := by
  -- the node of a child satisfies the same with a longer `above`
  induction proto using Trie.induction generalizing id above tree with
  | hnode value children ih =>
      cases hkeyed with
      | node hkeys hchildren =>
      obtain ⟨own, hown⟩ := Option.isSome_iff_exists.mp hlead.parent_isSome
      obtain ⟨channel, hchannel, -⟩ := Channels.parentOf_eq_some.mp hown
      have hvalue : value = ⟨some channel, users.values.filter fun user => user.channel = id⟩ := by
        have h := hat []
        rw [List.append_nil, at?_protoTree hwalks hroot hchannel hlead] at h
        exact Option.some.inj h
      obtain ⟨channel', entries, converted, hchannel', hconverted, hperm, rfl⟩ :=
        ofProtoTree_eq_ok hconvert
      cases hchannel'.symm.trans (congrArg ProtoNode.channel hvalue)
      have hfst : entries.map Prod.fst ~ children.map Prod.fst :=
        map_fst_of_mapM_ofChild hconverted ▸ hperm.map Prod.fst
      rw [hvalue]
      refine represents_of_children hchannel hlead (hfst.nodup_iff.mpr hkeys)
        (fun key hkey => ?_) fun entry hentry => ?_
      · obtain ⟨own, hown⟩ := Option.isSome_iff_exists.mp hkey.parent_isSome
        obtain ⟨keyChannel, hkeyChannel, -⟩ := Channels.parentOf_eq_some.mp hown
        have hatKey := (hat [key]).trans (at?_protoTree hwalks hroot hkeyChannel hkey)
        exact hfst.mem_iff.mpr (Trie.mem_keys_of_at?_cons hkeys hatKey)
      · obtain ⟨child, hchild, hok⟩ := (mem_of_mapM_eq_ok hconverted).mp (hperm.mem_iff.mp hentry)
        obtain ⟨hid, -, hsub⟩ := ofChild_eq_ok_iff.mp hok
        have hatChild : ∀ path, child.2.at? path =
            (protoTreeOf users root walks).at? (above ++ [entry.1] ++ path) := fun path => by
          rw [List.append_assoc, List.singleton_append, ← hat, hid,
            Trie.at?_cons_of_mem hkeys hchild]
        obtain ⟨hleadChild, hparent⟩ := leads_of_at?_append htree hwalks hlead
          ((by simpa using (hatChild []).symm) : _ = some child.2.value)
        obtain ⟨ids, hids⟩ := ih child hchild (hchildren child hchild) hleadChild hatChild hsub
        exact ⟨ids, hparent, hids⟩

end Shows

/-- `intoChannel` returns exactly when the root is there and all parent chains
are good. -/
theorem intoChannel_returns_iff (order : HashOrder) (channels : Channels)
    (users : HashMap UInt32 User) :
    Returns (intoChannel order channels users) ↔
      0 ∈ channels ∧ ∀ id ∈ channels, ∃ walk r, Leads channels.parentOf id walk r := by
  rw [HashMap.mem_iff_lookup, ← walksOf_returns_iff]
  constructor
  · rintro ⟨tree, h⟩
    obtain ⟨walks, hwalks, h⟩ := bind_eq_ok.mp h
    obtain ⟨root, hroot, -⟩ := bind_eq_ok.mp h
    exact ⟨⟨root, unwrap_eq_ok.mp hroot⟩, walks, hwalks⟩
  · rintro ⟨⟨root, hroot⟩, walks, hwalks⟩
    rw [intoChannel_eq order users hwalks hroot]
    exact ofProtoTree_returns order keyed_protoTree fun _ _ => channel_isSome_of_at? hwalks

/-- **The tree is the map.**  For a channel map that is a tree rooted at `0`,
`intoChannel` returns a tree with one node for every channel, each directly
below the node of its parent, with the channel's data and its users. -/
theorem intoChannel_represents (order : HashOrder) (channels : Channels)
    (users : HashMap UInt32 User) (htree : channels.IsTree) :
    ∃ tree ids, intoChannel order channels users = .ok tree ∧
      Represents channels users 0 tree ids ∧ ids.Perm channels.keys := by
  obtain ⟨root, hroot, -⟩ := Channels.parentOf_eq_some.mp htree.root
  obtain ⟨walks, hwalks⟩ := walksOf_returns_iff.mpr fun id hid =>
    (htree.leads id hid).imp fun _ hwalk => ⟨0, hwalk⟩
  have hkeyed : (protoTreeOf users root walks).Keyed := keyed_protoTree
  obtain ⟨tree, hconvert⟩ := ofProtoTree_returns order hkeyed
    fun _ _ => channel_isSome_of_at? hwalks
  obtain ⟨ids, hrep, hids⟩ := represents_of_ofProtoTree order htree hwalks hroot
    keyed_protoTree (.top htree.root) (fun _ => rfl) hconvert
  refine ⟨tree, ids, (intoChannel_eq order users hwalks hroot).trans hconvert, hrep, ?_⟩
  refine (List.perm_ext_iff_of_nodup hids.nodup channels.keys_nodup).mpr fun id => ?_
  rw [hids.mem_iff, ← AList.mem_keys]
  constructor
  · rintro ⟨walk, hwalk, -⟩
    exact Channels.parentOf_isSome.mp hwalk.parent_isSome
  · intro hid
    obtain ⟨walk, hwalk⟩ := htree.leads id hid
    exact ⟨walk, hwalk, List.nil_prefix⟩

/-- A root with one child that has a child of its own. -/
def threeChannels : Channels :=
  (((∅ : Channels).insert 0 ⟨none, [], 0, "Root", none, 0⟩).insert 1
    ⟨none, [], 5, "Lobby", some 0, 0⟩).insert 2 ⟨some "quiet", [], 0, "Corner", some 1, 3⟩

theorem isTree_threeChannels : threeChannels.IsTree where
  root := by decide
  leads := by
    have hzero : Leads threeChannels.parentOf 0 [] 0 := .top (by decide)
    have hone : Leads threeChannels.parentOf 1 ([] ++ [1]) 0 := .up (by decide) hzero
    have htwo : Leads threeChannels.parentOf 2 ([1] ++ [2]) 0 := .up (by decide) hone
    intro id hid
    have hkeys : id ∈ [2, 1, 0] := AList.mem_keys.mp hid
    simp only [List.mem_cons, List.not_mem_nil, or_false] at hkeys
    rcases hkeys with rfl | rfl | rfl
    exacts [⟨_, htwo⟩, ⟨_, hone⟩, ⟨_, hzero⟩]

/-- Two users in the corner, one in the root, and one in a channel that is not there. -/
def fourUsers : HashMap UInt32 User :=
  ((((∅ : HashMap UInt32 User)
    |>.insert 1 (User.new { channelId := some 2, name := some "me" }))
    |>.insert 2 (User.new { channelId := some 2, name := some "you" }))
    |>.insert 3 (User.new { name := some "root" }))
    |>.insert 4 (User.new { channelId := some 9, name := some "nowhere" })

theorem intoChannel_represents_threeChannels :
    ∃ tree ids, intoChannel .insertion threeChannels fourUsers = .ok tree ∧
      Represents threeChannels fourUsers 0 tree ids ∧ ids.Perm threeChannels.keys :=
  intoChannel_represents .insertion threeChannels fourUsers isTree_threeChannels

end Mum
