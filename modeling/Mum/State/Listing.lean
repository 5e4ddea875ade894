import Mum.Library.PathOrder
import Mum.Mumlib.Iter
import Mum.State.ChannelTree

/-!
# Which channels a controller sees, and in which order

`intoChannel` does not ask for a tree: it walks every channel up to a channel
without parent, whichever that is, and puts the walk below the root.  Other
channels without parent are not shown at all, and what is below them is shown
below the root.

`Shows` is the relation between a map and the tree it is shown as, in this
generality.  It pairs each node with the walk of its channel, in the order of an
iteration over the tree.  Siblings are sorted by position and name; which of two
siblings with the same position and name comes first depends on the iteration
order of a hash map.

`shows_of_ofProtoTree` is the induction, over the `ProtoTree` and with the walk down to it as
a parameter.  At a node, the children are paired with the walks one step longer
(`node_of_at?`), and sorting is by the key of the channel, so that the children come in an
order that `R` allows (`HashOrder.sorts`).
-/

namespace Mum

open Library Library.Eval Library.ParentChain Library.PathOrder
open scoped List

/-- The channel whose walk it is; the walk of the root is empty. -/
def endOf (walk : List UInt32) : UInt32 := walk.getLast?.getD 0

@[simp] theorem endOf_nil : endOf [] = 0 := rfl

@[simp] theorem endOf_concat (walk : List UInt32) (id : UInt32) : endOf (walk ++ [id]) = id := by
  rw [endOf, List.getLast?_concat, Option.getD_some]

/-- What the siblings of a channel are sorted by. -/
def Channels.sortKey (channels : Channels) (id : UInt32) : Int ×ₗ String :=
  match channels.lookup id with
  | some channel => toLex (channel.position, channel.name)
  | none => toLex (0, "")

/-- `tree` shows the channel at the end of the walk with everything below it;
`nodes` are its nodes with their walks. -/
inductive Shows (channels : Channels) (users : HashMap UInt32 User) (R : UInt32 → UInt32 → Prop) :
    List UInt32 → Mumlib.Channel → List (List UInt32 × Mumlib.Channel) → Prop
  | node {walk : List UInt32} {channel : Channel} {tree : Mumlib.Channel}
      {kids : List (UInt32 × Mumlib.Channel × List (List UInt32 × Mumlib.Channel))}
      (hchannel : channels.lookup (endOf walk) = some channel)
      (hname : tree.name = channel.name)
      (hdescription : tree.description = channel.description)
      (hmaxUsers : tree.maxUsers = channel.maxUsers)
      (husers : tree.users =
        (users.values.filter fun user => user.channel = endOf walk).map Mumlib.User.ofUser)
      (hchildren : tree.children = kids.map fun kid => kid.2.1)
      (hsorted : kids.Pairwise fun kid kid' => kid.1 ≠ kid'.1 ∧ R kid.1 kid'.1)
      (hkids : ∀ kid ∈ kids, Shows channels users R (walk ++ [kid.1]) kid.2.1 kid.2.2) :
      Shows channels users R walk tree ((walk, tree) :: (kids.map fun kid => kid.2.2).flatten)

namespace Shows

variable {channels : Channels} {users : HashMap UInt32 User} {R : UInt32 → UInt32 → Prop}
  {walk : List UInt32} {tree : Mumlib.Channel} {nodes : List (List UInt32 × Mumlib.Channel)}

/-- The nodes stand in the order of the iteration. -/
theorem map_snd (h : Shows channels users R walk tree nodes) :
    nodes.map Prod.snd = tree.preorder := by
  induction h with
  | @node walk channel tree kids _ _ _ _ _ hchildren hsorted hkids ih =>
      obtain ⟨description, maxUsers, name, children, treeUsers, links⟩ := tree
      rw [List.map_cons, Mumlib.Channel.preorder]
      congr 1
      change children = _ at hchildren
      rw [hchildren]
      clear hchildren hsorted hkids
      induction kids with
      | nil => rfl
      | cons kid rest ihrest =>
          rw [List.map_cons, List.flatten_cons, List.map_append, List.map_cons,
            Mumlib.Channel.preorders, ih kid List.mem_cons_self]
          rw [ihrest fun kid' hkid' => ih kid' (List.mem_cons_of_mem _ hkid')]

theorem isPrefix (h : Shows channels users R walk tree nodes) :
    ∀ entry ∈ nodes, walk <+: entry.1 := by
  induction h with
  | node _ _ _ _ _ _ _ _ ih =>
      intro entry hentry
      rcases List.mem_cons.mp hentry with rfl | hentry
      · exact List.prefix_refl _
      · obtain ⟨_, hmap, hentry⟩ := List.mem_flatten.mp hentry
        obtain ⟨kid, hkid, rfl⟩ := List.mem_map.mp hmap
        exact (List.prefix_append _ _).trans (ih kid hkid entry hentry)

theorem pairwise (h : Shows channels users R walk tree nodes) :
    nodes.Pairwise fun entry entry' => Before R entry.1 entry'.1 := by
  induction h with
  | @node walk _ tree kids _ _ _ _ _ _ hsorted hkids ih =>
      have horder : (kids.map fun kid => (kid.1, kid.2.2)).Pairwise
          fun kid kid' => kid.1 ≠ kid'.1 ∧ R kid.1 kid'.1 := List.pairwise_map.mpr hsorted
      have hunder : ∀ kid ∈ kids.map fun kid => (kid.1, kid.2.2),
          ∀ entry ∈ kid.2, walk ++ [kid.1] <+: entry.1 := by
        intro kid hkid entry hentry
        obtain ⟨kid, hmem, rfl⟩ := List.mem_map.mp hkid
        exact (hkids kid hmem).isPrefix entry hentry
      have hlist := pairwise_node tree horder hunder ?_
      · rw [List.map_map] at hlist
        exact hlist
      · intro kid hkid
        obtain ⟨kid, hmem, rfl⟩ := List.mem_map.mp hkid
        exact ih kid hmem

/-- Every node shows the users of its channel. -/
theorem users_eq (h : Shows channels users R walk tree nodes) :
    ∀ entry ∈ nodes, entry.2.users =
      (users.values.filter fun user => user.channel = endOf entry.1).map Mumlib.User.ofUser := by
  induction h with
  | node _ _ _ _ husers _ _ _ ih =>
      intro entry hentry
      rcases List.mem_cons.mp hentry with rfl | hentry
      · exact husers
      · obtain ⟨_, hmap, hentry⟩ := List.mem_flatten.mp hentry
        obtain ⟨kid, hkid, rfl⟩ := List.mem_map.mp hmap
        exact ih kid hkid entry hentry

/-- Only the order of the siblings depends on the relation. -/
theorem mono {R' : UInt32 → UInt32 → Prop} (hR : ∀ x y, R x y → R' x y)
    (h : Shows channels users R walk tree nodes) : Shows channels users R' walk tree nodes := by
  induction h with
  | node hchannel hname hdescription hmaxUsers husers hchildren hsorted _ ih =>
      exact .node hchannel hname hdescription hmaxUsers husers hchildren
        (hsorted.imp fun h => ⟨h.1, hR _ _ h.2⟩) ih

theorem mem_self (h : Shows channels users R walk tree nodes) : (walk, tree) ∈ nodes := by
  cases h
  exact List.mem_cons_self ..

end Shows

section Kids

variable {channels : Channels} {users : HashMap UInt32 User} {R : UInt32 → UInt32 → Prop}
  {walk : List UInt32} {tree : Mumlib.Channel}
  {kids : List (UInt32 × Mumlib.Channel × List (List UInt32 × Mumlib.Channel))}

/-- What a child lists, its parent lists below itself. -/
theorem mem_nodes_of_mem_kid
    {kid : UInt32 × Mumlib.Channel × List (List UInt32 × Mumlib.Channel)} (hkid : kid ∈ kids)
    {entry : List UInt32 × Mumlib.Channel} (hentry : entry ∈ kid.2.2) :
    entry ∈ (walk, tree) :: (kids.map fun kid => kid.2.2).flatten :=
  List.mem_cons_of_mem _ (List.mem_flatten.mpr ⟨kid.2.2, List.mem_map_of_mem hkid, hentry⟩)

/-- A walk below a node is listed when the child it goes through lists it. -/
theorem walk_mem_nodes_iff
    (hkids : ∀ kid ∈ kids, Shows channels users R (walk ++ [kid.1]) kid.2.1 kid.2.2)
    {key : UInt32} {path : List UInt32} :
    walk ++ key :: path ∈ ((walk, tree) :: (kids.map fun kid => kid.2.2).flatten).map Prod.fst ↔
      ∃ kid ∈ kids, kid.1 = key ∧ walk ++ key :: path ∈ kid.2.2.map Prod.fst := by
  constructor
  · intro h
    obtain ⟨entry, hentry, hpath⟩ := List.mem_map.mp h
    rcases List.mem_cons.mp hentry with rfl | hentry
    · have hself : walk = walk ++ key :: path := hpath
      have hlen := congrArg List.length hself
      rw [List.length_append, List.length_cons] at hlen
      omega
    · obtain ⟨_, hmap, hentry⟩ := List.mem_flatten.mp hentry
      obtain ⟨kid, hkid, rfl⟩ := List.mem_map.mp hmap
      obtain ⟨below, hbelow⟩ := (hkids kid hkid).isPrefix entry hentry
      rw [hpath, List.append_assoc, List.append_cancel_left_eq] at hbelow
      exact ⟨kid, hkid, (List.cons.inj hbelow).1, List.mem_map.mpr ⟨entry, hentry, hpath⟩⟩
  · rintro ⟨kid, hkid, -, hwalk⟩
    obtain ⟨entry, hentry, hpath⟩ := List.mem_map.mp hwalk
    exact List.mem_map.mpr ⟨entry, mem_nodes_of_mem_kid hkid hentry, hpath⟩

end Kids

/-! ## Sorting -/

/-- The converted children in the order in which a node has them. -/
def sortedChildren (order : HashOrder) (converted : List (UInt32 × (Int × Mumlib.Channel))) :
    List (UInt32 × (Int × Mumlib.Channel)) :=
  (order.apply converted).mergeSort fun e e' => childKey e.2 ≤ childKey e'.2

theorem sortedChildren_perm (order : HashOrder)
    (converted : List (UInt32 × (Int × Mumlib.Channel))) :
    (sortedChildren order converted).Perm converted :=
  (List.mergeSort_perm _ _).trans (order.perm converted)

/-- Siblings come in the relation when a node is converted. -/
def HashOrder.Sorts (order : HashOrder) (channels : Channels) (R : UInt32 → UInt32 → Prop) : Prop :=
  ∀ converted : List (UInt32 × (Int × Mumlib.Channel)), (converted.map Prod.fst).Nodup →
    (∀ e ∈ converted, childKey e.2 = channels.sortKey e.1) →
      (sortedChildren order converted).Pairwise fun e e' => R e.1 e'.1

theorem childKey_le_trans : ∀ e e' e'' : UInt32 × (Int × Mumlib.Channel),
    decide (childKey e.2 ≤ childKey e'.2) → decide (childKey e'.2 ≤ childKey e''.2) →
      decide (childKey e.2 ≤ childKey e''.2) := by
  intro e e' e'' h h'
  rw [decide_eq_true_eq] at h h' ⊢
  exact h.trans h'

theorem childKey_le_total : ∀ e e' : UInt32 × (Int × Mumlib.Channel),
    (decide (childKey e.2 ≤ childKey e'.2) || decide (childKey e'.2 ≤ childKey e.2)) = true := by
  intro e e'
  rw [Bool.or_eq_true, decide_eq_true_eq, decide_eq_true_eq]
  exact le_total _ _

/-- Two elements of a list without duplicates stand in one order only. -/
theorem not_sublist_swap {A : Type} {l : List A} (hl : l.Nodup) {a b : A} (h : [a, b] <+ l) :
    ¬ [b, a] <+ l := by
  intro h'
  induction l with
  | nil => cases h
  | cons x l ih =>
      obtain ⟨hx, hl⟩ := List.nodup_cons.mp hl
      rcases List.cons_sublist_cons'.mp h with hin | ⟨ha, hin⟩
      · rcases List.cons_sublist_cons'.mp h' with hin' | ⟨hb, -⟩
        · exact ih hl hin hin'
        · exact hx (hb ▸ hin.subset (List.mem_cons_of_mem _ List.mem_cons_self))
      · rcases List.cons_sublist_cons'.mp h' with hin' | ⟨hb, hin'⟩
        · exact hx (ha ▸ hin'.subset (List.mem_cons_of_mem _ List.mem_cons_self))
        · exact hx (ha ▸ hin'.subset List.mem_cons_self)

/-- Siblings are sorted by position and name, in every iteration order. -/
theorem HashOrder.sorts (order : HashOrder) (channels : Channels) :
    order.Sorts channels fun x y => channels.sortKey x ≤ channels.sortKey y := by
  intro converted _ hkeys
  refine (List.pairwise_mergeSort childKey_le_trans childKey_le_total
    (order.apply converted)).imp_of_mem fun {e e'} he he' hle => ?_
  rw [decide_eq_true_eq] at hle
  show channels.sortKey e.1 ≤ channels.sortKey e'.1
  rw [← hkeys e ((sortedChildren_perm order converted).mem_iff.mp he),
    ← hkeys e' ((sortedChildren_perm order converted).mem_iff.mp he')]
  exact hle

/-- The order in which one key comes first. -/
def HashOrder.first (id : UInt32) : HashOrder where
  apply := fun entries =>
    entries.filter (fun entry => entry.1 = id) ++ entries.filter fun entry => !decide (entry.1 = id)
  perm := fun entries => List.filter_append_perm (fun entry => decide (entry.1 = id)) entries

/-- The channel that comes first in the iteration comes first among the siblings
with its position and name. -/
theorem HashOrder.sorts_first (id : UInt32) (channels : Channels) :
    (HashOrder.first id).Sorts channels fun x y =>
      channels.sortKey x ≤ channels.sortKey y ∧
        (y = id → x ≠ id → channels.sortKey x < channels.sortKey y) := by
  intro converted hnodup hkeys
  have hsorted := (HashOrder.first id).sorts channels converted hnodup hkeys
  have hmem : ∀ {e}, e ∈ sortedChildren (.first id) converted → e ∈ converted :=
    (sortedChildren_perm _ converted).mem_iff.mp
  have hdistinct : (sortedChildren (.first id) converted).Nodup := by
    rw [(sortedChildren_perm _ converted).nodup_iff]
    exact hnodup.of_map _
  refine List.pairwise_of_forall_sublist fun {e e'} hsub => ?_
  have hle := hsorted.forall_sublist hsub
  refine ⟨hle, fun he' he => lt_of_le_of_ne hle fun heq => ?_⟩
  -- a sibling with the same key would have to stand on both sides of the first one
  have hpair : [e', e] <+ (HashOrder.first id).apply converted := by
    have hone : [e'] <+ converted.filter fun entry => entry.1 = id :=
      List.singleton_sublist.mpr (List.mem_filter.mpr
        ⟨hmem (hsub.subset (by simp)), by simpa using he'⟩)
    have htwo : [e] <+ converted.filter fun entry => !decide (entry.1 = id) :=
      List.singleton_sublist.mpr (List.mem_filter.mpr
        ⟨hmem (hsub.subset (by simp)), by simpa using he⟩)
    exact hone.append htwo
  have hback : [e', e] <+ sortedChildren (.first id) converted := by
    refine List.pair_sublist_mergeSort childKey_le_trans childKey_le_total ?_ hpair
    rw [decide_eq_true_eq, hkeys e' (hmem (hsub.subset (by simp))),
      hkeys e (hmem (hsub.subset (by simp))), heq]
  exact not_sublist_swap hdistinct hsub hback

/-- What the conversion of a node is made of. -/
theorem ofProtoTree_eq_ok_sorted {order : HashOrder} {value : ProtoNode}
    {children : List (UInt32 × ProtoTree)} {tree : Mumlib.Channel}
    (h : Mumlib.Channel.ofProtoTree order (.node value children) = .ok tree) :
    ∃ channel converted, value.channel = some channel ∧
      children.mapM (ofChild order) = .ok converted ∧
      tree = { Mumlib.Channel.ofChannel channel with
        children := (sortedChildren order converted).map fun entry => entry.2.2
        users := value.users.map Mumlib.User.ofUser } := by
  rw [Mumlib.Channel.ofProtoTree] at h
  obtain ⟨channel, hchannel, h⟩ := bind_eq_ok.mp h
  obtain ⟨converted, hconverted, h⟩ := bind_eq_ok.mp h
  have hsorted : (sortedChildren order converted).map Prod.snd =
      ((order.apply converted).map Prod.snd).mergeSort fun e e' => childKey e ≤ childKey e' :=
    List.map_mergeSort fun _ _ _ _ => rfl
  cases h
  refine ⟨channel, converted, unwrap_eq_ok.mp hchannel,
    ofChildren_eq_mapM order children ▸ hconverted, ?_⟩
  rw [← hsorted, List.map_map]
  rfl

/-! ## The tree shows the map -/

section Finished

variable {order : HashOrder} {channels : Channels} {users : HashMap UInt32 User}
  {R : UInt32 → UInt32 → Prop} {root : Channel} {walks : List (List UInt32 × Channel)}
  (hwalks : walksOf channels = .ok walks) (hroot : channels.lookup 0 = some root)

include hwalks hroot

/-- What stands at a path of the finished `ProtoTree`. -/
theorem node_of_at? {path : List UInt32} {node : ProtoNode}
    (hnode : (protoTreeOf users root walks).at? path = some node) :
    ∃ channel, channels.lookup (endOf path) = some channel ∧
      node = ⟨some channel, users.values.filter fun user => user.channel = endOf path⟩ := by
  by_cases hne : path = []
  · subst hne
    rw [at?_nil_protoTree, getD_lookup_channelLookup] at hnode
    exact ⟨root, hroot, (Option.some.inj hnode).symm⟩
  · obtain ⟨id, r, channel, hchannel, -, hlast, rfl⟩ := leads_of_at?_protoTree hwalks hne hnode
    have hend : endOf path = id := by
      rw [endOf, hlast, Option.getD_some]
    refine ⟨channel, hend ▸ hchannel, ?_⟩
    rw [nodeOf, hlast, Option.bind_some, getD_lookup_channelLookup, hend]

omit hroot in
/-- Something stands at the walks of the channels and at the root. -/
theorem isSome_at?_iff {path : List UInt32} :
    ((protoTreeOf users root walks).at? path).isSome ↔
      path = [] ∨ path ≠ [] ∧ ∃ id r, Leads channels.parentOf id path r := by
  by_cases hne : path = []
  · subst hne
    rw [at?_nil_protoTree]
    exact iff_of_true rfl (.inl rfl)
  · rw [Option.isSome_iff_exists]
    constructor
    · rintro ⟨node, hnode⟩
      obtain ⟨id, r, -, -, hlead, -⟩ := leads_of_at?_protoTree hwalks hne hnode
      exact .inr ⟨hne, id, r, hlead⟩
    · rintro (h | ⟨-, id, r, hlead⟩)
      · exact absurd h hne
      · obtain ⟨own, hown⟩ := Option.isSome_iff_exists.mp hlead.parent_isSome
        obtain ⟨channel, hchannel, -⟩ := Channels.parentOf_eq_some.mp hown
        exact ⟨_, at?_protoTree_of_leads hwalks hchannel hlead hne⟩

/-- A converted child is sorted by the position and the name of its channel. -/
theorem childKey_of_shows {walk : List UInt32} {e : UInt32 × (Int × Mumlib.Channel)}
    {node : ProtoNode} {own : Channel} {nodes : List (List UInt32 × Mumlib.Channel)}
    (hnode : (protoTreeOf users root walks).at? (walk ++ [e.1]) = some node)
    (hown : node.channel = some own) (hposition : e.2.1 = own.position)
    (hshows : Shows channels users R (walk ++ [e.1]) e.2.2 nodes) :
    childKey e.2 = channels.sortKey e.1 := by
  have hlookup : channels.lookup e.1 = some own := by
    obtain ⟨found, hfound, hvalue⟩ := node_of_at? hwalks hroot hnode
    rw [endOf_concat] at hfound
    rw [hfound, ← hown, hvalue]
  cases hshows with
  | node hfound hname =>
      rw [endOf_concat, hlookup] at hfound
      cases hfound
      rw [childKey, Channels.sortKey, hlookup, hposition, hname]

/-- The conversion of the node at the end of a walk shows its channel. -/
theorem shows_of_ofProtoTree (hsorts : order.Sorts channels R) {proto : ProtoTree}
    {walk : List UInt32} {tree : Mumlib.Channel} (hkeyed : proto.Keyed)
    (hat : ∀ path, proto.at? path = (protoTreeOf users root walks).at? (walk ++ path))
    (hconvert : Mumlib.Channel.ofProtoTree order proto = .ok tree) :
    ∃ nodes, Shows channels users R walk tree nodes ∧
      ∀ path, walk ++ path ∈ nodes.map Prod.fst ↔ (proto.at? path).isSome := by
  -- the node of a child satisfies the same with a longer walk
  induction proto using Trie.induction generalizing walk tree with
  | hnode value children ih =>
      cases hkeyed with
      | node hkeys hchildren =>
      have hnode : (protoTreeOf users root walks).at? walk = some value := by
        have h := hat []
        rw [List.append_nil] at h
        exact h.symm
      obtain ⟨channel, hchannel, hvalue⟩ := node_of_at? hwalks hroot hnode
      obtain ⟨channel', converted, hchannel', hconverted, rfl⟩ := ofProtoTree_eq_ok_sorted hconvert
      rw [hvalue] at hchannel'
      cases hchannel'
      have hfst := map_fst_of_mapM_ofChild hconverted
      -- every converted child shows its channel and carries its position
      have hchild : ∀ e ∈ converted, ∃ nodes,
          Shows channels users R (walk ++ [e.1]) e.2.2 nodes ∧
          (∀ path, walk ++ e.1 :: path ∈ nodes.map Prod.fst ↔
            ((Trie.node value children).at? (e.1 :: path)).isSome) ∧
          childKey e.2 = channels.sortKey e.1 := by
        intro e he
        obtain ⟨child, hmem, hok⟩ := (mem_of_mapM_eq_ok hconverted).mp he
        obtain ⟨hid, ⟨own, hown, hposition⟩, hsub⟩ := ofChild_eq_ok_iff.mp hok
        have hatChild : ∀ path, child.2.at? path =
            (protoTreeOf users root walks).at? (walk ++ [e.1] ++ path) := fun path => by
          rw [List.append_assoc, List.singleton_append, ← hat, hid,
            Trie.at?_cons_of_mem hkeys hmem]
        obtain ⟨nodes, hshows, hpaths⟩ := ih child hmem (hchildren child hmem) hatChild hsub
        refine ⟨nodes, hshows, fun path => ?_, ?_⟩
        · rw [hid, Trie.at?_cons_of_mem hkeys hmem, ← hpaths, hid, List.append_assoc,
            List.singleton_append]
        · have hnode := hatChild []
          rw [Trie.at?_nil, List.append_nil] at hnode
          exact childKey_of_shows hwalks hroot hnode.symm hown hposition hshows
      choose! nodesOf hshows hpaths hkey using hchild
      have hperm := sortedChildren_perm order converted
      have hnodup : (converted.map Prod.fst).Nodup := by rwa [hfst]
      have hsorted := hsorts converted hnodup hkey
      have hkids : ∀ kid ∈ (sortedChildren order converted).map fun e => (e.1, e.2.2, nodesOf e),
          Shows channels users R (walk ++ [kid.1]) kid.2.1 kid.2.2 := by
        intro kid hkid
        obtain ⟨e, he, rfl⟩ := List.mem_map.mp hkid
        exact hshows e (hperm.mem_iff.mp he)
      refine ⟨_, @Shows.node channels users R walk channel _ _ hchannel rfl rfl rfl ?_ ?_ ?_ hkids,
        fun path => ?_⟩
      · rw [hvalue]
      · rw [List.map_map]
        rfl
      · refine List.pairwise_map.mpr (List.Pairwise.and ?_ hsorted)
        exact List.pairwise_map.mp ((hperm.map Prod.fst).nodup_iff.mpr hnodup)
      · cases path with
        | nil => simp
        | cons key path =>
            rw [walk_mem_nodes_iff hkids]
            constructor
            · rintro ⟨kid, hkid, hkeyEq, hmem⟩
              obtain ⟨e, he, rfl⟩ := List.mem_map.mp hkid
              subst hkeyEq
              exact (hpaths e (hperm.mem_iff.mp he) path).mp hmem
            · intro hsome
              obtain ⟨node, hnode⟩ := Option.isSome_iff_exists.mp hsome
              have hkeyMem := Trie.mem_keys_of_at?_cons hkeys hnode
              rw [← hfst] at hkeyMem
              obtain ⟨e, he, rfl⟩ := List.mem_map.mp hkeyMem
              exact ⟨_, List.mem_map_of_mem (hperm.mem_iff.mpr he), rfl,
                (hpaths e he path).mpr hsome⟩

end Finished

/-- The nodes of a tree with their walks, as it shows the map from the root down:
the root, and every channel that has a parent. -/
structure Listing (channels : Channels) (users : HashMap UInt32 User)
    (R : UInt32 → UInt32 → Prop) (tree : Mumlib.Channel)
    (nodes : List (List UInt32 × Mumlib.Channel)) : Prop where
  shows : Shows channels users R [] tree nodes
  walks : ∀ walk, walk ∈ nodes.map Prod.fst ↔
    walk = [] ∨ walk ≠ [] ∧ ∃ id r, Leads channels.parentOf id walk r

theorem Listing.mono {channels : Channels} {users : HashMap UInt32 User}
    {R R' : UInt32 → UInt32 → Prop} {tree : Mumlib.Channel}
    {nodes : List (List UInt32 × Mumlib.Channel)} (h : Listing channels users R tree nodes)
    (hR : ∀ x y, R x y → R' x y) : Listing channels users R' tree nodes :=
  ⟨h.shows.mono hR, h.walks⟩

/-- What `intoChannel` returns has a listing. -/
theorem intoChannel_listing {order : HashOrder} {channels : Channels}
    {users : HashMap UInt32 User} {R : UInt32 → UInt32 → Prop} (hsorts : order.Sorts channels R)
    {tree : Mumlib.Channel} (h : intoChannel order channels users = .ok tree) :
    ∃ nodes, Listing channels users R tree nodes := by
  have hreturns : Returns (intoChannel order channels users) := ⟨tree, h⟩
  obtain ⟨hzero, hgood⟩ := (intoChannel_returns_iff order channels users).mp hreturns
  obtain ⟨root, hroot⟩ := HashMap.mem_iff_lookup.mp hzero
  obtain ⟨walks, hwalks⟩ := walksOf_returns_iff.mpr hgood
  rw [intoChannel_eq order users hwalks hroot] at h
  have hat : ∀ path, (protoTreeOf users root walks).at? path =
      (protoTreeOf users root walks).at? ([] ++ path) := fun _ => rfl
  obtain ⟨nodes, hshows, hpaths⟩ :=
    shows_of_ofProtoTree hwalks hroot hsorts keyed_protoTree hat h
  exact ⟨nodes, hshows, fun walk => (hpaths walk).trans (isSome_at?_iff hwalks)⟩

/-! ## The walk under which a channel is shown -/

/-- The channel is shown at the end of the walk. -/
def ShownAt (channels : Channels) (id : UInt32) (walk : List UInt32) : Prop :=
  if id = 0 then walk = [] else walk ≠ [] ∧ ∃ r, Leads channels.parentOf id walk r

namespace ShownAt

variable {channels : Channels} {id : UInt32} {walk walk' : List UInt32}

theorem endOf_eq (h : ShownAt channels id walk) : endOf walk = id := by
  unfold ShownAt at h
  split at h
  next hid => rw [h, hid, endOf_nil]
  next hid =>
    obtain ⟨hne, r, hlead⟩ := h
    rw [endOf, getLast?_of_leads hlead hne, Option.getD_some]

theorem unique (h : ShownAt channels id walk) (h' : ShownAt channels id walk') :
    walk = walk' := by
  unfold ShownAt at h h'
  split at h
  next hid =>
    rw [if_pos hid] at h'
    rw [h, h']
  next hid =>
    rw [if_neg hid] at h'
    obtain ⟨-, r, hlead⟩ := h
    obtain ⟨-, r', hlead'⟩ := h'
    exact (hlead.unique hlead').1

theorem mem_walks {users : HashMap UInt32 User} {R : UInt32 → UInt32 → Prop}
    {tree : Mumlib.Channel} {nodes : List (List UInt32 × Mumlib.Channel)}
    (h : ShownAt channels id walk) (hlisting : Listing channels users R tree nodes) :
    ∃ node, (walk, node) ∈ nodes := by
  have hmem : walk ∈ nodes.map Prod.fst := by
    rw [hlisting.walks]
    unfold ShownAt at h
    split at h
    · exact .inl h
    · exact .inr ⟨h.1, id, h.2⟩
  obtain ⟨⟨_, node⟩, hnode, rfl⟩ := List.mem_map.mp hmem
  exact ⟨node, hnode⟩

/-- The root is shown, and every channel with a parent. -/
theorem exists_iff (hchains : ∀ id ∈ channels, ∃ walk r, Leads channels.parentOf id walk r)
    (hid : id ∈ channels) :
    (∃ walk, ShownAt channels id walk) ↔
      id = 0 ∨ ∃ parent, channels.parentOf id = some (some parent) := by
  unfold ShownAt
  split
  next hzero => exact iff_of_true ⟨[], rfl⟩ (.inl hzero)
  next hzero =>
    rw [or_iff_right hzero]
    constructor
    · rintro ⟨walk, hne, r, hlead⟩
      cases hlead with
      | top => exact absurd rfl hne
      | up hparent => exact ⟨_, hparent⟩
    · rintro ⟨parent, hparent⟩
      obtain ⟨walk, r, hlead⟩ := hchains id hid
      refine ⟨walk, ?_, r, hlead⟩
      rintro rfl
      have htop := hlead.parent_top
      rw [← hlead.eq_top, hparent] at htop
      cases htop

end ShownAt

/-- A channel may be listed before another: it is above it, or the two lie below
siblings of which the first is not sorted after the second. -/
def MayPrecede (channels : Channels) (id id' : UInt32) : Prop :=
  ∃ walk walk', ShownAt channels id walk ∧ ShownAt channels id' walk' ∧
    Before (fun x y => channels.sortKey x ≤ channels.sortKey y) walk walk'

/-- The channel at the end of a listed walk, listed where it is shown or later. -/
theorem Listing.mayPrecede {channels : Channels} {users : HashMap UInt32 User}
    {tree : Mumlib.Channel} {nodes : List (List UInt32 × Mumlib.Channel)}
    (h : Listing channels users (fun x y => channels.sortKey x ≤ channels.sortKey y) tree nodes)
    {walk walk' : List UInt32} {id : UInt32} (hwalk : walk ∈ nodes.map Prod.fst)
    (hshown : ShownAt channels id walk')
    (hbefore : Before (fun x y => channels.sortKey x ≤ channels.sortKey y) walk walk') :
    endOf walk ≠ id ∧ MayPrecede channels (endOf walk) id := by
  have hlead : walk = [] ∨ walk ≠ [] ∧ ∃ r, Leads channels.parentOf (endOf walk) walk r := by
    refine ((h.walks walk).mp hwalk).imp_right fun ⟨hne, id', r, hlead⟩ => ⟨hne, r, ?_⟩
    rwa [endOf, getLast?_of_leads hlead hne, Option.getD_some]
  have hne : endOf walk ≠ id := by
    rintro rfl
    unfold ShownAt at hshown
    split at hshown
    · rw [hshown] at hbefore
      exact not_before_nil hbefore
    next hend =>
      rcases hlead with rfl | ⟨-, r, hlead⟩
      · exact hend rfl
      · obtain ⟨-, r', hlead'⟩ := hshown
        rw [(hlead.unique hlead').1] at hbefore
        exact Before.irrefl hbefore
  refine ⟨hne, ?_⟩
  by_cases hend : endOf walk = 0
  · -- the root is listed first of all
    rw [hend] at hne ⊢
    have hshown' := hshown
    unfold ShownAt at hshown'
    rw [if_neg (Ne.symm hne)] at hshown'
    refine ⟨[], walk', by rw [ShownAt, if_pos rfl], hshown, ?_⟩
    exact .above hshown'.1
  · rcases hlead with rfl | hlead
    · exact absurd endOf_nil hend
    · exact ⟨walk, walk', by rw [ShownAt, if_neg hend]; exact hlead, hshown, hbefore⟩

end Mum
