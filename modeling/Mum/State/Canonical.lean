import Mum.State.Identifiers
import Mum.State.Listing

/-!
# The channel tree is canonical

`intoChannel` iterates over hash maps at several places: over the channels, over
the users, and over the children of every node.  If the map is a tree whose
siblings differ in position or name, then only the order of the users inside a
channel depends on the iteration orders.

Two trees that show the same map are compared node by node (`Shows.sameTree`).
The ids of the children are those of the walks one step longer, which both trees
have, and a list without ties is sorted in one way only.

That there are no ties is a property of the map, and has to be carried to the children of each
node.  This is `DistinctKeys.eq_of_walks`: children of one node have the same parent in the
map.  For the children of the root this needs the map to be a tree, since channels below
another channel without parent are shown there too.
-/

namespace Mum

open Library Library.Eval Library.ParentChain
open scoped List

/-- Siblings differ in position or name. -/
def Channels.DistinctKeys (channels : Channels) : Prop :=
  ∀ id id' parent, channels.parentOf id = some (some parent) →
    channels.parentOf id' = some (some parent) → channels.sortKey id = channels.sortKey id' →
      id = id'

/-- The same tree, up to the order of the users inside a channel. -/
inductive SameTree : Mumlib.Channel → Mumlib.Channel → Prop
  | node {tree tree' : Mumlib.Channel} (hdescription : tree.description = tree'.description)
      (hmaxUsers : tree.maxUsers = tree'.maxUsers) (hname : tree.name = tree'.name)
      (hlinks : tree.links = tree'.links) (husers : tree.users ~ tree'.users)
      (hlength : tree.children.length = tree'.children.length)
      (hchildren : ∀ (i : ℕ) child child', tree.children[i]? = some child →
        tree'.children[i]? = some child' → SameTree child child') :
      SameTree tree tree'

/-! ## The walks below a node -/

section Kids

variable {channels : Channels} {users : HashMap UInt32 User} {R : UInt32 → UInt32 → Prop}
  {walk : List UInt32} {tree : Mumlib.Channel}
  {kids : List (UInt32 × Mumlib.Channel × List (List UInt32 × Mumlib.Channel))}
  (hkids : ∀ kid ∈ kids, Shows channels users R (walk ++ [kid.1]) kid.2.1 kid.2.2)

include hkids

/-- The ids of the children are the walks one step longer. -/
theorem mem_kids_iff {key : UInt32} :
    key ∈ kids.map Prod.fst ↔
      walk ++ [key] ∈ ((walk, tree) :: (kids.map fun kid => kid.2.2).flatten).map Prod.fst := by
  rw [walk_mem_nodes_iff hkids]
  constructor
  · intro hkey
    obtain ⟨kid, hkid, rfl⟩ := List.mem_map.mp hkey
    exact ⟨kid, hkid, rfl, List.mem_map_of_mem (hkids kid hkid).mem_self⟩
  · rintro ⟨kid, hkid, rfl, -⟩
    exact List.mem_map_of_mem hkid

/-- The walks below a child are those that the node lists below it. -/
theorem mem_walks_kid_iff (hnodup : (kids.map Prod.fst).Nodup)
    {kid : UInt32 × Mumlib.Channel × List (List UInt32 × Mumlib.Channel)} (hkid : kid ∈ kids)
    (path : List UInt32) :
    walk ++ [kid.1] ++ path ∈ kid.2.2.map Prod.fst ↔
      walk ++ [kid.1] ++ path ∈
        ((walk, tree) :: (kids.map fun kid => kid.2.2).flatten).map Prod.fst := by
  rw [List.append_assoc, List.singleton_append, walk_mem_nodes_iff hkids]
  constructor
  · exact fun h => ⟨kid, hkid, rfl, h⟩
  · rintro ⟨kid', hkid', heq, hmem⟩
    obtain rfl : kid' = kid := List.inj_on_of_nodup_map hnodup hkid' hkid heq
    exact hmem

end Kids

/-- Children that are sorted without ties stand in one order only. -/
theorem map_fst_eq_of_sorted {A : Type} {R : UInt32 → UInt32 → Prop}
    {kids kids' : List (UInt32 × A)}
    (hsorted : kids.Pairwise fun kid kid' => kid.1 ≠ kid'.1 ∧ R kid.1 kid'.1)
    (hsorted' : kids'.Pairwise fun kid kid' => kid.1 ≠ kid'.1 ∧ R kid.1 kid'.1)
    (hmem : ∀ key, key ∈ kids.map Prod.fst ↔ key ∈ kids'.map Prod.fst)
    (hanti : ∀ a ∈ kids.map Prod.fst, ∀ b ∈ kids.map Prod.fst, R a b → R b a → a = b) :
    kids.map Prod.fst = kids'.map Prod.fst := by
  have hnodup : (kids.map Prod.fst).Nodup := List.pairwise_map.mpr (hsorted.imp And.left)
  have hnodup' : (kids'.map Prod.fst).Nodup := List.pairwise_map.mpr (hsorted'.imp And.left)
  have hperm : kids.map Prod.fst ~ kids'.map Prod.fst :=
    (List.perm_ext_iff_of_nodup hnodup hnodup').mpr hmem
  refine List.Perm.eq_of_pairwise (fun a b ha hb => ?_)
    (List.pairwise_map.mpr (hsorted.imp And.right))
    (List.pairwise_map.mpr (hsorted'.imp And.right)) hperm
  exact hanti a ha b ((hmem b).mpr hb)

/-! ## Two trees of one map -/

/-- Trees that show the same map with the same walks are the same. -/
theorem Shows.sameTree {channels channels' : Channels} {users users' : HashMap UInt32 User}
    {R : UInt32 → UInt32 → Prop} (hsame : ∀ id, channels'.lookup id = channels.lookup id)
    (husers : users.values ~ users'.values) {walk : List UInt32} {tree tree' : Mumlib.Channel}
    {nodes nodes' : List (List UInt32 × Mumlib.Channel)}
    (h : Shows channels users R walk tree nodes) (h' : Shows channels' users' R walk tree' nodes')
    (hanti : ∀ walk a b, walk ++ [a] ∈ nodes.map Prod.fst → walk ++ [b] ∈ nodes.map Prod.fst →
      R a b → R b a → a = b)
    (hwalks : ∀ path, walk ++ path ∈ nodes.map Prod.fst ↔ walk ++ path ∈ nodes'.map Prod.fst)
    (hlinks : ∀ entry ∈ nodes, entry.2.links = [])
    (hlinks' : ∀ entry ∈ nodes', entry.2.links = []) :
    SameTree tree tree' := by
  induction h generalizing tree' nodes' with
  | @node walk channel tree kids hchannel hname hdescription hmaxUsers hown hchildren hsorted
      hkids ih =>
      cases h' with
      | @node _ channel' _ kids' hchannel' hname' hdescription' hmaxUsers' hown' hchildren'
          hsorted' hkids' =>
      rw [hsame, hchannel] at hchannel'
      cases hchannel'
      have hnodup : (kids.map Prod.fst).Nodup := List.pairwise_map.mpr (hsorted.imp And.left)
      have hnodup' : (kids'.map Prod.fst).Nodup := List.pairwise_map.mpr (hsorted'.imp And.left)
      -- both nodes have the same children in the same order
      have hmem : ∀ key, key ∈ kids.map Prod.fst ↔ key ∈ kids'.map Prod.fst := by
        intro key
        rw [mem_kids_iff hkids, hwalks, ← mem_kids_iff hkids']
      have hkeys : kids.map Prod.fst = kids'.map Prod.fst :=
        map_fst_eq_of_sorted hsorted hsorted' hmem fun a ha b hb =>
          hanti walk a b ((mem_kids_iff hkids).mp ha) ((mem_kids_iff hkids).mp hb)
      have hlength : kids.length = kids'.length := by
        simpa using congrArg List.length hkeys
      refine .node ?_ ?_ ?_ ?_ ?_ ?_ ?_
      · rw [hdescription, hdescription']
      · rw [hmaxUsers, hmaxUsers']
      · rw [hname, hname']
      · rw [hlinks _ (List.mem_cons_self ..), hlinks' _ (List.mem_cons_self ..)]
      · rw [hown, hown']
        exact (husers.filter _).map _
      · rw [hchildren, hchildren', List.length_map, List.length_map, hlength]
      · intro i child child' hchild hchild'
        rw [hchildren, List.getElem?_map, Option.map_eq_some_iff] at hchild
        rw [hchildren', List.getElem?_map, Option.map_eq_some_iff] at hchild'
        obtain ⟨kid, hi, rfl⟩ := hchild
        obtain ⟨kid', hi', rfl⟩ := hchild'
        have hkid : kid ∈ kids := List.mem_of_getElem? hi
        have hkid' : kid' ∈ kids' := List.mem_of_getElem? hi'
        have hkey : kid.1 = kid'.1 := by
          have hget := congrArg (·[i]?) hkeys
          simp only [List.getElem?_map, hi, hi', Option.map_some, Option.some.injEq] at hget
          exact hget
        refine ih kid hkid (hkey ▸ hkids' kid' hkid') ?_ ?_ ?_ ?_
        · intro above a b ha hb
          obtain ⟨entry, hentry, hfst⟩ := List.mem_map.mp ha
          obtain ⟨entry', hentry', hfst'⟩ := List.mem_map.mp hb
          exact hanti above a b
            (List.mem_map.mpr ⟨entry, mem_nodes_of_mem_kid hkid hentry, hfst⟩)
            (List.mem_map.mpr ⟨entry', mem_nodes_of_mem_kid hkid hentry', hfst'⟩)
        · intro path
          rw [mem_walks_kid_iff hkids hnodup hkid, List.append_assoc, hwalks,
            ← List.append_assoc, hkey, ← mem_walks_kid_iff hkids' hnodup' hkid']
        · exact fun entry hentry => hlinks entry (mem_nodes_of_mem_kid hkid hentry)
        · exact fun entry hentry => hlinks' entry (mem_nodes_of_mem_kid hkid' hentry)

/-! ## The links -/

theorem Mumlib.Channel.mem_preorders {children : List Mumlib.Channel} {node : Mumlib.Channel} :
    node ∈ Mumlib.Channel.preorders children ↔ ∃ child ∈ children, node ∈ child.preorder := by
  induction children with
  | nil => simp [Mumlib.Channel.preorders]
  | cons child rest ih =>
      rw [Mumlib.Channel.preorders, List.mem_append, ih, List.exists_mem_cons_iff]

/-- No converted channel has links. -/
theorem links_ofProtoTree {order : HashOrder} {proto : ProtoTree} {tree : Mumlib.Channel}
    (h : Mumlib.Channel.ofProtoTree order proto = .ok tree) :
    ∀ node ∈ tree.preorder, node.links = [] := by
  induction proto using Trie.induction generalizing tree with
  | hnode value children ih =>
      obtain ⟨channel, entries, converted, -, hconverted, hperm, rfl⟩ := ofProtoTree_eq_ok h
      intro node hnode
      rw [Mumlib.Channel.preorder] at hnode
      rcases List.mem_cons.mp hnode with rfl | hnode
      · rfl
      · obtain ⟨child, hchild, hnode⟩ := Mumlib.Channel.mem_preorders.mp hnode
        obtain ⟨entry, hentry, rfl⟩ := List.mem_map.mp hchild
        obtain ⟨proto, hproto, hok⟩ :=
          (mem_of_mapM_eq_ok hconverted).mp (hperm.mem_iff.mp hentry)
        exact ih proto hproto (ofChild_eq_ok_iff.mp hok).2.2 node hnode

theorem links_intoChannel {order : HashOrder} {channels : Channels} {users : HashMap UInt32 User}
    {tree : Mumlib.Channel} (h : intoChannel order channels users = .ok tree) :
    ∀ node ∈ tree.preorder, node.links = [] := by
  obtain ⟨hzero, hgood⟩ := (intoChannel_returns_iff order channels users).mp ⟨tree, h⟩
  obtain ⟨root, hroot⟩ := HashMap.mem_iff_lookup.mp hzero
  obtain ⟨walks, hwalks⟩ := walksOf_returns_iff.mpr hgood
  rw [intoChannel_eq order users hwalks hroot] at h
  exact links_ofProtoTree h

/-! ## Two iteration orders -/

namespace Channels

variable {channels channels' : Channels}

theorem sortKey_congr (hsame : ∀ id, channels'.lookup id = channels.lookup id) :
    channels'.sortKey = channels.sortKey :=
  funext fun id => by rw [sortKey, sortKey, hsame]

theorem IsTree.intoChannel_returns (h : channels.IsTree) (order : HashOrder)
    (users : HashMap UInt32 User) : Returns (intoChannel order channels users) := by
  refine (intoChannel_returns_iff order channels users).mpr ⟨?_, fun id hid => ?_⟩
  · rw [← parentOf_isSome, h.root]
    rfl
  · obtain ⟨walk, hwalk⟩ := h.leads id hid
    exact ⟨walk, 0, hwalk⟩

/-- Siblings that are listed in both orders are the same. -/
theorem DistinctKeys.eq_of_walks (h : channels.DistinctKeys) (htree : channels.IsTree)
    {users : HashMap UInt32 User} {R : UInt32 → UInt32 → Prop} {tree : Mumlib.Channel}
    {nodes : List (List UInt32 × Mumlib.Channel)} (hlisting : Listing channels users R tree nodes)
    {walk : List UInt32} {a b : UInt32} (ha : walk ++ [a] ∈ nodes.map Prod.fst)
    (hb : walk ++ [b] ∈ nodes.map Prod.fst) (hkey : channels.sortKey a = channels.sortKey b) :
    a = b := by
  have hlead : ∀ c, walk ++ [c] ∈ nodes.map Prod.fst →
      ∃ p, channels.parentOf c = some (some p) ∧ Leads channels.parentOf p walk 0 := by
    intro c hc
    rcases (hlisting.walks _).mp hc with hnil | ⟨-, id, r, hid⟩
    · simp at hnil
    · obtain ⟨rfl, p, hp, hwalk⟩ := hid.of_concat
      obtain ⟨walk', hroot⟩ := htree.leads id (parentOf_isSome.mp hid.parent_isSome)
      obtain ⟨-, rfl⟩ := hid.unique hroot
      exact ⟨p, hp, hwalk⟩
  obtain ⟨p, hp, hwalk⟩ := hlead a ha
  obtain ⟨p', hp', hwalk'⟩ := hlead b hb
  cases hwalk.key_eq hwalk'
  exact h a b p hp hp' hkey

end Channels

/-- **The tree is canonical.**  Two iteration orders give the same tree, up to the
order of the users inside a channel, and its siblings are sorted by position and
name. -/
theorem intoChannel_sameTree (order order' : HashOrder) (channels channels' : Channels)
    (users users' : HashMap UInt32 User) (hchannels : channels'.entries ~ channels.entries)
    (husers : users'.entries ~ users.entries) (htree : channels.IsTree)
    (hdistinct : channels.DistinctKeys) :
    ∃ tree tree', intoChannel order channels users = .ok tree ∧
      intoChannel order' channels' users' = .ok tree' ∧ SameTree tree tree' ∧
      ∃ nodes, Listing channels users (fun x y => channels.sortKey x ≤ channels.sortKey y) tree
        nodes := by
  have hsame : ∀ id, channels'.lookup id = channels.lookup id := fun id =>
    AList.perm_lookup hchannels
  have hvalues : users.values ~ users'.values := (husers.symm.map _).map _
  have hparents := Channels.parentOf_congr hsame
  obtain ⟨tree, hok⟩ := htree.intoChannel_returns order users
  obtain ⟨tree', hok'⟩ := (htree.congr hsame).intoChannel_returns order' users'
  obtain ⟨nodes, hlisting⟩ := intoChannel_listing (order.sorts channels) hok
  obtain ⟨nodes', hlisting'⟩ := intoChannel_listing (order'.sorts channels') hok'
  rw [Channels.sortKey_congr hsame] at hlisting'
  have hwalks : ∀ path, path ∈ nodes.map Prod.fst ↔ path ∈ nodes'.map Prod.fst := by
    intro path
    rw [hlisting.walks, hlisting'.walks, hparents]
  have hlinks : ∀ entry ∈ nodes, entry.2.links = [] := fun entry hentry =>
    links_intoChannel hok _ (hlisting.shows.map_snd ▸ List.mem_map_of_mem hentry)
  have hlinks' : ∀ entry ∈ nodes', entry.2.links = [] := fun entry hentry =>
    links_intoChannel hok' _ (hlisting'.shows.map_snd ▸ List.mem_map_of_mem hentry)
  refine ⟨tree, tree', hok, hok', ?_, nodes, hlisting⟩
  exact hlisting.shows.sameTree hsame hvalues hlisting'.shows
    (fun walk a b ha hb hle hge =>
      hdistinct.eq_of_walks htree hlisting ha hb (le_antisymm hle hge))
    (fun path => hwalks path) hlinks hlinks'

/-- Two channels of one position below the root. -/
def twoRooms : Channels :=
  (((∅ : Channels).insert 0 ⟨none, [], 0, "Root", none, 0⟩).insert 1
    ⟨none, [], 5, "Lobby", some 0, 0⟩).insert 2 ⟨none, [], 0, "Attic", some 0, 0⟩

/-- The same channels, iterated in another order. -/
def turnedRooms : Channels :=
  (((∅ : Channels).insert 2 ⟨none, [], 0, "Attic", some 0, 0⟩).insert 0
    ⟨none, [], 0, "Root", none, 0⟩).insert 1 ⟨none, [], 5, "Lobby", some 0, 0⟩

theorem isTree_twoRooms : twoRooms.IsTree where
  root := by decide
  leads := by
    have hzero : Leads twoRooms.parentOf 0 [] 0 := .top (by decide)
    have hone : Leads twoRooms.parentOf 1 ([] ++ [1]) 0 := .up (by decide) hzero
    have htwo : Leads twoRooms.parentOf 2 ([] ++ [2]) 0 := .up (by decide) hzero
    intro id hid
    have hkeys : id ∈ [2, 1, 0] := AList.mem_keys.mp hid
    simp only [List.mem_cons, List.not_mem_nil, or_false] at hkeys
    rcases hkeys with rfl | rfl | rfl
    exacts [⟨_, htwo⟩, ⟨_, hone⟩, ⟨_, hzero⟩]

theorem distinctKeys_twoRooms : twoRooms.DistinctKeys := by
  have hnodup : (twoRooms.keys.map twoRooms.sortKey).Nodup := by decide
  have hmem : ∀ {id parent}, twoRooms.parentOf id = some (some parent) → id ∈ twoRooms.keys := by
    intro id parent h
    exact Channels.mem_keys_of_parentOf_isSome (by rw [h]; rfl)
  intro id id' parent h h' hkey
  exact List.inj_on_of_nodup_map hnodup (hmem h) (hmem h') hkey

theorem intoChannel_sameTree_twoRooms :
    ∃ tree tree', intoChannel .insertion twoRooms ∅ = .ok tree ∧
      intoChannel (.first 1) turnedRooms ∅ = .ok tree' ∧ SameTree tree tree' ∧
      ∃ nodes, Listing twoRooms ∅ (fun x y => twoRooms.sortKey x ≤ twoRooms.sortKey y) tree
        nodes :=
  intoChannel_sameTree .insertion (.first 1) twoRooms turnedRooms ∅ ∅ (by decide) (.refl _)
    isTree_twoRooms distinctKeys_twoRooms

end Mum
