import Mathlib.Data.Prod.Lex
import Mathlib.Data.String.Basic
import Mum.Library.Trie
import Mum.State.Channel
import Mum.State.User

/-!
# The channel tree

`into_channel` of `mum/src/state/channel.rs`: the channel map as a tree for the
controllers.  Every channel is walked up to the root, the walks are added to a
`ProtoTree` in the order in which the map is iterated, and the `ProtoTree` is
converted node by node.

The children of a `ProtoTree` are a hash map too.  Its iteration order reaches
the result only through ties of the sort, and is a parameter here.
-/

namespace Mum

open Library Library.Eval Library.ParentChain

/-- The order in which the hash maps with children are iterated. -/
structure HashOrder where
  apply : {V : Type} → List (UInt32 × V) → List (UInt32 × V)
  perm : ∀ {V : Type} (entries : List (UInt32 × V)), (apply entries).Perm entries

/-- Entries in the order in which they were inserted. -/
def HashOrder.insertion : HashOrder where
  apply := id
  perm := fun _ => .refl _

/-- What a `ProtoTree` stores besides its children. -/
structure ProtoNode where
  channel : Option Channel
  users : List User
deriving DecidableEq, Repr

/-- A node that was created on the way to a descendant. -/
def ProtoNode.placeholder : ProtoNode := ⟨none, []⟩

abbrev ProtoTree := Trie UInt32 ProtoNode

namespace ProtoTree

/-- Adds `channel` at the end of the walk and fills in its users. -/
def walkAndAdd (channel : Channel) (users : HashMap UInt32 (List User)) :
    List UInt32 → ProtoTree → Eval ProtoTree
  | [], _ => .error .panic
  | [node], tree =>
      let pt := (tree.children.lookup node).getD (.node .placeholder [])
      -- a placeholder keeps the children it got from earlier walks
      let pt := Trie.node ⟨some channel, (users.lookup node).getD []⟩ pt.children
      .ok (.node tree.value (Trie.setIn node pt tree.children))
  | first :: second :: rest, tree => do
      let pt := (tree.children.lookup first).getD (.node .placeholder [])
      let pt ← walkAndAdd channel users (second :: rest) pt
      .ok (.node tree.value (Trie.setIn first pt tree.children))

end ProtoTree

/-- `From<&Channel>`: the channel without children and users. -/
def Mumlib.Channel.ofChannel (channel : Mum.Channel) : Mumlib.Channel :=
  Mumlib.Channel.new channel.name channel.description channel.maxUsers

/-- The key the children of a node are sorted by. -/
def childKey (child : Int × Mumlib.Channel) : Int ×ₗ String := toLex (child.1, child.2.name)

mutual

/-- `From<&ProtoTree>`. -/
def Mumlib.Channel.ofProtoTree (order : HashOrder) : ProtoTree → Eval Mumlib.Channel
  | .node value children => do
      let channel ← unwrap value.channel
      let children ← ofChildren order children
      let children := (order.apply children).map Prod.snd
      let children := children.mergeSort fun e e' => childKey e ≤ childKey e'
      .ok { Mumlib.Channel.ofChannel channel with
        children := children.map Prod.snd
        users := value.users.map Mumlib.User.ofUser }

/-- The children with their positions. -/
def Mumlib.Channel.ofChildren (order : HashOrder) :
    List (UInt32 × ProtoTree) → Eval (List (UInt32 × (Int × Mumlib.Channel)))
  | [] => .ok []
  | (id, tree) :: rest => do
      let channel ← unwrap tree.value.channel
      let converted ← ofProtoTree order tree
      let rest ← ofChildren order rest
      .ok ((id, (channel.position, converted)) :: rest)

end

/-- The users of each channel, in the order in which the user map is iterated. -/
def channelLookup (users : HashMap UInt32 User) : HashMap UInt32 (List User) :=
  users.values.foldl (fun lookup user => lookup.upsert user.channel [user] (· ++ [user])) ∅

/-- The ids passed from the root down to a channel, the root left out. -/
def walkOf (channels : Channels) (id : UInt32) : Eval (List UInt32) := do
  let walk ← climb channels.parentOf channels.keys.length [] id
  .ok walk.reverse

/-- The tree of all channels, seen from the root. -/
def intoChannel (order : HashOrder) (channels : Channels) (users : HashMap UInt32 User) :
    Eval Mumlib.Channel := do
  let lookup := channelLookup users
  let walks ← channels.iter.mapM fun entry => do
    let walk ← walkOf channels entry.1
    return (walk, entry.2)
  -- the walk of the root is empty
  let walks := walks.filter fun walk => !walk.1.isEmpty
  let root ← unwrap (channels.lookup 0)
  let protoTree := Trie.node ⟨some root, (lookup.lookup 0).getD []⟩ []
  let protoTree ← walks.foldlM
    (fun tree walk => ProtoTree.walkAndAdd walk.2 lookup walk.1 tree) protoTree
  Mumlib.Channel.ofProtoTree order protoTree

end Mum
