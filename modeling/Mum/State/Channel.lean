import Mum.Library.HashMap
import Mum.Library.ParentChain
import Mum.Msgs

/-!
# Channels

`mum/src/state/channel.rs`, the record of a channel: how a `ChannelState` packet
creates or changes it, and its path from the root.

`Channel.path` recurses over the parents and has no measure of its own.  It is
written with fuel; `path_returns_iff` says that the fuel of `Channel.path`, one
more than there are channels, is enough whenever any fuel is, and that this is
so exactly when the parent chain is good.
-/

namespace Mum

open Library Library.Eval Library.ParentChain Msgs

/-- What the client knows about a channel. -/
structure Channel where
  description : Option String
  links : List UInt32
  maxUsers : UInt32
  name : String
  parent : Option UInt32
  position : Int
deriving DecidableEq, Repr

/-- The client's channel map. -/
abbrev Channels := HashMap UInt32 Channel

/-- The parent of an id in a channel map. -/
def Channels.parentOf (channels : Channels) (id : UInt32) : Option (Option UInt32) :=
  (channels.lookup id).map Channel.parent

namespace Channel

/-- The record of a channel that was not known before. -/
def new (msg : ChannelState) : Channel where
  description := msg.description
  links := []
  maxUsers := msg.getMaxUsers
  name := msg.name.getD ""
  parent := msg.parent
  position := msg.getPosition

/-- Every field that the packet carries replaces the one of the record; the
links are replaced in any case. -/
def parseChannelState (channel : Channel) (msg : ChannelState) : Channel where
  description := msg.description.or channel.description
  links := msg.links
  maxUsers := msg.maxUsers.getD channel.maxUsers
  name := msg.name.getD channel.name
  parent := msg.parent.or channel.parent
  position := msg.position.getD channel.position

/-- The names from the root down to the channel, separated by slashes. -/
def pathWithin (channels : Channels) : ℕ → Channel → Eval String
  | 0, _ => .error .hang
  | fuel + 1, channel =>
      match channel.parent with
      | some t => do
          let above ← pathWithin channels fuel (← unwrap (channels.lookup t))
          .ok (above ++ "/" ++ channel.name)
      | none => .ok channel.name

def path (channel : Channel) (channels : Channels) : Eval String :=
  pathWithin channels (channels.keys.length + 1) channel

end Channel

namespace Channels

variable {channels : Channels}

theorem parentOf_eq_some {id : UInt32} {parent : Option UInt32} :
    channels.parentOf id = some parent ↔
      ∃ channel, channels.lookup id = some channel ∧ channel.parent = parent := by
  simp [parentOf]

theorem parentOf_isSome {id : UInt32} : (channels.parentOf id).isSome ↔ id ∈ channels := by
  simp [parentOf, AList.lookup_isSome]

theorem mem_keys_of_parentOf_isSome {id : UInt32} (h : (channels.parentOf id).isSome) :
    id ∈ channels.keys :=
  AList.mem_keys.mp (parentOf_isSome.mp h)

/-- The path of a channel exists when its chain is good and the fuel covers it. -/
theorem pathWithin_returns_iff {fuel : ℕ} {id : UInt32} {channel : Channel}
    (hchannel : channels.lookup id = some channel) :
    Returns (Channel.pathWithin channels fuel channel) ↔
      ∃ walk r, Leads channels.parentOf id walk r ∧ walk.length < fuel := by
  -- the fuel covers the walk of the parent if it covers that of the channel
  induction fuel generalizing id channel with
  | zero => simp [Channel.pathWithin]
  | succ fuel ih =>
      have hid : channels.parentOf id = some channel.parent :=
        parentOf_eq_some.mpr ⟨channel, hchannel, rfl⟩
      cases hparent : channel.parent with
      | none =>
          rw [hparent] at hid
          simp only [Channel.pathWithin, hparent, returns_ok, true_iff]
          exact ⟨[], id, .top hid, Nat.succ_pos _⟩
      | some t =>
          rw [hparent] at hid
          simp only [Channel.pathWithin, hparent]
          constructor
          · rintro ⟨name, h⟩
            obtain ⟨above, habove, h⟩ := bind_eq_ok.mp h
            obtain ⟨name', hname, -⟩ := bind_eq_ok.mp h
            obtain ⟨walk, r, hwalk, hlen⟩ := (ih (unwrap_eq_ok.mp habove)).mp ⟨name', hname⟩
            exact ⟨walk ++ [id], r, .up hid hwalk, by simpa using hlen⟩
          · rintro ⟨walk, r, hwalk, hlen⟩
            cases hwalk with
            | top hr => rw [hid] at hr; cases hr
            | @up _ p _ walk hk hp =>
                cases hid.symm.trans hk
                obtain ⟨above, habove⟩ := Option.isSome_iff_exists.mp hp.parent_isSome
                obtain ⟨parent, hlookup, -⟩ := parentOf_eq_some.mp habove
                obtain ⟨name, hname⟩ := (ih hlookup).mpr ⟨walk, r, hp, by simpa using hlen⟩
                exact ⟨name ++ "/" ++ channel.name, by simp [hlookup, hname]⟩

/-- The fuel of `Channel.path` is enough whenever any fuel is. -/
theorem path_returns_iff {id : UInt32} {channel : Channel}
    (hchannel : channels.lookup id = some channel) :
    Returns (channel.path channels) ↔ ∃ walk r, Leads channels.parentOf id walk r := by
  rw [Channel.path, pathWithin_returns_iff hchannel]
  constructor
  · rintro ⟨walk, r, hwalk, -⟩
    exact ⟨walk, r, hwalk⟩
  · rintro ⟨walk, r, hwalk⟩
    have hlen := hwalk.length_lt fun _ => mem_keys_of_parentOf_isSome
    exact ⟨walk, r, hwalk, Nat.lt_succ_of_lt hlen⟩

end Channels

end Mum
