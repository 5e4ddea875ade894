import Mum.Msgs
import Mum.Mumlib.State

/-!
# Users

`mum/src/state/user.rs`: the record the client keeps of a user and how a
`UserState` packet creates or changes it.
-/

namespace Mum

open Msgs

/-- What the client knows about a user. -/
structure User where
  channel : UInt32
  comment : Option String
  hash : Option String
  name : String
  prioritySpeaker : Bool
  recording : Bool
  suppress : Bool
  selfMute : Bool
  selfDeaf : Bool
  mute : Bool
  deaf : Bool
deriving DecidableEq, Repr

namespace User

/-- The record of a user that was not known before. -/
def new (msg : UserState) : User where
  channel := msg.getChannelId
  comment := msg.comment
  hash := msg.hash
  name := msg.getName
  prioritySpeaker := msg.prioritySpeaker.getD false
  recording := msg.recording.getD false
  suppress := msg.suppress.getD false
  selfMute := msg.selfMute.getD false
  selfDeaf := msg.selfDeaf.getD false
  mute := msg.mute.getD false
  deaf := msg.deaf.getD false

/-- Every field that the packet carries replaces the one of the record. -/
def parseUserState (user : User) (msg : UserState) : User where
  channel := msg.channelId.getD user.channel
  comment := msg.comment.or user.comment
  hash := msg.hash.or user.hash
  name := msg.name.getD user.name
  prioritySpeaker := msg.prioritySpeaker.getD user.prioritySpeaker
  recording := msg.recording.getD user.recording
  suppress := msg.suppress.getD user.suppress
  selfMute := msg.selfMute.getD user.selfMute
  selfDeaf := msg.selfDeaf.getD user.selfDeaf
  mute := msg.mute.getD user.mute
  deaf := msg.deaf.getD user.deaf

end User

/-- What a packet changes about a user. -/
structure UserDiff where
  comment : Option String := none
  hash : Option String := none
  name : Option String := none
  prioritySpeaker : Option Bool := none
  recording : Option Bool := none
  suppress : Option Bool := none
  selfMute : Option Bool := none
  selfDeaf : Option Bool := none
  mute : Option Bool := none
  deaf : Option Bool := none
  channelId : Option UInt32 := none
deriving DecidableEq, Repr

namespace UserDiff

def new : UserDiff := {}

/-- `From<msgs::UserState> for UserDiff`. -/
def ofUserState (msg : UserState) : UserDiff :=
  { new with
    comment := msg.comment
    hash := msg.hash
    name := msg.name
    prioritySpeaker := msg.prioritySpeaker
    recording := msg.recording
    suppress := msg.suppress
    selfMute := msg.selfMute
    selfDeaf := msg.selfDeaf
    mute := msg.mute
    deaf := msg.deaf
    channelId := msg.channelId }

end UserDiff

namespace User

/-- Every field that the difference has replaces the one of the record. -/
def applyUserDiff (user : User) (diff : UserDiff) : User where
  comment := diff.comment.or user.comment
  hash := diff.hash.or user.hash
  name := diff.name.getD user.name
  prioritySpeaker := diff.prioritySpeaker.getD user.prioritySpeaker
  recording := diff.recording.getD user.recording
  suppress := diff.suppress.getD user.suppress
  selfMute := diff.selfMute.getD user.selfMute
  selfDeaf := diff.selfDeaf.getD user.selfDeaf
  mute := diff.mute.getD user.mute
  deaf := diff.deaf.getD user.deaf
  channel := diff.channelId.getD user.channel

theorem applyUserDiff_ofUserState (user : User) (msg : UserState) :
    user.applyUserDiff (.ofUserState msg) = user.parseUserState msg := rfl

def suppressed (user : User) : Bool := user.suppress

def setSuppressed (user : User) (value : Bool) : User := { user with suppress := value }

@[simp] theorem channel_parseUserState (user : User) (msg : UserState) :
    (user.parseUserState msg).channel = msg.channelId.getD user.channel := rfl

@[simp] theorem channel_new (msg : UserState) : (new msg).channel = msg.getChannelId := rfl

end User

/-- The user as it is sent to a controller. -/
def Mumlib.User.ofUser (user : Mum.User) : Mumlib.User where
  comment := user.comment
  hash := user.hash
  name := user.name
  prioritySpeaker := user.prioritySpeaker
  recording := user.recording
  suppress := user.suppress
  selfMute := user.selfMute
  selfDeaf := user.selfDeaf
  mute := user.mute
  deaf := user.deaf

end Mum
