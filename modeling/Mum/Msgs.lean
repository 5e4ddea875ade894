/-!
# Control and voice packets

The protobuf messages that the client reads or writes, with the fields it uses.
An optional field is an `Option`; `has_x` is `x.isSome` and `get_x` is the field
or its protobuf default, written `getX` below where the program reads it.
-/

namespace Mum.Msgs

/-- A byte string. -/
abbrev Bytes := List UInt8

structure ChannelState where
  channelId : Option UInt32 := none
  parent : Option UInt32 := none
  name : Option String := none
  links : List UInt32 := []
  description : Option String := none
  position : Option Int := none
  maxUsers : Option UInt32 := none
deriving DecidableEq, Repr

structure ChannelRemove where
  channelId : Option UInt32 := none
deriving DecidableEq, Repr

structure UserState where
  session : Option UInt32 := none
  name : Option String := none
  channelId : Option UInt32 := none
  mute : Option Bool := none
  deaf : Option Bool := none
  suppress : Option Bool := none
  selfMute : Option Bool := none
  selfDeaf : Option Bool := none
  comment : Option String := none
  hash : Option String := none
  prioritySpeaker : Option Bool := none
  recording : Option Bool := none
deriving DecidableEq, Repr

structure UserRemove where
  session : Option UInt32 := none
deriving DecidableEq, Repr

structure TextMessage where
  actor : Option UInt32 := none
  session : List UInt32 := []
  channelId : List UInt32 := []
  treeId : List UInt32 := []
  message : Option String := none
deriving DecidableEq, Repr

structure ServerSync where
  session : Option UInt32 := none
  welcomeText : Option String := none
deriving DecidableEq, Repr

structure CryptSetup where
  key : Option Bytes := none
  clientNonce : Option Bytes := none
  serverNonce : Option Bytes := none
deriving DecidableEq, Repr

inductive RejectType
  | none
  | wrongVersion
  | invalidUsername
  | wrongUserPW
  | wrongServerPW
  | usernameInUse
  | serverFull
  | noCertificate
  | authenticatorFail
deriving DecidableEq, Repr

structure Reject where
  fieldType : Option RejectType := none
deriving DecidableEq, Repr

structure Ping where
  late : Option UInt32 := none
  lost : Option UInt32 := none
  resync : Option UInt32 := none
deriving DecidableEq, Repr

structure Authenticate where
  username : Option String := none
  password : Option String := none
  opus : Option Bool := none
deriving DecidableEq, Repr

/-- The codec of a voice packet and its data. -/
inductive VoicePacketPayload
  | celtAlpha (frames : List Bytes)
  | speex (frames : List Bytes)
  | celtBeta (frames : List Bytes)
  | opus (bytes : Bytes) (endOfTransmission : Bool)
deriving DecidableEq, Repr

/-- A voice packet; clientbound audio names its sender, serverbound audio does not. -/
inductive VoicePacket (SessionId : Type)
  | ping (timestamp : UInt64)
  | audio (sessionId : SessionId) (seqNum : UInt64) (payload : VoicePacketPayload)
deriving DecidableEq, Repr

/-- A control packet; the voice packets it tunnels depend on the direction. -/
inductive ControlPacket (SessionId : Type)
  | udpTunnel (voice : VoicePacket SessionId)
  | authenticate (msg : Authenticate)
  | ping (msg : Ping)
  | reject (msg : Reject)
  | serverSync (msg : ServerSync)
  | channelRemove (msg : ChannelRemove)
  | channelState (msg : ChannelState)
  | userRemove (msg : UserRemove)
  | userState (msg : UserState)
  | textMessage (msg : TextMessage)
  | cryptSetup (msg : CryptSetup)
  | unhandled
deriving DecidableEq, Repr

/-- What the server sends. -/
abbrev Clientbound := ControlPacket UInt32

/-- What the client sends. -/
abbrev Serverbound := ControlPacket Unit

/-! ## Getters with protobuf defaults -/

def ChannelState.getMaxUsers (msg : ChannelState) : UInt32 := msg.maxUsers.getD 0

def ChannelState.getPosition (msg : ChannelState) : Int := msg.position.getD 0

def UserState.getSession (msg : UserState) : UInt32 := msg.session.getD 0

def UserState.getChannelId (msg : UserState) : UInt32 := msg.channelId.getD 0

def UserState.getName (msg : UserState) : String := msg.name.getD ""

def UserState.getSelfMute (msg : UserState) : Bool := msg.selfMute.getD false

def UserState.getSelfDeaf (msg : UserState) : Bool := msg.selfDeaf.getD false

def UserRemove.getSession (msg : UserRemove) : UInt32 := msg.session.getD 0

def TextMessage.getActor (msg : TextMessage) : UInt32 := msg.actor.getD 0

def TextMessage.getMessage (msg : TextMessage) : String := msg.message.getD ""

def ServerSync.getSession (msg : ServerSync) : UInt32 := msg.session.getD 0

def CryptSetup.getKey (msg : CryptSetup) : Bytes := msg.key.getD []

def CryptSetup.getClientNonce (msg : CryptSetup) : Bytes := msg.clientNonce.getD []

def CryptSetup.getServerNonce (msg : CryptSetup) : Bytes := msg.serverNonce.getD []

def Reject.getFieldType (msg : Reject) : RejectType := msg.fieldType.getD .none

def Ping.getLate (msg : Ping) : UInt32 := msg.late.getD 0

def Ping.getLost (msg : Ping) : UInt32 := msg.lost.getD 0

def Ping.getResync (msg : Ping) : UInt32 := msg.resync.getD 0

end Mum.Msgs
