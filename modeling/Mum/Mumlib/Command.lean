import Mum.Mumlib.Config
import Mum.Mumlib.Error
import Mum.Mumlib.State

/-!
# Commands and their responses

`mumlib::command`: what a controller may ask of the daemon.
-/

namespace Mum.Mumlib

/-- A point in time. -/
abbrev NaiveDateTime := Nat

/-- The different kinds of events that can happen. -/
inductive MumbleEventKind
  | userConnected (user channel : String)
  | userDisconnected (user channel : String)
  | userMuteStateChanged (message : String)
  | textMessageReceived (user : String)
  | userJoinedChannel (user previousChannel : String)
  | userLeftChannel (user newChannel : String)
deriving DecidableEq, Repr

def MumbleEventKind.display : MumbleEventKind → String
  | userConnected user channel => user ++ " connected to " ++ channel
  | userDisconnected user channel => user ++ " disconnected from " ++ channel
  | userMuteStateChanged message => message
  | textMessageReceived user => user ++ " sent a text message"
  | userJoinedChannel name fromChannel => name ++ " moved to your channel from " ++ fromChannel
  | userLeftChannel name toChannel => name ++ " moved to " ++ toChannel

/-- Something that happened in our channel at a point in time. -/
structure MumbleEvent where
  timestamp : NaiveDateTime
  kind : MumbleEventKind
deriving DecidableEq, Repr

/-- `format` writes a time as `%d %b %H:%M`. -/
def MumbleEvent.display (format : NaiveDateTime → String) (event : MumbleEvent) : String :=
  "[" ++ format event.timestamp ++ "] " ++ event.kind.display

inductive ChannelTarget
  | current
  | named (name : String)
deriving DecidableEq, Repr

/-- Messages can be sent to channels, each with or without everything below it,
or to users. -/
inductive MessageTarget
  | channel (channels : List (ChannelTarget × Bool))
  | user (names : List String)
deriving DecidableEq, Repr

inductive Command
  | channelJoin (channelIdentifier : String)
  | channelList
  | configReload
  | deafenSelf (toggle : Option Bool)
  | events (block : Bool)
  | inputVolumeSet (volume : F32)
  | muteOther (username : String) (toggle : Option Bool)
  | muteSelf (toggle : Option Bool)
  | outputVolumeSet (volume : F32)
  | pastMessages (block : Bool)
  | ping
  | sendMessage (message : String) (targets : MessageTarget)
  | serverConnect (host : String) (port : UInt16) (username : String) (password : Option String)
      (acceptInvalidCert : Bool)
  | serverDisconnect
  | serverStatus (host : String) (port : UInt16)
  | status
  | userVolumeSet (username : String) (volume : F32)
deriving DecidableEq, Repr

inductive CommandResponse
  | channelList (channels : Channel)
  | deafenStatus (isDeafened : Bool)
  | event (event : MumbleEvent)
  | muteStatus (isMuted : Bool)
  | pastMessage (timestamp : NaiveDateTime) (message user : String)
  | pong
  | serverConnect (welcomeMessage : Option String) (serverState : Server)
  | serverStatus (version users maxUsers bandwidth : UInt32)
  | status (serverState : Server)
deriving Repr

/-- What a controller reads from the daemon. -/
abbrev Response := Except Error (Option CommandResponse)

end Mum.Mumlib
