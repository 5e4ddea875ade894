import Mum.Mumlib.Error
import Mum.State.ProtoTree

/-!
# Servers

`mum/src/state/server.rs`: the server that the client is connected or connecting
to, the packets that change its maps, and the lookup of a channel by name.
-/

namespace Mum

open Library Library.Eval Msgs
open Mumlib (ChannelIdentifierError)

abbrev Users := HashMap UInt32 User

/-! ## Packets -/

/-- A `UserState` packet without session changes nothing. -/
def userState (msg : UserState) (users : Users) : Users :=
  match msg.session with
  | none => users
  | some session => users.upsert session (User.new msg) (·.parseUserState msg)

/-- A `ChannelState` packet without channel id changes nothing. -/
def channelState (msg : ChannelState) (channels : Channels) : Channels :=
  match msg.channelId with
  | none => channels
  | some id => channels.upsert id (Channel.new msg) (·.parseChannelState msg)

/-- A `ChannelRemove` packet without channel id changes nothing. -/
def channelRemove (msg : ChannelRemove) (channels : Channels) : Channels :=
  match msg.channelId with
  | none => channels
  | some id => channels.erase id

theorem lookup_userState (msg : UserState) (users : Users) (session : UInt32) :
    (userState msg users).lookup session =
      if msg.session = some session then
        some ((users.lookup session).elim (User.new msg) (·.parseUserState msg))
      else users.lookup session := by
  unfold userState
  cases msg.session with
  | none => simp
  | some id =>
      simp only [HashMap.lookup_upsert, Option.some.injEq]
      by_cases h : session = id
      · subst h
        simp
      · simp [h, Ne.symm h]

/-! ## A server that is logging in -/

structure ConnectingServer where
  channels : Channels
  users : Users
  welcomeText : Option String
  username : String
  password : Option String
  host : String
deriving DecidableEq

/-- A server that is logged in. -/
structure ConnectedServer where
  channels : Channels
  users : Users
  welcomeText : Option String
  username : String
  sessionId : UInt32
  muted : Bool
  deafened : Bool
  host : String
deriving DecidableEq

namespace ConnectingServer

def new (host username : String) (password : Option String) : ConnectingServer where
  channels := ∅
  users := ∅
  welcomeText := none
  username := username
  password := password
  host := host

def channelState (server : ConnectingServer) (msg : ChannelState) : ConnectingServer :=
  { server with channels := Mum.channelState msg server.channels }

def channelRemove (server : ConnectingServer) (msg : ChannelRemove) : ConnectingServer :=
  { server with channels := Mum.channelRemove msg server.channels }

def userState (server : ConnectingServer) (msg : UserState) : ConnectingServer :=
  { server with users := Mum.userState msg server.users }

def userRemove (server : ConnectingServer) (msg : UserRemove) : ConnectingServer :=
  { server with users := server.users.erase msg.getSession }

def serverSync (server : ConnectingServer) (msg : ServerSync) : ConnectedServer where
  channels := server.channels
  users := server.users
  welcomeText := msg.welcomeText
  username := server.username
  sessionId := msg.getSession
  muted := false
  deafened := false
  host := server.host

end ConnectingServer

/-! ## A server that is logged in -/

/-- `str::ends_with`. -/
def endsWith (s suffix : String) : Bool := suffix.toList.isSuffixOf s.toList

namespace ConnectedServer

def channelRemove (server : ConnectedServer) (msg : ChannelRemove) : ConnectedServer :=
  { server with channels := Mum.channelRemove msg server.channels }

def userState (server : ConnectedServer) (msg : UserState) : ConnectedServer :=
  { server with users := Mum.userState msg server.users }

def userRemove (server : ConnectedServer) (msg : UserRemove) : ConnectedServer :=
  { server with users := server.users.erase msg.getSession }

/-- The channels whose path, spelled by `spell`, ends with `suffix`. -/
def channelsEndingWith (server : ConnectedServer) (spell : String → String) (suffix : String) :
    Eval (List (UInt32 × Channel)) := do
  let paths ← server.channels.iter.mapM fun entry => do
    let path ← entry.2.path server.channels
    return (entry, spell path)
  return (paths.filter fun path => endsWith path.2 suffix).map Prod.fst

/-- The one channel whose path ends with the name; letter case counts only as
long as some path ends with the name as it is written. -/
def channelName (toLowercase : String → String) (server : ConnectedServer) (name : String) :
    Eval (Except ChannelIdentifierError (UInt32 × Channel)) := do
  match ← server.channelsEndingWith id name with
  | [] =>
      -- only now are the names compared in lower case
      match ← server.channelsEndingWith toLowercase (toLowercase name) with
      | [] => return .error .invalid
      | [channel] => return .ok channel
      | _ => return .error .ambiguous
  | [channel] => return .ok channel
  | _ => return .error .ambiguous

/-- The channel our own user is in. -/
def currentChannel (server : ConnectedServer) : Eval (UInt32 × Channel) := do
  let user ← unwrap (server.users.lookup server.sessionId)
  let channel ← unwrap (server.channels.lookup user.channel)
  return (user.channel, channel)

def usersChannel (server : ConnectedServer) (user : UInt32) : Eval UInt32 := do
  let user ← unwrap (server.users.lookup user)
  return user.channel

/-- `From<&ConnectedServer> for mumlib::state::Server`. -/
def toMumlib (order : HashOrder) (server : ConnectedServer) : Eval Mumlib.Server := do
  let channels ← intoChannel order server.channels server.users
  return {
    channels := channels
    welcomeText := server.welcomeText
    username := server.username
    host := server.host }

end ConnectedServer

/-- The server as the daemon sees it. -/
inductive Server
  | disconnected
  | connecting (server : ConnectingServer)
  | connected (server : ConnectedServer)
deriving DecidableEq

end Mum
