/-!
# The server state sent to controllers

`mumlib::state`: what the daemon answers about the server it is connected to.
-/

namespace Mum.Mumlib

/-- A user as a controller sees it. -/
structure User where
  comment : Option String
  hash : Option String
  name : String
  prioritySpeaker : Bool
  recording : Bool
  suppress : Bool
  selfMute : Bool
  selfDeaf : Bool
  mute : Bool
  deaf : Bool
deriving DecidableEq, Repr

/-- A channel with its children and its users. -/
structure Channel where
  description : Option String
  maxUsers : UInt32
  name : String
  children : List Channel
  users : List User
  links : List (List Nat)
deriving Repr

/-- `Channel::new`. -/
def Channel.new (name : String) (description : Option String) (maxUsers : UInt32) : Channel where
  description := description
  maxUsers := maxUsers
  name := name
  children := []
  users := []
  links := []

/-- The state of the connected server. -/
structure Server where
  channels : Channel
  welcomeText : Option String
  username : String
  host : String
deriving Repr

end Mum.Mumlib
