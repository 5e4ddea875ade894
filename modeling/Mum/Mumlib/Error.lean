/-!
# Errors that a controller is told

`mumlib::error`.
-/

namespace Mum.Mumlib

/-- Why a channel identifier was refused. -/
inductive ChannelIdentifierError
  | invalid
  | ambiguous
deriving DecidableEq, Repr

def ChannelIdentifierError.display : ChannelIdentifierError → String
  | invalid => "Invalid channel identifier"
  | ambiguous => "Ambiguous channel identifier"

inductive Error
  | disconnected
  | alreadyConnected
  | channelIdentifierError (id : String) (kind : ChannelIdentifierError)
  | invalidServerAddr (addr : String) (port : UInt16)
  | invalidUsername (username : String)
  | invalidServerPassword
  | unimplemented
  | notConnectedToChannel
  | serverCertReject
deriving DecidableEq, Repr

def Error.display : Error → String
  | disconnected => "Not connected to a server"
  | alreadyConnected => "Already connected to a server"
  | channelIdentifierError id kind => kind.display ++ ": " ++ id
  | invalidServerAddr addr port =>
      "Invalid server address: " ++ addr ++ ": " ++ toString port.toNat
  | invalidUsername username => "Invalid username: " ++ username
  | invalidServerPassword => "Invalid server password"
  | unimplemented => "Unimplemented"
  | notConnectedToChannel => "Not connected to a channel"
  | serverCertReject => "Invalid server certificate"

end Mum.Mumlib
