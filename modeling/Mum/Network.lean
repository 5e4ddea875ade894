/-!
# What the network tasks share

`mum/src/network.rs`: the address to connect to and the two ways in which voice
reaches us.
-/

namespace Mum

structure SocketAddr where
  ip : Nat
  port : UInt16
deriving DecidableEq, Repr

structure ConnectionInfo where
  socketAddr : SocketAddr
  hostname : String
  acceptInvalidCert : Bool
deriving DecidableEq, Repr

inductive VoiceStreamType
  | tcp
  | udp
deriving DecidableEq, Repr

end Mum
