import Mum.Network.Phase

/-!
# The UDP connection

`mum/src/network/udp.rs`: the voice packets of the server and the pings that
find out whether UDP works.  The voice that we send over UDP does not touch what
the tasks share and is left out.
-/

namespace Mum

open Library Library.Eval Msgs

/-- The local variables of a UDP session. -/
structure UdpSession where
  serverAddr : SocketAddr
  /-- The phase that `run_until` saw last. -/
  phaseSeen : ℕ
  lastPingRecv : UInt64
  lastSend : Option UInt64
deriving DecidableEq

/-- Where `udp::handle` stands. -/
inductive UdpTask
  /-- Waits for connection info. -/
  | waiting
  | binding (info : ConnectionInfo)
  /-- Waits for the key of the encryption. -/
  | connecting (info : ConnectionInfo)
  | session (session : UdpSession)
deriving DecidableEq

def UdpSession.new (info : ConnectionInfo) : UdpSession := ⟨info.socketAddr, 0, 0, none⟩

/-- Addition on `u64`. -/
def addU64 (host : Host) (a b : UInt64) : Eval UInt64 :=
  if host.overflowChecks ∧ UInt64.size ≤ a.toNat + b.toNat then .error .panic else .ok (a + b)

namespace UdpSession

/-- `listen`: a voice packet of the server. -/
def listen (host : Host) (state : State) (session : UdpSession) :
    VoicePacket UInt32 → Eval (State × UdpSession)
  | .ping timestamp =>
      .ok (state.broadcastPhase (.connected .udp), { session with lastPingRecv := timestamp })
  | .audio sessionId _ payload => do
      let audioOutput ← state.audioOutput.decodePacketPayload host.opus .udp sessionId payload
      .ok ({ state with audioOutput := audioOutput }, session)

/-- The last ping was sent and has not come back. -/
def pingLost (session : UdpSession) : Bool :=
  session.lastSend.isSome && session.lastSend ≠ some session.lastPingRecv

/-- A tick of `send_pings`; `sent` is whether the ping could be sent. -/
def tick (host : Host) (state : State) (session : UdpSession) (sent : Bool) :
    Eval (State × UdpSession) := do
  let state := if session.pingLost then state.broadcastPhase (.connected .tcp) else state
  let timestamp ← addU64 host session.lastPingRecv 1
  .ok (state, if sent then { session with lastSend := some timestamp } else session)

end UdpSession

end Mum
