import Mum.Library.Transition
import Mum.Network.Udp

/-!
# Falling back to TCP

`send_pings` and `listen` of `mum/src/network/udp.rs` decide together which way
voice goes.  A tick compares the number of the last ping that was sent with that
of the last pong, so a ping that could not be sent is not missed by it.
-/

namespace Mum

open Library Library.Eval Msgs

/-- What happens to a UDP session. -/
inductive UdpInput
  | packet (packet : VoicePacket UInt32)
  | tick (sent : Bool)
deriving DecidableEq, Repr

namespace UdpInput

/-- A packet that is no pong. -/
def isAudio : UdpInput → Bool
  | packet (.audio _ _ _) => true
  | _ => false

end UdpInput

namespace UdpSession

/-- The state of the daemon and the UDP session after an input. -/
def next (s : State × UdpSession) : Host × UdpInput → Eval (State × UdpSession)
  | (host, .packet packet) => s.2.listen host s.1 packet
  | (host, .tick sent) => s.2.tick host s.1 sent

def Step (s : State × UdpSession) (label : Host × UdpInput) (s' : State × UdpSession) : Prop :=
  next s label = .ok s'

/-- Voice goes over TCP. -/
def Tunnels (s : State × UdpSession) : Prop := s.1.phaseWatcher.value = .connected .tcp

instance (s : State × UdpSession) : Decidable (Tunnels s) :=
  inferInstanceAs (Decidable (_ = _))

variable {host : Host} {s s' : State × UdpSession} {sent : Bool}

theorem tick_eq_ok (h : Step s (host, .tick sent) s') :
    s'.1 = (if s.2.pingLost then s.1.broadcastPhase (.connected .tcp) else s.1) ∧
      s'.2 = if sent then { s.2 with lastSend := some (s.2.lastPingRecv + 1) } else s.2 := by
  obtain ⟨timestamp, htimestamp, h⟩ := bind_eq_ok.mp h
  cases h
  unfold addU64 at htimestamp
  split at htimestamp
  · cases htimestamp
  · cases htimestamp
    exact ⟨rfl, rfl⟩

/-- Voice goes over TCP after a tick that finds a ping lost, or if it did before. -/
theorem tunnels_tick_iff (h : Step s (host, .tick sent) s') :
    Tunnels s' ↔ s.2.pingLost ∨ Tunnels s := by
  unfold Tunnels
  rw [(tick_eq_ok h).1]
  by_cases hlost : s.2.pingLost
  · simp [hlost]
  · simp [hlost]

/-- A ping that was sent is lost until its pong comes; a ping that was not sent
changes nothing. -/
theorem pingLost_tick_iff (h : Step s (host, .tick sent) s') :
    s'.2.pingLost ↔ sent ∨ s.2.pingLost := by
  rw [(tick_eq_ok h).2]
  cases sent with
  | true =>
      have hne : s.2.lastPingRecv + 1 ≠ s.2.lastPingRecv := by
        intro heq
        have hnat := congrArg UInt64.toNat heq
        rw [UInt64.toNat_add] at hnat
        have hlt := s.2.lastPingRecv.toNat_lt
        simp at hnat
        omega
      simp [pingLost, hne]
  | false => simp

/-- Audio packets have no part in this. -/
theorem audio_keeps {input : UdpInput} (h : Step s (host, input) s') (haudio : input.isAudio) :
    (s'.2.pingLost ↔ s.2.pingLost) ∧ (Tunnels s' ↔ Tunnels s) := by
  cases input with
  | tick sent => cases haudio
  | packet packet =>
      cases packet with
      | ping timestamp => cases haudio
      | audio sessionId seqNum payload =>
          obtain ⟨audioOutput, -, h⟩ := bind_eq_ok.mp h
          cases h
          exact ⟨Iff.rfl, Iff.rfl⟩

theorem final_of_audio {trace : List ((Host × UdpInput) × (State × UdpSession))}
    (hrun : Run Step s trace) (haudio : ∀ entry ∈ trace, entry.1.2.isAudio) :
    ((final s trace).2.pingLost ↔ s.2.pingLost) ∧ (Tunnels (final s trace) ↔ Tunnels s) := by
  induction hrun with
  | nil => exact ⟨Iff.rfl, Iff.rfl⟩
  | cons hstep _ ih =>
      obtain ⟨hlast, hrest⟩ := List.forall_mem_cons.mp haudio
      have hkeeps := audio_keeps hstep hlast
      exact ⟨(ih hrest).1.trans hkeeps.1, (ih hrest).2.trans hkeeps.2⟩

/-- **When voice falls back to TCP.**  In a run of a UDP session, let two ticks
have no pong between them.  Voice goes over TCP after the later tick if and only
if the ping of the earlier tick was sent, or that tick found a ping lost, or voice
went over TCP before it. -/
theorem tunnels_iff {start s₁ s₂ : State × UdpSession} {host₁ host₂ : Host} {sent₁ sent₂ : Bool}
    {before between after : List ((Host × UdpInput) × (State × UdpSession))}
    (hrun : Run Step start (before ++ ((host₁, .tick sent₁), s₁) ::
      (between ++ ((host₂, .tick sent₂), s₂) :: after)))
    (hbetween : ∀ entry ∈ between, entry.1.2.isAudio) :
    Tunnels s₂ ↔
      sent₁ ∨ (final start before).2.pingLost ∨ Tunnels (final start before) := by
  obtain ⟨hfirst, hrun⟩ := Run.cons_iff.mp (Run.append_iff.mp hrun).2
  obtain ⟨hmiddle, hrun⟩ := Run.append_iff.mp hrun
  obtain ⟨hsecond, -⟩ := Run.cons_iff.mp hrun
  obtain ⟨hlost, htunnels⟩ := final_of_audio hmiddle hbetween
  rw [tunnels_tick_iff hsecond, hlost, htunnels, pingLost_tick_iff hfirst,
    tunnels_tick_iff hfirst]
  tauto

/-- A session that has just begun, at a client that is logged in. -/
def begun : State × UdpSession :=
  (.onServer ((ConnectingServer.new "localhost:64738" "me" none).serverSync {}),
    .new ⟨⟨0, 64738⟩, "localhost", false⟩)

/-- A ping that is not answered. -/
theorem tunnels_unanswered :
    ∃ s₁ s₂, Run Step begun [((.offline, .tick true), s₁), ((.offline, .tick false), s₂)] ∧
      Tunnels s₂ := by
  refine ⟨_, _, .cons rfl (.cons rfl .nil), ?_⟩
  exact (@tunnels_iff begun _ _ .offline .offline true false [] [] []
    (.cons rfl (.cons rfl .nil)) (by simp)).mpr (Or.inl rfl)

/-- After a pong, no ping can be sent any more: voice goes on over UDP. -/
theorem not_tunnels_sendFailed :
    ∃ s₁ s₂ s₃ s₄, Run Step begun [((.offline, .tick true), s₁),
        ((.offline, .packet (.ping 1)), s₂), ((.offline, .tick false), s₃),
        ((.offline, .tick false), s₄)] ∧ ¬ Tunnels s₄ :=
  ⟨_, _, _, _, .cons rfl (.cons rfl (.cons rfl (.cons rfl .nil))), by decide⟩

end UdpSession

end Mum
