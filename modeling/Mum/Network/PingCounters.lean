import Mum.Network.PingFallback
import Mum.Network.Tcp

/-!
# The counters of the pings

With every `Ping` packet the server says how many voice packets were late, lost
and resynchronised so far, and `listen` of `mum/src/network/tcp.rs` logs by how
much the counters have grown: it subtracts the last values and adds the
differences to them again.  On UDP, `send_pings` of `mum/src/network/udp.rs` sends
the number after the one of the last pong.

All these numbers come from the server, and none of them is checked.  The
operations are exact as long as no counter falls, a missing one being zero, and no
tick comes after a pong with the largest number.

An overflow panics in a build that checks for it and wraps around in others, so an
operation is exact if it returns under checks, whatever the build is.

`Remembers` ties what `listen` has stored to the last values that came in.  With it each kind
of input has its equivalence (`ping_returns_iff`, `tick_returns_iff`), and the inputs of a
session are independent of each other.
-/

namespace Mum

open Library Library.Eval Msgs

/-- The machine in a build that checks for overflow. -/
def Host.checked (host : Host) : Host := { host with overflowChecks := true }

/-! ## One counter -/

section Counter

variable {host : Host} {last value difference : UInt32}

theorem subU32_returns_iff : Returns (subU32 host.checked value last) ↔ last ≤ value := by
  have hlt : value < last ↔ ¬ last ≤ value := by
    rw [UInt32.lt_iff_toNat_lt, UInt32.le_iff_toNat_le]
    omega
  unfold subU32
  by_cases hle : last ≤ value
  · rw [if_neg fun h => hlt.mp h.2 hle]
    exact iff_of_true (returns_ok _) hle
  · rw [if_pos ⟨rfl, hlt.mpr hle⟩]
    exact iff_of_false (not_returns_error _) hle

theorem subU32_eq_ok (h : subU32 host value last = .ok difference) :
    difference = value - last := by
  unfold subU32 at h
  split at h
  · cases h
  · exact (Except.ok.inj h).symm

theorem addU32_eq_ok {sum : UInt32} (h : addU32 host last difference = .ok sum) :
    sum = last + difference := by
  unfold addU32 at h
  split at h
  · cases h
  · exact (Except.ok.inj h).symm

/-- Adding the difference again gives the new value, also if both wrap around. -/
theorem eq_of_sub_of_add {sum : UInt32} (hsub : subU32 host value last = .ok difference)
    (hadd : addU32 host last difference = .ok sum) : sum = value := by
  rw [addU32_eq_ok hadd, subU32_eq_ok hsub, UInt32.add_comm, UInt32.sub_add_cancel]

/-- The difference to a counter that has not fallen can be added again. -/
theorem addU32_sub_returns (hle : last ≤ value) :
    Returns (addU32 host.checked last (value - last)) := by
  have hsub : (value - last).toNat = value.toNat - last.toNat :=
    UInt32.toNat_sub_of_le _ _ hle
  have hlt := value.toNat_lt
  rw [UInt32.le_iff_toNat_le] at hle
  unfold addU32
  rw [if_neg]
  · exact returns_ok _
  · rintro ⟨-, hoverflow⟩
    rw [hsub] at hoverflow
    have hsize : UInt32.size = 2 ^ 32 := rfl
    omega

end Counter

/-! ## A `Ping` packet -/

/-- The last values are those of the packet. -/
def Listen.Holds (listen : Listen) (msg : Ping) : Prop :=
  listen.lastLate = msg.getLate ∧ listen.lastLost = msg.getLost ∧
    listen.lastResync = msg.getResync

/-- No counter of the packet is below that of the packet before. -/
def GrowsFrom (last msg : Ping) : Prop :=
  last.getLate ≤ msg.getLate ∧ last.getLost ≤ msg.getLost ∧ last.getResync ≤ msg.getResync

section Packet

variable {host : Host} {state : State} {listen : Listen} {last msg : Ping} {handled : Handled}

/-- The last values are those of the packet, whatever they were. -/
theorem ping_eq_ok (h : handlePacket host state listen (.ping msg) = .ok handled) :
    handled.listen.Holds msg := by
  obtain ⟨late, hlate, h⟩ := bind_eq_ok.mp h
  obtain ⟨lost, hlost, h⟩ := bind_eq_ok.mp h
  obtain ⟨resync, hresync, h⟩ := bind_eq_ok.mp h
  obtain ⟨lastLate, hlastLate, h⟩ := bind_eq_ok.mp h
  obtain ⟨lastLost, hlastLost, h⟩ := bind_eq_ok.mp h
  obtain ⟨lastResync, hlastResync, h⟩ := bind_eq_ok.mp h
  cases h
  exact ⟨eq_of_sub_of_add hlate hlastLate, eq_of_sub_of_add hlost hlastLost,
    eq_of_sub_of_add hresync hlastResync⟩

/-- The packet is handled without overflow if no counter falls. -/
theorem ping_returns_iff (hlast : listen.Holds last) :
    Returns (handlePacket host.checked state listen (.ping msg)) ↔ GrowsFrom last msg := by
  obtain ⟨hlate, hlost, hresync⟩ := hlast
  unfold GrowsFrom
  rw [← hlate, ← hlost, ← hresync, ← @subU32_returns_iff host, ← @subU32_returns_iff host,
    ← @subU32_returns_iff host]
  constructor
  · rintro ⟨handled, h⟩
    obtain ⟨late, hlate, h⟩ := bind_eq_ok.mp h
    obtain ⟨lost, hlost, h⟩ := bind_eq_ok.mp h
    obtain ⟨resync, hresync, -⟩ := bind_eq_ok.mp h
    exact ⟨⟨late, hlate⟩, ⟨lost, hlost⟩, ⟨resync, hresync⟩⟩
  · rintro ⟨⟨late, hlate⟩, ⟨lost, hlost⟩, ⟨resync, hresync⟩⟩
    have hadd : ∀ {value last difference : UInt32},
        subU32 host.checked value last = .ok difference →
          ∃ sum, addU32 host.checked last difference = .ok sum := by
      intro value last difference hsub
      rw [subU32_eq_ok hsub]
      exact addU32_sub_returns (subU32_returns_iff.mp ⟨difference, hsub⟩)
    obtain ⟨lastLate, hlastLate⟩ := hadd hlate
    obtain ⟨lastLost, hlastLost⟩ := hadd hlost
    obtain ⟨lastResync, hlastResync⟩ := hadd hresync
    rw [handlePacket, hlate, ok_bind, hlost, ok_bind, hresync, ok_bind, hlastLate, ok_bind,
      hlastLost, ok_bind, hlastResync, ok_bind]
    exact returns_ok _

/-- Only `Ping` packets change the last values. -/
theorem holds_handlePacket {packet : Clientbound} (hlast : listen.Holds last)
    (hpacket : ∀ msg, packet ≠ .ping msg)
    (h : handlePacket host state listen packet = .ok handled) : handled.listen.Holds last := by
  cases packet with
  | ping msg => exact absurd rfl (hpacket msg)
  | textMessage | channelState | channelRemove | authenticate | unhandled =>
      cases h
      exact hlast
  | cryptSetup msg =>
      obtain ⟨key, -, h⟩ := bind_eq_ok.mp h
      obtain ⟨clientNonce, -, h⟩ := bind_eq_ok.mp h
      obtain ⟨serverNonce, -, h⟩ := bind_eq_ok.mp h
      cases h
      exact hlast
  | serverSync msg =>
      rw [handlePacket] at h
      split at h
      · obtain ⟨cryptState, -, h⟩ := bind_eq_ok.mp h
        obtain ⟨state', -, h⟩ := bind_eq_ok.mp h
        cases h
        exact hlast
      · obtain ⟨state', -, h⟩ := bind_eq_ok.mp h
        cases h
        exact hlast
  | reject msg =>
      rw [handlePacket] at h
      split at h
      · cases h
        exact hlast
      · cases h
        exact hlast
  | userState msg =>
      obtain ⟨state', -, h⟩ := bind_eq_ok.mp h
      cases h
      exact hlast
  | userRemove msg =>
      obtain ⟨state', -, h⟩ := bind_eq_ok.mp h
      cases h
      exact hlast
  | udpTunnel voice =>
      cases voice with
      | ping timestamp =>
          cases h
          exact hlast
      | audio sessionId seqNum payload =>
          obtain ⟨audioOutput, -, h⟩ := bind_eq_ok.mp h
          cases h
          exact hlast

end Packet

/-! ## A tick -/

/-- The number of the next ping is a `u64`. -/
theorem tick_returns_iff {host : Host} {state : State} {session : UdpSession} {sent : Bool} :
    Returns (session.tick host.checked state sent) ↔
      session.lastPingRecv.toNat + 1 < UInt64.size := by
  have hadd : Returns (addU64 host.checked session.lastPingRecv 1) ↔
      session.lastPingRecv.toNat + 1 < UInt64.size := by
    have hone : (1 : UInt64).toNat = 1 := rfl
    unfold addU64
    rw [hone]
    by_cases hlt : session.lastPingRecv.toNat + 1 < UInt64.size
    · rw [if_neg fun h => Nat.not_le_of_lt hlt h.2]
      exact iff_of_true (returns_ok _) hlt
    · rw [if_pos ⟨rfl, Nat.le_of_not_lt hlt⟩]
      exact iff_of_false (not_returns_error _) hlt
  rw [← hadd]
  exact returns_bind_iff fun timestamp _ => returns_ok _

/-! ## A session -/

/-- What comes in during a session. -/
inductive SessionInput
  | control (packet : Clientbound)
  | udp (input : UdpInput)

/-- The state of the daemon and the local variables of the two tasks. -/
structure PingSession where
  state : State
  listen : Listen
  udp : UdpSession

/-- The last `Ping` packet and the number of the last pong, as far as there was
one. -/
structure LastPings where
  control : Ping := {}
  pong : UInt64 := 0
deriving DecidableEq, Repr

namespace PingSession

/-- A session that begins. -/
def new (state : State) (info : ConnectionInfo) : PingSession := ⟨state, .new, .new info⟩

/-- The session after an input, if its handler returns. -/
def next (x : PingSession) : Host × SessionInput → Option PingSession
  | (host, .control packet) => (handlePacket host x.state x.listen packet).toOption.map
      fun handled => ⟨handled.state, handled.listen, x.udp⟩
  | (host, .udp input) => (UdpSession.next (x.state, x.udp) (host, input)).toOption.map
      fun s => ⟨s.1, x.listen, s.2⟩

def note (last : LastPings) (_ : PingSession) (label : Host × SessionInput) (_ : PingSession) :
    LastPings :=
  match label.2 with
  | .control (.ping msg) => { last with control := msg }
  | .udp (.packet (.ping timestamp)) => { last with pong := timestamp }
  | _ => last

/-- No operation on the counters overflows, and the last values are those of the
last packet. -/
def Exact (x : PingSession) : Host × SessionInput → Prop
  | (host, .control (.ping msg)) =>
      Returns (handlePacket host.checked x.state x.listen (.ping msg)) ∧
        ∀ x', x.next (host, .control (.ping msg)) = some x' → x'.listen.Holds msg
  | (host, .udp (.tick sent)) => Returns (x.udp.tick host.checked x.state sent)
  | _ => True

/-- No counter falls, and there is a number after that of the last pong. -/
def Fits (last : LastPings) : SessionInput → Prop
  | .control (.ping msg) => GrowsFrom last.control msg
  | .udp (.tick _) => last.pong.toNat + 1 < UInt64.size
  | _ => True

/-- What the tasks remember of the inputs. -/
structure Remembers (x : PingSession × LastPings) : Prop where
  control : x.1.listen.Holds x.2.control
  pong : x.1.udp.lastPingRecv = x.2.pong

variable {host : Host} {x x' : PingSession × LastPings}

theorem exact_iff_fits (h : Remembers x) (label : Host × SessionInput) :
    Exact x.1 label ↔ Fits x.2 label.2 := by
  obtain ⟨host, input⟩ := label
  cases input with
  | control packet =>
      cases packet with
      | ping msg =>
          have hholds : ∀ x', x.1.next (host, .control (.ping msg)) = some x' →
              x'.listen.Holds msg := by
            intro x' hnext
            obtain ⟨handled, hhandled, rfl⟩ := Option.map_eq_some_iff.mp hnext
            exact ping_eq_ok (toOption_eq_some.mp hhandled)
          exact (and_iff_left hholds).trans (ping_returns_iff h.control)
      | _ => exact Iff.rfl
  | udp input =>
      cases input with
      | packet packet => exact Iff.rfl
      | tick sent =>
          rw [Exact, Fits, ← h.pong]
          exact tick_returns_iff

theorem Remembers.step (h : Remembers x) {label : Host × SessionInput}
    (hstep : observed next note x label = some x') : Remembers x' := by
  obtain ⟨hnext, hnote⟩ := observed_eq_some.mp hstep
  obtain ⟨y, last⟩ := x
  obtain ⟨y', last'⟩ := x'
  obtain ⟨host, input⟩ := label
  dsimp only at hnext hnote
  subst hnote
  obtain ⟨hcontrol, hpong⟩ := h
  cases input with
  | control packet =>
      obtain ⟨handled, hhandled, rfl⟩ := Option.map_eq_some_iff.mp hnext
      have hhandled := toOption_eq_some.mp hhandled
      cases packet with
      | ping msg => exact ⟨ping_eq_ok hhandled, hpong⟩
      | _ => exact ⟨holds_handlePacket hcontrol (by intro msg hmsg; cases hmsg) hhandled, hpong⟩
  | udp input =>
      obtain ⟨s, hs, rfl⟩ := Option.map_eq_some_iff.mp hnext
      have hs := toOption_eq_some.mp hs
      cases input with
      | packet packet =>
          cases packet with
          | ping timestamp =>
              cases hs
              exact ⟨hcontrol, rfl⟩
          | audio sessionId seqNum payload =>
              obtain ⟨audioOutput, -, hs⟩ := bind_eq_ok.mp hs
              cases hs
              exact ⟨hcontrol, hpong⟩
      | tick sent =>
          obtain ⟨timestamp, -, hs⟩ := bind_eq_ok.mp hs
          cases hs
          refine ⟨hcontrol, ?_⟩
          cases sent with
          | true => exact hpong
          | false => exact hpong

/-- **The counters of the pings.**  In a session, whatever comes in and in whatever
order, no operation on the counters overflows and the last values are always those
of the last `Ping` packet, if and only if no counter falls from one `Ping` packet
to the next and no tick comes after a pong with the largest number. -/
theorem exact_iff (state : State) (info : ConnectionInfo) (inputs : List (Host × SessionInput)) :
    AllAttempts next Exact (new state info) inputs ↔
      AllAttempts (observed next note) (fun x label => Fits x.2 label.2) (new state info, {})
        inputs := by
  have hbegin : Remembers (new state info, {}) := ⟨⟨rfl, rfl, rfl⟩, rfl⟩
  rw [← allAttempts_observed]
  refine allAttempts_iff Remembers hbegin ?_ ?_
  · intro x label hremembers
    exact exact_iff_fits hremembers label
  · intro x label x' hremembers hstep
    exact hremembers.step hstep

/-- A client that is logged in, when its session begins. -/
def begun : PingSession :=
  new UdpSession.begun.1 ⟨⟨0, 64738⟩, "localhost", false⟩

/-- A counter that was sent is missing from the next packet; and a server answers
with the largest number. -/
theorem not_exact_missing :
    ¬ AllAttempts next Exact begun
        [(.offline, .control (.ping { late := some 1 })), (.offline, .control (.ping {}))] ∧
      ¬ AllAttempts next Exact begun
        [(.offline, .udp (.packet (.ping 0xffffffffffffffff))), (.offline, .udp (.tick true))] :=
  ⟨fun h => absurd h.2.1.1 (by decide), fun h => absurd (tick_returns_iff.mp h.2.1) (by decide)⟩

end PingSession

end Mum
