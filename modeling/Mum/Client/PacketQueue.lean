import Mum.Client.Steps

/-!
# Packets of one session in another

The packet channel lives as long as the daemon, while `send_packets` is dropped
with its session.  What is still on the channel then is written by the next
session, to another server.

Packets are tagged with the session in which they were put on the channel.  A session
that writes at all writes one of another if and only if it began with packets on the channel.

In one direction this is because the channel is a queue: what was there when the session
began comes first, so that it is what a session writes first.  `Tagged` says this of a state:
a session that began with an empty channel has its own packets only, any other has one of
another session in front.  The second half would be lost after that packet is written; but
then the run is one whose sessions do not write their own, and the step lemma may assume
that they do.
-/

namespace Mum.System

open Library Library.Eval Msgs

/-- `send_packets` writes packets of its own session only.  A packet that it
takes is written at once. -/
def WritesOwn (sys : System) : Label → Prop
  | .tcp .takePacket => ∀ packet ∈ sys.packets.head?, packet.producedIn = some sys.history.sessions
  | _ => True

/-- A session that writes began with an empty packet channel. -/
def BeganEmpty (sys : System) : Label → Prop
  | .tcp .takePacket => sys.history.leftover = 0
  | _ => True

/-- A TCP session is going on. -/
def HasSession (sys : System) : Prop := ∃ session, sys.tcp = .session session

/-- The tags of the packet channel: no packet is from a session that is still to
come, and a session that began with an empty channel has its own packets only,
any other session one of another session first. -/
structure Tagged (sys : System) : Prop where
  past : ∀ packet ∈ sys.packets, ∀ session ∈ packet.producedIn, session ≤ sys.history.sessions
  own : sys.HasSession → sys.history.leftover = 0 →
    ∀ packet ∈ sys.packets, packet.producedIn = some sys.history.sessions
  other : sys.HasSession → sys.history.leftover ≠ 0 →
    ∃ packet ∈ sys.packets.head?, packet.producedIn ≠ some sys.history.sessions

theorem tagged_start (state : State) : (start state).Tagged where
  past := by simp [start]
  own := by simp [start]
  other := by simp [start, HasSession]

namespace Tagged

variable {host : Host} {sys sys' : System}

/-- Only the channel, the session and two of the history variables matter. -/
theorem congr (h : sys.Tagged) (hpackets : sys'.packets = sys.packets)
    (hsessions : sys'.history.sessions = sys.history.sessions)
    (hleftover : sys'.history.leftover = sys.history.leftover)
    (hsession : sys'.HasSession → sys.HasSession) : sys'.Tagged where
  past := by
    rw [hpackets, hsessions]
    exact h.past
  own := by
    rw [hpackets, hsessions, hleftover]
    exact fun hin => h.own (hsession hin)
  other := by
    rw [hpackets, hsessions, hleftover]
    exact fun hin => h.other (hsession hin)

theorem session_eq_some (h : sys.HasSession) : sys.session = some sys.history.sessions := by
  obtain ⟨session, htcp⟩ := h
  rw [System.session, htcp]

/-- New packets carry the tag of the session that is going on. -/
theorem send (h : sys.Tagged) (packets : List Serverbound) : (sys.send packets).Tagged where
  past := by
    intro packet hpacket
    rcases List.mem_append.mp hpacket with hold | hnew
    · exact h.past packet hold
    · obtain ⟨_, -, rfl⟩ := List.mem_map.mp hnew
      intro number hnumber
      change number ∈ sys.session at hnumber
      unfold System.session at hnumber
      split at hnumber
      · exact (Option.some.inj hnumber).ge
      · cases hnumber
  own := by
    intro hin hleftover packet hpacket
    rcases List.mem_append.mp hpacket with hold | hnew
    · exact h.own hin hleftover packet hold
    · obtain ⟨_, -, rfl⟩ := List.mem_map.mp hnew
      exact session_eq_some hin
  other := by
    intro hin hleftover
    -- new packets go to the end, so that the first one stays the first
    obtain ⟨packet, hpacket, hne⟩ := h.other hin hleftover
    exact ⟨packet, by simp [System.send, List.head?_append, Option.mem_def.mp hpacket], hne⟩

/-- Outside of a session the tags need only be from the past. -/
theorem of_noSession (h : sys.Tagged) (hpackets : sys'.packets = sys.packets)
    (hsessions : sys'.history.sessions = sys.history.sessions)
    (hleftover : sys'.history.leftover = sys.history.leftover) (hnone : ¬ sys'.HasSession) :
    sys'.Tagged :=
  h.congr hpackets hsessions hleftover fun hin => absurd hin hnone

/-- A session begins. -/
theorem begin (h : sys.Tagged) :
    Tagged { sys with
      tcp := .session .new
      history := { sys.history with
        sessions := sys.history.sessions + 1
        leftover := sys.packets.length } } where
  past := fun packet hpacket number hnumber =>
    Nat.le_succ_of_le (h.past packet hpacket number hnumber)
  own := by
    intro _ hleftover packet hpacket
    rw [List.length_eq_zero_iff.mp hleftover] at hpacket
    exact absurd hpacket List.not_mem_nil
  other := by
    intro _ hleftover
    -- the first packet is older than the session that begins
    obtain ⟨packet, rest, hpackets⟩ :=
      List.exists_cons_of_length_pos (Nat.pos_of_ne_zero hleftover)
    refine ⟨packet, by rw [hpackets]; rfl, fun htag => ?_⟩
    have hle := h.past packet (by rw [hpackets]; exact List.mem_cons_self ..) _ htag
    exact absurd hle (Nat.not_succ_le_self _)

/-- A session that began with an empty channel takes a packet. -/
theorem take (h : sys.Tagged) {session : TcpSession} {packet : Queued} {packets : List Queued}
    (htcp : sys.tcp = .session session) (hpackets : sys.packets = packet :: packets)
    (hempty : sys.history.leftover = 0) :
    Tagged { sys with
      packets := packets
      tcp := .session { session with inFlight := some packet } } := by
  have hin : sys.HasSession := ⟨_, htcp⟩
  have hsub : ∀ queued ∈ packets, queued ∈ sys.packets := by
    rw [hpackets]
    exact fun _ => List.mem_cons_of_mem packet
  exact {
    past := fun queued hqueued => h.past queued (hsub queued hqueued)
    own := fun _ _ queued hqueued => h.own hin hempty queued (hsub queued hqueued)
    other := fun _ hleftover => absurd hempty hleftover }

theorem tcp {label : TcpLabel} (h : sys.Tagged) (hcase : TcpCase host sys label sys')
    (hempty : sys.BeganEmpty (.tcp label)) : sys'.Tagged := by
  cases hcase with
  | ignoreInfo | connectError | authenticateError => exact h.congr rfl rfl rfl id
  | takeInfo | connect | tlsConnectError | stopped | streamGone | sendError =>
      exact h.of_noSession rfl rfl rfl (by simp [HasSession])
  | authenticate => exact h.begin
  | invalidPacket => exact h
  | seen htcp | packet htcp | voicePoll htcp | packetSent htcp =>
      exact h.congr rfl rfl rfl fun _ => ⟨_, htcp⟩
  | ping | voice => exact h.send _
  | takePacket htcp _ hpackets => exact h.take htcp hpackets hempty

theorem udp {label : UdpLabel} (h : sys.Tagged) (hcase : UdpCase sys label sys') :
    sys'.Tagged := by
  cases hcase <;> exact h.congr rfl rfl rfl id

/-- A step keeps the tags in order if a session that writes began empty. -/
theorem step {label : Label} (h : sys.Tagged) (hstep : Step sys (host, label) sys')
    (hempty : sys.BeganEmpty label) : sys'.Tagged := by
  cases step_cases hstep with
  | command =>
      exact (h.send _).congr rfl (History.sessions_made ..) (History.leftover_made ..) id
  | controllerGone => exact h.congr rfl rfl rfl id
  | tcp hcase => exact h.tcp hcase hempty
  | udp hcase => exact h.udp hcase

theorem writesOwn_iff {label : Label} (h : sys.Tagged) (hstep : Step sys (host, label) sys') :
    sys.WritesOwn label ↔ sys.BeganEmpty label := by
  cases step_cases hstep with
  | tcp hcase =>
      cases hcase with
      | takePacket htcp _ hpackets =>
          have hin : sys.HasSession := ⟨_, htcp⟩
          constructor
          · intro hown
            by_contra hleftover
            obtain ⟨packet, hpacket, hne⟩ := h.other hin hleftover
            exact hne (hown packet hpacket)
          · exact fun hempty packet hpacket =>
              h.own hin hempty packet (List.mem_of_mem_head? hpacket)
      | _ => exact Iff.rfl
  | _ => exact Iff.rfl

end Tagged

/-- **Sessions write their own packets** in a run if and only if no session
writes that began with packets on the channel. -/
theorem writesOwn_iff_beganEmpty {state : State} {trace : List ((Host × Label) × System)}
    (hrun : Run Step (start state) trace) :
    AllSteps (fun sys label _ => sys.WritesOwn label.2) (start state) trace ↔
      AllSteps (fun sys label _ => sys.BeganEmpty label.2) (start state) trace :=
  hrun.allSteps_iff Tagged (tagged_start state)
    (fun _ _ _ htagged hstep => htagged.writesOwn_iff hstep)
    fun _ _ _ htagged hstep hown => htagged.step hstep ((htagged.writesOwn_iff hstep).mp hown)

instance (sys : System) : ∀ label, Decidable (sys.WritesOwn label)
  | .tcp .takePacket => inferInstanceAs (Decidable (∀ packet ∈ sys.packets.head?, _))
  | .command _ | .controllerGone _ | .udp _ => .isTrue trivial
  | .tcp .takeInfo | .tcp (.connect _) | .tcp (.authenticate _) | .tcp .poll | .tcp .streamGone
  | .tcp .invalidPacket | .tcp (.packet _) | .tcp .ping | .tcp .voicePoll | .tcp (.voice _)
  | .tcp (.packetSent _) => .isTrue trivial

theorem writesOwn_iff_beganEmpty_login :
    ∃ trace, (start .idle).follow .online (login "localhost" ++ [.tcp .ping, .tcp .takePacket]) =
        some trace ∧
      AllSteps (fun sys label _ => sys.BeganEmpty label.2) (start .idle) trace :=
  ⟨Option.get _ (by decide), (Option.some_get _).symm,
    (writesOwn_iff_beganEmpty (run_follow (Option.some_get _).symm)).mp (by decide)⟩

/-- We mute ourselves and disconnect before the packet is sent; the next server
gets it. -/
theorem not_writesOwn_reconnect :
    ∃ trace, (start .idle).follow .online
        (login "first" ++
          [.command (.muteSelf (some true)), .command .serverDisconnect, .tcp .poll,
            .command (.serverConnect "second" 64738 "me" none false),
            .tcp .takeInfo, .tcp (.connect .ok), .tcp (.authenticate true), .tcp .takePacket]) =
        some trace ∧
      ¬ AllSteps (fun sys label _ => sys.WritesOwn label.2) (start .idle) trace :=
  ⟨Option.get _ (by decide), (Option.some_get _).symm, by decide⟩

end Mum.System
