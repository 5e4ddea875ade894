import Mathlib.Data.List.TakeDrop
import Mum.Audio

/-!
# The frames of a packet

A packet decodes to frames of one or two samples.  The decoder writes their
values next to each other and returns the number of frames.  `laidOut` is what
the frames are in the layout of the output.

`store_packet` cuts the decoded values to the returned count, which counts
frames and not values.  `pushed_eq_laidOut_iff` says which packets survive that.

Of a mono packet nothing is cut off.  Of a stereo packet only half of the values are left,
and the lengths tell when that makes a difference.  `decode_of_decodedFrames` brings this to
the decoder, of which `WritesFrames` says that it writes as many frames as it returns.
-/

namespace Mum

open Library Library.Eval Msgs

variable {V : Type}

/-- The frames of a mono or of a stereo packet. -/
inductive Frames (V : Type)
  | mono (samples : List V)
  | stereo (samples : List (V × V))
deriving DecidableEq, Repr

namespace Frames

/-- Two values make a stereo frame. -/
def pairs : List V → List (V × V)
  | left :: right :: rest => (left, right) :: pairs rest
  | _ => []

/-- The values of stereo frames next to each other. -/
def unpairs : List (V × V) → List V
  | [] => []
  | (left, right) :: rest => left :: right :: unpairs rest

/-- Reads the frames off interleaved values. -/
def ofInterleaved : Opus.Channels → List V → Frames V
  | .mono, values => .mono values
  | .stereo, values => .stereo (pairs values)

def channels : Frames V → Opus.Channels
  | .mono _ => .mono
  | .stereo _ => .stereo

/-- The number of frames. -/
def length : Frames V → ℕ
  | .mono samples => samples.length
  | .stereo samples => samples.length

def interleaved : Frames V → List V
  | .mono samples => samples
  | .stereo samples => unpairs samples

/-- The frames in the layout of the output: a mono sample is played on both
channels, and of a stereo frame a mono output plays the left one. -/
def laidOut : Frames V → Opus.Channels → List V
  | .mono samples, .mono => samples
  | .mono samples, .stereo => samples.flatMap fun sample => [sample, sample]
  | .stereo samples, .mono => samples.map Prod.fst
  | .stereo samples, .stereo => unpairs samples

/-- What `store_packet` pushes for the frames. -/
def pushed (frames : Frames V) (output : Opus.Channels) : List V :=
  ClientAudioData.fit frames.channels output (frames.interleaved.take frames.length)

/-- No value is cut off that belongs to the output. -/
def Whole (frames : Frames V) (output : Opus.Channels) : Prop :=
  frames.channels = .mono ∨ frames.length = 0 ∨ output = .mono ∧ frames.length ≤ 1

instance (frames : Frames V) (output : Opus.Channels) : Decidable (frames.Whole output) :=
  inferInstanceAs (Decidable (_ ∨ _))

theorem length_unpairs (samples : List (V × V)) :
    (unpairs samples).length = samples.length * 2 := by
  induction samples with
  | nil => rfl
  | cons frame rest ih =>
      rw [unpairs, List.length_cons, List.length_cons, List.length_cons, ih]
      omega

theorem unpairs_pairs {values : List V} {n : ℕ} (h : values.length = n * 2) :
    unpairs (pairs values) = values := by
  induction n generalizing values with
  | zero =>
      have hnil : values = [] := List.length_eq_zero_iff.mp (by omega)
      rw [hnil]
      rfl
  | succ n ih =>
      match values with
      | left :: right :: rest =>
          have hrest : rest.length = n * 2 := by
            simp only [List.length_cons] at h
            omega
          rw [pairs, unpairs, ih hrest]
      | [value] =>
          simp only [List.length_singleton] at h
          omega
      | [] =>
          simp only [List.length_nil] at h
          omega

theorem channels_ofInterleaved (channels : Opus.Channels) (values : List V) :
    (ofInterleaved channels values).channels = channels := by
  cases channels <;> rfl

theorem interleaved_ofInterleaved {channels : Opus.Channels} {values : List V} {n : ℕ}
    (h : values.length = n * channels.count) :
    (ofInterleaved channels values).interleaved = values := by
  cases channels with
  | mono => rfl
  | stereo => exact unpairs_pairs h

theorem length_interleaved (frames : Frames V) :
    frames.interleaved.length = frames.length * frames.channels.count := by
  cases frames with
  | mono samples => exact (Nat.mul_one _).symm
  | stereo samples => exact length_unpairs samples

theorem length_ofInterleaved {channels : Opus.Channels} {values : List V} {n : ℕ}
    (h : values.length = n * channels.count) : (ofInterleaved channels values).length = n := by
  have hlen := length_interleaved (ofInterleaved channels values)
  rw [interleaved_ofInterleaved h, channels_ofInterleaved, h] at hlen
  have hpos : 0 < channels.count := by cases channels <;> decide
  exact (Nat.eq_of_mul_eq_mul_right hpos hlen).symm

theorem length_stepByTwo (values : List V) :
    (ClientAudioData.stepByTwo values).length = (values.length + 1) / 2 := by
  induction values using ClientAudioData.stepByTwo.induct with
  | case1 => simp [ClientAudioData.stepByTwo]
  | case2 value => simp [ClientAudioData.stepByTwo]
  | case3 left right rest ih =>
      rw [ClientAudioData.stepByTwo, List.length_cons, List.length_cons, List.length_cons, ih]
      omega

/-- A stereo output loses the second half of a stereo packet, and a mono output
the left values of that half. -/
theorem pushed_eq_laidOut_iff (frames : Frames V) (output : Opus.Channels) :
    frames.pushed output = frames.laidOut output ↔ frames.Whole output := by
  cases frames with
  | mono samples =>
      refine iff_of_true ?_ (Or.inl rfl)
      have htake : samples.take samples.length = samples := List.take_length
      unfold pushed
      cases output with
      | mono => exact htake
      | stereo => exact congrArg (List.flatMap fun sample => [sample, sample]) htake
  | stereo samples =>
      have hlen := length_unpairs samples
      cases output with
      | stereo =>
          have htake : (unpairs samples).take samples.length = unpairs samples ↔
              samples.length = 0 := by
            rw [List.take_eq_self_iff, hlen]
            omega
          simpa [pushed, laidOut, Whole, channels, interleaved, length, ClientAudioData.fit]
            using htake
      | mono =>
          have hiff : samples.length ≤ 1 ↔ (Frames.stereo samples).Whole .mono := by
            constructor
            · intro h
              exact Or.inr (Or.inr ⟨rfl, h⟩)
            · rintro (h | h | ⟨-, h⟩)
              · cases h
              · exact Nat.le_trans (Nat.le_of_eq h) (Nat.zero_le 1)
              · exact h
          rw [← hiff]
          constructor
          · intro h
            have hcount := congrArg List.length h
            simp only [pushed, laidOut, channels, interleaved, length, ClientAudioData.fit,
              length_stepByTwo, List.length_take, hlen, List.length_map] at hcount
            omega
          · intro h
            match samples with
            | [] => rfl
            | [(left, right)] => rfl
            | _ :: _ :: _ =>
                simp only [List.length_cons] at h
                omega

end Frames

/-! ## Decoding to frames -/

/-- The decoder writes a value of every channel for every frame it counts. -/
def Opus.WritesFrames (opus : Opus V) : Prop :=
  ∀ decoder bytes channels out parsed, opus.getNbChannels bytes = some channels →
    opus.decodeFloat decoder bytes (720 * channels.count * 4) = some (out, parsed) →
      parsed * channels.count ≤ out.length

namespace ClientAudioData

/-- The frames that a packet decodes to. -/
def decodedFrames (opus : Opus V) (client : ClientAudioData V) (bytes : Bytes) :
    Option (Frames V) := do
  let channels ← opus.getNbChannels bytes
  let (out, parsed) ← opus.decodeFloat (client.decoder channels) bytes (720 * channels.count * 4)
  some (.ofInterleaved channels (out.take (parsed * channels.count)))

/-- What is pushed for a packet, in terms of its frames. -/
theorem decode_of_decodedFrames {opus : Opus V} (hopus : opus.WritesFrames)
    {client : ClientAudioData V} {bytes : Bytes} {frames : Frames V}
    (hframes : client.decodedFrames opus bytes = some frames) :
    ∃ client', client.decode opus bytes = .ok (frames.pushed client.outputChannels, client') := by
  obtain ⟨channels, hchannels, hframes⟩ := Option.bind_eq_some_iff.mp hframes
  obtain ⟨⟨out, parsed⟩, hout, hframes⟩ := Option.bind_eq_some_iff.mp hframes
  cases hframes
  have hle := hopus _ _ _ _ _ hchannels hout
  have hlen : (out.take (parsed * channels.count)).length = parsed * channels.count :=
    List.length_take_of_le hle
  have hparsed : parsed ≤ parsed * channels.count := by
    cases channels with
    | mono => exact Nat.le_of_eq (Nat.mul_one _).symm
    | stereo => exact Nat.le_mul_of_pos_right parsed (by decide)
  have hpushed : (Frames.ofInterleaved channels (out.take (parsed * channels.count))).pushed
      client.outputChannels = fit channels client.outputChannels (out.take parsed) := by
    rw [Frames.pushed, Frames.channels_ofInterleaved, Frames.interleaved_ofInterleaved hlen,
      Frames.length_ofInterleaved hlen, List.take_take, Nat.min_eq_left hparsed]
  refine ⟨client.setDecoder
    { client.decoder channels with decoded := (client.decoder channels).decoded ++ [bytes] }
    channels, ?_⟩
  rw [hpushed, decode, hchannels, unwrap_some, ok_bind]
  dsimp only
  rw [hout, unwrap_some, ok_bind]

/-- A packet goes into the ring as its frames, in the layout of the output. -/
def StoresFrames (opus : Opus V) (client : ClientAudioData V) (bytes : Bytes)
    (frames : Frames V) : Prop :=
  ∃ client', client.storePacket opus bytes = .ok client' ∧
    client'.buf = client.buf.pushAll (frames.laidOut client.outputChannels)

theorem storesFrames_iff {opus : Opus V} (hopus : opus.WritesFrames)
    {client : ClientAudioData V} {bytes : Bytes} {frames : Frames V}
    (hframes : client.decodedFrames opus bytes = some frames) :
    client.StoresFrames opus bytes frames ↔
      client.buf.pushAll (frames.pushed client.outputChannels) =
        client.buf.pushAll (frames.laidOut client.outputChannels) := by
  obtain ⟨client', hdecode⟩ := decode_of_decodedFrames hopus hframes
  have hstore : client.storePacket opus bytes = .ok { client' with
      buf := client'.buf.pushAll (frames.pushed client.outputChannels) } := by
    rw [storePacket, hdecode, ok_bind]
  rw [← buf_decode hdecode]
  constructor
  · intro ⟨stored, hstored, hbuf⟩
    rw [hstore] at hstored
    cases hstored
    rw [← buf_decode hdecode] at hbuf
    exact hbuf
  · intro h
    exact ⟨_, hstore, by rw [← buf_decode hdecode]; exact h⟩

/-- **Which packets are stored whole.**  Mono packets are, and stereo packets
without a second value to lose. -/
theorem storesFrames_all_iff_whole (opus : Opus V) (hopus : opus.WritesFrames)
    (client : ClientAudioData V) (bytes : Bytes) (frames : Frames V)
    (hframes : client.decodedFrames opus bytes = some frames) :
    (∀ ring, { client with buf := ring }.StoresFrames opus bytes frames) ↔
      frames.Whole client.outputChannels := by
  have hring : ∀ ring : Bounded V,
      { client with buf := ring }.decodedFrames opus bytes = some frames := by
    intro ring
    rw [← hframes]
    unfold decodedFrames decoder
    rfl
  rw [← Frames.pushed_eq_laidOut_iff]
  constructor
  · intro h
    -- an empty ring with room for either shows what was pushed
    have hstores := (storesFrames_iff hopus (hring (.empty
      (max (frames.pushed client.outputChannels).length
        (frames.laidOut client.outputChannels).length)))).mp (h _)
    have hdata := congrArg Bounded.data hstores
    rw [Bounded.data_pushAll_empty (Nat.le_max_left ..),
      Bounded.data_pushAll_empty (Nat.le_max_right ..)] at hdata
    exact hdata
  · intro h ring
    exact (storesFrames_iff hopus (hring ring)).mpr (by rw [h])

/-! ## A stereo packet that loses its second half -/

theorem writesFrames_emptyFrames : emptyFrames.WritesFrames := by
  intro decoder bytes channels out parsed _ hout
  cases hout
  rw [List.length_replicate]
  omega

/-- A stereo stream all of whose samples were played. -/
def drained : ClientAudioData F32 where
  buf := .empty 96000
  outputChannels := .stereo
  monoDecoder := ⟨sampleRate, .mono, []⟩
  stereoDecoder := ⟨sampleRate, .stereo, []⟩

/-- A stereo frame of 2.5 ms. -/
def stereoFrames : Frames F32 := .stereo (List.replicate 120 (0, 0))

theorem decodedFrames_drained :
    drained.decodedFrames emptyFrames [0xe4] = some stereoFrames := by decide +kernel

theorem storesFrames_all_iff_whole_drained :
    (∀ ring, { drained with buf := ring }.StoresFrames emptyFrames [0xe4] stereoFrames) ↔
      stereoFrames.Whole .stereo :=
  storesFrames_all_iff_whole emptyFrames writesFrames_emptyFrames drained [0xe4] stereoFrames
    decodedFrames_drained

/-- Of the 240 values of the packet, 120 are stored. -/
theorem not_storesFrames_drained :
    emptyFrames.WritesFrames ∧ drained.decodedFrames emptyFrames [0xe4] = some stereoFrames ∧
      ¬ drained.StoresFrames emptyFrames [0xe4] stereoFrames := by
  refine ⟨writesFrames_emptyFrames, decodedFrames_drained, fun h => ?_⟩
  have hdata := congrArg Bounded.data
    ((storesFrames_iff writesFrames_emptyFrames decodedFrames_drained).mp h)
  have hpushed : (stereoFrames.pushed .stereo).length = 120 := by decide +kernel
  have hlaidOut : (stereoFrames.laidOut .stereo).length = 240 := by decide +kernel
  have hlen := congrArg List.length hdata
  rw [drained, Bounded.data_pushAll_empty (by rw [hpushed]; decide),
    Bounded.data_pushAll_empty (by rw [hlaidOut]; decide), hpushed, hlaidOut] at hlen
  omega

end ClientAudioData

end Mum
