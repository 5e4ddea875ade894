import Mum.Library.Eval
import Mum.Library.HashMap
import Mum.Library.Ring
import Mum.Msgs
import Mum.Mumlib.Config
import Mum.Network

/-!
# Audio output

`mum/src/audio/output.rs`: voice packets are decoded into one ring per user and
stream type, and the callback of the output device adds the rings up.

The sample type `V` of the rings and the sample type `T` of the device are
parameters, and so are the decoder and the arithmetic on samples.
-/

namespace Mum

open Library Library.Eval Msgs

namespace Opus

/-- `opus::Channels`. -/
inductive Channels
  | mono
  | stereo
deriving DecidableEq, Repr

/-- `channels as usize`. -/
def Channels.count : Channels → ℕ
  | .mono => 1
  | .stereo => 2

/-- A decoder is determined by how it was made and what it decoded so far. -/
structure Decoder where
  sampleRate : UInt32
  channels : Channels
  decoded : List Bytes
deriving DecidableEq, Repr

end Opus

/-- The Opus library. -/
structure Opus (V : Type) where
  /-- Whether decoders exist for a sample rate. -/
  supports : UInt32 → Bool
  getNbChannels : Bytes → Option Opus.Channels
  /-- What is written to a buffer of the given length, and the returned count. -/
  decodeFloat : Opus.Decoder → Bytes → ℕ → Option (List V × ℕ)

/-- The arithmetic on samples. -/
structure Mixer (V T : Type) where
  mul : V → F32 → V
  ofSample : V → T
  saturatingAdd : T → T → T

variable {V T : Type} [Zero V]

instance : Zero F32 := ⟨F32.zero⟩

/-- `opus::Decoder::new`. -/
def Opus.newDecoder (opus : Opus V) (sampleRate : UInt32) (channels : Opus.Channels) :
    Option Opus.Decoder :=
  if opus.supports sampleRate then some ⟨sampleRate, channels, []⟩ else none

/-- The key of a user's stream: how the voice comes in, and the session id. -/
abbrev ClientStreamKey := VoiceStreamType × UInt32

/-- State for decoding audio received from another user. -/
structure ClientAudioData (V : Type) where
  buf : Bounded V
  outputChannels : Opus.Channels
  monoDecoder : Opus.Decoder
  stereoDecoder : Opus.Decoder

namespace ClientAudioData

/-- A ring that holds a second of silence, and no decoder used yet. -/
def new (opus : Opus V) (sampleRate : UInt32) (outputChannels : Opus.Channels) :
    Eval (ClientAudioData V) := do
  let monoDecoder ← unwrap (opus.newDecoder sampleRate .mono)
  let stereoDecoder ← unwrap (opus.newDecoder sampleRate .stereo)
  .ok {
    buf := Bounded.fromFull (List.replicate (sampleRate.toNat * outputChannels.count) 0)
    outputChannels := outputChannels
    monoDecoder := monoDecoder
    stereoDecoder := stereoDecoder }

/-- `step_by(2)`. -/
def stepByTwo : List V → List V
  | [] => []
  | [a] => [a]
  | a :: _ :: rest => a :: stepByTwo rest

/-- The samples that are pushed for a decoded packet. -/
def fit : Opus.Channels → Opus.Channels → List V → List V
  | .mono, .mono, out => out
  | .stereo, .stereo, out => out
  | .mono, .stereo, out => out.flatMap fun sample => [sample, sample]
  | .stereo, .mono, out => stepByTwo out

/-- The decoder for packets with these channels. -/
def decoder (client : ClientAudioData V) : Opus.Channels → Opus.Decoder
  | .mono => client.monoDecoder
  | .stereo => client.stereoDecoder

def setDecoder (client : ClientAudioData V) (decoder : Opus.Decoder) :
    Opus.Channels → ClientAudioData V
  | .mono => { client with monoDecoder := decoder }
  | .stereo => { client with stereoDecoder := decoder }

/-- Decodes a packet to the samples that are pushed for it. -/
def decode (opus : Opus V) (client : ClientAudioData V) (bytes : Bytes) :
    Eval (List V × ClientAudioData V) := do
  let packetChannels ← unwrap (opus.getNbChannels bytes)
  let decoder := client.decoder packetChannels
  -- the buffer is cut to the returned count
  let (out, parsed) ← unwrap (opus.decodeFloat decoder bytes (720 * packetChannels.count * 4))
  let decoder := { decoder with decoded := decoder.decoded ++ [bytes] }
  .ok (fit packetChannels client.outputChannels (out.take parsed),
    client.setDecoder decoder packetChannels)

def storePacket (opus : Opus V) (client : ClientAudioData V) (bytes : Bytes) :
    Eval (ClientAudioData V) := do
  let (out, client) ← client.decode opus bytes
  .ok { client with buf := client.buf.pushAll out }

omit [Zero V] in
theorem buf_decode {opus : Opus V} {client client' : ClientAudioData V} {bytes : Bytes}
    {out : List V} (h : client.decode opus bytes = .ok (out, client')) :
    client'.buf = client.buf := by
  obtain ⟨channels, -, h⟩ := bind_eq_ok.mp h
  obtain ⟨decoded, -, h⟩ := bind_eq_ok.mp h
  cases h
  cases channels <;> rfl

theorem buf_new {opus : Opus V} {sampleRate : UInt32} {outputChannels : Opus.Channels}
    {client : ClientAudioData V} (h : new opus sampleRate outputChannels = .ok client) :
    client.buf = Bounded.fromFull (List.replicate (sampleRate.toNat * outputChannels.count) 0) := by
  obtain ⟨mono, -, h⟩ := bind_eq_ok.mp h
  obtain ⟨stereo, -, h⟩ := bind_eq_ok.mp h
  cases h
  rfl

end ClientAudioData

/-- The buffers of all users and of the sound effects. -/
structure ClientStream (V : Type) where
  bufferClients : HashMap ClientStreamKey (ClientAudioData V)
  bufferEffects : List V
  sampleRate : UInt32
  outputChannels : Opus.Channels

namespace ClientStream

def new (sampleRate : UInt32) : ℕ → Eval (ClientStream V)
  | 1 => .ok ⟨∅, [], sampleRate, .mono⟩
  | 2 => .ok ⟨∅, [], sampleRate, .stereo⟩
  | _ => .error .panic

/-- The data of a user's stream, which is made when it is first asked for. -/
def getClient (opus : Opus V) (stream : ClientStream V) (client : ClientStreamKey) :
    Eval (ClientAudioData V) := do
  -- `or_insert` makes the new data in any case
  let fresh ← ClientAudioData.new opus stream.sampleRate stream.outputChannels
  .ok ((stream.bufferClients.lookup client).getD fresh)

/-- Decodes a voice packet; only Opus is supported. -/
def decodePacket (opus : Opus V) (stream : ClientStream V) (client : ClientStreamKey) :
    VoicePacketPayload → Eval (ClientStream V)
  | .opus bytes _ => do
      let data ← stream.getClient opus client
      let data ← data.storePacket opus bytes
      .ok { stream with
        bufferClients := stream.bufferClients.upsert client data fun _ => data }
  | _ => .error .panic

/-- What a decoded packet does to the streams. -/
theorem decodePacket_eq_ok {opus : Opus V} {stream stream' : ClientStream V}
    {client : ClientStreamKey} {payload : VoicePacketPayload}
    (h : stream.decodePacket opus client payload = .ok stream') :
    ∃ bytes eot data out data', payload = .opus bytes eot ∧
      stream.getClient opus client = .ok data ∧ data.decode opus bytes = .ok (out, data') ∧
      stream' = { stream with
        bufferClients := stream.bufferClients.upsert client
          { data' with buf := data.buf.pushAll out }
          fun _ => { data' with buf := data.buf.pushAll out } } := by
  cases payload with
  | celtAlpha frames => cases h
  | speex frames => cases h
  | celtBeta frames => cases h
  | opus bytes eot =>
      obtain ⟨data, hdata, h⟩ := bind_eq_ok.mp h
      obtain ⟨stored, hstored, h⟩ := bind_eq_ok.mp h
      obtain ⟨⟨out, data'⟩, hout, hstored⟩ := bind_eq_ok.mp hstored
      cases hstored
      cases h
      exact ⟨bytes, eot, data, out, data', rfl, hdata, hout, by
        rw [ClientAudioData.buf_decode hout]⟩

def addSoundEffect (stream : ClientStream V) (values : List V) : ClientStream V :=
  { stream with bufferEffects := stream.bufferEffects ++ values }

end ClientStream

/-! ## The callback -/

/-- The volume of each user and whether it is muted. -/
abbrev UserVolumes := HashMap UInt32 (F32 × Bool)

/-- `get(..).unwrap_or((1.0, false))`. -/
def UserVolumes.of (userVolumes : UserVolumes) (session : UInt32) : F32 × Bool :=
  (userVolumes.lookup session).getD (F32.one, false)

/-- Drains one element of the ring for every sample of the output, and silence
when the ring is empty. -/
def mixClient (mixer : Mixer V T) (volume userVolume : F32) :
    List T → Bounded V → List T × Bounded V
  | [], buf => ([], buf)
  | sample :: data, buf =>
      let (val, buf) := buf.pop
      let val := mixer.mul (mixer.mul (val.getD 0) volume) userVolume
      let (data, buf) := mixClient mixer volume userVolume data buf
      (mixer.saturatingAdd sample (mixer.ofSample val) :: data, buf)

/-- Adds one user's stream to the output unless the user is muted. -/
def mixStream (mixer : Mixer V T) (volume : F32) (userVolumes : UserVolumes) (data : List T)
    (key : ClientStreamKey) (client : ClientAudioData V) : List T × ClientAudioData V :=
  let (userVolume, muted) := userVolumes.of key.2
  -- the ring of a muted user is not drained
  if muted then (data, client)
  else
    let (data, buf) := mixClient mixer volume userVolume data client.buf
    (data, { client with buf := buf })

/-- Adds the sound effects to the output. -/
def mixEffects (mixer : Mixer V T) (volume : F32) : List T → List V → List T × List V
  | [], effects => ([], effects)
  | sample :: data, effects =>
      let val := mixer.mul (effects.head?.getD 0) volume
      let (data, rest) := mixEffects mixer volume data effects.tail
      (mixer.saturatingAdd sample (mixer.ofSample val) :: data, rest)

/-- Fills an output buffer of length `len`. -/
def callback (mixer : Mixer V T) (volume : F32) (userVolumes : UserVolumes)
    (userBufs : ClientStream V) (len : ℕ) : List T × ClientStream V :=
  let data := List.replicate len (mixer.ofSample 0)
  let (data, bufferClients) :=
    userBufs.bufferClients.mapAccum (mixStream mixer volume userVolumes) data
  let (data, bufferEffects) := mixEffects mixer volume data userBufs.bufferEffects
  (data, { userBufs with bufferClients := bufferClients, bufferEffects := bufferEffects })

end Mum
