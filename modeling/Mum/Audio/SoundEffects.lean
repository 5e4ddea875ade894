import Mathlib.Data.List.ReduceOption
import Mum.Library.Eval
import Mum.Library.HashMap
import Mum.Msgs
import Mum.Mumlib.Config

/-!
# Sound effects

`mum/src/audio/sound_effects.rs`: which samples are played on which event.  The
file system, the resampler and the readers of hound and lewton are parameters.  A
reader is what these libraries say about an opened file: its header, and what comes
for each sample or packet that is asked for.
-/

namespace Mum

open Library Library.Eval Msgs

inductive AudioFileKind
  | ogg
  | wav
deriving DecidableEq, Repr

def AudioFileKind.tryFrom : String → Option AudioFileKind
  | "ogg" => some .ogg
  | "wav" => some .wav
  | _ => none

structure AudioSpec where
  channels : UInt32
  sampleRate : UInt32
deriving DecidableEq, Repr

/-- An event on which a sound effect is played. -/
inductive NotificationEvents
  | serverConnect
  | serverDisconnect
  | userConnected
  | userDisconnected
  | userJoinedChannel
  | userLeftChannel
  | mute
  | unmute
  | deafen
  | undeafen
deriving DecidableEq, Repr

namespace NotificationEvents

def tryFrom : String → Option NotificationEvents
  | "server_connect" => some .serverConnect
  | "server_disconnect" => some .serverDisconnect
  | "user_connected" => some .userConnected
  | "user_disconnected" => some .userDisconnected
  | "user_joined_channel" => some .userJoinedChannel
  | "user_left_channel" => some .userLeftChannel
  | "mute" => some .mute
  | "unmute" => some .unmute
  | "deafen" => some .deafen
  | "undeafen" => some .undeafen
  | _ => none

/-- `NotificationEvents::iter`. -/
def iter : List NotificationEvents :=
  [.serverConnect, .serverDisconnect, .userConnected, .userDisconnected, .userJoinedChannel,
    .userLeftChannel, .mute, .unmute, .deafen, .undeafen]

theorem mem_iter (event : NotificationEvents) : event ∈ iter := by
  cases event <;> decide

end NotificationEvents

/-- `hound::SampleFormat`. -/
inductive SampleFormat
  | float
  | int
deriving DecidableEq, Repr

/-- `hound::WavSpec`. -/
structure WavSpec where
  channels : UInt16
  sampleRate : UInt32
  bitsPerSample : UInt16
  sampleFormat : SampleFormat
deriving DecidableEq, Repr

/-- `hound::WavReader`: the header, and what `into_samples` gives at the two types that
are asked for, where `none` is an error. -/
structure WavReader where
  spec : WavSpec
  intoF32 : List (Option F32)
  intoI16 : List (Option Int16)
deriving DecidableEq, Repr

/-- `lewton::inside_ogg::OggStreamReader`: the header, and what `read_dec_packet_itl`
gives, where `none` is an error. -/
structure OggStreamReader where
  audioChannels : UInt8
  audioSampleRate : UInt32
  packets : List (Option (List Int16))
deriving DecidableEq, Repr

/-- The file system, the audio readers and the resampler. -/
structure SoundHost where
  /-- `none` when the file cannot be opened, a panic when it cannot be read. -/
  openFile : String → Option (Eval Bytes)
  /-- The built-in sound effect. -/
  fallbackSfx : Bytes
  /-- Whether the `ogg` feature is compiled in. -/
  oggFeature : Bool
  newOggReader : Bytes → Option OggStreamReader
  newWavReader : Bytes → Option WavReader
  /-- `cpal::Sample::to_f32`. -/
  toF32 : Int16 → F32
  /-- Interleaved stereo samples at some rate as frames at the internal rate. -/
  resample : List F32 → UInt32 → List (F32 × F32)

/-- No files, and a built-in sound effect without samples. -/
def SoundHost.silent : SoundHost where
  openFile := fun _ => none
  fallbackSfx := []
  oggFeature := false
  newOggReader := fun _ => none
  newWavReader := fun _ => some ⟨⟨2, 48000, 16, .int⟩, [], []⟩
  toF32 := fun _ => F32.zero
  resample := fun _ _ => []

namespace SoundHost

variable (host : SoundHost)

def getDefaultSfx : Bytes := host.fallbackSfx

/-- The contents of the file, or the default when it cannot be opened. -/
def getSfx (file : String) : Eval Bytes :=
  match host.openFile file with
  | some contents => contents
  | none => .ok host.getDefaultSfx

/-- Integer samples are asked for as `i16`, whatever their size. -/
def unpackWav (data : Bytes) : Eval (List F32 × AudioSpec) := do
  let reader ← unwrap (host.newWavReader data)
  let samples ← (match reader.spec.sampleFormat with
    | .float => reader.intoF32.mapM unwrap
    | .int => reader.intoI16.mapM fun e => do return host.toF32 (← unwrap e)
    : Eval (List F32))
  return (samples, ⟨reader.spec.channels.toUInt32, reader.spec.sampleRate⟩)

/-- `unpack_ogg` with the `ogg` feature: the packets up to the first that cannot be read. -/
def decodeOgg (data : Bytes) : Eval (List F32 × AudioSpec) := do
  let reader ← unwrap (host.newOggReader data)
  let samples := (reader.packets.takeWhile Option.isSome).reduceOption.flatten
  return (samples.map host.toF32, ⟨reader.audioChannels.toUInt32, reader.audioSampleRate⟩)

/-- Without the feature this is the built-in sound. -/
def unpackOgg (data : Bytes) : Eval (List F32 × AudioSpec) :=
  if host.oggFeature then host.decodeOgg data else host.unpackWav host.getDefaultSfx

def unpackAudio (data : Bytes) : AudioFileKind → Eval (List F32 × AudioSpec)
  | .ogg => host.unpackOgg data
  | .wav => host.unpackWav data

/-- What follows the last dot of a file name. -/
def extension (file : String) : String :=
  String.ofList (file.toList.reverse.takeWhile (· ≠ '.')).reverse

/-- The bytes to decode for an event, and as what. -/
def dataOf (file : Option String) : Eval (Bytes × AudioFileKind) :=
  match file.bind fun file => (AudioFileKind.tryFrom (extension file)).map (file, ·) with
  | some (file, kind) => do
      let data ← host.getSfx file
      return (data, kind)
  | none => .ok (host.getDefaultSfx, .wav)

/-- `dasp`'s `from_hz_to_hz`, which asserts that it is to play at some speed. -/
def fromHzToHz (stereo : List F32) (sourceHz : UInt32) : Eval (List (F32 × F32)) :=
  if sourceHz = 0 then .error .panic else .ok (host.resample stereo sourceHz)

/-- The samples to play for an event. -/
def samplesOf (file : Option String) (numChannels : Nat) : Eval (List F32) := do
  let (data, kind) ← host.dataOf file
  let (samples, spec) ← host.unpackAudio data kind
  -- mono samples are doubled, since everything after this is interleaved stereo
  let stereo ← (match spec.channels with
    | 1 => .ok (samples.flatMap fun e => [e, e])
    | 2 => .ok samples
    | _ => .error .panic : Eval (List F32))
  let frames ← host.fromHzToHz stereo spec.sampleRate
  return frames.flatMap fun e =>
    if numChannels = 1 then [e.1] else [e.1, e.2]

/-- The file that overrides each event; the last override wins. -/
def overridesOf (overrides : List Mumlib.SoundEffect) : HashMap NotificationEvents String :=
  overrides.foldl (fun files sound =>
    match NotificationEvents.tryFrom sound.event with
    | some event => files.insert event sound.file
    | none => files) ∅

/-- The samples of every event. -/
def loadSoundEffects (overrides : List Mumlib.SoundEffect) (numChannels : Nat) :
    Eval (HashMap NotificationEvents (List F32)) := do
  let files := overridesOf overrides
  NotificationEvents.iter.foldlM (fun sounds event => do
    let samples ← host.samplesOf (files.lookup event) numChannels
    return sounds.insert event samples) ∅

/-- Every event gets its samples. -/
theorem mem_loadSoundEffects {overrides : List Mumlib.SoundEffect} {numChannels : Nat}
    {sounds : HashMap NotificationEvents (List F32)}
    (h : host.loadSoundEffects overrides numChannels = .ok sounds) (event : NotificationEvents) :
    event ∈ sounds := by
  have hfold : ∀ (events : List NotificationEvents) (start : HashMap NotificationEvents (List F32)),
      events.foldlM (fun sounds event => do
        let samples ← host.samplesOf ((overridesOf overrides).lookup event) numChannels
        return sounds.insert event samples) start = .ok sounds →
      (∀ event ∈ start, event ∈ sounds) ∧ ∀ event ∈ events, event ∈ sounds := by
    intro events
    induction events with
    | nil =>
        intro start h
        cases h
        exact ⟨fun _ h => h, fun _ h => by simp at h⟩
    | cons event rest ih =>
        intro start h
        obtain ⟨next, hnext, h⟩ := bind_eq_ok.mp h
        obtain ⟨samples, -, hnext⟩ := bind_eq_ok.mp hnext
        cases hnext
        obtain ⟨hstart, hrest⟩ := ih _ h
        have hmem : ∀ e, e ∈ AList.insert event samples start ↔ e = event ∨ e ∈ start :=
          fun e => AList.mem_insert start
        exact ⟨fun e he => hstart e ((hmem e).mpr (.inr he)),
          List.forall_mem_cons.mpr ⟨hstart event ((hmem event).mpr (.inl rfl)), hrest⟩⟩
  exact (hfold _ ∅ h).2 event (NotificationEvents.mem_iter event)

end SoundHost

end Mum
