import Mum.Audio.Output
import Mum.Audio.SoundEffects

/-!
# Audio

`mum/src/audio.rs`: what the rest of the daemon does with audio.  Of the input
only its volume is of interest here.
-/

namespace Mum

open Library Library.Eval Msgs

/-- The sample rate used internally. -/
def sampleRate : UInt32 := 48000

structure AudioInput where
  volume : F32
deriving DecidableEq, Repr

def AudioInput.setVolume (input : AudioInput) (inputVolume : F32) : AudioInput :=
  { input with volume := inputVolume }

/-- Audio output state.  Every event has a sound effect. -/
structure AudioOutput (V : Type) where
  /-- The volume of the device. -/
  volume : F32
  numChannels : ℕ
  /-- The volume and mute-status of a user ID. -/
  userVolumes : UserVolumes
  clientStreams : ClientStream V
  /-- Which sound effect should be played on an event. -/
  sounds : HashMap NotificationEvents (List V)
  complete : ∀ event, event ∈ sounds

/-- A decoder for packets of one empty frame of 2.5 ms, which it decodes to
silence. -/
def emptyFrames : Opus F32 where
  supports := fun rate => rate = sampleRate
  getNbChannels := fun bytes => bytes.head?.map fun toc => if toc &&& 4 = 0 then .mono else .stereo
  decodeFloat := fun _ _ len => some (List.replicate len 0, 120)

namespace AudioOutput

variable {V T : Type}

/-- Plays with a stereo device and the sound effects of no overrides. -/
def new (host : SoundHost) (outputVolume : F32) : Eval (AudioOutput F32) := do
  let clientStreams ← ClientStream.new sampleRate 2
  match h : host.loadSoundEffects [] 2 with
  | .error e => .error e
  | .ok sounds => .ok {
      volume := outputVolume
      numChannels := 2
      userVolumes := ∅
      clientStreams := clientStreams
      sounds := sounds
      complete := host.mem_loadSoundEffects h }

/-- Loads the sound effects of every event. -/
def loadSoundEffects (host : SoundHost) (output : AudioOutput F32)
    (overrides : List Mumlib.SoundEffect) : Eval (AudioOutput F32) :=
  match h : host.loadSoundEffects overrides output.numChannels with
  | .error e => .error e
  | .ok sounds => .ok { output with sounds := sounds, complete := host.mem_loadSoundEffects h }

def decodePacketPayload [Zero V] (opus : Opus V) (output : AudioOutput V)
    (streamType : VoiceStreamType) (sessionId : UInt32) (payload : VoicePacketPayload) :
    Eval (AudioOutput V) := do
  let clientStreams ← output.clientStreams.decodePacket opus (streamType, sessionId) payload
  .ok { output with clientStreams := clientStreams }

def setVolume (output : AudioOutput V) (outputVolume : F32) : AudioOutput V :=
  { output with volume := outputVolume }

/-- Sets the incoming volume of a user. -/
def setUserVolume (output : AudioOutput V) (id : UInt32) (volume : F32) : AudioOutput V :=
  { output with userVolumes := output.userVolumes.upsert id (volume, false) fun e => (volume, e.2) }

/-- Mutes another user. -/
def setMute (output : AudioOutput V) (id : UInt32) (mute : Bool) : AudioOutput V :=
  { output with userVolumes := output.userVolumes.upsert id (F32.one, mute) fun e => (e.1, mute) }

/-- Queues a sound effect. -/
def playEffect (output : AudioOutput V) (effect : NotificationEvents) : Eval (AudioOutput V) := do
  let samples ← unwrap (output.sounds.lookup effect)
  .ok { output with clientStreams := output.clientStreams.addSoundEffect samples }

/-- The output device asks for `len` samples. -/
def callback [Zero V] (mixer : Mixer V T) (output : AudioOutput V) (len : ℕ) :
    List T × AudioOutput V :=
  let (data, clientStreams) :=
    Mum.callback mixer output.volume output.userVolumes output.clientStreams len
  (data, { output with clientStreams := clientStreams })

/-- A fresh output all of whose sound effects are empty. -/
def silent : AudioOutput F32 where
  volume := F32.one
  numChannels := 2
  userVolumes := ∅
  clientStreams := ⟨∅, [], sampleRate, .stereo⟩
  sounds := NotificationEvents.iter.foldl (fun sounds event => sounds.insert event []) ∅
  complete := fun event => by cases event <;> decide

/-- Sound effects are always there to be played. -/
theorem playEffect_eq_ok (output : AudioOutput V) (effect : NotificationEvents) :
    ∃ output', output.playEffect effect = .ok output' ∧
      output'.userVolumes = output.userVolumes := by
  obtain ⟨samples, hsamples⟩ := HashMap.mem_iff_lookup.mp (output.complete effect)
  refine ⟨{ output with clientStreams := output.clientStreams.addSoundEffect samples }, ?_, rfl⟩
  rw [playEffect, hsamples, unwrap_some, ok_bind]

theorem userVolumes_new {host : SoundHost} {outputVolume : F32} {output : AudioOutput F32}
    (h : AudioOutput.new host outputVolume = .ok output) : output.userVolumes = ∅ := by
  obtain ⟨clientStreams, -, h⟩ := bind_eq_ok.mp h
  split at h
  · cases h
  · cases h
    rfl

theorem userVolumes_decodePacketPayload [Zero V] {opus : Opus V} {output output' : AudioOutput V}
    {streamType : VoiceStreamType} {sessionId : UInt32} {payload : VoicePacketPayload}
    (h : output.decodePacketPayload opus streamType sessionId payload = .ok output') :
    output'.userVolumes = output.userVolumes := by
  obtain ⟨clientStreams, -, h⟩ := bind_eq_ok.mp h
  cases h
  rfl

theorem userVolumes_loadSoundEffects {host : SoundHost} {output output' : AudioOutput F32}
    {overrides : List Mumlib.SoundEffect}
    (h : output.loadSoundEffects host overrides = .ok output') :
    output'.userVolumes = output.userVolumes := by
  unfold loadSoundEffects at h
  split at h
  · cases h
  · cases h
    rfl

/-! ## The mute flags -/

/-- The stored mute flag of a session; a session without one is not muted. -/
def muted (output : AudioOutput V) (session : UInt32) : Bool := (output.userVolumes.of session).2

@[simp] theorem muted_setMute (output : AudioOutput V) (id session : UInt32) (mute : Bool) :
    (output.setMute id mute).muted session =
      if session = id then mute else output.muted session := by
  unfold muted setMute UserVolumes.of
  rw [HashMap.lookup_upsert]
  by_cases h : session = id
  · rw [if_pos h, if_pos h]
    cases output.userVolumes.lookup id <;> rfl
  · rw [if_neg h, if_neg h]

@[simp] theorem muted_setUserVolume (output : AudioOutput V) (id session : UInt32)
    (volume : F32) : (output.setUserVolume id volume).muted session = output.muted session := by
  unfold muted setUserVolume UserVolumes.of
  rw [HashMap.lookup_upsert]
  by_cases h : session = id
  · rw [if_pos h, h]
    cases output.userVolumes.lookup id <;> rfl
  · rw [if_neg h]

end AudioOutput

end Mum
