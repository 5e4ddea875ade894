import Mum.Audio

/-!
# Marked samples

Which samples reach the output is not visible in the samples themselves.  Here
the sample types of the output are instantiated with samples that carry a mark,
set when the packet they come from arrived while its sender was muted.  An
output sample is marked when a marked sample was mixed into it.

`play_erase` says that the marks are only looked at, never acted on: without
them, the run is the run of the program.

There is one lemma for each function of the output, from the rings up to the callback.  The
functions do the same whatever the samples are; only the mixer computes with them, and its
marked version computes the same values.
-/

namespace Mum

open Library Library.Eval Msgs

/-- A sample, and whether some of it arrived while its sender was muted. -/
structure Marked (V : Type) where
  value : V
  whileMuted : Bool

variable {V T : Type} [Zero V]

namespace Marked

instance : Zero (Marked V) := ⟨⟨0, false⟩⟩

def plain (v : V) : Marked V := ⟨v, false⟩

@[simp] theorem value_zero : (0 : Marked V).value = 0 := rfl

@[simp] theorem whileMuted_zero : (0 : Marked V).whileMuted = false := rfl

end Marked

/-- The decoder with a mark on everything it decodes. -/
def Opus.marked (opus : Opus V) (whileMuted : Bool) : Opus (Marked V) where
  supports := opus.supports
  getNbChannels := opus.getNbChannels
  decodeFloat := fun decoder bytes len =>
    (opus.decodeFloat decoder bytes len).map fun out => (out.1.map (⟨·, whileMuted⟩), out.2)

/-- The arithmetic on the values; marks add up. -/
def Mixer.marked (mixer : Mixer V T) : Mixer (Marked V) (Marked T) where
  mul := fun v x => ⟨mixer.mul v.value x, v.whileMuted⟩
  ofSample := fun v => ⟨mixer.ofSample v.value, v.whileMuted⟩
  saturatingAdd := fun a b =>
    ⟨mixer.saturatingAdd a.value b.value, a.whileMuted || b.whileMuted⟩

/-! ## Runs of the audio output -/

/-- What happens to the audio output from outside. -/
inductive AudioEvent
  | decodePacket (streamType : VoiceStreamType) (sessionId : UInt32)
      (payload : VoicePacketPayload)
  | setMute (id : UInt32) (mute : Bool)
  | callback (len : ℕ)
deriving DecidableEq, Repr

namespace AudioOutput

/-- One event and the samples it sends to the device.  The decoder may depend on
whether the sender of the packet is muted. -/
def step (opus : Bool → Opus V) (mixer : Mixer V T) (output : AudioOutput V) :
    AudioEvent → Eval (List T × AudioOutput V)
  | .decodePacket streamType sessionId payload => do
      let opus := opus (output.muted sessionId)
      let output ← output.decodePacketPayload opus streamType sessionId payload
      .ok ([], output)
  | .setMute id mute => .ok ([], output.setMute id mute)
  | .callback len => .ok (output.callback mixer len)

/-- All samples that a run sends to the device. -/
def play (opus : Bool → Opus V) (mixer : Mixer V T) :
    AudioOutput V → List AudioEvent → Eval (List T × AudioOutput V)
  | output, [] => .ok ([], output)
  | output, event :: rest => do
      let (heard, output) ← output.step opus mixer event
      let (later, output) ← play opus mixer output rest
      .ok (heard ++ later, output)

end AudioOutput

namespace AudioOutput

variable {opus : Bool → Opus V} {mixer : Mixer V T} {output mid final : AudioOutput V}

theorem play_cons {event : AudioEvent} {rest : List AudioEvent} {heard later : List T}
    (hstep : output.step opus mixer event = .ok (heard, mid))
    (hrest : mid.play opus mixer rest = .ok (later, final)) :
    output.play opus mixer (event :: rest) = .ok (heard ++ later, final) := by
  simp only [play, hstep, ok_bind, hrest]

theorem play_callback (len : ℕ) : output.play opus mixer [.callback len] =
    .ok ((output.callback mixer len).1, (output.callback mixer len).2) := by
  simp only [play, step, ok_bind, List.append_nil]

end AudioOutput

/-! ## Mapping all samples -/

variable {W : Type}

def ClientAudioData.map (f : V → W) (client : ClientAudioData V) : ClientAudioData W where
  buf := client.buf.map f
  outputChannels := client.outputChannels
  monoDecoder := client.monoDecoder
  stereoDecoder := client.stereoDecoder

def ClientStream.map (f : V → W) (stream : ClientStream V) : ClientStream W where
  bufferClients := stream.bufferClients.mapValues (ClientAudioData.map f)
  bufferEffects := stream.bufferEffects.map f
  sampleRate := stream.sampleRate
  outputChannels := stream.outputChannels

def AudioOutput.map (f : V → W) (output : AudioOutput V) : AudioOutput W where
  volume := output.volume
  numChannels := output.numChannels
  userVolumes := output.userVolumes
  clientStreams := output.clientStreams.map f
  sounds := output.sounds.mapValues (List.map f)
  complete := fun event => by
    rw [HashMap.mem_mapValues]
    exact output.complete event

/-! ## Erasing the marks -/

omit [Zero V] in
theorem AudioOutput.map_plain (output : AudioOutput V) :
    (output.map Marked.plain).map Marked.value = output := by
  have hlist : ∀ samples : List V, (samples.map Marked.plain).map Marked.value = samples :=
    fun samples => by simp [Marked.plain, Function.comp_def]
  have hclient : ∀ client : ClientAudioData V,
      (client.map Marked.plain).map Marked.value = client := fun client => by
    simp [ClientAudioData.map, Bounded.map, Marked.plain, Function.comp_def]
  simp only [map, ClientStream.map, HashMap.mapValues_mapValues_eq hclient,
    HashMap.mapValues_mapValues_eq hlist, hlist]

omit [Zero V] in
theorem fit_map (f : V → W) (packetChannels outputChannels : Opus.Channels) (out : List V) :
    ClientAudioData.fit packetChannels outputChannels (out.map f) =
      (ClientAudioData.fit packetChannels outputChannels out).map f := by
  cases packetChannels with
  | mono =>
      cases outputChannels with
      | mono => rfl
      | stereo => simp [ClientAudioData.fit, List.flatMap_map, List.map_flatMap]
  | stereo =>
      cases outputChannels with
      | stereo => rfl
      | mono =>
          show ClientAudioData.stepByTwo (out.map f) = (ClientAudioData.stepByTwo out).map f
          fun_induction ClientAudioData.stepByTwo out with
          | case1 => rfl
          | case2 a => rfl
          | case3 a b rest ih => simp [ClientAudioData.stepByTwo, ih]

namespace ClientAudioData

variable (opus : Opus V) (m : Bool)

theorem new_erase (sampleRate : UInt32) (outputChannels : Opus.Channels) :
    new opus sampleRate outputChannels =
      (new (opus.marked m) sampleRate outputChannels).map (map Marked.value) := by
  unfold new Opus.newDecoder
  by_cases h : opus.supports sampleRate
  · simp [Opus.marked, h, map, Except.map, Bounded.fromFull, Bounded.map]
  · simp [Opus.marked, h, Except.map]

omit [Zero V] in
theorem decode_erase (client : ClientAudioData (Marked V)) (bytes : Bytes) :
    (client.map Marked.value).decode opus bytes =
      (client.decode (opus.marked m) bytes).map
        (Prod.map (List.map Marked.value) (map Marked.value)) := by
  unfold decode
  cases hchannels : opus.getNbChannels bytes with
  | none => simp [Opus.marked, hchannels, Except.map]
  | some channels =>
      have hdecoder : (client.map Marked.value).decoder channels = client.decoder channels := by
        cases channels <;> rfl
      cases hout : opus.decodeFloat (client.decoder channels) bytes (720 * channels.count * 4) with
      | none => simp [Opus.marked, hchannels, hdecoder, hout, Except.map]
      | some out =>
          simp only [Opus.marked, hchannels, hdecoder, hout, unwrap_some, ok_bind, Option.map_some,
            Except.map, Prod.map]
          rw [← fit_map, List.map_take, List.map_map]
          cases channels <;> simp [setDecoder, map, Function.comp_def]

omit [Zero V] in
theorem storePacket_erase (client : ClientAudioData (Marked V)) (bytes : Bytes) :
    (client.map Marked.value).storePacket opus bytes =
      (client.storePacket (opus.marked m) bytes).map (map Marked.value) := by
  unfold storePacket
  rw [decode_erase opus m]
  cases client.decode (opus.marked m) bytes with
  | error e => rfl
  | ok out => simp [Except.map, Prod.map, map, Bounded.map_pushAll]

end ClientAudioData

namespace ClientStream

variable (opus : Opus V) (m : Bool)

theorem getClient_erase (stream : ClientStream (Marked V)) (client : ClientStreamKey) :
    (stream.map Marked.value).getClient opus client =
      (stream.getClient (opus.marked m) client).map (ClientAudioData.map Marked.value) := by
  unfold getClient
  show (ClientAudioData.new opus stream.sampleRate stream.outputChannels >>= fun fresh =>
    .ok (((stream.bufferClients.mapValues (ClientAudioData.map Marked.value)).lookup client).getD
      fresh)) = _
  rw [ClientAudioData.new_erase opus m, HashMap.lookup_mapValues]
  cases ClientAudioData.new (opus.marked m) stream.sampleRate stream.outputChannels with
  | error e => rfl
  | ok fresh => cases stream.bufferClients.lookup client <;> rfl

theorem decodePacket_erase (stream : ClientStream (Marked V)) (client : ClientStreamKey)
    (payload : VoicePacketPayload) :
    (stream.map Marked.value).decodePacket opus client payload =
      (stream.decodePacket (opus.marked m) client payload).map (map Marked.value) := by
  cases payload with
  | celtAlpha frames => rfl
  | speex frames => rfl
  | celtBeta frames => rfl
  | opus bytes eot =>
      unfold decodePacket
      rw [getClient_erase opus m]
      cases stream.getClient (opus.marked m) client with
      | error e => rfl
      | ok data =>
          simp only [Except.map, ok_bind]
          rw [ClientAudioData.storePacket_erase opus m]
          cases data.storePacket (opus.marked m) bytes with
          | error e => rfl
          | ok data => simp [Except.map, map, HashMap.mapValues_upsert]

end ClientStream

variable (mixer : Mixer V T)

theorem mixClient_erase (volume userVolume : F32) (data : List (Marked T))
    (buf : Bounded (Marked V)) :
    mixClient mixer volume userVolume (data.map Marked.value) (buf.map Marked.value) =
      Prod.map (List.map Marked.value) (Bounded.map Marked.value)
        (mixClient mixer.marked volume userVolume data buf) := by
  induction data generalizing buf with
  | nil => rfl
  | cons sample rest ih =>
      have hval : ((buf.pop.1.map Marked.value).getD 0 : V) = (buf.pop.1.getD 0).value := by
        cases buf.pop.1 <;> rfl
      rw [List.map_cons, mixClient, mixClient, Bounded.pop_map]
      simp only [Prod.map_fst, Prod.map_snd, ih, hval]
      rfl

theorem mixStream_erase (volume : F32) (userVolumes : UserVolumes) (data : List (Marked T))
    (key : ClientStreamKey) (client : ClientAudioData (Marked V)) :
    mixStream mixer volume userVolumes (data.map Marked.value) key (client.map Marked.value) =
      Prod.map (List.map Marked.value) (ClientAudioData.map Marked.value)
        (mixStream mixer.marked volume userVolumes data key client) := by
  unfold mixStream
  obtain ⟨userVolume, muted⟩ := userVolumes.of key.2
  cases muted with
  | true => rfl
  | false =>
      simp only [ClientAudioData.map]
      rw [mixClient_erase]
      rfl

theorem mixEffects_erase (volume : F32) (data : List (Marked T)) (effects : List (Marked V)) :
    mixEffects mixer volume (data.map Marked.value) (effects.map Marked.value) =
      Prod.map (List.map Marked.value) (List.map Marked.value)
        (mixEffects mixer.marked volume data effects) := by
  induction data generalizing effects with
  | nil => rfl
  | cons sample rest ih =>
      have hval : ((effects.map Marked.value).head?.getD 0 : V) =
          (effects.head?.getD 0).value := by
        cases effects <;> rfl
      rw [List.map_cons, mixEffects, mixEffects, hval, ← List.map_tail, ih]
      rfl

theorem callback_erase (volume : F32) (userVolumes : UserVolumes)
    (userBufs : ClientStream (Marked V)) (len : ℕ) :
    callback mixer volume userVolumes (userBufs.map Marked.value) len =
      Prod.map (List.map Marked.value) (ClientStream.map Marked.value)
        (callback mixer.marked volume userVolumes userBufs len) := by
  have hdata : List.replicate len (mixer.ofSample 0) =
      (List.replicate len (mixer.marked.ofSample 0)).map Marked.value := by
    rw [List.map_replicate]
    rfl
  unfold callback
  rw [hdata]
  simp only [ClientStream.map]
  rw [HashMap.mapAccum_mapValues (mixStream_erase mixer volume userVolumes)]
  simp only [Prod.map_fst, Prod.map_snd]
  rw [mixEffects_erase]
  rfl

namespace AudioOutput

variable (opus : Opus V)

theorem step_erase (output : AudioOutput (Marked V)) (event : AudioEvent) :
    (output.map Marked.value).step (fun _ => opus) mixer event =
      (output.step opus.marked mixer.marked event).map
        (Prod.map (List.map Marked.value) (map Marked.value)) := by
  cases event with
  | decodePacket streamType sessionId payload =>
      simp only [step, decodePacketPayload, map]
      rw [ClientStream.decodePacket_erase opus (output.muted sessionId)]
      cases output.clientStreams.decodePacket (opus.marked (output.muted sessionId))
        (streamType, sessionId) payload <;> rfl
  | setMute id mute => rfl
  | callback len =>
      simp only [step, callback, map]
      rw [callback_erase]
      rfl

/-- Without the marks, a run with marks is the run without marks. -/
theorem play_erase (output : AudioOutput (Marked V)) (events : List AudioEvent) :
    (output.map Marked.value).play (fun _ => opus) mixer events =
      (output.play opus.marked mixer.marked events).map
        (Prod.map (List.map Marked.value) (map Marked.value)) := by
  induction events generalizing output with
  | nil => rfl
  | cons event rest ih =>
      rw [play, play, step_erase]
      cases output.step opus.marked mixer.marked event with
      | error e => rfl
      | ok next =>
          simp only [Except.map, ok_bind, Prod.map, ih]
          cases next.2.play opus.marked mixer.marked rest with
          | error e => rfl
          | ok later => simp

end AudioOutput

end Mum
