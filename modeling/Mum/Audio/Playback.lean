import Mum.Audio.Frames
import Mum.Audio.Mixing
import Mum.Library.LossyQueue

/-!
# What is played of one stream

A run of the audio output as one user's stream sees it: packets of the stream
are decoded, and callbacks take values from its ring.  The ideal is a queue of
one second that loses its oldest values (`Fate.Plays`).

The ring differs from that queue in that it starts full of silence, which the
callbacks take before anything that was decoded.  The silence is gone once
a second of values arrived, and from then on the ring is the queue
(`RingShows`).

In between the ring is the silence that is left and then the queue.  A packet pushes the
silence out first, and after that the oldest values of both (`RingShows.pushAll`); a callback
takes from the front, which is the queue's front only when the silence is gone
(`RingShows.drop`).  `StreamShows` says this of a stream whether or not it has a ring yet,
and `StreamShows.step` that every step keeps it.
-/

namespace Mum

open Library Library.Eval Msgs

variable {V T : Type} [Zero V]

/-- What happens to the streams from outside. -/
inductive StreamEvent (V : Type)
  | decodePacket (client : ClientStreamKey) (payload : VoicePacketPayload)
  | addSoundEffect (values : List V)
  | callback (volume : F32) (userVolumes : UserVolumes) (len : ℕ)

/-- What is seen of one stream: the frames of a packet, or the values that a
callback of length `len` takes from the ring. -/
inductive Observation (V : Type)
  | packet (frames : Frames V)
  | callback (len : ℕ) (taken : List V)

/-- A user is muted in no callback. -/
def StreamEvent.Unmuted (session : UInt32) : StreamEvent V → Prop
  | .callback _ userVolumes _ => (userVolumes.of session).2 = false
  | _ => True

namespace Observation

/-- The observation as a use of a queue of values in the layout of the output. -/
def use (output : Opus.Channels) : Observation V → Use V
  | .packet frames => .arrive (frames.laidOut output)
  | .callback len taken => .take len taken

/-- Every packet is stored whole, and nothing is asked for until a second of
values arrived.  `arrived` counts the values so far. -/
def Settled (capacity : ℕ) (output : Opus.Channels) : ℕ → List (Observation V) → Prop
  | _, [] => True
  | arrived, .packet frames :: rest =>
      frames.Whole output ∧ Settled capacity output (arrived + (frames.laidOut output).length) rest
  | arrived, .callback len _ :: rest =>
      (len = 0 ∨ capacity ≤ arrived) ∧ Settled capacity output arrived rest

end Observation

namespace ClientStream

/-- The size of the rings, one second. -/
def capacity (stream : ClientStream V) : ℕ :=
  stream.sampleRate.toNat * stream.outputChannels.count

def step (opus : Opus V) (mixer : Mixer V T) (stream : ClientStream V) :
    StreamEvent V → Eval (ClientStream V)
  | .decodePacket client payload => stream.decodePacket opus client payload
  | .addSoundEffect values => .ok (stream.addSoundEffect values)
  | .callback volume userVolumes len => .ok (callback mixer volume userVolumes stream len).2

/-- What an event shows of the stream of a user who is not muted. -/
def observe (opus : Opus V) (key : ClientStreamKey) (stream : ClientStream V) :
    StreamEvent V → List (Observation V)
  | .decodePacket client (.opus bytes _) =>
      if client = key then
        match stream.getClient opus key with
        | .ok data => ((data.decodedFrames opus bytes).map .packet).toList
        | .error _ => []
      else []
  | .callback _ _ len =>
      ((stream.bufferClients.lookup key).map fun client =>
        .callback len (client.buf.data.take len)).toList
  | _ => []

theorem observe_callback {opus : Opus V} {key : ClientStreamKey} {stream : ClientStream V}
    {client : ClientAudioData V} (h : stream.bufferClients.lookup key = some client)
    (volume : F32) (userVolumes : UserVolumes) (len : ℕ) :
    stream.observe opus key (.callback volume userVolumes len) =
      [.callback len (client.buf.data.take len)] := by
  rw [observe, h]
  rfl

/-- Runs in which a user is not muted, with what is seen of the user's stream. -/
inductive Run (opus : Opus V) (mixer : Mixer V T) (key : ClientStreamKey) :
    ClientStream V → List (Observation V) → ClientStream V → Prop
  | done {stream : ClientStream V} : Run opus mixer key stream [] stream
  | step {stream next final : ClientStream V} {event : StreamEvent V}
      {rest : List (Observation V)} (hunmuted : event.Unmuted key.2)
      (hstep : stream.step opus mixer event = .ok next)
      (hrest : Run opus mixer key next rest final) :
      Run opus mixer key stream (stream.observe opus key event ++ rest) final

theorem Run.cons {opus : Opus V} {mixer : Mixer V T} {key : ClientStreamKey}
    {stream next final : ClientStream V} {shown rest : List (Observation V)}
    (event : StreamEvent V) (hunmuted : event.Unmuted key.2)
    (hstep : stream.step opus mixer event = .ok next)
    (hshown : stream.observe opus key event = shown) (hrest : Run opus mixer key next rest final) :
    Run opus mixer key stream (shown ++ rest) final :=
  hshown ▸ .step hunmuted hstep hrest

end ClientStream

/-! ## What a callback takes -/

/-- Sample `i` gets the `i`-th of the values that are taken, and silence when
there are fewer. -/
theorem contribution_eq_taken (mixer : Mixer V T) (volume : F32) {userVolumes : UserVolumes}
    {len i : ℕ} (hi : i < len) {key : ClientStreamKey} (client : ClientAudioData V)
    (hunmuted : (userVolumes.of key.2).2 = false) :
    contribution mixer volume userVolumes i key client =
      some (mixer.ofSample (mixer.mul (mixer.mul
        ((client.buf.data.take len)[i]?.getD 0) volume) (userVolumes.of key.2).1)) := by
  rw [List.getElem?_take_of_lt hi]
  show (if (userVolumes.of key.2).2 then none else _) = _
  rw [hunmuted]
  rfl

/-! ## The ring and the queue -/

omit [Zero V] in
theorem ClientAudioData.outputChannels_decode {opus : Opus V} {client client' : ClientAudioData V}
    {bytes : Bytes} {out : List V} (h : client.decode opus bytes = .ok (out, client')) :
    client'.outputChannels = client.outputChannels := by
  obtain ⟨channels, -, h⟩ := bind_eq_ok.mp h
  obtain ⟨decoded, -, h⟩ := bind_eq_ok.mp h
  cases h
  cases channels <;> rfl

omit [Zero V] in
theorem ClientAudioData.decodedFrames_of_decode {opus : Opus V}
    {client client' : ClientAudioData V} {bytes : Bytes} {out : List V}
    (h : client.decode opus bytes = .ok (out, client')) :
    ∃ frames, client.decodedFrames opus bytes = some frames := by
  obtain ⟨channels, hchannels, h⟩ := bind_eq_ok.mp h
  obtain ⟨⟨values, parsed⟩, hvalues, -⟩ := bind_eq_ok.mp h
  have hvalues := unwrap_eq_ok.mp hvalues
  refine ⟨.ofInterleaved channels (values.take (parsed * channels.count)), ?_⟩
  rw [ClientAudioData.decodedFrames, unwrap_eq_ok.mp hchannels, Option.bind_eq_bind,
    Option.bind_some, hvalues]
  rfl

theorem ClientAudioData.outputChannels_new {opus : Opus V} {sampleRate : UInt32}
    {outputChannels : Opus.Channels} {client : ClientAudioData V}
    (h : new opus sampleRate outputChannels = .ok client) :
    client.outputChannels = outputChannels := by
  obtain ⟨mono, -, h⟩ := bind_eq_ok.mp h
  obtain ⟨stereo, -, h⟩ := bind_eq_ok.mp h
  cases h
  rfl

/-- A ring holds what is left of its first silence and then the queue. -/
structure RingShows (capacity : ℕ) (ring : Bounded V) (arrived : ℕ) (queue : List V)
    (silence : ℕ) : Prop where
  maxLen_eq : ring.maxLen = capacity
  data_eq : ring.data = List.replicate silence 0 ++ queue
  full : silence = 0 ∨ silence + arrived = capacity ∧ queue.length = arrived

namespace RingShows

variable {capacity arrived silence : ℕ} {ring : Bounded V} {queue : List V}

theorem new (capacity : ℕ) :
    RingShows capacity (Bounded.fromFull (List.replicate capacity (0 : V))) 0 [] capacity where
  maxLen_eq := List.length_replicate
  data_eq := (List.append_nil _).symm
  full := Or.inr ⟨Nat.add_zero _, rfl⟩

/-- What is pushed overwrites the silence first, and then the oldest values. -/
theorem pushAll (h : RingShows capacity ring arrived queue silence) (values : List V) :
    RingShows capacity (ring.pushAll values) (arrived + values.length)
      ((queue ++ values).drop (queue.length + values.length - capacity))
      (silence - values.length) where
  maxLen_eq := (Bounded.maxLen_pushAll ..).trans h.maxLen_eq
  data_eq := by
    have hlen : ring.data.length = silence + queue.length := by
      rw [h.data_eq, List.length_append, List.length_replicate]
    rw [Bounded.data_pushAll, h.maxLen_eq, hlen, h.data_eq, List.append_assoc, List.drop_append,
      List.drop_replicate, List.length_replicate]
    rcases h.full with hzero | ⟨hsilence, hqueue⟩
    · subst hzero
      simp
    · have hgone : silence - (silence + queue.length + values.length - capacity) =
          silence - values.length := by omega
      have hlost : silence + queue.length + values.length - capacity - silence =
          queue.length + values.length - capacity := by omega
      rw [hgone, hlost]
  full := by
    rw [List.length_drop, List.length_append]
    rcases h.full with hzero | ⟨hsilence, hqueue⟩
    · exact Or.inl (by omega)
    · by_cases hle : silence ≤ values.length
      · exact Or.inl (by omega)
      · exact Or.inr ⟨by omega, by omega⟩

/-- Once the silence is gone, what is taken is taken from the queue. -/
theorem drop (h : RingShows capacity ring arrived queue silence) {len : ℕ}
    (hlen : len = 0 ∨ capacity ≤ arrived) :
    ring.data.take len = queue.take len ∧
      RingShows capacity (ring.drop len) arrived (queue.drop len) silence := by
  by_cases hzero : silence = 0
  · subst hzero
    have hdata : ring.data = queue := h.data_eq
    refine ⟨by rw [hdata], h.maxLen_eq, ?_, Or.inl rfl⟩
    show ring.data.drop len = _
    rw [hdata]
    rfl
  · have hnone : len = 0 := by
      rcases h.full with hsilence | ⟨hsilence, -⟩
      · exact absurd hsilence hzero
      · omega
    subst hnone
    exact ⟨rfl, h⟩

end RingShows

/-- The stream of a key, as a run from its first packet leaves it. -/
structure StreamShows (capacity : ℕ) (output : Opus.Channels) (stream : ClientStream V)
    (key : ClientStreamKey) (arrived : ℕ) (queue : List V) : Prop where
  capacity_eq : stream.capacity = capacity
  output_eq : stream.outputChannels = output
  fresh : stream.bufferClients.lookup key = none → arrived = 0 ∧ queue = []
  shows : ∀ client, stream.bufferClients.lookup key = some client →
    client.outputChannels = output ∧ ∃ silence, RingShows capacity client.buf arrived queue silence

namespace StreamShows

variable {capacity arrived : ℕ} {output : Opus.Channels} {stream next : ClientStream V}
  {key : ClientStreamKey} {queue : List V} {opus : Opus V}

theorem start (hnew : stream.bufferClients.lookup key = none) :
    StreamShows stream.capacity stream.outputChannels stream key 0 [] where
  capacity_eq := rfl
  output_eq := rfl
  fresh _ := ⟨rfl, rfl⟩
  shows client hclient := by
    rw [hnew] at hclient
    cases hclient

/-- Streams that look the same under the key. -/
theorem congr (h : StreamShows capacity output stream key arrived queue)
    (hcapacity : next.capacity = stream.capacity)
    (houtput : next.outputChannels = stream.outputChannels)
    (hlookup : next.bufferClients.lookup key = stream.bufferClients.lookup key) :
    StreamShows capacity output next key arrived queue where
  capacity_eq := hcapacity.trans h.capacity_eq
  output_eq := houtput.trans h.output_eq
  fresh hnone := h.fresh (hlookup ▸ hnone)
  shows client hclient := h.shows client (hlookup ▸ hclient)

/-- The data that a packet is decoded with, also when it is new. -/
theorem getClient (h : StreamShows capacity output stream key arrived queue)
    {data : ClientAudioData V} (hdata : stream.getClient opus key = .ok data) :
    data.outputChannels = output ∧
      ∃ silence, RingShows capacity data.buf arrived queue silence := by
  obtain ⟨made, hmade, hdata⟩ := bind_eq_ok.mp hdata
  cases hdata
  cases hlookup : stream.bufferClients.lookup key with
  | some client => exact h.shows client hlookup
  | none =>
      obtain ⟨rfl, rfl⟩ := h.fresh hlookup
      have hcapacity : stream.sampleRate.toNat * stream.outputChannels.count = capacity :=
        h.capacity_eq
      rw [Option.getD_none, ClientAudioData.buf_new hmade, ClientAudioData.outputChannels_new hmade,
        hcapacity]
      exact ⟨h.output_eq, capacity, RingShows.new capacity⟩

/-- A packet of the stream that is stored whole arrives at the queue. -/
theorem packet (h : StreamShows capacity output stream key arrived queue)
    (hopus : opus.WritesFrames) {payload : VoicePacketPayload}
    (hnext : stream.decodePacket opus key payload = .ok next) :
    ∃ frames, stream.observe opus key (.decodePacket key payload) = [.packet frames] ∧
      (frames.Whole output →
        StreamShows capacity output next key (arrived + (frames.laidOut output).length)
          ((queue ++ frames.laidOut output).drop
            (queue.length + (frames.laidOut output).length - capacity))) := by
  obtain ⟨bytes, eot, data, out, data', rfl, hdata, hout, rfl⟩ :=
    ClientStream.decodePacket_eq_ok hnext
  obtain ⟨frames, hframes⟩ := ClientAudioData.decodedFrames_of_decode hout
  obtain ⟨houtput, silence, hring⟩ := h.getClient hdata
  refine ⟨frames, ?_, fun hwhole => ?_⟩
  · simp [ClientStream.observe, hdata, hframes]
  · -- what is pushed is the packet in the layout of the output
    have hpushed : out = frames.laidOut output := by
      obtain ⟨data'', hdecode⟩ := ClientAudioData.decode_of_decodedFrames hopus hframes
      rw [hout] at hdecode
      cases hdecode
      rw [houtput]
      exact (Frames.pushed_eq_laidOut_iff frames output).mpr hwhole
    refine ⟨h.capacity_eq, h.output_eq, fun hnone => ?_, fun client hclient => ?_⟩
    · rw [HashMap.lookup_upsert_self] at hnone
      cases hnone
    · have hstored : client = { data' with buf := data.buf.pushAll out } := by
        rw [HashMap.lookup_upsert_self, Option.some.injEq] at hclient
        exact hclient.symm
      subst hstored
      refine ⟨(ClientAudioData.outputChannels_decode hout).trans houtput,
        silence - (frames.laidOut output).length, ?_⟩
      rw [hpushed]
      exact hring.pushAll (frames.laidOut output)

/-- A callback takes from the queue once the silence is gone. -/
theorem callback (h : StreamShows capacity output stream key arrived queue) (opus : Opus V)
    (mixer : Mixer V T) (volume : F32) {userVolumes : UserVolumes} (len : ℕ)
    (hunmuted : (userVolumes.of key.2).2 = false) :
    (stream.bufferClients.lookup key = none ∧
      StreamShows capacity output (callback mixer volume userVolumes stream len).2 key arrived
        queue) ∨
    ∃ taken, stream.observe opus key (.callback volume userVolumes len) = [.callback len taken] ∧
      (len = 0 ∨ capacity ≤ arrived → taken = queue.take len ∧
        StreamShows capacity output (callback mixer volume userVolumes stream len).2 key arrived
          (queue.drop len)) := by
  have hafter := lookup_bufferClients_callback mixer volume userVolumes stream len key
  simp only [hunmuted, Bool.false_eq_true, if_false] at hafter
  cases hlookup : stream.bufferClients.lookup key with
  | none =>
      refine Or.inl ⟨rfl, h.congr rfl rfl ?_⟩
      rw [hafter, hlookup]
      rfl
  | some client =>
      obtain ⟨houtput, silence, hring⟩ := h.shows client hlookup
      refine Or.inr ⟨client.buf.data.take len, ClientStream.observe_callback hlookup .., ?_⟩
      intro hlen
      obtain ⟨htaken, hring'⟩ := hring.drop hlen
      rw [hlookup, Option.map_some] at hafter
      refine ⟨htaken, h.capacity_eq, h.output_eq, fun hnone => ?_, fun client' hclient' => ?_⟩
      · rw [hafter] at hnone
        cases hnone
      · rw [hafter] at hclient'
        cases hclient'
        exact ⟨houtput, silence, hring'⟩

end StreamShows

/-! ## Runs -/

section Runs

variable {opus : Opus V} {mixer : Mixer V T} {key : ClientStreamKey}

/-- One event is a use of the queue that starts from what the ring shows. -/
theorem StreamShows.step {capacity arrived : ℕ} {output : Opus.Channels}
    {stream next : ClientStream V} {queue : List V}
    (h : StreamShows capacity output stream key arrived queue) (hopus : opus.WritesFrames)
    {event : StreamEvent V} (hunmuted : event.Unmuted key.2)
    (hnext : stream.step opus mixer event = .ok next) {rest : List (Observation V)}
    (hsettled : Observation.Settled capacity output arrived
      (stream.observe opus key event ++ rest)) (left : List (V × Bool)) :
    ∃ arrived' fate, Observation.Settled capacity output arrived' rest ∧
      StreamShows capacity output next key arrived' fate.queue ∧
      Fate.Plays capacity ⟨left, queue⟩
        ((stream.observe opus key event).map (Observation.use output)) fate := by
  cases event with
  | addSoundEffect values =>
      cases hnext
      exact ⟨arrived, ⟨left, queue⟩, hsettled, h.congr rfl rfl rfl, .done⟩
  | decodePacket client payload =>
      by_cases hkey : client = key
      · subst hkey
        obtain ⟨frames, hobserve, hshows⟩ := h.packet hopus hnext
        rw [hobserve] at hsettled ⊢
        obtain ⟨hwhole, hsettled⟩ := hsettled
        refine ⟨_, ⟨_, _⟩, hsettled, hshows hwhole, .use (.arrive (List.take_append_drop _ _) ?_)
          .done⟩
        -- a value is lost only when a second of newer ones is queued
        intro hlost
        have hpos : queue.length + (frames.laidOut output).length - capacity ≠ 0 := by
          intro hzero
          rw [hzero, List.take_zero] at hlost
          exact hlost rfl
        rw [List.length_drop, List.length_append]
        omega
      · obtain ⟨bytes, eot, data, out, data', rfl, hdata, hout, rfl⟩ :=
          ClientStream.decodePacket_eq_ok hnext
        have hobserve : stream.observe opus key
            (.decodePacket client (.opus bytes eot)) = [] := by
          simp [ClientStream.observe, hkey]
        rw [hobserve] at hsettled ⊢
        refine ⟨arrived, ⟨left, queue⟩, hsettled, h.congr rfl rfl ?_, .done⟩
        show AList.lookup key (HashMap.upsert ..) = _
        rw [HashMap.lookup_upsert, if_neg (Ne.symm hkey)]
  | callback volume userVolumes len =>
      cases hnext
      rcases h.callback opus mixer volume len hunmuted with
        ⟨hnone, hshows⟩ | ⟨taken, hobserve, hshows⟩
      · have hobserve : stream.observe opus key (.callback volume userVolumes len) = [] := by
          simp [ClientStream.observe, hnone]
        rw [hobserve] at hsettled ⊢
        exact ⟨arrived, ⟨left, queue⟩, hsettled, hshows, .done⟩
      · rw [hobserve] at hsettled ⊢
        obtain ⟨hlen, hsettled⟩ := hsettled
        obtain ⟨rfl, hafter⟩ := hshows hlen
        refine ⟨arrived, ⟨_, _⟩, hsettled, hafter, .use (.take (List.take_append_drop _ _) ?_ ?_)
          .done⟩
        · exact List.length_take_le ..
        · intro hfiller
          rw [List.length_take] at hfiller
          exact List.drop_eq_nil_of_le (by omega)

theorem StreamShows.run {capacity arrived : ℕ} {output : Opus.Channels}
    {stream final : ClientStream V} {queue : List V} {seen : List (Observation V)}
    (h : StreamShows capacity output stream key arrived queue) (hopus : opus.WritesFrames)
    (hrun : stream.Run opus mixer key seen final)
    (hsettled : Observation.Settled capacity output arrived seen) (left : List (V × Bool)) :
    ∃ fate, Fate.Plays capacity ⟨left, queue⟩ (seen.map (Observation.use output)) fate := by
  induction hrun generalizing arrived queue left with
  | done => exact ⟨_, .done⟩
  | step hunmuted hstep hrest ih =>
      obtain ⟨arrived', fate, hsettled', hshows, hplays⟩ :=
        h.step hopus hunmuted hstep hsettled left
      obtain ⟨final, hfinal⟩ := ih hshows hsettled' fate.left
      rw [List.map_append]
      exact ⟨final, hplays.append hfinal⟩

/-- **The callbacks play what was decoded.**  In a run in which the silence of
a new ring is gone before anything is asked for, and every packet is stored
whole, the ring is a queue of one second. -/
theorem plays_of_settled (hopus : opus.WritesFrames) (stream final : ClientStream V)
    (seen : List (Observation V)) (hnew : stream.bufferClients.lookup key = none)
    (hrun : stream.Run opus mixer key seen final)
    (hsettled : Observation.Settled stream.capacity stream.outputChannels 0 seen) :
    ∃ fate, Fate.Plays stream.capacity .start
        (seen.map (Observation.use stream.outputChannels)) fate ∧
      fate.all = Use.arrived (seen.map (Observation.use stream.outputChannels)) ∧
      fate.taken = Use.taken (seen.map (Observation.use stream.outputChannels)) := by
  obtain ⟨fate, hplays⟩ := (StreamShows.start hnew).run hopus hrun hsettled []
  exact ⟨fate, hplays, hplays.arrived_eq, hplays.taken_eq⟩

end Runs

/-! ## Callbacks that come late and early -/

/-- A user's second of silence, at a stereo output. -/
structure Hushed (client : ClientAudioData F32) : Prop where
  outputChannels : client.outputChannels = .stereo
  maxLen : client.buf.maxLen = 96000
  data : client.buf.data = List.replicate 96000 0

/-- The values of a packet of silence take the place of as much silence. -/
theorem Hushed.decodePacket {stream : ClientStream F32} {client : ClientAudioData F32}
    (h : Hushed client) (hclient : stream.getClient emptyFrames (.udp, 7) = .ok client) :
    ∃ next client', stream.decodePacket emptyFrames (.udp, 7) (.opus [0xe0] false) = .ok next ∧
      stream.observe emptyFrames (.udp, 7) (.decodePacket (.udp, 7) (.opus [0xe0] false)) =
        [.packet (.mono (List.replicate 120 0))] ∧
      next.bufferClients.lookup (.udp, 7) = some client' ∧
      next.sampleRate = stream.sampleRate ∧ Hushed client' := by
  have hframes : client.decodedFrames emptyFrames [0xe0] = some (.mono (List.replicate 120 0)) :=
    congrArg (fun values => some (Frames.mono values)) (List.take_replicate ..)
  obtain ⟨client', hdecode⟩ :=
    ClientAudioData.decode_of_decodedFrames ClientAudioData.writesFrames_emptyFrames hframes
  have hpushed : (Frames.mono (List.replicate 120 (0 : F32))).pushed .stereo =
      List.replicate 240 0 := by decide +kernel
  rw [h.outputChannels, hpushed] at hdecode
  have hbuf := ClientAudioData.buf_decode hdecode
  let stored := { client' with buf := client'.buf.pushAll (List.replicate 240 0) }
  let bufferClients := stream.bufferClients.upsert (.udp, 7) stored fun _ => stored
  refine ⟨{ stream with bufferClients := bufferClients }, stored, ?_, ?_,
    HashMap.lookup_upsert_self .., rfl, ⟨?_, ?_, ?_⟩⟩
  · rw [ClientStream.decodePacket, hclient, ok_bind, ClientAudioData.storePacket, hdecode]
    rfl
  · simp [ClientStream.observe, hclient, hframes]
  · exact (ClientAudioData.outputChannels_decode hdecode).trans h.outputChannels
  · rw [Bounded.maxLen_pushAll, hbuf, h.maxLen]
  · rw [Bounded.data_pushAll, hbuf, h.data, h.maxLen, List.replicate_append_replicate,
      List.drop_replicate, List.length_replicate, List.length_replicate]

/-- The first packet finds a new ring. -/
theorem hushed_new : ∃ client,
    AudioOutput.silent.clientStreams.getClient emptyFrames (.udp, 7) = .ok client ∧
      Hushed client := by
  obtain ⟨fresh, hfresh⟩ : Returns (ClientAudioData.new emptyFrames sampleRate .stereo) := ⟨_, rfl⟩
  refine ⟨fresh, ?_, ClientAudioData.outputChannels_new hfresh, ?_, ?_⟩
  · have hnew : ClientAudioData.new emptyFrames AudioOutput.silent.clientStreams.sampleRate
        AudioOutput.silent.clientStreams.outputChannels = .ok fresh := hfresh
    rw [ClientStream.getClient, hnew]
    rfl
  · rw [ClientAudioData.buf_new hfresh]
    exact List.length_replicate
  · rw [ClientAudioData.buf_new hfresh]
    rfl

/-- Packets of silence, and a callback for `len` samples after them. -/
def lateCallback (packets len : ℕ) : List (Observation F32) :=
  List.replicate packets (.packet (.mono (List.replicate 120 0))) ++
    [.callback len (List.replicate (min len 96000) 0)]

theorem Hushed.run {stream : ClientStream F32} {client : ClientAudioData F32} (h : Hushed client)
    (hrate : stream.sampleRate = sampleRate) (hclient : stream.bufferClients.lookup (.udp, 7) =
      some client) (packets len : ℕ) :
    ∃ final, stream.Run emptyFrames (.i16 fullVolume fullScaleI16) (.udp, 7)
      (lateCallback packets len) final := by
  induction packets generalizing stream client with
  | zero =>
      have htaken : stream.observe emptyFrames (.udp, 7) (.callback F32.one ∅ len) =
          [.callback len (List.replicate (min len 96000) 0)] := by
        rw [ClientStream.observe_callback hclient, h.data, List.take_replicate]
      have hrun : stream.Run emptyFrames (.i16 fullVolume fullScaleI16) (.udp, 7) _ _ :=
        .cons (.callback F32.one ∅ len) rfl rfl htaken .done
      exact ⟨_, hrun⟩
  | succ packets ih =>
      have hget : stream.getClient emptyFrames (.udp, 7) = .ok client := by
        rw [ClientStream.getClient, hrate, hclient]
        rfl
      obtain ⟨next, client', hnext, hshown, hclient', hrate', h'⟩ := h.decodePacket hget
      obtain ⟨final, hrest⟩ := ih h' (hrate'.trans hrate) hclient'
      have hrun := ClientStream.Run.cons (.decodePacket (.udp, 7) (.opus [0xe0] false)) trivial
        hnext hshown hrest
      exact ⟨final, hrun⟩

theorem run_lateCallback (packets len : ℕ) :
    ∃ final, AudioOutput.silent.clientStreams.Run emptyFrames (.i16 fullVolume fullScaleI16)
      (.udp, 7) (lateCallback (packets + 1) len) final := by
  obtain ⟨client, hclient, hhushed⟩ := hushed_new
  obtain ⟨next, client', hnext, hshown, hclient', hrate, hhushed'⟩ := hhushed.decodePacket hclient
  obtain ⟨final, hrest⟩ := hhushed'.run hrate hclient' packets len
  have hrun := ClientStream.Run.cons (.decodePacket (.udp, 7) (.opus [0xe0] false)) trivial
    hnext hshown hrest
  exact ⟨final, hrun⟩

/-- Each packet has 240 values, so that 400 of them are a second. -/
theorem settled_lateCallback {packets arrived : ℕ} (h : 96000 ≤ arrived + 240 * packets)
    (len : ℕ) : Observation.Settled 96000 .stereo arrived (lateCallback packets len) := by
  induction packets generalizing arrived with
  | zero => exact ⟨Or.inr h, trivial⟩
  | succ packets ih =>
      have hlen : ((Frames.mono (List.replicate 120 (0 : F32))).laidOut .stereo).length = 240 := by
        decide +kernel
      refine ⟨Or.inl rfl, ih ?_⟩
      rw [hlen]
      omega

/-- After a second of packets a callback takes 241 of their values. -/
theorem plays_of_settled_lateCallback :
    ∃ fate, Fate.Plays 96000 .start ((lateCallback 400 241).map (Observation.use .stereo)) fate ∧
      fate.all = Use.arrived ((lateCallback 400 241).map (Observation.use .stereo)) ∧
      fate.taken = Use.taken ((lateCallback 400 241).map (Observation.use .stereo)) := by
  obtain ⟨final, hrun⟩ := run_lateCallback 399 241
  exact plays_of_settled ClientAudioData.writesFrames_emptyFrames _ final _ rfl hrun
    (settled_lateCallback (Nat.le_of_eq rfl) 241)

/-- A packet of 2.5 ms of silence, and a callback for `len` samples after it. -/
def earlyCallback (len : ℕ) : List (Observation F32) :=
  [.packet (.mono (List.replicate 120 0)), .callback len (List.replicate (min len 96000) 0)]

theorem run_earlyCallback (len : ℕ) :
    ∃ final, AudioOutput.silent.clientStreams.Run emptyFrames (.i16 fullVolume fullScaleI16)
      (.udp, 7) (earlyCallback len) final :=
  run_lateCallback 0 len

/-- The packet has 240 values, and the callback takes 241 from the ring. -/
theorem not_plays_earlyCallback :
    (∃ final, AudioOutput.silent.clientStreams.Run emptyFrames (.i16 fullVolume fullScaleI16)
      (.udp, 7) (earlyCallback 241) final) ∧
      ¬ ∃ fate, Fate.Plays 96000 .start ((earlyCallback 241).map (Observation.use .stereo))
        fate := by
  refine ⟨run_earlyCallback 241, ?_⟩
  intro ⟨fate, hplays⟩
  have hle := hplays.length_taken_le
  have htaken : (Use.taken ((earlyCallback 241).map (Observation.use .stereo))).length = 241 := by
    decide +kernel
  have harrived : (Use.arrived ((earlyCallback 241).map (Observation.use .stereo))).length =
      240 := by
    decide +kernel
  omega

end Mum
