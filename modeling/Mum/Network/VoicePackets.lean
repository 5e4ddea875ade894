import Mum.Network.Tcp
import Mum.Network.Udp

/-!
# Voice packets of other users

Voice packets come in over UDP and tunnelled through TCP, and both ways end in
`ClientStream::decode_packet`.  Its payload is chosen by another user.  Here is
which payloads it decodes; it panics on all others.

Three things may fail: the payload is of another kind, the packet has no number of channels,
or the decoder of this many channels fails.  The last two are `storePacket_returns_iff`, for a
decoder that is there already; `decodePacket_returns_iff` adds the kind, and a decoder that
has to be made first.
-/

namespace Mum

open Library Library.Eval Msgs

section Decoding

variable {V : Type} [Zero V] {opus : Opus V} {stream stream' : ClientStream V}
  {client : ClientStreamKey} {payload : VoicePacketPayload}

namespace ClientStream

/-- The decoder that is used for a user's packets with these channels. -/
def decoder (stream : ClientStream V) (client : ClientStreamKey) (channels : Opus.Channels) :
    Opus.Decoder :=
  match stream.bufferClients.lookup client with
  | some data => data.decoder channels
  | none => ⟨stream.sampleRate, channels, []⟩

/-- The payload is an Opus packet whose channels are known and which the decoder
for these channels accepts. -/
def Decodes (opus : Opus V) (stream : ClientStream V) (client : ClientStreamKey) :
    VoicePacketPayload → Prop
  | .opus bytes _ =>
      opus.supports stream.sampleRate ∧ ∃ channels, opus.getNbChannels bytes = some channels ∧
        (opus.decodeFloat (stream.decoder client channels) bytes
          (720 * channels.count * 4)).isSome
  | _ => False

/-- Nothing but one user's stream has changed. -/
structure KeepsOthers (stream stream' : ClientStream V) (client : ClientStreamKey) : Prop where
  clients : ∀ key ≠ client, stream'.bufferClients.lookup key = stream.bufferClients.lookup key
  effects : stream'.bufferEffects = stream.bufferEffects

/-- The data of a user is there, or can be made, if decoders exist for the sample
rate; its decoders are the ones that are used. -/
theorem getClient_eq_ok_iff {data : ClientAudioData V} :
    stream.getClient opus client = .ok data ↔ opus.supports stream.sampleRate ∧
      ∃ fresh, ClientAudioData.new opus stream.sampleRate stream.outputChannels = .ok fresh ∧
        (stream.bufferClients.lookup client).getD fresh = data := by
  have hnew : opus.supports stream.sampleRate ↔
      Returns (ClientAudioData.new opus stream.sampleRate stream.outputChannels) := by
    unfold ClientAudioData.new Opus.newDecoder
    by_cases h : opus.supports stream.sampleRate
    · simp [h]
    · simp [h]
  rw [hnew, getClient, bind_eq_ok]
  constructor
  · rintro ⟨fresh, hfresh, h⟩
    exact ⟨⟨fresh, hfresh⟩, fresh, hfresh, Except.ok.inj h⟩
  · rintro ⟨-, fresh, hfresh, rfl⟩
    exact ⟨fresh, hfresh, rfl⟩

theorem decoder_of_getClient {data : ClientAudioData V}
    (h : stream.getClient opus client = .ok data) (channels : Opus.Channels) :
    data.decoder channels = stream.decoder client channels := by
  obtain ⟨-, fresh, hfresh, rfl⟩ := getClient_eq_ok_iff.mp h
  unfold decoder
  cases stream.bufferClients.lookup client with
  | some data => rfl
  | none =>
      -- a new user gets two new decoders
      obtain ⟨mono, hmono, hfresh⟩ := bind_eq_ok.mp hfresh
      obtain ⟨stereo, hstereo, hfresh⟩ := bind_eq_ok.mp hfresh
      cases hfresh
      have hmono := (Option.ite_none_right_eq_some.mp (unwrap_eq_ok.mp hmono)).2
      have hstereo := (Option.ite_none_right_eq_some.mp (unwrap_eq_ok.mp hstereo)).2
      cases hmono
      cases hstereo
      cases channels <;> rfl

omit [Zero V] in
theorem storePacket_returns_iff {data : ClientAudioData V} {bytes : Bytes} :
    Returns (data.storePacket opus bytes) ↔
      ∃ channels, opus.getNbChannels bytes = some channels ∧
        (opus.decodeFloat (data.decoder channels) bytes (720 * channels.count * 4)).isSome := by
  constructor
  · rintro ⟨data', h⟩
    obtain ⟨⟨out, data''⟩, hdecode, -⟩ := bind_eq_ok.mp h
    obtain ⟨channels, hchannels, hdecode⟩ := bind_eq_ok.mp hdecode
    obtain ⟨decoded, hdecoded, -⟩ := bind_eq_ok.mp hdecode
    exact ⟨channels, unwrap_eq_ok.mp hchannels,
      Option.isSome_iff_exists.mpr ⟨decoded, unwrap_eq_ok.mp hdecoded⟩⟩
  · rintro ⟨channels, hchannels, hdecoded⟩
    obtain ⟨decoded, hdecoded⟩ := Option.isSome_iff_exists.mp hdecoded
    simp [ClientAudioData.storePacket, ClientAudioData.decode, hchannels, hdecoded]

theorem decodePacket_returns_iff :
    Returns (stream.decodePacket opus client payload) ↔ stream.Decodes opus client payload := by
  cases payload with
  | celtAlpha frames => simp [decodePacket, Decodes]
  | speex frames => simp [decodePacket, Decodes]
  | celtBeta frames => simp [decodePacket, Decodes]
  | opus bytes eot =>
      constructor
      · rintro ⟨stream', h⟩
        obtain ⟨data, hdata, h⟩ := bind_eq_ok.mp h
        obtain ⟨data', hstored, -⟩ := bind_eq_ok.mp h
        obtain ⟨channels, hchannels, hdecoded⟩ := storePacket_returns_iff.mp ⟨data', hstored⟩
        rw [decoder_of_getClient hdata] at hdecoded
        exact ⟨(getClient_eq_ok_iff.mp hdata).1, channels, hchannels, hdecoded⟩
      · rintro ⟨hsupports, channels, hchannels, hdecoded⟩
        obtain ⟨data, hdata⟩ : Returns (stream.getClient opus client) := by
          simp [getClient, ClientAudioData.new, Opus.newDecoder, hsupports]
        rw [← decoder_of_getClient hdata] at hdecoded
        obtain ⟨data', hstored⟩ := storePacket_returns_iff.mpr ⟨channels, hchannels, hdecoded⟩
        simp [decodePacket, hdata, hstored]

theorem decodePacket_keepsOthers (h : stream.decodePacket opus client payload = .ok stream') :
    stream.KeepsOthers stream' client := by
  obtain ⟨bytes, eot, data, out, data', -, -, -, rfl⟩ := decodePacket_eq_ok h
  refine ⟨fun key hne => ?_, rfl⟩
  rw [HashMap.lookup_upsert, if_neg hne]

end ClientStream

/-- A voice packet is decoded, and the rest is left alone, exactly when its
payload can be decoded. -/
theorem AudioOutput.decodePacketPayload_iff {output : AudioOutput V}
    {streamType : VoiceStreamType} {sessionId : UInt32} :
    (∃ output', output.decodePacketPayload opus streamType sessionId payload = .ok output' ∧
        output.clientStreams.KeepsOthers output'.clientStreams (streamType, sessionId)) ↔
      output.clientStreams.Decodes opus (streamType, sessionId) payload := by
  rw [← ClientStream.decodePacket_returns_iff]
  constructor
  · rintro ⟨output', h, -⟩
    obtain ⟨clientStreams, hdecode, -⟩ := bind_eq_ok.mp h
    exact ⟨clientStreams, hdecode⟩
  · rintro ⟨clientStreams, hdecode⟩
    refine ⟨{ output with clientStreams := clientStreams }, ?_,
      ClientStream.decodePacket_keepsOthers hdecode⟩
    rw [decodePacketPayload, hdecode, ok_bind]

end Decoding

/-! ## Both ways in -/

/-- A state in which at most one user's stream is new. -/
abbrev State.KeepsOthers (state state' : State) (client : ClientStreamKey) : Prop :=
  state.audioOutput.clientStreams.KeepsOthers state'.audioOutput.clientStreams client

/-- **Which voice packets are decoded.**  In any state, a voice packet that comes
through the TCP tunnel or over UDP is decoded without panicking, with the streams
of all others left alone, if and only if its payload can be decoded. -/
theorem voicePacket_iff (host : Host) (state : State) (listen : Listen) (session : UdpSession)
    (sessionId : UInt32) (seqNum : UInt64) (payload : VoicePacketPayload) :
    ((∃ handled,
        handlePacket host state listen (.udpTunnel (.audio sessionId seqNum payload)) =
          .ok handled ∧ state.KeepsOthers handled.state (.tcp, sessionId)) ↔
      state.audioOutput.clientStreams.Decodes host.opus (.tcp, sessionId) payload) ∧
    ((∃ state' session',
        session.listen host state (.audio sessionId seqNum payload) = .ok (state', session') ∧
          state.KeepsOthers state' (.udp, sessionId)) ↔
      state.audioOutput.clientStreams.Decodes host.opus (.udp, sessionId) payload) := by
  rw [← AudioOutput.decodePacketPayload_iff, ← AudioOutput.decodePacketPayload_iff]
  refine ⟨⟨?_, ?_⟩, ⟨?_, ?_⟩⟩
  · rintro ⟨handled, h, hkeeps⟩
    obtain ⟨audioOutput, haudio, h⟩ := bind_eq_ok.mp h
    cases h
    exact ⟨audioOutput, haudio, hkeeps⟩
  · rintro ⟨audioOutput, haudio, hkeeps⟩
    refine ⟨{ state := { state with audioOutput := audioOutput }, listen := listen }, ?_, hkeeps⟩
    rw [handlePacket, haudio, ok_bind]
  · rintro ⟨state', session', h, hkeeps⟩
    obtain ⟨audioOutput, haudio, h⟩ := bind_eq_ok.mp h
    cases h
    exact ⟨audioOutput, haudio, hkeeps⟩
  · rintro ⟨audioOutput, haudio, hkeeps⟩
    refine ⟨{ state with audioOutput := audioOutput }, session, ?_, hkeeps⟩
    rw [UdpSession.listen, haudio, ok_bind]

/-- An empty Opus packet, and any packet of another codec, is a panic. -/
theorem not_decoded_voicePacket :
    (¬ ∃ handled,
      handlePacket .offline .idle .new (.udpTunnel (.audio 2 0 (.opus [] false))) = .ok handled ∧
        State.KeepsOthers .idle handled.state (.tcp, 2)) ∧
    ¬ ∃ handled,
      handlePacket .offline .idle .new (.udpTunnel (.audio 2 0 (.speex []))) = .ok handled ∧
        State.KeepsOthers .idle handled.state (.tcp, 2) := by
  constructor
  · rintro ⟨handled, h, -⟩
    cases h
  · rintro ⟨handled, h, -⟩
    cases h

end Mum
