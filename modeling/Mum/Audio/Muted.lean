import Mum.Audio.Marked
import Mum.Audio.Mixing

/-!
# What is heard of a user who was muted

A callback skips the streams of muted users, but their packets go on filling the
rings.  What a ring still holds of them when the mute ends is played then.

A `Ledger` counts what happens to a ring without looking at samples.  It knows
which of the samples that were pushed so far came from packets that arrived
during a mute, and how many of the oldest are gone: played, or overwritten by a
push into the full ring.  `Recorded` connects the ledgers with the rings.  The
output stays free of such samples exactly in the runs in which every callback
finds them gone or out of its reach.

What connects the two is that both count: a push into a ring and into its ledger, and a
callback, move the same number of samples (`Recorded.step`).  Whether there are marked samples
among the next ones of a ring can then be read off its ledger (`Recorded.unmarked_iff_clear`).
-/

namespace Mum

open Library Library.Eval Msgs

variable {V T : Type} [Zero V]

/-! ## Ledgers -/

/-- The samples pushed into a ring, oldest first, each with whether its packet
arrived during a mute; and how many of them are gone. -/
structure Ledger where
  pushed : List Bool
  gone : ℕ
deriving DecidableEq, Repr

namespace Ledger

/-- A ring full of silence. -/
def silence (capacity : ℕ) : Ledger := ⟨List.replicate capacity false, 0⟩

/-- A packet of `n` samples arrives; the full ring overwrites its oldest. -/
def push (ledger : Ledger) (capacity n : ℕ) (muted : Bool) : Ledger where
  pushed := ledger.pushed ++ List.replicate n muted
  gone := max ledger.gone (ledger.pushed.length + n - capacity)

/-- A callback plays `len` samples, or as many as there are. -/
def play (ledger : Ledger) (len : ℕ) : Ledger :=
  { ledger with gone := min (ledger.gone + len) ledger.pushed.length }

/-- A callback of length `len` plays no sample that arrived during a mute. -/
def Clear (ledger : Ledger) (len : ℕ) : Prop :=
  ∀ i, ledger.gone ≤ i → i < ledger.gone + len → ledger.pushed[i]? ≠ some true

theorem clear_iff {ledger : Ledger} {len : ℕ} :
    ledger.Clear len ↔ true ∉ (ledger.pushed.drop ledger.gone).take len := by
  unfold Clear
  constructor
  · intro h hmem
    obtain ⟨i, hi⟩ := List.mem_iff_getElem?.mp hmem
    rw [List.getElem?_take] at hi
    split at hi
    · rw [List.getElem?_drop] at hi
      exact h _ (Nat.le_add_right ..) (by omega) hi
    · cases hi
  · intro h i hle hlt hi
    refine h (List.mem_iff_getElem?.mpr ⟨i - ledger.gone, ?_⟩)
    rw [List.getElem?_take_of_lt (by omega), List.getElem?_drop, Nat.add_sub_cancel' hle]
    exact hi

end Ledger

abbrev Ledgers := ClientStreamKey → Ledger

namespace AudioOutput

/-- The size of the rings. -/
def capacity (output : AudioOutput V) : ℕ :=
  output.clientStreams.sampleRate.toNat * output.clientStreams.outputChannels.count

/-- The samples that a packet adds to its stream. -/
def packetSamples (opus : Opus V) (output : AudioOutput V) (key : ClientStreamKey) :
    VoicePacketPayload → List V
  | .opus bytes _ =>
      match output.clientStreams.getClient opus key >>= fun data => data.decode opus bytes with
      | .ok (out, _) => out
      | .error _ => []
  | _ => []

/-- The ledgers after an event. -/
def account (opus : Opus V) (output : AudioOutput V) (ledgers : Ledgers) : AudioEvent → Ledgers
  | .decodePacket streamType sessionId payload => fun key =>
      if key = (streamType, sessionId) then
        (ledgers key).push output.capacity (output.packetSamples opus key payload).length
          (output.muted sessionId)
      else ledgers key
  | .setMute _ _ => ledgers
  | .callback len => fun key =>
      if key ∈ output.clientStreams.bufferClients ∧ output.muted key.2 = false then
        (ledgers key).play len
      else ledgers key

/-- A callback plays nothing that arrived during a mute. -/
def Clear (output : AudioOutput V) (ledgers : Ledgers) : AudioEvent → Prop
  | .callback len => ∀ key ∈ output.clientStreams.bufferClients,
      output.muted key.2 = false → (ledgers key).Clear len
  | _ => True

/-- Every callback of the run plays nothing that arrived during a mute. -/
def AllClear (opus : Opus V) (mixer : Mixer V T) :
    AudioOutput V → Ledgers → List AudioEvent → Prop
  | _, _, [] => True
  | output, ledgers, event :: rest =>
      output.Clear ledgers event ∧ ∀ heard next,
        output.step (fun _ => opus) mixer event = .ok (heard, next) →
          AllClear opus mixer next (output.account opus ledgers event) rest

end AudioOutput

/-! ## What a callback plays -/

/-- No sample is marked. -/
def Unmarked (samples : List (Marked V)) : Prop := ∀ sample ∈ samples, sample.whileMuted = false

omit [Zero V] in
theorem unmarked_iff {samples : List (Marked V)} :
    Unmarked samples ↔ true ∉ samples.map Marked.whileMuted := by
  simp [Unmarked]

omit [Zero V] in
theorem unmarked_cons {sample : Marked V} {samples : List (Marked V)} :
    Unmarked (sample :: samples) ↔ sample.whileMuted = false ∧ Unmarked samples :=
  List.forall_mem_cons

theorem unmarked_mixClient (mixer : Mixer V T) (volume userVolume : F32) (data : List (Marked T))
    (buf : Bounded (Marked V)) :
    Unmarked (mixClient mixer.marked volume userVolume data buf).1 ↔
      Unmarked data ∧ Unmarked (buf.data.take data.length) := by
  induction data generalizing buf with
  | nil => simp [mixClient, Unmarked]
  | cons sample rest ih =>
      have hmark : (buf.pop.1.getD 0).whileMuted = false ∧
          Unmarked (buf.pop.2.data.take rest.length) ↔
            Unmarked (buf.data.take (rest.length + 1)) := by
        show (buf.data.head?.getD 0).whileMuted = false ∧
          Unmarked (buf.data.tail.take rest.length) ↔ _
        cases buf.data with
        | nil => simp [Unmarked]
        | cons v vs => simp [unmarked_cons]
      rw [mixClient, unmarked_cons, ih, List.length_cons, ← hmark, unmarked_cons]
      simp only [Mixer.marked, Bool.or_eq_false_iff]
      tauto

theorem unmarked_mixStream (mixer : Mixer V T) (volume : F32) (userVolumes : UserVolumes)
    (data : List (Marked T)) (key : ClientStreamKey) (client : ClientAudioData (Marked V)) :
    Unmarked (mixStream mixer.marked volume userVolumes data key client).1 ↔
      Unmarked data ∧
        ((userVolumes.of key.2).2 = false → Unmarked (client.buf.data.take data.length)) := by
  unfold mixStream
  obtain ⟨userVolume, muted⟩ := userVolumes.of key.2
  cases muted with
  | true => simp
  | false => simpa using unmarked_mixClient ..

theorem unmarked_mixEffects (mixer : Mixer V T) (volume : F32) {data : List (Marked T)}
    {effects : List (Marked V)} (h : Unmarked effects) :
    (Unmarked (mixEffects mixer.marked volume data effects).1 ↔ Unmarked data) ∧
      Unmarked (mixEffects mixer.marked volume data effects).2 := by
  induction data generalizing effects with
  | nil => exact ⟨Iff.rfl, h⟩
  | cons sample rest ih =>
      have htail : Unmarked effects.tail := fun v hv => h v (List.mem_of_mem_tail hv)
      have hhead : (effects.head?.getD 0).whileMuted = false := by
        cases effects with
        | nil => rfl
        | cons v vs => exact h v (List.mem_cons_self ..)
      refine ⟨?_, (ih htail).2⟩
      rw [mixEffects, unmarked_cons, unmarked_cons, (ih htail).1]
      simp [Mixer.marked, hhead]

/-- The output of a callback is unmarked when the drained parts of all rings
are. -/
theorem unmarked_callback (mixer : Mixer V T) (output : AudioOutput (Marked V)) (len : ℕ)
    (heffects : Unmarked output.clientStreams.bufferEffects) :
    Unmarked (output.callback mixer.marked len).1 ↔
      ∀ key client, output.clientStreams.bufferClients.lookup key = some client →
        output.muted key.2 = false → Unmarked (client.buf.data.take len) := by
  refine (unmarked_mixEffects mixer output.volume heffects).1.trans ?_
  have hsilence : Unmarked (List.replicate len (mixer.marked.ofSample 0)) := by
    intro sample hsample
    rw [List.eq_of_mem_replicate hsample]
    rfl
  refine (HashMap.mapAccum_fst_iff (P := fun data => data.length = len) ?_ ?_
    (List.length_replicate ..) _).trans (and_iff_right hsilence)
  · intro data key client hlen
    exact (length_mixStream ..).trans hlen
  · intro data key client hlen
    rw [unmarked_mixStream, hlen]
    rfl

/-- A callback drains the rings of the users who are not muted. -/
theorem lookup_callback (mixer : Mixer V T) (output : AudioOutput V) (len : ℕ)
    (key : ClientStreamKey) :
    (output.callback mixer len).2.clientStreams.bufferClients.lookup key =
      (output.clientStreams.bufferClients.lookup key).map fun client =>
        if output.muted key.2 then client else { client with buf := client.buf.drop len } :=
  lookup_bufferClients_callback mixer output.volume output.userVolumes output.clientStreams len key

/-! ## The ledgers are right -/

omit [Zero V] in
/-- Everything that the marking decoder decodes carries its mark. -/
theorem whileMuted_decode {opus : Opus V} {m : Bool} {client client' : ClientAudioData (Marked V)}
    {bytes : Bytes} {out : List (Marked V)}
    (h : client.decode (opus.marked m) bytes = .ok (out, client')) :
    out.map Marked.whileMuted = List.replicate out.length m := by
  obtain ⟨channels, -, h⟩ := bind_eq_ok.mp h
  obtain ⟨decoded, hdecoded, h⟩ := bind_eq_ok.mp h
  obtain ⟨plain, -, rfl⟩ := Option.map_eq_some_iff.mp (unwrap_eq_ok.mp hdecoded)
  cases h
  rw [← List.map_take, fit_map, List.map_map, List.length_map]
  exact List.map_const' ..

omit [Zero V] in
theorem capacity_map {W : Type} (f : V → W) (output : AudioOutput V) :
    (output.map f).capacity = output.capacity := rfl

/-- The ledgers say which samples in the rings are marked. -/
structure Recorded (output : AudioOutput (Marked V)) (ledgers : Ledgers) : Prop where
  effects : Unmarked output.clientStreams.bufferEffects
  rings : ∀ key client, output.clientStreams.bufferClients.lookup key = some client →
    client.buf.maxLen = output.capacity ∧
      (client.buf.map Marked.whileMuted).Shows (ledgers key).pushed (ledgers key).gone
  fresh : ∀ key, output.clientStreams.bufferClients.lookup key = none →
    ledgers key = .silence output.capacity

namespace Recorded

variable {output next : AudioOutput (Marked V)} {ledgers : Ledgers} {opus : Opus V}
  {mixer : Mixer V T}

/-- The ring of a stream that is asked for, whether or not it was there. -/
theorem getClient (h : Recorded output ledgers) {opus : Opus (Marked V)} {key : ClientStreamKey}
    {client : ClientAudioData (Marked V)}
    (hclient : output.clientStreams.getClient opus key = .ok client) :
    client.buf.maxLen = output.capacity ∧
      (client.buf.map Marked.whileMuted).Shows (ledgers key).pushed (ledgers key).gone := by
  obtain ⟨fresh, hfresh, hclient⟩ := bind_eq_ok.mp hclient
  cases hclient
  cases hlookup : output.clientStreams.bufferClients.lookup key with
  | some client => exact h.rings key client hlookup
  | none =>
      have hbuf := ClientAudioData.buf_new hfresh
      rw [h.fresh key hlookup, Option.getD_none, hbuf]
      refine ⟨List.length_replicate .., Nat.zero_le _, ?_⟩
      exact List.map_replicate ..

/-- Without marks, the same number of samples is pushed. -/
theorem length_packetSamples {m : Bool} {key : ClientStreamKey} {bytes : Bytes} {eot : Bool}
    {client client' : ClientAudioData (Marked V)} {out : List (Marked V)}
    (hclient : output.clientStreams.getClient (opus.marked m) key = .ok client)
    (hout : client.decode (opus.marked m) bytes = .ok (out, client')) :
    ((output.map Marked.value).packetSamples opus key (.opus bytes eot)).length = out.length := by
  unfold AudioOutput.packetSamples
  have hget := ClientStream.getClient_erase opus m output.clientStreams key
  rw [hclient] at hget
  have hdecode := ClientAudioData.decode_erase opus m client bytes
  rw [hout] at hdecode
  simp only [AudioOutput.map, hget, Except.map, ok_bind, hdecode, Prod.map, List.length_map]

theorem decodePacket (h : Recorded output ledgers) {streamType : VoiceStreamType}
    {sessionId : UInt32} {payload : VoicePacketPayload}
    (hnext : output.decodePacketPayload (opus.marked (output.muted sessionId)) streamType sessionId
      payload = .ok next) :
    Recorded next ((output.map Marked.value).account opus ledgers
      (.decodePacket streamType sessionId payload)) := by
  obtain ⟨streams, hstreams, hnext⟩ := bind_eq_ok.mp hnext
  cases hnext
  obtain ⟨bytes, eot, data, out, data', rfl, hdata, hout, rfl⟩ :=
    ClientStream.decodePacket_eq_ok hstreams
  obtain ⟨hmax, hshows⟩ := h.getClient hdata
  refine ⟨h.effects, fun key client hlookup => ?_, fun key hlookup => ?_⟩
  · simp only [HashMap.lookup_upsert] at hlookup
    by_cases hkey : key = (streamType, sessionId)
    · rw [if_pos hkey] at hlookup
      have hpushed : client.buf = data.buf.pushAll out := by
        revert hlookup
        cases output.clientStreams.bufferClients.lookup (streamType, sessionId) <;>
        · rintro ⟨⟩
          rfl
      simp only [AudioOutput.account, if_pos hkey]
      rw [hpushed, Bounded.map_pushAll, whileMuted_decode hout, hkey,
        length_packetSamples hdata hout]
      refine ⟨(Bounded.maxLen_pushAll ..).trans hmax, ?_⟩
      -- the marked samples that are pushed all carry the flag of this moment
      have hpush := hshows.pushAll (List.replicate out.length (output.muted sessionId))
      rw [List.length_replicate] at hpush
      show Bounded.Shows _ _ (max _ (_ - (output.map Marked.value).capacity))
      rw [capacity_map, ← hmax]
      exact hpush
    · rw [if_neg hkey] at hlookup
      simp only [AudioOutput.account, if_neg hkey]
      exact h.rings key client hlookup
  · simp only [HashMap.lookup_upsert] at hlookup
    by_cases hkey : key = (streamType, sessionId)
    · simp [hkey] at hlookup
    · rw [if_neg hkey] at hlookup
      simp only [AudioOutput.account, if_neg hkey]
      exact h.fresh key hlookup

omit [Zero V] in
theorem mem_map_iff {key : ClientStreamKey} :
    key ∈ (output.map Marked.value).clientStreams.bufferClients ↔
      key ∈ output.clientStreams.bufferClients := by
  exact HashMap.mem_mapValues

theorem callback (h : Recorded output ledgers) (len : ℕ) :
    Recorded (output.callback mixer.marked len).2
      ((output.map Marked.value).account opus ledgers (.callback len)) := by
  refine ⟨(unmarked_mixEffects mixer output.volume h.effects).2, fun key client hlookup => ?_,
    fun key hlookup => ?_⟩
  · rw [lookup_callback, Option.map_eq_some_iff] at hlookup
    obtain ⟨old, hold, rfl⟩ := hlookup
    obtain ⟨hmax, hshows⟩ := h.rings key old hold
    have hmem : key ∈ output.clientStreams.bufferClients :=
      HashMap.mem_iff_lookup.mpr ⟨old, hold⟩
    have haccount : (output.map Marked.value).account opus ledgers (.callback len) key =
        if output.muted key.2 = false then (ledgers key).play len else ledgers key :=
      if_congr (by rw [mem_map_iff, and_iff_right hmem]; rfl) rfl rfl
    rw [haccount]
    cases output.muted key.2 with
    | true => exact ⟨hmax, hshows⟩
    | false =>
        refine ⟨hmax, ?_⟩
        show (Bounded.map _ (old.buf.drop len)).Shows _ _
        rw [Bounded.map_drop]
        exact hshows.drop len
  · rw [lookup_callback, Option.map_eq_none_iff] at hlookup
    have hmem : key ∉ output.clientStreams.bufferClients :=
      AList.lookup_eq_none.mp hlookup
    simp only [AudioOutput.account, mem_map_iff, hmem, false_and, if_false]
    exact h.fresh key hlookup

theorem step (h : Recorded output ledgers) {event : AudioEvent} {heard : List (Marked T)}
    (hstep : output.step opus.marked mixer.marked event = .ok (heard, next)) :
    Recorded next ((output.map Marked.value).account opus ledgers event) := by
  cases event with
  | decodePacket streamType sessionId payload =>
      obtain ⟨next', hnext, hstep⟩ := bind_eq_ok.mp hstep
      cases hstep
      exact h.decodePacket hnext
  | setMute id mute =>
      cases hstep
      exact ⟨h.effects, h.rings, h.fresh⟩
  | callback len =>
      cases hstep
      exact h.callback len

/-- What one event sends to the device is unmarked when the ledgers are clear. -/
theorem unmarked_iff_clear (h : Recorded output ledgers) {event : AudioEvent}
    {heard : List (Marked T)}
    (hstep : output.step opus.marked mixer.marked event = .ok (heard, next)) :
    Unmarked heard ↔ (output.map Marked.value).Clear ledgers event := by
  cases event with
  | decodePacket streamType sessionId payload =>
      obtain ⟨next', -, hstep⟩ := bind_eq_ok.mp hstep
      cases hstep
      simp [Unmarked, AudioOutput.Clear]
  | setMute id mute =>
      cases hstep
      simp [Unmarked, AudioOutput.Clear]
  | callback len =>
      have hheard : heard = (output.callback mixer.marked len).1 := by
        cases hstep
        rfl
      rw [hheard, unmarked_callback mixer output len h.effects]
      have hclient : ∀ key client,
          output.clientStreams.bufferClients.lookup key = some client →
            (Unmarked (client.buf.data.take len) ↔ (ledgers key).Clear len) := by
        intro key client hclient
        rw [unmarked_iff, List.map_take, Ledger.clear_iff,
          ← (h.rings key client hclient).2.data_eq]
        rfl
      constructor
      · intro hall key hkey hmuted
        obtain ⟨client, hlookup⟩ := HashMap.mem_iff_lookup.mp (mem_map_iff.mp hkey)
        exact (hclient key client hlookup).mp (hall key client hlookup hmuted)
      · intro hall key client hlookup hmuted
        have hkey := mem_map_iff.mpr (HashMap.mem_iff_lookup.mpr ⟨client, hlookup⟩)
        exact (hclient key client hlookup).mpr (hall key hkey hmuted)

theorem unmarked_play (h : Recorded output ledgers) {events : List AudioEvent}
    {heard : List (Marked T)}
    (hplay : output.play opus.marked mixer.marked events = .ok (heard, next)) :
    Unmarked heard ↔ (output.map Marked.value).AllClear opus mixer ledgers events := by
  induction events generalizing output ledgers heard with
  | nil =>
      cases hplay
      simp [Unmarked, AudioOutput.AllClear]
  | cons event rest ih =>
      obtain ⟨⟨first, mid⟩, hstep, hplay⟩ := bind_eq_ok.mp hplay
      obtain ⟨⟨later, final⟩, hrest, hplay⟩ := bind_eq_ok.mp hplay
      cases hplay
      -- without marks, the run takes the same step
      have herase := AudioOutput.step_erase mixer opus output event
      rw [hstep] at herase
      have happend : Unmarked (first ++ later) ↔ Unmarked first ∧ Unmarked later :=
        List.forall_mem_append
      rw [happend, h.unmarked_iff_clear hstep, ih (h.step hstep) hrest]
      refine and_congr_right fun _ => ⟨fun hclear heard' next' hstep' => ?_, fun hclear => ?_⟩
      · rw [herase] at hstep'
        cases hstep'
        exact hclear
      · exact hclear _ _ herase

end Recorded

omit [Zero V] in
/-- An output without streams starts with full rings of silence. -/
theorem recorded_plain (output : AudioOutput V)
    (hnew : output.clientStreams.bufferClients = ∅) :
    Recorded (output.map Marked.plain) fun _ => .silence output.capacity := by
  have hlookup : ∀ key, (output.map Marked.plain).clientStreams.bufferClients.lookup key = none :=
    fun key => by
      show (HashMap.mapValues _ output.clientStreams.bufferClients).lookup key = none
      rw [HashMap.lookup_mapValues, hnew]
      rfl
  refine ⟨fun sample hsample => ?_, fun key client hclient => ?_, fun _ _ => rfl⟩
  · obtain ⟨v, -, rfl⟩ := List.mem_map.mp hsample
    rfl
  · rw [hlookup] at hclient
    cases hclient

/-- **What was muted stays unheard exactly when it is gone in time.**  From an
output without streams, a run sends nothing to the device that arrived during a
mute if and only if every callback finds such samples gone or out of reach. -/
theorem unmarked_iff_allClear (opus : Opus V) (mixer : Mixer V T) (output : AudioOutput V)
    (hnew : output.clientStreams.bufferClients = ∅) (events : List AudioEvent)
    (heard : List (Marked T)) (final : AudioOutput (Marked V))
    (hplay : (output.map Marked.plain).play opus.marked mixer.marked events =
      .ok (heard, final)) :
    (∀ sample ∈ heard, sample.whileMuted = false) ↔
      output.AllClear opus mixer (fun _ => .silence output.capacity) events := by
  have hplayed := (recorded_plain output hnew).unmarked_play hplay
  rw [AudioOutput.map_plain] at hplayed
  exact hplayed

/-! ## A packet that is heard after the mute -/

/-- Arithmetic on samples of which at most one is not silent, at full volume. -/
def loneVoice : Mixer F32 F32 where
  mul := fun v x => if x = F32.one then v else 0
  ofSample := id
  saturatingAdd := fun a b => if a = 0 then b else a

theorem unmarked_iff_allClear_silent :
    (∀ sample ∈ [(⟨0, false⟩ : Marked F32), ⟨0, false⟩], sample.whileMuted = false) ↔
      AudioOutput.silent.AllClear emptyFrames loneVoice
        (fun _ => .silence AudioOutput.silent.capacity)
        [.setMute 7 true, .decodePacket .udp 7 (.opus [0xe0] false), .callback 2] :=
  unmarked_iff_allClear emptyFrames loneVoice .silent rfl _ _ _ rfl

/-- What arrived last during a mute is played by a callback that drains the
whole ring. -/
theorem Ledger.not_clear_push_silence {capacity n : ℕ} (hn : 0 < n) (hle : n ≤ capacity) :
    ¬ ((silence capacity).push capacity n true).Clear capacity := by
  intro hclear
  have hlen : (silence capacity).pushed.length = capacity := List.length_replicate ..
  refine hclear capacity ?_ ?_ ?_
  · simp only [push, hlen]
    exact Nat.max_le.mpr ⟨Nat.zero_le _, by omega⟩
  · simp only [push, hlen]
    omega
  · simp only [push]
    rw [List.getElem?_append_right (Nat.le_of_eq hlen), hlen, Nat.sub_self,
      List.getElem?_replicate_of_lt hn]

/-- A packet that arrives during a mute, and a callback after it. -/
def muteAndUnmute : List AudioEvent :=
  [.setMute 7 true, .decodePacket .udp 7 (.opus [0xe0] false), .setMute 7 false, .callback 96000]

theorem not_allClear_muteAndUnmute :
    ¬ AudioOutput.silent.AllClear emptyFrames loneVoice
      (fun _ => .silence AudioOutput.silent.capacity) muteAndUnmute := by
  rintro ⟨-, hmute⟩
  obtain ⟨-, hpacket⟩ := hmute _ _ rfl
  obtain ⟨-, hunmute⟩ := hpacket _ _ rfl
  obtain ⟨hclear, -⟩ := hunmute _ _ rfl
  have hsamples : ((AudioOutput.silent.setMute 7 true).packetSamples emptyFrames (.udp, 7)
      (.opus [0xe0] false)).length = 240 := by decide +kernel
  have hledger := hclear (.udp, 7) (by decide) rfl
  simp only [AudioOutput.account, if_true, hsamples] at hledger
  exact Ledger.not_clear_push_silence (by decide) (by decide) hledger

/-- The packet is played after the mute, behind the silence before it. -/
theorem heard_after_unmute : ∃ heard final,
    (AudioOutput.silent.map Marked.plain).play emptyFrames.marked loneVoice.marked muteAndUnmute =
      .ok (heard, final) ∧ ¬ ∀ sample ∈ heard, sample.whileMuted = false := by
  obtain ⟨⟨heard, final⟩, hplay⟩ : Returns ((AudioOutput.silent.map Marked.plain).play
      emptyFrames.marked loneVoice.marked muteAndUnmute) :=
    ⟨_, AudioOutput.play_cons rfl (AudioOutput.play_cons rfl (AudioOutput.play_cons rfl
      (AudioOutput.play_callback ..)))⟩
  refine ⟨heard, final, hplay, fun hunmarked => not_allClear_muteAndUnmute ?_⟩
  have hplayed := (recorded_plain .silent rfl).unmarked_play hplay
  rw [AudioOutput.map_plain] at hplayed
  exact hplayed.mp hunmarked

end Mum
