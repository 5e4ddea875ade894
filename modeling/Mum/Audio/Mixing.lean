import Mum.Audio.Output
import Mum.Library.Saturating

/-!
# What a callback adds up

Sample `i` of an output buffer starts from silence, and one contribution is
added to it for every stream of a user who is not muted, in iteration order, and
at the end one for the sound effects (`getElem?_callback`).  A stream contributes
the `i`-th oldest value of its ring, or silence.

With `i16` samples a sum is limited after every addition.  It agrees with the
exact sum, limited once, as long as no contribution goes back from where the
exact sum left the range (`LimitsI16`).

`getElem?_mixStreams` is the induction over the streams, and turns the callback into a fold
over the contributions for one index.  For `i16` samples that fold is a `runningSum` of integers
(`toInt_foldl_saturatingAddI16`), and when such a sum is the exact one is a matter of
`Mum.Library.Saturating`.
-/

namespace Mum

open Library Library.Eval Msgs

variable {V T : Type} [Zero V]

/-- What a stream adds to sample `i`, unless its user is muted. -/
def contribution (mixer : Mixer V T) (volume : F32) (userVolumes : UserVolumes) (i : ℕ)
    (key : ClientStreamKey) (client : ClientAudioData V) : Option T :=
  let (userVolume, muted) := userVolumes.of key.2
  if muted then none
  else some (mixer.ofSample (mixer.mul (mixer.mul (client.buf.data[i]?.getD 0) volume) userVolume))

/-- What the sound effects add to sample `i`. -/
def effectContribution (mixer : Mixer V T) (volume : F32) (effects : List V) (i : ℕ) : T :=
  mixer.ofSample (mixer.mul (effects[i]?.getD 0) volume)

/-- What some streams add to sample `i`, in iteration order. -/
def streamContributions (mixer : Mixer V T) (volume : F32) (userVolumes : UserVolumes) (i : ℕ)
    (entries : List (Σ _ : ClientStreamKey, ClientAudioData V)) : List T :=
  entries.filterMap fun entry => contribution mixer volume userVolumes i entry.1 entry.2

/-- All that is added to sample `i`. -/
def contributions (mixer : Mixer V T) (volume : F32) (userVolumes : UserVolumes)
    (userBufs : ClientStream V) (i : ℕ) : List T :=
  streamContributions mixer volume userVolumes i userBufs.bufferClients.entries ++
    [effectContribution mixer volume userBufs.bufferEffects i]

theorem streamContributions_cons (mixer : Mixer V T) (volume : F32) (userVolumes : UserVolumes)
    (i : ℕ) (entry : Σ _ : ClientStreamKey, ClientAudioData V)
    (rest : List (Σ _ : ClientStreamKey, ClientAudioData V)) :
    streamContributions mixer volume userVolumes i (entry :: rest) =
      (contribution mixer volume userVolumes i entry.1 entry.2).toList ++
        streamContributions mixer volume userVolumes i rest := by
  rw [streamContributions, List.filterMap_cons]
  cases contribution mixer volume userVolumes i entry.1 entry.2 <;> rfl

/-! ## One stream -/

theorem mixClient_snd (mixer : Mixer V T) (volume userVolume : F32) (data : List T)
    (buf : Bounded V) :
    (mixClient mixer volume userVolume data buf).2 = buf.drop data.length := by
  induction data generalizing buf with
  | nil => rfl
  | cons sample rest ih => rw [mixClient, List.length_cons, ← Bounded.drop_pop, ← ih]

theorem getElem?_mixClient (mixer : Mixer V T) (volume userVolume : F32) (data : List T)
    (buf : Bounded V) (i : ℕ) :
    (mixClient mixer volume userVolume data buf).1[i]? = data[i]?.map fun sample =>
      mixer.saturatingAdd sample
        (mixer.ofSample (mixer.mul (mixer.mul (buf.data[i]?.getD 0) volume) userVolume)) := by
  induction data generalizing buf i with
  | nil => rfl
  | cons sample rest ih =>
      rw [mixClient]
      cases i with
      | zero =>
          rw [List.getElem?_cons_zero, List.getElem?_cons_zero, Option.map_some,
            ← List.head?_eq_getElem?]
          rfl
      | succ i =>
          have htail : buf.pop.2.data[i]? = buf.data[i + 1]? := List.getElem?_tail
          rw [List.getElem?_cons_succ, List.getElem?_cons_succ, ih, htail]

theorem length_mixClient (mixer : Mixer V T) (volume userVolume : F32) (data : List T)
    (buf : Bounded V) : (mixClient mixer volume userVolume data buf).1.length = data.length := by
  induction data generalizing buf with
  | nil => rfl
  | cons sample rest ih => rw [mixClient, List.length_cons, ih, List.length_cons]

theorem getElem?_mixStream (mixer : Mixer V T) (volume : F32) (userVolumes : UserVolumes)
    (data : List T) (key : ClientStreamKey) (client : ClientAudioData V) (i : ℕ) :
    (mixStream mixer volume userVolumes data key client).1[i]? = data[i]?.map fun sample =>
      (contribution mixer volume userVolumes i key client).elim sample
        (mixer.saturatingAdd sample) := by
  unfold mixStream contribution
  obtain ⟨userVolume, muted⟩ := userVolumes.of key.2
  cases muted with
  | true => exact Option.map_id'.symm
  | false => exact getElem?_mixClient ..

theorem length_mixStream (mixer : Mixer V T) (volume : F32) (userVolumes : UserVolumes)
    (data : List T) (key : ClientStreamKey) (client : ClientAudioData V) :
    (mixStream mixer volume userVolumes data key client).1.length = data.length := by
  unfold mixStream
  obtain ⟨userVolume, muted⟩ := userVolumes.of key.2
  cases muted with
  | true => rfl
  | false => exact length_mixClient ..

/-! ## The callback -/

theorem getElem?_mixStreams (mixer : Mixer V T) (volume : F32) (userVolumes : UserVolumes)
    (entries : List (Σ _ : ClientStreamKey, ClientAudioData V)) (data : List T) (i : ℕ) :
    (HashMap.mapAccumEntries (mixStream mixer volume userVolumes) data entries).1[i]? =
      data[i]?.map fun sample =>
        (streamContributions mixer volume userVolumes i entries).foldl mixer.saturatingAdd
          sample := by
  induction entries generalizing data with
  | nil => exact Option.map_id'.symm
  | cons entry rest ih =>
      obtain ⟨key, client⟩ := entry
      have hstream := getElem?_mixStream mixer volume userVolumes data key client i
      rw [HashMap.mapAccumEntries]
      refine (ih _).trans ?_
      rw [hstream, Option.map_map, streamContributions_cons]
      congr 1
      funext sample
      cases contribution mixer volume userVolumes i key client <;> rfl

theorem getElem?_mixEffects (mixer : Mixer V T) (volume : F32) (data : List T) (effects : List V)
    (i : ℕ) :
    (mixEffects mixer volume data effects).1[i]? = data[i]?.map fun sample =>
      mixer.saturatingAdd sample (effectContribution mixer volume effects i) := by
  induction data generalizing effects i with
  | nil => rfl
  | cons sample rest ih =>
      rw [mixEffects]
      cases i with
      | zero =>
          rw [List.getElem?_cons_zero, List.getElem?_cons_zero, Option.map_some,
            effectContribution, ← List.head?_eq_getElem?]
      | succ i =>
          have htail : effects.tail[i]? = effects[i + 1]? := List.getElem?_tail
          rw [List.getElem?_cons_succ, List.getElem?_cons_succ, ih, effectContribution,
            effectContribution, htail]

/-- Sample `i` is all its contributions added to silence. -/
theorem getElem?_callback (mixer : Mixer V T) (volume : F32) (userVolumes : UserVolumes)
    (userBufs : ClientStream V) {len i : ℕ} (hi : i < len) :
    (callback mixer volume userVolumes userBufs len).1[i]? =
      some ((contributions mixer volume userVolumes userBufs i).foldl mixer.saturatingAdd
        (mixer.ofSample 0)) := by
  have hsilence : (List.replicate len (mixer.ofSample 0))[i]? = some (mixer.ofSample 0) :=
    List.getElem?_replicate_of_lt hi
  have hstreams := getElem?_mixStreams mixer volume userVolumes userBufs.bufferClients.entries
    (List.replicate len (mixer.ofSample 0)) i
  rw [hsilence, Option.map_some] at hstreams
  rw [contributions, List.foldl_append]
  refine (getElem?_mixEffects ..).trans ?_
  show Option.map _ ((HashMap.mapAccumEntries _ _ _).1[i]?) = _
  rw [hstreams]
  rfl

/-- A callback drains the rings of the users who are not muted. -/
theorem lookup_bufferClients_callback (mixer : Mixer V T) (volume : F32)
    (userVolumes : UserVolumes) (userBufs : ClientStream V) (len : ℕ) (key : ClientStreamKey) :
    (callback mixer volume userVolumes userBufs len).2.bufferClients.lookup key =
      (userBufs.bufferClients.lookup key).map fun client =>
        if (userVolumes.of key.2).2 then client
        else { client with buf := client.buf.drop len } := by
  refine (HashMap.mapAccum_spec (P := fun data : List T => data.length = len)
    (f := mixStream mixer volume userVolumes) (g := fun key client =>
      if (userVolumes.of key.2).2 then client
      else { client with buf := client.buf.drop len }) ?_
    (List.length_replicate ..) userBufs.bufferClients).2 key
  intro data key client hlen
  refine ⟨(length_mixStream ..).trans hlen, ?_⟩
  unfold mixStream
  obtain ⟨userVolume, muted⟩ := userVolumes.of key.2
  cases muted with
  | true => rfl
  | false => simp [mixClient_snd, hlen]

/-! ## Integer samples -/

/-- `i16::saturating_add`. -/
def saturatingAddI16 (a b : Int16) : Int16 := .ofIntClamp (a.toInt + b.toInt)

/-- `u16::saturating_add`. -/
def saturatingAddU16 (a b : UInt16) : UInt16 := .ofNatClamp (a.toNat + b.toNat)

namespace Mixer

omit [Zero V]

def i16 (mul : V → F32 → V) (ofSample : V → Int16) : Mixer V Int16 :=
  ⟨mul, ofSample, saturatingAddI16⟩

def u16 (mul : V → F32 → V) (ofSample : V → UInt16) : Mixer V UInt16 :=
  ⟨mul, ofSample, saturatingAddU16⟩

end Mixer

/-- The contributions to sample `i` as numbers. -/
def amounts (mixer : Mixer V Int16) (volume : F32) (userVolumes : UserVolumes)
    (userBufs : ClientStream V) (i : ℕ) : List ℤ :=
  (contributions mixer volume userVolumes userBufs i).map Int16.toInt

theorem toInt_saturatingAddI16 (a b : Int16) :
    (saturatingAddI16 a b).toInt = limit (-32768) 32767 (a.toInt + b.toInt) := by
  have hmin : Int16.minValue.toInt = -32768 := rfl
  have hmax : Int16.maxValue.toInt = 32767 := rfl
  unfold saturatingAddI16 Int16.ofIntClamp
  split
  · split
    · rw [Int16.toInt_ofIntLE, limit_of_mem (by omega) (by omega)]
    · rw [hmax, limit_of_le (by omega) (by omega)]
  · rw [hmin, limit_of_ge (by omega)]

theorem saturatingAddI16_zero (a : Int16) : saturatingAddI16 a 0 = a := by
  have hsum : a.toInt + (0 : Int16).toInt = a.toInt := Int.add_zero _
  rw [saturatingAddI16, hsum, Int16.ofIntClamp_toInt]

theorem toInt_foldl_saturatingAddI16 (cs : List Int16) :
    (cs.foldl saturatingAddI16 0).toInt = runningSum (-32768) 32767 (cs.map Int16.toInt) := by
  induction cs using List.reverseRecOn with
  | nil => rfl
  | append_singleton cs c ih =>
      rw [List.foldl_append, List.map_append, List.map_singleton, runningSum_concat, ← ih]
      exact toInt_saturatingAddI16 ..

/-- A silent stream may as well be missing. -/
theorem foldl_streamContributions_kerase (mul : V → F32 → V) (ofSample : V → Int16) (volume : F32)
    (userVolumes : UserVolumes) (i : ℕ) (key : ClientStreamKey)
    (entries : List (Σ _ : ClientStreamKey, ClientAudioData V))
    (hsilent : ∀ client, entries.dlookup key = some client →
      (contribution (.i16 mul ofSample) volume userVolumes i key client).getD 0 = 0)
    (sample : Int16) :
    (streamContributions (.i16 mul ofSample) volume userVolumes i (entries.kerase key)).foldl
        saturatingAddI16 sample =
      (streamContributions (.i16 mul ofSample) volume userVolumes i entries).foldl
        saturatingAddI16 sample := by
  induction entries generalizing sample with
  | nil => rfl
  | cons entry rest ih =>
      by_cases hkey : key = entry.1
      · subst hkey
        have hcontribution := hsilent entry.2 (List.dlookup_cons_eq ..)
        rw [List.kerase_cons_eq rfl, streamContributions_cons, List.foldl_append]
        cases hadded : contribution (.i16 mul ofSample) volume userVolumes i entry.1 entry.2 with
        | none => rfl
        | some c =>
            rw [hadded, Option.getD_some] at hcontribution
            rw [hcontribution, Option.toList_some, List.foldl_cons, List.foldl_nil,
              saturatingAddI16_zero]
      · have hrest := fun client => by
          have hclient := hsilent client
          rw [List.dlookup_cons_ne _ _ hkey] at hclient
          exact hclient
        rw [List.kerase_cons_ne hkey, streamContributions_cons, streamContributions_cons,
          List.foldl_append, List.foldl_append, ih hrest]

/-- What the callback does for sample `i` with `i16` samples. -/
structure LimitsI16 (mixer : Mixer V Int16) (volume : F32) (userVolumes : UserVolumes)
    (userBufs : ClientStream V) (len i : ℕ) (sample : Int16) : Prop where
  getElem?_eq : (callback mixer volume userVolumes userBufs len).1[i]? = some sample
  /-- The contributions are added one after the other. -/
  running : sample.toInt = runningSum (-32768) 32767 (amounts mixer volume userVolumes userBufs i)
  /-- The exact sum is limited once if no contribution goes back from its limit. -/
  steady : Steady (-32768) 32767 (amounts mixer volume userVolumes userBufs i) →
    sample.toInt = limit (-32768) 32767 (amounts mixer volume userVolumes userBufs i).sum
  /-- Silence changes nothing. -/
  silent : ∀ key, (∀ client, userBufs.bufferClients.lookup key = some client →
      (contribution mixer volume userVolumes i key client).getD 0 = 0) →
    (callback mixer volume userVolumes
      { userBufs with bufferClients := userBufs.bufferClients.erase key } len).1[i]? = some sample
  /-- The order of the streams does not matter for balanced contributions. -/
  balanced : Balanced (-32768) 32767 (amounts mixer volume userVolumes userBufs i) →
    sample.toInt = limit (-32768) 32767 (amounts mixer volume userVolumes userBufs i).sum ∧
    ∀ bufferClients : HashMap ClientStreamKey (ClientAudioData V),
      bufferClients.entries.Perm userBufs.bufferClients.entries →
        (callback mixer volume userVolumes
          { userBufs with bufferClients := bufferClients } len).1[i]? = some sample

/-- **The sum in an `i16` sample.**  It is limited after every addition. -/
theorem limitsI16_callback (mul : V → F32 → V) (ofSample : V → Int16) (hzero : ofSample 0 = 0)
    (volume : F32) (userVolumes : UserVolumes) (userBufs : ClientStream V) (len i : ℕ)
    (hi : i < len) :
    ∃ sample, LimitsI16 (.i16 mul ofSample) volume userVolumes userBufs len i sample := by
  have hsample : ∀ userBufs : ClientStream V,
      (callback (.i16 mul ofSample) volume userVolumes userBufs len).1[i]? =
        some ((contributions (.i16 mul ofSample) volume userVolumes userBufs i).foldl
          saturatingAddI16 0) := by
    intro userBufs
    rw [getElem?_callback _ _ _ _ hi]
    exact congrArg (fun a => some (List.foldl _ a _)) hzero
  have hrunning := toInt_foldl_saturatingAddI16
    (contributions (.i16 mul ofSample) volume userVolumes userBufs i)
  have hsteady : Steady (-32768) 32767 (amounts (.i16 mul ofSample) volume userVolumes userBufs i) →
      _ := fun h => hrunning.trans (runningSum_of_steady (by decide) (by decide) h)
  refine ⟨_, hsample userBufs, hrunning, hsteady, ?_, ?_⟩
  · intro key hsilent
    rw [hsample, contributions, contributions, List.foldl_append, List.foldl_append]
    have hkerase := foldl_streamContributions_kerase mul ofSample volume userVolumes i key
      userBufs.bufferClients.entries hsilent 0
    exact congrArg (fun a => some (List.foldl _ a _)) hkerase
  · intro hbalanced
    refine ⟨hsteady (hbalanced.steady (by decide) (by decide)), ?_⟩
    intro bufferClients hperm
    have hcontributions : (contributions (.i16 mul ofSample) volume userVolumes
        { userBufs with bufferClients := bufferClients } i).Perm
          (contributions (.i16 mul ofSample) volume userVolumes userBufs i) :=
      (hperm.filterMap _).append_right _
    have hsum := runningSum_of_perm (by decide) (by decide) (hcontributions.symm.map Int16.toInt)
      hbalanced
    rw [hsample]
    congr 1
    apply Int16.toInt.inj
    rw [toInt_foldl_saturatingAddI16, toInt_foldl_saturatingAddI16]
    exact hsum.symm

/-- The lowest amplitude. -/
def minusOne : F32 := ⟨0xbf800000⟩

/-- `Sample::from` for samples of full or no amplitude. -/
def fullScaleI16 (v : F32) : Int16 :=
  if v = F32.one then 32767 else if v = minusOne then -32768 else 0

def fullScaleU16 (v : F32) : UInt16 :=
  if v = F32.one then 65535 else if v = minusOne then 0 else 32768

/-- Nothing is made louder or quieter. -/
def fullVolume (v _volume : F32) : F32 := v

/-- One sample in each of some streams of different users, without sound effects. -/
def singleSamples (values : List F32) : ClientStream F32 where
  bufferClients := values.zipIdx.foldr (fun entry clients =>
    clients.insert (.udp, .ofNat entry.2)
      ⟨.fromFull [entry.1], .stereo, ⟨48000, .mono, []⟩, ⟨48000, .stereo, []⟩⟩) ∅
  bufferEffects := []
  sampleRate := 48000
  outputChannels := .stereo

theorem limitsI16_callback_threeVoices :
    ∃ sample, LimitsI16 (.i16 fullVolume fullScaleI16) F32.one ∅
      (singleSamples [F32.one, F32.one, minusOne]) 1 0 sample :=
  limitsI16_callback fullVolume fullScaleI16 rfl F32.one ∅ _ 1 0 (by decide)

/-- Three voices in two orders, and a `u16` output on which nobody speaks. -/
theorem not_exact_threeVoices :
    (callback (.i16 fullVolume fullScaleI16) F32.one ∅
        (singleSamples [F32.one, F32.one, minusOne]) 1).1 = [-1] ∧
      (callback (.i16 fullVolume fullScaleI16) F32.one ∅
        (singleSamples [F32.one, minusOne, F32.one]) 1).1 = [32766] ∧
      (amounts (.i16 fullVolume fullScaleI16) F32.one ∅
        (singleSamples [F32.one, F32.one, minusOne]) 0).sum = 32766 ∧
      (callback (.u16 fullVolume fullScaleU16) F32.one ∅ (singleSamples []) 1).1 = [65535] := by
  decide

end Mum
