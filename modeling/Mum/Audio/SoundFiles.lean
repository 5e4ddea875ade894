import Mathlib.Data.List.Induction
import Mum.Audio.SoundEffects

/-!
# Sound files and their readers

Which bytes are decoded for an event, and by which reader.

The reader is chosen by the extension of the file, before the file is opened, and
a file that cannot be opened is replaced by the built-in sound, which is a wav.
So the built-in sound gets to the ogg reader whenever a file that is called ogg is
not there, and what that reader answers is unwrapped.  A file that is there may fail
as well: the integers of a wav are asked for as `i16`, and each answer is unwrapped.

## Strategy

`lookup_overridesOf` makes loading a question about one event, so the development is
about a single file (`FileLoads`).  `decoded` separates what is decoded by which reader
from what the reader makes of it, and `read_supported_iff` says the latter in terms of
the header.  What remains are the cases of `fileLoads_some_iff`: the extension says
nothing, the reader is not used, the file is not there, the file is there.
-/

namespace Mum

open Library Library.Eval Msgs

/-- Everything but mono and stereo is unimplemented, and nothing can be played at no
rate. -/
structure AudioSpec.Supported (spec : AudioSpec) : Prop where
  channels : spec.channels = 1 ∨ spec.channels = 2
  sampleRate : spec.sampleRate ≠ 0

/-- What hound says about a file that is whole: floats can be read as `f32`, and integers
as `i16` if they have at most 16 bits.  Others are too wide. -/
structure WavReader.Lawful (reader : WavReader) : Prop where
  float : reader.spec.sampleFormat = .float → ∀ sample ∈ reader.intoF32, sample.isSome
  int : reader.spec.sampleFormat = .int →
    ∀ sample ∈ reader.intoI16, (sample.isSome ↔ reader.spec.bitsPerSample ≤ 16)

/-- There are samples, and they are integers of more than 16 bits. -/
def WavReader.TooWide (reader : WavReader) : Prop :=
  reader.spec.sampleFormat = .int ∧ 16 < reader.spec.bitsPerSample ∧ reader.intoI16 ≠ []

/-- The file that overrides an event: that of the last override that names it. -/
def overrideFor (overrides : List Mumlib.SoundEffect) (event : NotificationEvents) :
    Option String :=
  ((overrides.filter fun sound => NotificationEvents.tryFrom sound.event = some event).getLast?).map
    (·.file)

theorem exists_of_overrideFor {overrides : List Mumlib.SoundEffect} {event : NotificationEvents}
    {path : String} (h : overrideFor overrides event = some path) :
    ∃ sound ∈ overrides, sound.file = path := by
  obtain ⟨sound, hsound, rfl⟩ := Option.map_eq_some_iff.mp h
  exact ⟨sound, List.mem_of_mem_filter (List.mem_of_getLast? hsound), rfl⟩

namespace SoundHost

theorem lookup_overridesOf (overrides : List Mumlib.SoundEffect) (event : NotificationEvents) :
    (overridesOf overrides).lookup event = overrideFor overrides event := by
  unfold overridesOf overrideFor
  induction overrides using List.reverseRecOn with
  | nil => rfl
  | append_singleton overrides sound ih =>
      rw [List.foldl_concat, List.filter_append]
      cases hevent : NotificationEvents.tryFrom sound.event with
      | none => simpa [hevent] using ih
      | some event' =>
          by_cases h : event' = event
          · subst h
            simp [hevent]
          · have hlookup : ∀ files : HashMap NotificationEvents String,
                AList.lookup event (files.insert event' sound.file) = files.lookup event :=
              fun files => AList.lookup_insert_ne (Ne.symm h)
            simpa [hevent, h, hlookup] using ih

variable (host : SoundHost)

/-- What the reader of a format makes of some bytes. -/
def read : AudioFileKind → Bytes → Eval (List F32 × AudioSpec)
  | .ogg => host.decodeOgg
  | .wav => host.unpackWav

/-- The format that a file is in by its extension. -/
def kindOf (file : String) : Option AudioFileKind := AudioFileKind.tryFrom (extension file)

/-- The bytes that are decoded for an event, and the reader that gets them. -/
def decoded (file : Option String) : Eval (Bytes × AudioFileKind) := do
  let (data, kind) ← host.dataOf file
  match kind with
  | .ogg => return if host.oggFeature then (data, .ogg) else (host.getDefaultSfx, .wav)
  | .wav => return (data, .wav)

/-- `decoded` is what `unpack_audio` decodes. -/
theorem unpackAudio_eq (file : Option String) :
    (host.dataOf file >>= fun data => host.unpackAudio data.1 data.2) =
      host.decoded file >>= fun data => host.read data.2 data.1 := by
  rw [decoded]
  cases host.dataOf file with
  | error fault => rfl
  | ok data =>
      obtain ⟨data, kind⟩ := data
      cases kind with
      | wav => rfl
      | ogg =>
          simp only [ok_bind, unpackAudio, unpackOgg]
          cases host.oggFeature with
          | true => rfl
          | false => rfl

theorem exists_unpackAudio_iff (file : Option String) (sound : List F32 × AudioSpec) :
    (∃ data, host.dataOf file = .ok data ∧ host.unpackAudio data.1 data.2 = .ok sound) ↔
      ∃ data kind, host.decoded file = .ok (data, kind) ∧ host.read kind data = .ok sound := by
  rw [← bind_eq_ok, unpackAudio_eq, bind_eq_ok, Prod.exists]

theorem fromHzToHz_returns_iff {stereo : List F32} {sourceHz : UInt32} :
    Returns (host.fromHzToHz stereo sourceHz) ↔ sourceHz ≠ 0 := by
  unfold fromHzToHz
  split
  next hzero => exact iff_of_false (not_returns_error _) (not_not_intro hzero)
  next hne => exact iff_of_true (returns_ok _) hne

/-- There are samples for an event if its reader succeeds, and the sound is mono
or stereo and has a rate. -/
theorem samplesOf_returns_iff (file : Option String) (numChannels : Nat) :
    Returns (host.samplesOf file numChannels) ↔
      ∃ data kind sound, host.decoded file = .ok (data, kind) ∧
        host.read kind data = .ok sound ∧ sound.2.Supported := by
  constructor
  · rintro ⟨samples, h⟩
    obtain ⟨data, hdata, h⟩ := bind_eq_ok.mp h
    obtain ⟨sound, hsound, h⟩ := bind_eq_ok.mp h
    obtain ⟨stereo, hstereo, h⟩ := bind_eq_ok.mp h
    obtain ⟨frames, hframes, -⟩ := bind_eq_ok.mp h
    obtain ⟨data, kind, hdecoded, hread⟩ :=
      (host.exists_unpackAudio_iff file sound).mp ⟨data, hdata, hsound⟩
    refine ⟨data, kind, sound, hdecoded, hread, ?_,
      host.fromHzToHz_returns_iff.mp ⟨frames, hframes⟩⟩
    split at hstereo
    next hmono => exact Or.inl hmono
    next hboth => exact Or.inr hboth
    next => cases hstereo
  · rintro ⟨data, kind, sound, hdecoded, hread, hsupported⟩
    obtain ⟨data, hdata, hsound⟩ :=
      (host.exists_unpackAudio_iff file sound).mpr ⟨data, kind, hdecoded, hread⟩
    rw [samplesOf, hdata, ok_bind]
    simp only [hsound, ok_bind]
    have hframes : ∀ stereo, Returns (host.fromHzToHz stereo sound.2.sampleRate) :=
      fun stereo => host.fromHzToHz_returns_iff.mpr hsupported.sampleRate
    rcases hsupported.channels with hmono | hboth
    · rw [hmono]
      exact (returns_bind_iff fun _ _ => returns_ok _).mpr (hframes _)
    · rw [hboth]
      exact (returns_bind_iff fun _ _ => returns_ok _).mpr (hframes _)

theorem loadSoundEffects_returns_iff (overrides : List Mumlib.SoundEffect) (numChannels : Nat) :
    Returns (host.loadSoundEffects overrides numChannels) ↔
      ∀ event, Returns (host.samplesOf (overrideFor overrides event) numChannels) := by
  let samples (event : NotificationEvents) : Eval (List F32) :=
    host.samplesOf ((overridesOf overrides).lookup event) numChannels
  refine (foldlM_returns_iff (g := samples)
    (h := fun (sounds : HashMap NotificationEvents (List F32)) event e => sounds.insert event e)
    (fun _ _ => rfl) NotificationEvents.iter ∅).trans ?_
  simp only [samples, lookup_overridesOf]
  exact ⟨fun h event => h event (NotificationEvents.mem_iter event), fun h event _ => h event⟩

/-! ## Formats -/

/-- The bytes are in the format: its reader takes them. -/
def InFormat (data : Bytes) : AudioFileKind → Prop
  | .ogg => (host.newOggReader data).isSome
  | .wav => (host.newWavReader data).isSome

/-- What the header says. -/
def specOf (data : Bytes) : AudioFileKind → Option AudioSpec
  | .ogg => (host.newOggReader data).map fun reader =>
      ⟨reader.audioChannels.toUInt32, reader.audioSampleRate⟩
  | .wav => (host.newWavReader data).map fun reader =>
      ⟨reader.spec.channels.toUInt32, reader.spec.sampleRate⟩

/-- Files are whole and in the format of their extension, and no bytes are in both
formats. -/
structure FilesMatch : Prop where
  files : ∀ path kind contents, kindOf path = some kind → host.openFile path = some contents →
    ∃ data, contents = .ok data ∧ host.InFormat data kind
  lawful : ∀ data reader, host.newWavReader data = some reader → reader.Lawful
  apart : ∀ data, host.InFormat data .wav → ¬ host.InFormat data .ogg
  builtIn : ∃ reader, host.newWavReader host.fallbackSfx = some reader ∧
    reader.spec = ⟨2, 44100, 16, .int⟩

/-- A file that is called ogg, would be read as ogg, and is not there. -/
def OggMissing (path : String) : Prop :=
  kindOf path = some .ogg ∧ host.oggFeature ∧ host.openFile path = none

/-- A wav with integer samples that do not fit `i16`. -/
def TooWide (path : String) : Prop :=
  ∃ data reader, kindOf path = some .wav ∧ host.openFile path = some (.ok data) ∧
    host.newWavReader data = some reader ∧ reader.TooWide

/-- A file whose sound is neither mono nor stereo, or has no rate. -/
def Unsupported (path : String) : Prop :=
  ∃ kind data spec, kindOf path = some kind ∧ (kind = .ogg → host.oggFeature) ∧
    host.openFile path = some (.ok data) ∧ host.specOf data kind = some spec ∧
    ¬ spec.Supported

/-- The sound effects are loaded: bytes are decoded in the format they are in,
files that are not there are replaced, and nothing panics. -/
structure Loads (overrides : List Mumlib.SoundEffect) (numChannels : Nat) : Prop where
  matched : ∀ event data kind,
    host.decoded (overrideFor overrides event) = .ok (data, kind) → host.InFormat data kind
  replaced : ∀ event path, overrideFor overrides event = some path → host.openFile path = none →
    host.decoded (some path) = .ok (host.getDefaultSfx, .wav)
  returns : Returns (host.loadSoundEffects overrides numChannels)

/-- The same for one event. -/
structure FileLoads (file : Option String) (numChannels : Nat) : Prop where
  matched : ∀ data kind, host.decoded file = .ok (data, kind) → host.InFormat data kind
  replaced : ∀ path, file = some path → host.openFile path = none →
    host.decoded file = .ok (host.getDefaultSfx, .wav)
  returns : Returns (host.samplesOf file numChannels)

theorem loads_iff_forall (overrides : List Mumlib.SoundEffect) (numChannels : Nat) :
    host.Loads overrides numChannels ↔
      ∀ event, host.FileLoads (overrideFor overrides event) numChannels := by
  constructor
  · intro h event
    exact {
      matched := h.matched event
      replaced := fun path hpath hopen => by rw [hpath, h.replaced event path hpath hopen]
      returns := (host.loadSoundEffects_returns_iff overrides numChannels).mp h.returns event }
  · intro h
    exact {
      matched := fun event => (h event).matched
      replaced := fun event path hpath hopen => by
        rw [← hpath, (h event).replaced path hpath hopen]
      returns := (host.loadSoundEffects_returns_iff overrides numChannels).mpr
        fun event => (h event).returns }

section Matching

variable {host} {numChannels : Nat}

theorem unpackWav_returns_iff {data : Bytes} {reader : WavReader}
    (hreader : host.newWavReader data = some reader) (hlawful : reader.Lawful) :
    Returns (host.unpackWav data) ↔ ¬ reader.TooWide := by
  unfold unpackWav WavReader.TooWide
  rw [hreader, unwrap_some, ok_bind]
  refine (returns_bind_iff fun _ _ => returns_ok _).trans ?_
  cases hformat : reader.spec.sampleFormat with
  | float =>
      refine iff_of_true (mapM_returns_iff.mpr fun sample hsample => ?_) (by simp)
      obtain ⟨value, rfl⟩ := Option.isSome_iff_exists.mp (hlawful.float hformat sample hsample)
      exact returns_ok value
  | int =>
      have hsample : ∀ sample ∈ reader.intoI16,
          (Returns (unwrap sample >>= fun e => (.ok (host.toF32 e) : Eval F32)) ↔
            reader.spec.bitsPerSample ≤ 16) := by
        intro sample hsample
        rw [← hlawful.int hformat sample hsample, returns_bind_iff fun _ _ => returns_ok _]
        cases sample with
        | none => exact iff_of_false (not_returns_error _) (by simp)
        | some value => exact iff_of_true (returns_ok value) rfl
      refine mapM_returns_iff.trans ((forall₂_congr hsample).trans ?_)
      constructor
      · rintro h ⟨-, hwide, hne⟩
        obtain ⟨sample, hmem⟩ := List.exists_mem_of_ne_nil _ hne
        exact absurd (h sample hmem) (UInt16.not_le.mpr hwide)
      · intro h sample hmem
        by_contra hwide
        exact h ⟨rfl, UInt16.not_le.mp hwide, List.ne_nil_of_mem hmem⟩

theorem specOf_of_read {kind : AudioFileKind} {data : Bytes} {sound : List F32 × AudioSpec}
    (h : host.read kind data = .ok sound) : host.specOf data kind = some sound.2 := by
  cases kind with
  | ogg =>
      obtain ⟨reader, hreader, h⟩ := bind_eq_ok.mp h
      cases h
      rw [specOf, unwrap_eq_ok.mp hreader]
      rfl
  | wav =>
      obtain ⟨reader, hreader, h⟩ := bind_eq_ok.mp h
      obtain ⟨samples, -, h⟩ := bind_eq_ok.mp h
      cases h
      rw [specOf, unwrap_eq_ok.mp hreader]
      rfl

/-- What the header has to say for a sound to be played. -/
theorem read_supported_iff (hmatch : host.FilesMatch) {data : Bytes} {kind : AudioFileKind}
    (hformat : host.InFormat data kind) :
    (∃ sound, host.read kind data = .ok sound ∧ sound.2.Supported) ↔
      (∀ reader, kind = .wav → host.newWavReader data = some reader → ¬ reader.TooWide) ∧
        ∀ spec, host.specOf data kind = some spec → spec.Supported := by
  have hreturns : Returns (host.read kind data) ↔
      ∀ reader, kind = .wav → host.newWavReader data = some reader → ¬ reader.TooWide := by
    cases kind with
    | ogg =>
        obtain ⟨reader, hreader⟩ := Option.isSome_iff_exists.mp hformat
        refine iff_of_true ?_ (by simp)
        rw [read, decodeOgg, hreader]
        exact returns_ok _
    | wav =>
        obtain ⟨reader, hreader⟩ := Option.isSome_iff_exists.mp hformat
        refine (unpackWav_returns_iff hreader (hmatch.lawful data reader hreader)).trans ?_
        simp [hreader]
  rw [← hreturns]
  constructor
  · rintro ⟨sound, hsound, hsupported⟩
    refine ⟨⟨sound, hsound⟩, fun spec hspec => ?_⟩
    cases hspec.symm.trans (specOf_of_read hsound)
    exact hsupported
  · rintro ⟨⟨sound, hsound⟩, hspec⟩
    exact ⟨sound, hsound, hspec _ (specOf_of_read hsound)⟩

/-- The built-in sound is played. -/
theorem read_builtIn (hmatch : host.FilesMatch) :
    ∃ sound, host.read .wav host.getDefaultSfx = .ok sound ∧ sound.2.Supported := by
  obtain ⟨reader, hreader, hspec⟩ := hmatch.builtIn
  refine (@read_supported_iff _ hmatch _ .wav (Option.isSome_of_mem hreader)).mpr ⟨?_, ?_⟩
  · rintro reader' - hreader' ⟨-, hwide, -⟩
    cases hreader.symm.trans hreader'
    rw [hspec] at hwide
    exact absurd hwide (by decide)
  · intro spec hspec'
    have hheader : host.specOf host.fallbackSfx .wav =
        some ⟨reader.spec.channels.toUInt32, reader.spec.sampleRate⟩ :=
      congrArg (Option.map _) hreader
    rw [hspec] at hheader
    cases hheader.symm.trans hspec'
    exact ⟨Or.inr rfl, by decide⟩

theorem inFormat_builtIn (hmatch : host.FilesMatch) :
    host.InFormat host.getDefaultSfx .wav := by
  obtain ⟨reader, hreader, -⟩ := hmatch.builtIn
  exact Option.isSome_of_mem hreader

theorem fileLoads_of_builtIn (hmatch : host.FilesMatch) {file : Option String}
    (hdecoded : host.decoded file = .ok (host.getDefaultSfx, .wav)) :
    host.FileLoads file numChannels := by
  obtain ⟨sound, hsound, hsupported⟩ := read_builtIn hmatch
  refine ⟨fun data kind h => ?_, fun _ _ _ => hdecoded, ?_⟩
  · cases hdecoded.symm.trans h
    exact inFormat_builtIn hmatch
  · exact (host.samplesOf_returns_iff file numChannels).mpr
      ⟨_, _, sound, hdecoded, hsound, hsupported⟩

/-- A file that is there loads if it can be read, and its sound can be played. -/
theorem fileLoads_existing_iff {path : String} {data : Bytes} {kind : AudioFileKind}
    (hopen : host.openFile path = some (.ok data))
    (hdecoded : host.decoded (some path) = .ok (data, kind)) (hformat : host.InFormat data kind) :
    host.FileLoads (some path) numChannels ↔
      ∃ sound, host.read kind data = .ok sound ∧ sound.2.Supported := by
  constructor
  · intro h
    obtain ⟨data', kind', sound, hdecoded', hsound, hsupported⟩ :=
      (host.samplesOf_returns_iff _ _).mp h.returns
    cases hdecoded.symm.trans hdecoded'
    exact ⟨sound, hsound, hsupported⟩
  · rintro ⟨sound, hsound, hsupported⟩
    refine ⟨fun data' kind' h => ?_, fun path' hpath hopen' => ?_, ?_⟩
    · cases hdecoded.symm.trans h
      exact hformat
    · cases hpath
      cases hopen.symm.trans hopen'
    · exact (host.samplesOf_returns_iff _ _).mpr ⟨data, kind, sound, hdecoded, hsound, hsupported⟩

theorem decoded_eq {path : String} {kind : AudioFileKind} (hkind : kindOf path = some kind) :
    host.decoded (some path) = host.getSfx path >>= fun data =>
      .ok (if kind = .ogg ∧ host.oggFeature = false then (host.getDefaultSfx, .wav)
        else (data, kind)) := by
  rw [kindOf] at hkind
  simp only [decoded, dataOf, Option.bind_some, hkind, Option.map_some]
  cases host.getSfx path with
  | error fault => rfl
  | ok data =>
      cases kind with
      | wav => rfl
      | ogg => cases h : host.oggFeature <;> simp [pure, Except.pure]

/-- An ogg that is not read as one loads whatever it is. -/
theorem fileLoads_of_oggFeature_eq_false (hmatch : host.FilesMatch) {path : String}
    (hkind : kindOf path = some .ogg) (hfeature : host.oggFeature = false) :
    host.FileLoads (some path) numChannels := by
  refine fileLoads_of_builtIn hmatch ?_
  rw [decoded_eq hkind, getSfx]
  cases hopen : host.openFile path with
  | none => simp [hfeature]
  | some contents =>
      obtain ⟨data, rfl, -⟩ := hmatch.files path .ogg contents hkind hopen
      simp [hfeature]

/-- A missing file loads if it would be read as a wav. -/
theorem fileLoads_missing_iff (hmatch : host.FilesMatch) {path : String} {kind : AudioFileKind}
    (hkind : kindOf path = some kind) (hread : ¬ (kind = .ogg ∧ host.oggFeature = false))
    (hopen : host.openFile path = none) :
    host.FileLoads (some path) numChannels ↔ kind = .wav := by
  have hdecoded : host.decoded (some path) = .ok (host.getDefaultSfx, kind) := by
    rw [decoded_eq hkind, getSfx, hopen]
    simp [hread]
  constructor
  · intro h
    cases kind with
    | wav => rfl
    | ogg =>
        have hformat := h.matched host.getDefaultSfx .ogg hdecoded
        exact absurd hformat (hmatch.apart _ (inFormat_builtIn hmatch))
  · rintro rfl
    exact fileLoads_of_builtIn hmatch hdecoded

theorem fileLoads_some_iff (hmatch : host.FilesMatch) (path : String) :
    host.FileLoads (some path) numChannels ↔
      ¬ host.OggMissing path ∧ ¬ host.TooWide path ∧ ¬ host.Unsupported path := by
  cases hkind : kindOf path with
  | none =>
      have hdecoded : host.decoded (some path) = .ok (host.getDefaultSfx, .wav) := by
        rw [kindOf] at hkind
        simp [decoded, dataOf, hkind, pure, Except.pure]
      refine iff_of_true (fileLoads_of_builtIn hmatch hdecoded) ?_
      simp [OggMissing, TooWide, Unsupported, hkind]
  | some kind =>
      by_cases hread : kind = .ogg ∧ host.oggFeature = false
      · obtain ⟨rfl, hfeature⟩ := hread
        refine iff_of_true (fileLoads_of_oggFeature_eq_false hmatch hkind hfeature) ?_
        simp [OggMissing, TooWide, Unsupported, hkind, hfeature]
      · cases hopen : host.openFile path with
        | none =>
            rw [fileLoads_missing_iff hmatch hkind hread hopen]
            cases kind with
            | wav => simp [OggMissing, TooWide, Unsupported, hkind, hopen]
            | ogg =>
                have hfeature : host.oggFeature = true := by simpa using hread
                simp [OggMissing, hkind, hopen, hfeature]
        | some contents =>
            obtain ⟨data, rfl, hformat⟩ := hmatch.files path kind contents hkind hopen
            have hdecoded : host.decoded (some path) = .ok (data, kind) := by
              rw [decoded_eq hkind, getSfx, hopen]
              simp [hread]
            have hfeature : kind = .ogg → host.oggFeature = true := by
              intro h
              simpa [h] using hread
            rw [fileLoads_existing_iff hopen hdecoded hformat, read_supported_iff hmatch hformat]
            have hmissing : ¬ host.OggMissing path := by simp [OggMissing, hopen]
            rw [and_iff_right hmissing]
            refine and_congr ⟨?_, ?_⟩ ⟨?_, ?_⟩
            · rintro h ⟨data', reader, hkind', hopen', hreader, hwide⟩
              cases hkind.symm.trans hkind'
              cases hopen.symm.trans hopen'
              exact h reader rfl hreader hwide
            · rintro h reader rfl hreader hwide
              exact h ⟨data, reader, hkind, hopen, hreader, hwide⟩
            · rintro h ⟨kind', data', spec, hkind', -, hopen', hspec, hnot⟩
              cases hkind.symm.trans hkind'
              cases hopen.symm.trans hopen'
              exact hnot (h spec hspec)
            · intro h spec hspec
              by_contra hnot
              exact h ⟨kind, data, spec, hkind, hfeature, hopen, hspec, hnot⟩

end Matching

end SoundHost

/-- A stereo wav with one frame of silence, of 16 bits a sample. -/
def shortWav : Bytes :=
  [0x52, 0x49, 0x46, 0x46, 40, 0, 0, 0, 0x57, 0x41, 0x56, 0x45, 0x66, 0x6d, 0x74, 0x20, 16, 0, 0, 0,
    1, 0, 2, 0, 0x44, 0xac, 0, 0, 0x10, 0xb1, 2, 0, 4, 0, 16, 0, 0x64, 0x61, 0x74, 0x61, 4, 0, 0, 0,
    0, 0, 0, 0]

/-- A stereo wav with one frame, of 24 bits a sample. -/
def wideWav : Bytes :=
  [0x52, 0x49, 0x46, 0x46, 42, 0, 0, 0, 0x57, 0x41, 0x56, 0x45, 0x66, 0x6d, 0x74, 0x20, 16, 0, 0, 0,
    1, 0, 2, 0, 0x44, 0xac, 0, 0, 0x98, 0x09, 4, 0, 6, 0, 24, 0, 0x64, 0x61, 0x74, 0x61, 6, 0, 0, 0,
    0, 0, 0, 0, 0, 0]

/-- A host with two files, which are called wav and are. -/
def SoundHost.twoWavs : SoundHost where
  openFile := fun path =>
    if path = "moo.wav" then some (.ok shortWav)
    else if path = "wide.wav" then some (.ok wideWav) else none
  fallbackSfx := shortWav
  oggFeature := true
  newOggReader := fun _ => none
  newWavReader := fun data =>
    if data = shortWav then some ⟨⟨2, 44100, 16, .int⟩, [none, none], [some 0, some 0]⟩
    else if data = wideWav then some ⟨⟨2, 44100, 24, .int⟩, [none, none], [none, none]⟩ else none
  -- silence stays silence, and a frame at 44100 Hz is two at 48000 Hz
  toF32 := fun _ => F32.zero
  resample := fun _ _ => [(F32.zero, F32.zero), (F32.zero, F32.zero)]

namespace SoundHost

theorem filesMatch_twoWavs : twoWavs.FilesMatch where
  files path kind contents hkind hopen := by
    have hpath : path = "moo.wav" ∨ path = "wide.wav" := by
      by_contra h
      obtain ⟨hmoo, hwide⟩ := not_or.mp h
      simp [twoWavs, hmoo, hwide] at hopen
    rcases hpath with rfl | rfl
    · cases hkind
      cases hopen
      exact ⟨shortWav, rfl, rfl⟩
    · cases hkind
      cases hopen
      exact ⟨wideWav, rfl, rfl⟩
  lawful data reader hreader := by
    have hwavs : (if data = shortWav then
        some ⟨⟨2, 44100, 16, .int⟩, [none, none], [some 0, some 0]⟩
      else if data = wideWav then some ⟨⟨2, 44100, 24, .int⟩, [none, none], [none, none]⟩
      else none) = some reader := hreader
    split at hwavs
    · cases hwavs
      exact ⟨by simp, by simp⟩
    · split at hwavs
      · cases hwavs
        exact ⟨by simp, by simp⟩
      · cases hwavs
  apart data _ h := by cases h
  builtIn := ⟨_, rfl, rfl⟩

/-- A file that is there, with integers of 24 bits. -/
example : ¬ twoWavs.Loads [⟨"mute", "wide.wav"⟩] 2 := fun h => absurd h.returns (by decide)

end SoundHost

end Mum
