import Mum.Audio.SoundFiles
import Mum.Library.Transition
import Mum.State.HandleCommand

/-!
# Reloading the configuration

`State::new` and `ConfigReload` read the same file, but treat a key that is not
there differently.  A daemon that starts takes the default, a daemon that runs
keeps what it has: the value of an earlier file, or of a command.  So a reload
ends where a fresh start does only if everything that the file does not set has
its default already.

The tables of sound effects are computed on both sides, which may panic, and at
different times, with other files on the disk.  What they share is the built-in
sound and the number of output channels, which no command changes
(`numChannels_handleCommand`).

`Reloaded` says what both a reload and a start leave, by the settings that the file has and
those that it does not have.  Two results are then compared setting by setting
(`Reloaded.audioSettings_eq_iff`), which is where the condition comes from.
-/

namespace Mum

open Library Library.Eval
open Mumlib (AudioConfig Command Config)

/-- Two settings from one optional key are the same if the key is set, or if they
were the same without it. -/
theorem getD_eq_getD_iff {α : Type} {key : Option α} {a b : α} :
    key.getD a = key.getD b ↔ (key = none → a = b) := by
  cases key with
  | none => simp
  | some value => simp

/-! ## The table of sound effects -/

namespace SoundHost

variable {host : SoundHost}

/-- The table holds for every event the samples of the file that overrides it. -/
theorem lookup_loadSoundEffects {overrides : List Mumlib.SoundEffect} {numChannels : ℕ}
    {sounds : HashMap NotificationEvents (List F32)}
    (h : host.loadSoundEffects overrides numChannels = .ok sounds) (event : NotificationEvents) :
    ∃ samples, host.samplesOf (overrideFor overrides event) numChannels = .ok samples ∧
      sounds.lookup event = some samples := by
  have hfold : ∀ (events : List NotificationEvents)
      (start : HashMap NotificationEvents (List F32)),
      events.foldlM (fun sounds event => do
        let samples ← host.samplesOf ((overridesOf overrides).lookup event) numChannels
        return sounds.insert event samples) start = .ok sounds →
      (event ∉ events → sounds.lookup event = start.lookup event) ∧
      (event ∈ events → ∃ samples,
        host.samplesOf (overrideFor overrides event) numChannels = .ok samples ∧
          sounds.lookup event = some samples) := by
    intro events
    induction events with
    | nil =>
        intro start h
        cases h
        exact ⟨fun _ => rfl, fun h => absurd h List.not_mem_nil⟩
    | cons first rest ih =>
        intro start h
        obtain ⟨next, hnext, h⟩ := bind_eq_ok.mp h
        obtain ⟨samples, hsamples, hnext⟩ := bind_eq_ok.mp hnext
        cases hnext
        obtain ⟨hkeep, hload⟩ := ih _ h
        rw [lookup_overridesOf] at hsamples
        refine ⟨fun hnot => ?_, fun hmem => ?_⟩
        · rw [List.mem_cons, not_or] at hnot
          exact (hkeep hnot.2).trans (AList.lookup_insert_ne hnot.1)
        · by_cases hrest : event ∈ rest
          · exact hload hrest
          · obtain rfl : event = first := (List.mem_cons.mp hmem).resolve_right hrest
            exact ⟨samples, hsamples, (hkeep hrest).trans (AList.lookup_insert _)⟩
  exact (hfold _ ∅ h).2 (NotificationEvents.mem_iter event)

end SoundHost

namespace AudioOutput

theorem loadSoundEffects_eq_ok {host : SoundHost} {output output' : AudioOutput F32}
    {overrides : List Mumlib.SoundEffect}
    (h : output.loadSoundEffects host overrides = .ok output') :
    host.loadSoundEffects overrides output.numChannels = .ok output'.sounds ∧
      output'.volume = output.volume ∧ output'.numChannels = output.numChannels := by
  unfold loadSoundEffects at h
  split at h
  · cases h
  next hsounds =>
    cases h
    exact ⟨hsounds, rfl, rfl⟩

theorem loadSoundEffects_returns_iff {host : SoundHost} {output : AudioOutput F32}
    {overrides : List Mumlib.SoundEffect} :
    Returns (output.loadSoundEffects host overrides) ↔
      Returns (host.loadSoundEffects overrides output.numChannels) := by
  constructor
  · rintro ⟨output', h⟩
    exact ⟨_, (loadSoundEffects_eq_ok h).1⟩
  · rintro ⟨sounds, h⟩
    unfold loadSoundEffects
    split
    next herror =>
      rw [h] at herror
      cases herror
    · exact returns_ok _

theorem new_eq_ok {host : SoundHost} {outputVolume : F32} {output : AudioOutput F32}
    (h : AudioOutput.new host outputVolume = .ok output) :
    host.loadSoundEffects [] 2 = .ok output.sounds ∧ output.volume = outputVolume ∧
      output.numChannels = 2 := by
  obtain ⟨clientStreams, -, h⟩ := bind_eq_ok.mp h
  split at h
  · cases h
  next hsounds =>
    cases h
    exact ⟨hsounds, rfl, rfl⟩

theorem new_returns {host : SoundHost} (h : Returns (host.loadSoundEffects [] 2))
    (outputVolume : F32) : Returns (AudioOutput.new host outputVolume) := by
  obtain ⟨sounds, h⟩ := h
  unfold AudioOutput.new
  have hstream : ∃ clientStreams, ClientStream.new (V := F32) sampleRate 2 = .ok clientStreams :=
    ⟨_, rfl⟩
  obtain ⟨clientStreams, hstream⟩ := hstream
  rw [hstream, ok_bind]
  split
  next herror =>
    rw [h] at herror
    cases herror
  · exact returns_ok _

end AudioOutput

/-! ## What a reload and a start come to -/

/-- The settings that the configuration file has keys for. -/
structure AudioSettings where
  inputVolume : F32
  outputVolume : F32
  sounds : NotificationEvents → Option (List F32)

namespace State

variable {host : Host} {config : Config} {state state' : State}

def audioSettings (state : State) : AudioSettings where
  inputVolume := state.audioInput.volume
  outputVolume := state.audioOutput.volume
  sounds := fun event => state.audioOutput.sounds.lookup event

/-- What a reload of a file that parses leaves. -/
structure Reloaded (host : Host) (config : Config) (state state' : State) : Prop where
  inputVolume : state'.audioInput.volume =
    (config.audio.bind AudioConfig.inputVolume).getD state.audioInput.volume
  outputVolume : state'.audioOutput.volume =
    (config.audio.bind AudioConfig.outputVolume).getD state.audioOutput.volume
  numChannels : state'.audioOutput.numChannels = state.audioOutput.numChannels
  kept : config.audio.bind AudioConfig.soundEffects = none →
    state'.audioOutput.sounds = state.audioOutput.sounds
  loaded : ∀ soundEffects, config.audio.bind AudioConfig.soundEffects = some soundEffects →
    host.sounds.loadSoundEffects soundEffects state.audioOutput.numChannels =
      .ok state'.audioOutput.sounds

/-- Setting the volumes leaves everything else as it is. -/
theorem applyVolumes_spec (state : State) :
    state.applyVolumes.config = state.config ∧
      state.applyVolumes.audioInput.volume =
        (state.config.audio.bind AudioConfig.inputVolume).getD state.audioInput.volume ∧
      state.applyVolumes.audioOutput = state.audioOutput.setVolume
        ((state.config.audio.bind AudioConfig.outputVolume).getD state.audioOutput.volume) := by
  unfold applyVolumes
  cases state.config.audio.bind AudioConfig.inputVolume with
  | none =>
      cases houtput : state.config.audio.bind AudioConfig.outputVolume with
      | none => simp [houtput, AudioOutput.setVolume]
      | some volume => simp [houtput]
  | some volume =>
      cases houtput : state.config.audio.bind AudioConfig.outputVolume with
      | none => simp [houtput, AudioOutput.setVolume, AudioInput.setVolume]
      | some volume => simp [houtput, AudioInput.setVolume]

theorem readConfig_eq (hconfig : Mumlib.readCfg host.fromStr host.configFile = some config) :
    state.readConfig host = { state with config := config } := by
  unfold readConfig
  rw [hconfig]

theorem reloaded_of_reloadConfig
    (hconfig : Mumlib.readCfg host.fromStr host.configFile = some config)
    (h : state.reloadConfig host = .ok state') : Reloaded host config state state' := by
  unfold reloadConfig at h
  rw [readConfig_eq hconfig] at h
  obtain ⟨hsame, hinput, houtput⟩ := applyVolumes_spec { state with config := config }
  dsimp only at h hsame hinput houtput
  rw [hsame] at h
  cases heffects : config.audio.bind AudioConfig.soundEffects with
  | none =>
      rw [heffects] at h
      cases h
      exact ⟨hinput, by rw [houtput]; rfl, by rw [houtput]; rfl, fun _ => by rw [houtput]; rfl,
        fun soundEffects hsome => by rw [heffects] at hsome; cases hsome⟩
  | some soundEffects =>
      rw [heffects] at h
      obtain ⟨audioOutput, hload, h⟩ := bind_eq_ok.mp h
      cases h
      obtain ⟨hsounds, hvolume, hchannels⟩ := AudioOutput.loadSoundEffects_eq_ok hload
      rw [houtput] at hsounds hvolume hchannels
      refine ⟨hinput, hvolume, hchannels, fun hnone => ?_, fun soundEffects' hsome => ?_⟩
      · rw [heffects] at hnone
        cases hnone
      · rw [heffects] at hsome
        cases hsome
        exact hsounds

theorem reloadConfig_returns_iff
    (hconfig : Mumlib.readCfg host.fromStr host.configFile = some config) :
    Returns (state.reloadConfig host) ↔
      ∀ soundEffects, config.audio.bind AudioConfig.soundEffects = some soundEffects →
        Returns (host.sounds.loadSoundEffects soundEffects state.audioOutput.numChannels) := by
  constructor
  · rintro ⟨state', h⟩ soundEffects heffects
    exact ⟨_, (reloaded_of_reloadConfig hconfig h).loaded soundEffects heffects⟩
  · intro h
    unfold reloadConfig
    rw [readConfig_eq hconfig]
    obtain ⟨hsame, -, houtput⟩ := applyVolumes_spec { state with config := config }
    dsimp only at hsame houtput ⊢
    rw [hsame]
    cases heffects : config.audio.bind AudioConfig.soundEffects with
    | none => exact returns_ok _
    | some soundEffects =>
        rw [houtput]
        refine (returns_bind_iff fun audioOutput _ => returns_ok _).mpr ?_
        exact AudioOutput.loadSoundEffects_returns_iff.mpr (h soundEffects heffects)

/-- A start is a reload of the file from the defaults. -/
theorem reloaded_of_new (hconfig : Mumlib.readCfg host.fromStr host.configFile = some config)
    {fresh : State} (h : State.new host = .ok (some fresh)) :
    ∃ blank, Reloaded host config blank fresh ∧
      blank.audioInput.volume = (config.audio.bind AudioConfig.inputVolume).getD F32.one ∧
      blank.audioOutput.volume = (config.audio.bind AudioConfig.outputVolume).getD F32.one ∧
      host.sounds.loadSoundEffects [] 2 = .ok blank.audioOutput.sounds ∧
      blank.audioOutput.numChannels = 2 := by
  rw [State.new, hconfig] at h
  obtain ⟨audioOutput, haudio, h⟩ := bind_eq_ok.mp h
  obtain ⟨state, hreload, h⟩ := bind_eq_ok.mp h
  cases h
  obtain ⟨hsounds, hvolume, hchannels⟩ := AudioOutput.new_eq_ok haudio
  exact ⟨_, reloaded_of_reloadConfig hconfig hreload, rfl, hvolume, hsounds, hchannels⟩

theorem new_returns (hconfig : Mumlib.readCfg host.fromStr host.configFile = some config)
    (hdefault : Returns (host.sounds.loadSoundEffects [] 2))
    (heffects : ∀ soundEffects,
      config.audio.bind AudioConfig.soundEffects = some soundEffects →
        Returns (host.sounds.loadSoundEffects soundEffects 2)) :
    ∃ fresh, State.new host = .ok (some fresh) := by
  rw [State.new, hconfig]
  obtain ⟨audioOutput, haudio⟩ := AudioOutput.new_returns hdefault
    ((config.audio.bind AudioConfig.outputVolume).getD F32.one)
  obtain ⟨-, -, hchannels⟩ := AudioOutput.new_eq_ok haudio
  let blank : State := {
    config := config
    server := .disconnected
    audioInput := ⟨(config.audio.bind AudioConfig.inputVolume).getD F32.one⟩
    audioOutput := audioOutput
    messageBuffer := []
    phaseWatcher := .new .disconnected
    events := [] }
  obtain ⟨fresh, hfresh⟩ : ∃ fresh, blank.reloadConfig host = .ok fresh := by
    refine (reloadConfig_returns_iff hconfig).mpr fun soundEffects h => ?_
    rw [show blank.audioOutput.numChannels = 2 from hchannels]
    exact heffects soundEffects h
  refine ⟨fresh, ?_⟩
  simp only [haudio, ok_bind]
  exact bind_eq_ok.mpr ⟨fresh, hfresh, rfl⟩

/-- Two daemons that read the same file end with the same settings if what the
file does not set was the same before. -/
theorem Reloaded.audioSettings_eq_iff {other other' : State}
    (h : Reloaded host config state state') (hother : Reloaded host config other other')
    (hchannels : state.audioOutput.numChannels = other.audioOutput.numChannels) :
    state'.audioSettings = other'.audioSettings ↔
      (config.audio.bind AudioConfig.inputVolume = none →
        state.audioInput.volume = other.audioInput.volume) ∧
      (config.audio.bind AudioConfig.outputVolume = none →
        state.audioOutput.volume = other.audioOutput.volume) ∧
      (config.audio.bind AudioConfig.soundEffects = none → ∀ event,
        state.audioOutput.sounds.lookup event = other.audioOutput.sounds.lookup event) := by
  have hsounds : (∀ event, state'.audioOutput.sounds.lookup event =
        other'.audioOutput.sounds.lookup event) ↔
      (config.audio.bind AudioConfig.soundEffects = none → ∀ event,
        state.audioOutput.sounds.lookup event = other.audioOutput.sounds.lookup event) := by
    cases heffects : config.audio.bind AudioConfig.soundEffects with
    | none => simp [h.kept heffects, hother.kept heffects]
    | some soundEffects =>
        have hload := h.loaded soundEffects heffects
        rw [hchannels, hother.loaded soundEffects heffects] at hload
        simp [Except.ok.inj hload]
  rw [← getD_eq_getD_iff, ← getD_eq_getD_iff, ← hsounds, ← h.inputVolume, ← hother.inputVolume,
    ← h.outputVolume, ← hother.outputVolume]
  simp only [audioSettings, AudioSettings.mk.injEq, funext_iff]

/-! ## Every daemon plays in stereo -/

theorem numChannels_playEffect {effect : NotificationEvents}
    (h : state.playEffect effect = .ok state') :
    state'.audioOutput.numChannels = state.audioOutput.numChannels := by
  obtain ⟨audioOutput, hplay, h⟩ := bind_eq_ok.mp h
  cases h
  obtain ⟨samples, -, hplay⟩ := bind_eq_ok.mp hplay
  cases hplay
  rfl

theorem numChannels_reloadConfig (h : state.reloadConfig host = .ok state') :
    state'.audioOutput.numChannels = state.audioOutput.numChannels := by
  cases hconfig : Mumlib.readCfg host.fromStr host.configFile with
  | some config => exact (reloaded_of_reloadConfig hconfig h).numChannels
  | none =>
      -- the configuration of the last file that parsed is applied again
      let again : Host := { host with
        configFile := some ""
        fromStr := fun _ => some state.config }
      have hread : Mumlib.readCfg again.fromStr again.configFile = some state.config := rfl
      have hagain : state.reloadConfig again = .ok state' := by
        rw [← h]
        unfold reloadConfig
        rw [readConfig_eq hread, readConfig, hconfig]
      exact (reloaded_of_reloadConfig hread hagain).numChannels

end State

theorem numChannels_handleCommand {host : Host} {state : State} {command : Command}
    {outcome : Outcome} (h : handleCommand host state command = .ok outcome) :
    outcome.state.audioOutput.numChannels = state.audioOutput.numChannels := by
  cases handleCommand_eq_ok h with
  | answer | send | events | inputVolumeSet | outputVolumeSet | subscribe | pastMessages
  | serverStatus => rfl
  | configReload hreload => exact State.numChannels_reloadConfig hreload
  | updateSelf hserver hupdate =>
      unfold State.updateSelf at hupdate
      split at hupdate
      · cases hupdate
        rfl
      · obtain ⟨state', heffect, hupdate⟩ := bind_eq_ok.mp hupdate
        cases hupdate
        dsimp only
        cases heq : State.selfEffect _ _ _ with
        | none =>
            rw [heq] at heffect
            cases heffect
            rfl
        | some effect =>
            rw [heq] at heffect
            exact State.numChannels_playEffect heffect
  | muteOther hserver username toggle =>
      unfold State.muteOther
      split
      · rfl
      · dsimp only
        split
        · rfl
        · rfl
  | serverConnect hserver =>
      unfold State.serverConnect
      split
      · rfl
      · rfl
  | serverDisconnect hserver hdisconnect =>
      obtain ⟨state', hplay, hdisconnect⟩ := bind_eq_ok.mp hdisconnect
      cases hdisconnect
      have hsame := State.numChannels_playEffect hplay
      exact hsame
  | userVolumeSet hserver username volume =>
      unfold State.userVolumeSet
      split
      · rfl
      · rfl

/-! ## Histories -/

/-- The program is the same, with its built-in sound and its readers; the files
may have changed. -/
def SameProgram (program host : Host) : Prop :=
  host.sounds = { program.sounds with openFile := host.sounds.openFile }

/-- A command that a daemon handles, on a machine that is in a state of its own at
every step. -/
def CommandStep (program : Host) (state : State) (label : Host × Command) (state' : State) :
    Prop :=
  SameProgram program label.1 ∧
    ∃ outcome, handleCommand label.1 state label.2 = .ok outcome ∧ outcome.state = state'

/-- A `ConfigReload` of a file that parses leaves the settings that a daemon has
when it starts with this file. -/
def ReloadsAsNew (label : Host × Command) (state' : State) : Prop :=
  label.2 = .configReload → (Mumlib.readCfg label.1.fromStr label.1.configFile).isSome →
    ∃ fresh, State.new label.1 = .ok (some fresh) ∧ state'.audioSettings = fresh.audioSettings

/-- What the file does not set has its default: the volumes are 1, and every event
has the built-in sound. -/
structure DefaultsRest (host : Host) (config : Config) (state : State) : Prop where
  inputVolume : config.audio.bind AudioConfig.inputVolume = none →
    state.audioInput.volume = F32.one
  outputVolume : config.audio.bind AudioConfig.outputVolume = none →
    state.audioOutput.volume = F32.one
  sounds : config.audio.bind AudioConfig.soundEffects = none → ∀ event samples,
    state.audioOutput.sounds.lookup event = some samples →
      host.sounds.samplesOf none 2 = .ok samples

/-- So it is before every `ConfigReload` of a file that parses. -/
def ReloadsOverDefaults (state : State) (label : Host × Command) : Prop :=
  label.2 = .configReload → ∀ config,
    Mumlib.readCfg label.1.fromStr label.1.configFile = some config →
      DefaultsRest label.1 config state

section Step

variable {program host : Host} {config : Config} {state state' fresh : State}
  {label : Host × Command}

/-- The built-in sound is decoded without a look at the files. -/
theorem SameProgram.loadSoundEffects_nil (h : SameProgram program host) (numChannels : ℕ) :
    host.sounds.loadSoundEffects [] numChannels =
      program.sounds.loadSoundEffects [] numChannels := by
  rw [h]
  rfl

/-- A table that agrees with that of no overrides has the built-in sound for every
event. -/
theorem lookup_builtIn_iff {sounds : HashMap NotificationEvents (List F32)}
    (hsounds : host.sounds.loadSoundEffects [] 2 = .ok sounds) :
    (∀ event, state.audioOutput.sounds.lookup event = sounds.lookup event) ↔
      ∀ event samples, state.audioOutput.sounds.lookup event = some samples →
        host.sounds.samplesOf none 2 = .ok samples := by
  refine forall_congr' fun event => ?_
  obtain ⟨builtIn, hbuiltIn, hlookup⟩ := SoundHost.lookup_loadSoundEffects hsounds event
  have hbuiltIn : host.sounds.samplesOf none 2 = .ok builtIn := hbuiltIn
  constructor
  · intro hsame samples hsamples
    rw [hsame, hlookup] at hsamples
    rw [hbuiltIn, Option.some.inj hsamples]
  · intro hall
    obtain ⟨samples, hsamples⟩ := HashMap.mem_iff_lookup.mp (state.audioOutput.complete event)
    have hsame := hall samples hsamples
    rw [hbuiltIn] at hsame
    rw [hsamples, hlookup, Except.ok.inj hsame]

/-- A reload ends where the start of a daemon ends if the rest has its defaults. -/
theorem audioSettings_eq_new_iff
    (hconfig : Mumlib.readCfg host.fromStr host.configFile = some config)
    (hchannels : state.audioOutput.numChannels = 2) (hreload : state.reloadConfig host = .ok state')
    (hnew : State.new host = .ok (some fresh)) :
    state'.audioSettings = fresh.audioSettings ↔ DefaultsRest host config state := by
  obtain ⟨blank, hblank, hinput, houtput, hsounds, hstereo⟩ := State.reloaded_of_new hconfig hnew
  have hreloaded := State.reloaded_of_reloadConfig hconfig hreload
  have hvolume : ∀ {key : Option F32} {volume : F32},
      (key = none → volume = key.getD F32.one) ↔ (key = none → volume = F32.one) := by
    intro key volume
    refine forall_congr' fun hnone => ?_
    rw [hnone, Option.getD_none]
  rw [hreloaded.audioSettings_eq_iff hblank (hchannels.trans hstereo.symm), hinput, houtput,
    hvolume, hvolume, lookup_builtIn_iff hsounds]
  exact ⟨fun h => ⟨h.1, h.2.1, h.2.2⟩, fun h => ⟨h.inputVolume, h.outputVolume, h.sounds⟩⟩

/-- A daemon that reloads a file could also start with it. -/
theorem new_of_reloadConfig (hdefault : Returns (host.sounds.loadSoundEffects [] 2))
    (hconfig : Mumlib.readCfg host.fromStr host.configFile = some config)
    (hchannels : state.audioOutput.numChannels = 2)
    (hreload : state.reloadConfig host = .ok state') :
    ∃ fresh, State.new host = .ok (some fresh) := by
  refine State.new_returns hconfig hdefault fun soundEffects heffects => ?_
  rw [← hchannels]
  exact (State.reloadConfig_returns_iff hconfig).mp ⟨state', hreload⟩ soundEffects heffects

theorem reloadsAsNew_step_iff (hdefault : Returns (program.sounds.loadSoundEffects [] 2))
    (hchannels : state.audioOutput.numChannels = 2)
    (hstep : CommandStep program state label state') :
    ReloadsAsNew label state' ↔ ReloadsOverDefaults state label := by
  obtain ⟨host, command⟩ := label
  obtain ⟨hsame, outcome, houtcome, rfl⟩ := hstep
  refine forall_congr' fun hcommand => ?_
  dsimp only at hsame houtcome hcommand ⊢
  rw [hcommand] at houtcome
  obtain ⟨state', hreload, houtcome⟩ := bind_eq_ok.mp houtcome
  cases houtcome
  cases hconfig : Mumlib.readCfg host.fromStr host.configFile with
  | none => simp
  | some config =>
      rw [← hsame.loadSoundEffects_nil] at hdefault
      obtain ⟨fresh, hfresh⟩ := new_of_reloadConfig hdefault hconfig hchannels hreload
      have hiff := audioSettings_eq_new_iff hconfig hchannels hreload hfresh
      constructor
      · intro h config' hconfig'
        obtain ⟨fresh', hfresh', hsettings⟩ := h rfl
        cases hfresh.symm.trans hfresh'
        cases hconfig'
        exact hiff.mp hsettings
      · intro h _
        exact ⟨fresh, hfresh, hiff.mpr (h config rfl)⟩

end Step

/-- **Reloading the configuration.**  In every history of a daemon, the reloads of
files that parse end with the settings of a daemon that starts with the same file
if and only if everything that the file does not set has its default at every one
of them. -/
theorem reloadsAsNew_iff {program : Host} {state : State}
    {trace : List ((Host × Command) × State)} (hnew : State.new program = .ok (some state))
    (hrun : Run (CommandStep program) state trace) :
    AllSteps (fun _ label state' => ReloadsAsNew label state') state trace ↔
      AllSteps (fun state label _ => ReloadsOverDefaults state label) state trace := by
  obtain ⟨config, hconfig⟩ : ∃ config,
      Mumlib.readCfg program.fromStr program.configFile = some config := by
    cases hconfig : Mumlib.readCfg program.fromStr program.configFile with
    | none =>
        rw [State.new, hconfig] at hnew
        cases hnew
    | some config => exact ⟨config, rfl⟩
  obtain ⟨blank, hblank, -, -, hsounds, hstereo⟩ := State.reloaded_of_new hconfig hnew
  refine hrun.allSteps_iff (fun state => state.audioOutput.numChannels = 2)
    (hblank.numChannels.trans hstereo) ?_ ?_
  · intro state label state' hchannels hstep
    exact reloadsAsNew_step_iff ⟨_, hsounds⟩ hchannels hstep
  · rintro state label state' hchannels ⟨-, outcome, houtcome, rfl⟩ -
    exact (numChannels_handleCommand houtcome).trans hchannels

/-- A machine with a configuration file; what is not empty sets the output volume
to one half. -/
def Host.configured (file : String) : Host := { Host.offline with
  configFile := some file
  fromStr := fun text =>
    some (if text = "" then {} else { audio := some { outputVolume := some ⟨0x3f000000⟩ } }) }

/-- The output volume is changed, and the file that sets it is read again. -/
theorem reloadsAsNew_volumeSet :
    ∃ state state₁ state₂, State.new (.configured "output_volume") = .ok (some state) ∧
      Run (CommandStep (.configured "output_volume")) state
        [((.configured "output_volume", .outputVolumeSet F32.zero), state₁),
          ((.configured "output_volume", .configReload), state₂)] ∧
      AllSteps (fun _ label state' => ReloadsAsNew label state') state
        [((.configured "output_volume", .outputVolumeSet F32.zero), state₁),
          ((.configured "output_volume", .configReload), state₂)] := by
  refine ⟨_, _, _, rfl, .cons ⟨rfl, _, rfl, rfl⟩ (.cons ⟨rfl, _, rfl, rfl⟩ .nil), ?_⟩
  refine Iff.mpr (@reloadsAsNew_iff (.configured "output_volume") _ _ rfl
    (.cons ⟨rfl, _, rfl, rfl⟩ (.cons ⟨rfl, _, rfl, rfl⟩ .nil))) ⟨?_, ?_, trivial⟩
  · intro hcommand
    cases hcommand
  · intro _ config hconfig
    cases hconfig
    refine ⟨fun _ => rfl, fun hnone => ?_, fun _ event samples hsamples => ?_⟩
    · cases hnone
    · cases event <;> cases hsamples <;> rfl

/-- The output volume is taken out of the file. -/
theorem not_reloadsAsNew_keyRemoved :
    ∃ state state', State.new (.configured "output_volume") = .ok (some state) ∧
      Run (CommandStep (.configured "output_volume")) state
        [((.configured "", .configReload), state')] ∧
      ¬ AllSteps (fun _ label state' => ReloadsAsNew label state') state
        [((.configured "", .configReload), state')] := by
  refine ⟨_, _, rfl, .cons ⟨rfl, _, rfl, rfl⟩ .nil, fun h => ?_⟩
  obtain ⟨fresh, hfresh, hsettings⟩ := h.1 rfl rfl
  cases hfresh
  exact absurd (congrArg AudioSettings.outputVolume hsettings) (by decide)

end Mum
