import Mum.Ctl.Edits
import Mum.Library.FirstMatch

/-!
# The settings that a file says

What a document says: its `Config`, and the keys that `Config` does not know.  A
command sets one of the settings (`Command.apply`), and what is read from the
document that it writes is the setting of what was read before
(`EditCase.reads`).

What it writes need not be readable: a port is written as an `i64` and read as a
`u16`.

The edits write tables, so there is a lemma for what is read from an edited table
(`readEntries_setKey`, `readEntries_rename`), one for each place where a table stands in the
document (`reads_setServerTables`, `reads_setAudio`), and from these one for each edit.
-/

namespace Mum

open Library Library.Eval Library.Toml

namespace Ctl

open Mumlib

/-- The known keys of the root, of `audio`, of a sound effect, and of a server. -/
def rootKeys : List String := ["allow_invalid_server_cert", "audio", "servers"]

def audioKeys : List String :=
  ["input_volume", "output_volume", "sound_effects", "disable_noise_gate"]

def soundEffectKeys : List String := ["event", "file"]

def serverKeys : List String :=
  ["name", "host", "port", "username", "password", "accept_invalid_cert"]

/-- A configuration with the keys that are not known. -/
structure Settings where
  allowInvalidServerCert : Option Bool
  audio : Option AudioConfig
  /-- Each server with the unknown keys of its table. -/
  servers : List (ServerConfig × Toml.Table F64)
  unknown : Toml.Table F64
  audioUnknown : Toml.Table F64
  /-- The unknown keys of the sound effects, one by one. -/
  soundEffectsUnknown : List (Toml.Table F64)

/-- The unknown keys of the servers, one by one. -/
def serversUnknown (document : Document) : List (Toml.Table F64) :=
  (((Entries.get document "servers").map Item.items).getD []).map (Item.unknown serverKeys)

/-- The unknown keys of the sound effects, one by one. -/
def effectsUnknown (document : Document) : List (Toml.Table F64) :=
  ((((Entries.get document "audio").bind fun audio => audio.get "sound_effects").map
    Item.items).getD []).map (Item.unknown soundEffectKeys)

def Settings.of (config : Config) (document : Document) : Settings where
  allowInvalidServerCert := config.allowInvalidServerCert
  audio := config.audio
  servers := config.saved.zip (serversUnknown document)
  unknown := Entries.unknown rootKeys document
  audioUnknown := ((Entries.get document "audio").map (Item.unknown audioKeys)).getD []
  soundEffectsUnknown := effectsUnknown document

/-- The port that a string is read back as. -/
def portOf (value : String) : Option UInt16 := (parseI64 value).bind tryU16

/-- A server with a value for one of its keys; nothing when the string is no value
of the key. -/
def setKey (key value : String) (server : ServerConfig) : Option ServerConfig :=
  match key with
  | "host" => some { server with host := value }
  | "port" => (portOf value).map fun port => { server with port := some port }
  | "username" => some { server with username := some value }
  | "password" => some { server with password := some value }
  | "accept_invalid_cert" =>
      (parseBool value).map fun b => { server with acceptInvalidCert := some b }
  | _ => none

/-- Changes the first server with the name. -/
def Settings.updateServer (settings : Settings) (name : String)
    (f : ServerConfig → ServerConfig) : Settings :=
  { settings with
    servers := updateFirst (fun e => e.1.name = name) (fun e => (f e.1, e.2)) settings.servers }

/-- Changes the audio settings, which need not be there. -/
def Settings.updateAudio (settings : Settings) (f : AudioConfig → AudioConfig) : Settings :=
  { settings with audio := some (f (settings.audio.getD {})) }

/-- What a command sets. -/
def Command.apply (floats : Floats) (settings : Settings) : Command → Settings
  | .server (.add name host port username password) =>
      { settings with
        servers := settings.servers ++ [(⟨name, host, port, username, password, none⟩, [])] }
  | .server (.rename oldName newName) =>
      settings.updateServer oldName fun server => { server with name := newName }
  | .server (.remove name) =>
      { settings with servers := settings.servers.eraseP fun e => e.1.name = name }
  | .server (.config (some name) (some key) (some value)) =>
      settings.updateServer name fun server => (setKey key value server).getD server
  | .server (.config _ _ _) => settings
  | .config "audio.input_volume" value =>
      (floats.parse value).elim settings fun volume =>
        settings.updateAudio fun audio => { audio with inputVolume := some (floats.ofF64 volume) }
  | .config "audio.output_volume" value =>
      (floats.parse value).elim settings fun volume =>
        settings.updateAudio fun audio => { audio with outputVolume := some (floats.ofF64 volume) }
  | .config "accept_all_invalid_certs" value =>
      (parseBool value).elim settings fun b => { settings with allowInvalidServerCert := some b }
  | .config _ _ => settings

/-- A port is one that a server can have. -/
def Command.PortInRange : Command → Prop
  | .server (.config (some _) (some key) (some value)) =>
      key = "port" → ∀ port, parseI64 value = some port → 0 ≤ port ∧ port < 65536
  | _ => True

/-! ## Reading an edited table -/

section Tables

variable {entries : Toml.Table F64} {server : ServerConfig}

theorem readU16_integer (i : Int) : readU16 (.value (.integer i)) = tryU16 i := rfl

/-- A value that is set is read back, if it is one of the key. -/
theorem readEntries_setKey (h : ServerConfig.readEntries entries = some server)
    {key value : String} {v : Value F64} (hparse : parseValue key value = .ok (.value v)) :
    ServerConfig.readEntries (Entries.set entries key (.value v)) = setKey key value server := by
  obtain ⟨hname, hhost, hport, husername, hpassword, haccept⟩ :=
    ServerConfig.readEntries_eq_some.mp h
  unfold parseValue at hparse
  split at hparse
  · cases hparse
  · cases hparse
    simp [ServerConfig.readEntries, hname, hport, husername, hpassword, haccept, setKey,
      Reader.string, Item.content]
  · obtain ⟨port, hvalue, hparse⟩ := bind_eq_ok.mp hparse
    cases hparse
    rw [unwrap_eq_ok] at hvalue
    cases hrange : tryU16 port <;>
      simp [ServerConfig.readEntries, hname, hhost, husername, hpassword, haccept, setKey, portOf,
        readU16_integer, hvalue, hrange]
  · cases hparse
    simp [ServerConfig.readEntries, hname, hhost, hport, hpassword, haccept, setKey,
      Reader.string, Item.content]
  · cases hparse
    simp [ServerConfig.readEntries, hname, hhost, hport, husername, haccept, setKey,
      Reader.string, Item.content]
  · split at hparse
    next b hvalue =>
      cases hparse
      simp [ServerConfig.readEntries, hname, hhost, hport, husername, hpassword, setKey,
        hvalue, Reader.boolean, Item.content]
    · cases hparse
  · cases hparse

theorem readEntries_rename (h : ServerConfig.readEntries entries = some server)
    (newName : String) :
    ServerConfig.readEntries (Entries.set entries "name" (.value (.string newName))) =
      some { server with name := newName } := by
  obtain ⟨hname, hhost, hport, husername, hpassword, haccept⟩ :=
    ServerConfig.readEntries_eq_some.mp h
  simp [ServerConfig.readEntries, hhost, hport, husername, hpassword, haccept,
    Reader.string, Item.content]

theorem readEntries_tableOf (server : ServerConfig) :
    ServerConfig.readEntries (tableOf server) = some server := by
  obtain ⟨name, host, port, username, password, accept⟩ := server
  cases port <;> cases username <;> cases password <;> cases accept <;>
    simp [ServerConfig.readEntries, tableOf, Reader.required, Reader.optional, Entries.get_cons,
      Reader.string, Reader.boolean, readU16_integer, Item.content]

end Tables

/-! ## Reading an edited document -/

/-- What a document says. -/
def Reads (floats : Floats) (document : Document) (settings : Settings) : Prop :=
  ∃ config, fromDocument floats document = some config ∧ Settings.of config document = settings

section Documents

variable {floats : Floats} {document : Document} {config : Config}

theorem serversUnknown_of_get {tables : List (Toml.Table F64)}
    (h : Entries.get document "servers" = some (.arrayOfTables tables)) :
    serversUnknown document = tables.map (Entries.unknown serverKeys) := by
  rw [serversUnknown, h]
  simp only [Option.map_some, Option.getD_some, Item.items, Item.content, List.map_map]
  rfl

/-- Another list of tables is another list of servers. -/
theorem reads_setServerTables (hdocument : dropEmpty document = document)
    (hload : fromDocument floats document = some config) {tables : List (Toml.Table F64)}
    {servers : List ServerConfig}
    (hservers : tables.mapM ServerConfig.readEntries = some servers) :
    Reads floats (dropEmpty (setServerTables document tables))
      { Settings.of config document with
        servers := servers.zip (tables.map (Entries.unknown serverKeys)) } := by
  obtain ⟨hallow, haudio, -⟩ := fromDocument_eq_some.mp hload
  have hget := get_dropEmpty_set hdocument "servers" (.arrayOfTables tables)
  have hunknown : Entries.unknown rootKeys (dropEmpty (setServerTables document tables)) =
      Entries.unknown rootKeys document := unknown_dropEmpty_set hdocument (by decide) _
  rcases tables with _ | ⟨table, rest⟩
  · -- the array has no text
    cases hservers
    refine ⟨{ config with servers := none }, fromDocument_eq_some.mpr ⟨?_, ?_, ?_⟩, ?_⟩
    · rw [← hallow, Reader.optional, setServerTables, hget]
      rfl
    · rw [← haudio, Reader.optional, setServerTables, hget]
      rfl
    · rw [Reader.optional, setServerTables, hget]
      rfl
    · rw [Settings.of, Settings.of, effectsUnknown, effectsUnknown, hunknown,
        setServerTables, hget]
      rfl
  · refine ⟨{ config with servers := some servers }, fromDocument_eq_some.mpr ⟨?_, ?_, ?_⟩, ?_⟩
    · rw [← hallow, Reader.optional, setServerTables, hget]
      rfl
    · rw [← haudio, Reader.optional, setServerTables, hget]
      rfl
    · rw [Reader.optional, setServerTables, hget]
      dsimp only [Item.isEmptyArray]
      simp [seq_arrayOfTables, hservers]
    · have htables : Entries.get (dropEmpty (setServerTables document (table :: rest))) "servers" =
          some (.arrayOfTables (table :: rest)) := by
        rw [setServerTables, hget]
        rfl
      rw [Settings.of, Settings.of, effectsUnknown, effectsUnknown, hunknown,
        serversUnknown_of_get htables, setServerTables, hget]
      rfl

/-- A table that cannot be read is enough for the document not to be. -/
theorem fromDocument_setServerTables_eq_none (hdocument : dropEmpty document = document)
    {tables : List (Toml.Table F64)} (hservers : tables.mapM ServerConfig.readEntries = none) :
    fromDocument floats (dropEmpty (setServerTables document tables)) = none := by
  rw [Option.eq_none_iff_forall_ne_some]
  intro config hconfig
  have hread := (fromDocument_eq_some.mp hconfig).2.2
  rw [Reader.optional, setServerTables, get_dropEmpty_set hdocument, if_pos rfl] at hread
  rcases tables with _ | ⟨table, rest⟩
  · cases hservers
  · dsimp only [Item.isEmptyArray] at hread
    simp [seq_arrayOfTables, hservers] at hread

/-- The table that `audio` stands for, which need not be there. -/
theorem readEntries_audio (hload : fromDocument floats document = some config)
    {entries : Toml.Table F64}
    (hcontent : ((Entries.get document "audio").getD (.table [])).content = .map entries) :
    AudioConfig.readEntries floats entries = some (config.audio.getD {}) := by
  have haudio := (fromDocument_eq_some.mp hload).2.1
  rw [Reader.optional] at haudio
  cases hget : Entries.get document "audio" with
  | none =>
      rw [hget] at haudio hcontent
      cases hcontent
      rw [← Option.some.inj haudio]
      rfl
  | some item =>
      rw [hget] at haudio hcontent
      obtain ⟨audio, hread, hsome⟩ := Option.map_eq_some_iff.mp haudio
      rw [Option.getD_some] at hcontent
      rw [AudioConfig.read, hcontent] at hread
      rw [← hsome, Option.getD_some]
      exact hread

/-- Another value of a key of `audio`. -/
theorem reads_setAudio (hdocument : dropEmpty document = document)
    (hload : fromDocument floats document = some config) {key : String} (hkey : key ∈ audioKeys)
    (hvolume : key ≠ "sound_effects") {v : Value F64} {audio : Item F64}
    (haudio : ((Entries.get document "audio").getD (.table [])).setValue key v = some audio)
    {f : AudioConfig → AudioConfig}
    (hf : ∀ entries config, AudioConfig.readEntries floats entries = some config →
      AudioConfig.readEntries floats (Entries.set entries key (.value v)) = some (f config)) :
    Reads floats (dropEmpty (Entries.set document "audio" audio))
      ((Settings.of config document).updateAudio f) := by
  obtain ⟨hallow, -, hservers⟩ := fromDocument_eq_some.mp hload
  obtain ⟨entries, hcontent, hcontent'⟩ := Item.content_setValue haudio
  have hread := hf _ _ (readEntries_audio hload hcontent)
  have hempty : audio.isEmptyArray = false := by
    cases audio with
    | arrayOfTables tables => cases hcontent'
    | _ => rfl
  have hget := get_dropEmpty_set hdocument "audio" audio
  rw [hempty] at hget
  refine ⟨{ config with audio := some (f (config.audio.getD {})) },
    fromDocument_eq_some.mpr ⟨?_, ?_, ?_⟩, ?_⟩
  · rw [← hallow, Reader.optional, hget]
    rfl
  · rw [Reader.optional, hget]
    simp [AudioConfig.read, hcontent', hread]
  · rw [← hservers, Reader.optional, hget]
    rfl
  · have hunknown : Item.unknown audioKeys audio =
        Item.unknown audioKeys ((Entries.get document "audio").getD (.table [])) := by
      rw [Item.unknown, Item.unknown, hcontent, hcontent']
      exact Entries.unknown_set hkey _ _
    have haudioUnknown : ((Entries.get document "audio").map (Item.unknown audioKeys)).getD [] =
        Item.unknown audioKeys audio := by
      rw [hunknown]
      cases Entries.get document "audio" with
      | none => rfl
      | some item => rfl
    have heffects : ((Entries.get document "audio").bind fun audio => audio.get "sound_effects") =
        audio.get "sound_effects" := by
      have hsame : audio.get "sound_effects" =
          ((Entries.get document "audio").getD (.table [])).get "sound_effects" := by
        rw [Item.get, Item.get, hcontent, hcontent']
        exact (Entries.get_set ..).trans (if_neg hvolume)
      rw [hsame]
      cases Entries.get document "audio" with
      | none => rfl
      | some item => rfl
    rw [Settings.updateAudio, Settings.of, Settings.of, effectsUnknown, effectsUnknown,
      haudioUnknown, heffects, unknown_dropEmpty_set hdocument (by decide), serversUnknown,
      serversUnknown, hget, hget]
    rfl

theorem reads_setAllow (hdocument : dropEmpty document = document)
    (hload : fromDocument floats document = some config) (b : Bool) :
    Reads floats
      (dropEmpty (Entries.set document "allow_invalid_server_cert" (.value (.boolean b))))
      { Settings.of config document with allowInvalidServerCert := some b } := by
  obtain ⟨-, haudio, hservers⟩ := fromDocument_eq_some.mp hload
  have hget := get_dropEmpty_set hdocument "allow_invalid_server_cert"
    (.value (.boolean b))
  refine ⟨{ config with allowInvalidServerCert := some b },
    fromDocument_eq_some.mpr ⟨?_, ?_, ?_⟩, ?_⟩
  · rw [Reader.optional, hget]
    rfl
  · rw [← haudio, Reader.optional, hget]
    rfl
  · rw [← hservers, Reader.optional, hget]
    rfl
  · rw [Settings.of, Settings.of, effectsUnknown, effectsUnknown,
      unknown_dropEmpty_set hdocument (by decide), serversUnknown, serversUnknown, hget, hget]
    rfl

/-! ## The edits -/

/-- Another table in the place of a server is another server. -/
theorem reads_setTable (hdocument : dropEmpty document = document)
    (hload : fromDocument floats document = some config) {tables : List (Toml.Table F64)}
    (htables : Entries.get document "servers" = some (.arrayOfTables tables)) {name : String}
    {index : ℕ} (hindex : config.saved.findIdx? (·.name = name) = some index)
    {table table' : Toml.Table F64} (htable : tables[index]? = some table)
    {f : ServerConfig → ServerConfig}
    (hf : ∀ server, ServerConfig.readEntries table = some server →
      ServerConfig.readEntries table' = some (f server))
    (hunknown : Entries.unknown serverKeys table' = Entries.unknown serverKeys table) :
    Reads floats (dropEmpty (setServerTables document (tables.set index table')))
      ((Settings.of config document).updateServer name f) := by
  have hservers := mapM_tables hload htables
  obtain ⟨server, hserver, hread⟩ := get_of_mapM hservers htable
  have hreads := reads_setServerTables hdocument hload (mapM_set hservers (hf server hread) index)
  have hsame : (tables.set index table').map (Entries.unknown serverKeys) =
      tables.map (Entries.unknown serverKeys) := by
    obtain ⟨hlt, rfl⟩ := List.getElem?_eq_some_iff.mp htable
    rw [List.map_set, hunknown, ← List.map_set, List.set_getElem_self]
  rw [hsame, zip_set_of_findIdx? hindex hserver, ← serversUnknown_of_get htables] at hreads
  exact hreads

theorem unknown_tableOf (server : ServerConfig) :
    Entries.unknown serverKeys (tableOf server) = [] := by
  obtain ⟨name, host, port, username, password, accept⟩ := server
  cases port <;> cases username <;> cases password <;> cases accept <;> rfl

/-- The key of a value that is set is a known one. -/
theorem mem_serverKeys_of_parseValue {key value : String} {v : Value F64}
    (h : parseValue key value = .ok (.value v)) : key ∈ serverKeys := by
  unfold parseValue at h
  split at h
  · cases h
  · decide
  · decide
  · decide
  · decide
  · decide
  · cases h

/-- Only a port may be out of range. -/
theorem setKey_isSome_iff {name key value : String} {v : Value F64}
    (h : parseValue key value = .ok (.value v)) (server : ServerConfig) :
    (setKey key value server).isSome ↔
      (Command.server (.config (some name) (some key) (some value))).PortInRange := by
  rw [Command.PortInRange]
  unfold parseValue at h
  split at h
  · cases h
  · exact iff_of_true rfl (by simp)
  · obtain ⟨port, hport, -⟩ := bind_eq_ok.mp h
    rw [unwrap_eq_ok] at hport
    have hrange : (setKey "port" value server).isSome ↔ 0 ≤ port ∧ port < 65536 := by
      rw [← tryU16_isSome]
      simp [setKey, portOf, hport]
    rw [hrange]
    constructor
    · intro hin _ port' hport'
      cases hport.symm.trans hport'
      exact hin
    · intro hin
      exact hin rfl port hport
  · exact iff_of_true rfl (by simp)
  · exact iff_of_true rfl (by simp)
  · split at h
    next b hb => exact iff_of_true (by simp [setKey, hb]) (by simp)
    · cases h
  · cases h

/-- **What is written says what the command set.** -/
theorem EditCase.reads {command : Command} {edited : Document}
    (hcase : EditCase floats document config command (some edited))
    (hdocument : dropEmpty document = document)
    (hload : fromDocument floats document = some config) (hport : command.PortInRange) :
    Reads floats (dropEmpty edited) (command.apply floats (Settings.of config document)) := by
  cases hcase with
  | @set name key value tables index table v hparse htables hindex htable =>
      refine reads_setTable (f := fun server => (setKey key value server).getD server) hdocument
        hload htables hindex htable ?_
        (Entries.unknown_set (mem_serverKeys_of_parseValue hparse) _ _)
      intro server hread
      obtain ⟨server', hserver'⟩ :=
        Option.isSome_iff_exists.mp ((setKey_isSome_iff hparse server).mpr hport)
      rw [readEntries_setKey hread hparse, hserver', Option.getD_some]
  | @rename oldName newName tables index table htables hindex htable =>
      have hkey : "name" ∈ serverKeys := by decide
      refine reads_setTable (f := fun server => { server with name := newName }) hdocument
        hload htables hindex htable ?_ (Entries.unknown_set hkey _ _)
      intro server hread
      exact readEntries_rename hread _
  | @add name host port username password tables hnew htables hget =>
      have hreads := reads_setServerTables hdocument hload
        (mapM_concat htables (readEntries_tableOf ⟨name, host, port, username, password, none⟩))
      have hunknown : serversUnknown document = tables.map (Entries.unknown serverKeys) := by
        rcases hget with ⟨hmissing, rfl⟩ | hget
        · rw [serversUnknown, hmissing]
          rfl
        · exact serversUnknown_of_get hget
      have hlength : config.saved.length = (tables.map (Entries.unknown serverKeys)).length := by
        rw [List.length_map, length_of_mapM htables]
      rw [List.map_append, List.zip_append hlength, ← hunknown, List.map_singleton,
        unknown_tableOf] at hreads
      exact hreads
  | @remove name tables index htables hindex =>
      have hreads := reads_setServerTables hdocument hload
        (mapM_eraseIdx (mapM_tables hload htables) index)
      rw [← List.eraseIdx_map, zip_eraseIdx_of_findIdx? hindex,
        ← serversUnknown_of_get htables] at hreads
      exact hreads
  | @inputVolume value volume audio hparse haudio =>
      rw [Command.apply, hparse, Option.elim_some]
      refine reads_setAudio hdocument hload (by decide) (by decide) haudio ?_
      intro entries audioConfig hread
      obtain ⟨hinput, houtput, heffects, hgate⟩ := AudioConfig.readEntries_eq_some.mp hread
      exact AudioConfig.readEntries_eq_some.mpr ⟨by simp [readF32, Item.content],
        by simpa using houtput, by simpa using heffects, by simpa using hgate⟩
  | @outputVolume value volume audio hparse haudio =>
      rw [Command.apply, hparse, Option.elim_some]
      refine reads_setAudio hdocument hload (by decide) (by decide) haudio ?_
      intro entries audioConfig hread
      obtain ⟨hinput, houtput, heffects, hgate⟩ := AudioConfig.readEntries_eq_some.mp hread
      exact AudioConfig.readEntries_eq_some.mpr ⟨by simpa using hinput,
        by simp [readF32, Item.content], by simpa using heffects, by simpa using hgate⟩
  | allow hparse =>
      rw [Command.apply, hparse, Option.elim_some]
      exact reads_setAllow hdocument hload _

/-- A port out of range is written, and cannot be read. -/
theorem EditCase.fromDocument_eq_none {command : Command} {edited : Document}
    (hcase : EditCase floats document config command (some edited))
    (hdocument : dropEmpty document = document)
    (hload : fromDocument floats document = some config) (hport : ¬ command.PortInRange) :
    fromDocument floats (dropEmpty edited) = none := by
  cases hcase with
  | @set name key value tables index table v hparse htables hindex htable =>
      obtain ⟨server, hserver, hread⟩ := get_of_mapM (mapM_tables hload htables) htable
      refine fromDocument_setServerTables_eq_none hdocument ?_
      refine mapM_set_eq_none ?_ (List.getElem?_eq_some_iff.mp htable).1
      rw [readEntries_setKey hread hparse, Option.eq_none_iff_forall_ne_some]
      intro server' hserver'
      exact hport ((setKey_isSome_iff hparse server).mp (by rw [hserver']; rfl))
  | rename | add | remove | inputVolume | outputVolume | allow => exact absurd trivial hport

end Documents

end Ctl

end Mum
