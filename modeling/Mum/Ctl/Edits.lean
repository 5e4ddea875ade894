import Mum.Ctl.EditConfig

/-!
# What a successful command edits

A command of `mumctl` that does not panic fails and leaves the file as it was, or
succeeds: with nothing to write, or with one change of the document, another list
of server tables or another value of a key.  `EditCase` lists the changes, and
`edits_matchOpt` reads `match_opt` backwards.

Commands find servers in the `Config`, except for `rename`, which goes through the
tables; the places agree, since the one is read from the other.

`match_opt` is taken apart along its calls (`edits_configServer`, `edits_matchServerCommand`,
`edits_matchConfig`), each with one lemma that says it makes an edit or keeps the file.
-/

namespace Mum

open Library Library.Eval Library.Toml

/-! ## What is read -/

namespace Mumlib

variable {floats : Floats}

theorem ServerConfig.readEntries_eq_some {entries : Toml.Table F64} {server : ServerConfig} :
    ServerConfig.readEntries entries = some server ↔
      Reader.string.required entries "name" = some server.name ∧
        Reader.string.required entries "host" = some server.host ∧
        readU16.optional entries "port" = some server.port ∧
        Reader.string.optional entries "username" = some server.username ∧
        Reader.string.optional entries "password" = some server.password ∧
        Reader.boolean.optional entries "accept_invalid_cert" = some server.acceptInvalidCert := by
  obtain ⟨name, host, port, username, password, accept⟩ := server
  simp [ServerConfig.readEntries, Option.bind_eq_some_iff]

theorem AudioConfig.readEntries_eq_some {entries : Toml.Table F64} {audio : AudioConfig} :
    AudioConfig.readEntries floats entries = some audio ↔
      (readF32 floats).optional entries "input_volume" = some audio.inputVolume ∧
        (readF32 floats).optional entries "output_volume" = some audio.outputVolume ∧
        (Reader.seq SoundEffect.read).optional entries "sound_effects" =
          some audio.soundEffects ∧
        Reader.boolean.optional entries "disable_noise_gate" = some audio.disableNoiseGate := by
  obtain ⟨input, output, effects, gate⟩ := audio
  simp [AudioConfig.readEntries, Option.bind_eq_some_iff]

theorem fromDocument_eq_some {document : Document} {config : Config} :
    fromDocument floats document = some config ↔
      Reader.boolean.optional document "allow_invalid_server_cert" =
          some config.allowInvalidServerCert ∧
        Reader.optional (AudioConfig.read floats) document "audio" = some config.audio ∧
        (Reader.seq ServerConfig.read).optional document "servers" = some config.servers := by
  obtain ⟨allow, audio, servers⟩ := config
  simp [fromDocument, Option.bind_eq_some_iff]

/-- An array of tables is read table by table. -/
theorem seq_arrayOfTables (tables : List (Toml.Table F64)) :
    Reader.seq ServerConfig.read (.arrayOfTables tables) =
      tables.mapM ServerConfig.readEntries := by
  simp only [Reader.seq, Item.content, List.mapM_map]
  rfl

/-- The saved servers are those that are read from the tables. -/
theorem mapM_tables {document : Document} {config : Config} {tables : List (Toml.Table F64)}
    (hload : fromDocument floats document = some config)
    (htables : Entries.get document "servers" = some (.arrayOfTables tables)) :
    tables.mapM ServerConfig.readEntries = some config.saved := by
  have hservers := (fromDocument_eq_some.mp hload).2.2
  rw [Reader.optional, htables] at hservers
  obtain ⟨servers, hread, hsome⟩ := Option.map_eq_some_iff.mp hservers
  rw [seq_arrayOfTables] at hread
  rw [hread, Config.saved, ← hsome, Option.getD_some]

theorem saved_of_missing {document : Document} {config : Config}
    (hload : fromDocument floats document = some config)
    (hmissing : Entries.get document "servers" = none) : config.saved = [] := by
  have hservers := (fromDocument_eq_some.mp hload).2.2
  rw [Reader.optional, hmissing] at hservers
  rw [Config.saved, ← Option.some.inj hservers, Option.getD_none]

end Mumlib

namespace Ctl

open Mumlib

theorem serverTables_eq_ok {document : Document} {tables : List (Toml.Table F64)} :
    serverTables document = .ok tables ↔
      Entries.get document "servers" = some (.arrayOfTables tables) := by
  unfold serverTables
  constructor
  · intro h
    split at h
    next tables' hget =>
      cases h
      exact hget
    · cases h
  · intro h
    rw [h]

theorem findServer_eq_some {config : Config} {name : String} {server : ServerConfig}
    {index : ℕ} (h : findServer config name = some (server, index)) :
    config.saved.findIdx? (·.name = name) = some index ∧ config.saved[index]? = some server := by
  constructor
  · rw [List.findIdx?_eq_fst_find?_zipIdx]
    exact Option.map_eq_some_iff.mpr ⟨(server, index), h, rfl⟩
  · exact List.mem_zipIdx_iff_getElem?.mp (List.mem_of_find?_eq_some h)

theorem findServer_eq_none_iff {config : Config} {name : String} :
    findServer config name = none ↔ config.saved.findIdx? (·.name = name) = none := by
  rw [List.findIdx?_eq_fst_find?_zipIdx, Option.map_eq_none_iff]
  rfl

/-- The name of a table that is read as a server. -/
theorem required_name {table : Toml.Table F64} {server : ServerConfig}
    (h : ServerConfig.readEntries table = some server) :
    ∃ item, Entries.get table "name" = some item ∧ Reader.string item = some server.name :=
  Option.bind_eq_some_iff.mp (ServerConfig.readEntries_eq_some.mp h).1

/-- Searching the tables finds what searching the servers does. -/
theorem findTable_eq {tables : List (Toml.Table F64)} {servers : List ServerConfig}
    (h : tables.mapM ServerConfig.readEntries = some servers) (name : String) :
    findTable name tables = .ok (servers.findIdx? (·.name = name)) := by
  rw [mapM_eq_some_iff] at h
  induction h with
  | nil => rfl
  | @cons table server tables servers hserver _ ih =>
      obtain ⟨item, hitem, htext⟩ := required_name hserver
      simp only [findTable, hitem, htext, unwrap_some, ok_bind, ih]
      by_cases hname : server.name = name
      · simp only [hname, if_true, List.findIdx?_cons, decide_true]
        rfl
      · simp only [hname, if_false, List.findIdx?_cons, decide_false]
        rfl

/-- What a successful command comes to: nothing is to be written, or the edited
document. -/
inductive EditCase (floats : Floats) (document : Document) (config : Config) :
    Command → Option Document → Prop
  | names {key value : Option String} :
      EditCase floats document config (.server (.config none key value)) none
  | shown {name : String} {key value : Option String} (h : key = none ∨ value = none) :
      EditCase floats document config (.server (.config (some name) key value)) none
  | warned {name key value : String} {text : String}
      (hparse : parseValue key value = .ok (.warning text)) :
      EditCase floats document config (.server (.config (some name) (some key) (some value))) none
  | set {name key value : String} {tables : List (Toml.Table F64)} {index : ℕ}
      {table : Toml.Table F64} {v : Value F64} (hparse : parseValue key value = .ok (.value v))
      (htables : Entries.get document "servers" = some (.arrayOfTables tables))
      (hindex : config.saved.findIdx? (·.name = name) = some index)
      (htable : tables[index]? = some table) :
      EditCase floats document config (.server (.config (some name) (some key) (some value)))
        (some (setServerTables document
          (tables.set index (Entries.set table key (.value v)))))
  | rename {oldName newName : String} {tables : List (Toml.Table F64)} {index : ℕ}
      {table : Toml.Table F64}
      (htables : Entries.get document "servers" = some (.arrayOfTables tables))
      (hindex : config.saved.findIdx? (·.name = oldName) = some index)
      (htable : tables[index]? = some table) :
      EditCase floats document config (.server (.rename oldName newName))
        (some (setServerTables document
          (tables.set index (Entries.set table "name" (.value (.string newName))))))
  | add {name host : String} {port : Option UInt16} {username password : Option String}
      {tables : List (Toml.Table F64)} (hnew : ∀ server ∈ config.saved, server.name ≠ name)
      (htables : tables.mapM ServerConfig.readEntries = some config.saved)
      (hget : Entries.get document "servers" = none ∧ tables = [] ∨
        Entries.get document "servers" = some (.arrayOfTables tables)) :
      EditCase floats document config (.server (.add name host port username password))
        (some (setServerTables document
          (tables ++ [tableOf ⟨name, host, port, username, password, none⟩])))
  | remove {name : String} {tables : List (Toml.Table F64)} {index : ℕ}
      (htables : Entries.get document "servers" = some (.arrayOfTables tables))
      (hindex : config.saved.findIdx? (·.name = name) = some index) :
      EditCase floats document config (.server (.remove name))
        (some (setServerTables document (tables.eraseIdx index)))
  | unparsed {key value : String}
      (h : key = "audio.input_volume" ∧ floats.parse value = none ∨
        key = "audio.output_volume" ∧ floats.parse value = none ∨
        key = "accept_all_invalid_certs" ∧ parseBool value = none) :
      EditCase floats document config (.config key value) none
  | inputVolume {value : String} {volume : F64} {audio : Item F64}
      (hparse : floats.parse value = some volume)
      (haudio : ((Entries.get document "audio").getD (.table [])).setValue "input_volume"
        (.float volume) = some audio) :
      EditCase floats document config (.config "audio.input_volume" value)
        (some (Entries.set document "audio" audio))
  | outputVolume {value : String} {volume : F64} {audio : Item F64}
      (hparse : floats.parse value = some volume)
      (haudio : ((Entries.get document "audio").getD (.table [])).setValue "output_volume"
        (.float volume) = some audio) :
      EditCase floats document config (.config "audio.output_volume" value)
        (some (Entries.set document "audio" audio))
  | allow {value : String} {b : Bool} (hparse : parseBool value = some b) :
      EditCase floats document config (.config "accept_all_invalid_certs" value)
        (some (Entries.set document "allow_invalid_server_cert" (.value (.boolean b))))

/-- What becomes of the file when the edited document is saved. -/
def Saves (file : File) (edited : Option Document) (file' : File) : Prop :=
  match edited with
  | none => file' = file
  | some document => file' = .text (.of document) ∨ file = .missing ∧ file' = .missing

section Cases

variable {floats : Floats} {machine : Machine} {file : File} {document : Document}
  {config : Config} {outcome : Outcome}

/-- The command fails, and the file is as it was. -/
def Kept (file : File) (outcome : Outcome) : Prop :=
  (∃ e, outcome.result = .error e) ∧ outcome.file = file

/-- The command succeeds with one of the edits. -/
def Edits (floats : Floats) (file : File) (document : Document) (config : Config)
    (command : Command) (outcome : Outcome) : Prop :=
  outcome.result = .ok () ∧
    ∃ edited, EditCase floats document config command edited ∧ Saves file edited outcome.file

theorem kept_refuse (file : File) (e : Error) : Kept file (refuse file e) := ⟨⟨e, rfl⟩, rfl⟩

theorem edits_print {command : Command} (lines : List String)
    (hcase : EditCase floats document config command none) :
    Edits floats file document config command (print file lines) :=
  ⟨rfl, none, hcase, rfl⟩

theorem edits_save {command : Command} {edited : Document}
    (hcase : EditCase floats document config command (some edited)) :
    Edits floats file document config command (save machine file edited) ∨
      Kept file (save machine file edited) := by
  unfold save maybeWriteConfig
  cases file with
  | missing =>
      by_cases hdeclines : machine.declines
      · refine Or.inl ⟨by simp [hdeclines], some edited, hcase, Or.inr ⟨rfl, by simp [hdeclines]⟩⟩
      · by_cases hwrites : machine.writes
        · simp only [hdeclines, hwrites]
          exact Or.inl ⟨rfl, some edited, hcase, Or.inl rfl⟩
        · simp only [hdeclines, hwrites]
          exact Or.inr (kept_refuse _ _)
  | unreadable | malformed | text =>
      by_cases hwrites : machine.writes
      · simp only [hwrites]
        exact Or.inl ⟨rfl, some edited, hcase, Or.inl rfl⟩
      · simp only [hwrites]
        exact Or.inr (kept_refuse _ _)

theorem edits_configServer {name : String} {server : ServerConfig} {index : ℕ}
    {key value : Option String}
    (hindex : config.saved.findIdx? (·.name = name) = some index)
    (h : configServer machine file document server index key value = .ok outcome) :
    Edits floats file document config (.server (.config (some name) key value)) outcome ∨
      Kept file outcome := by
  obtain ⟨tables, htables, h⟩ := bind_eq_ok.mp h
  obtain ⟨table, htable, h⟩ := bind_eq_ok.mp h
  rw [serverTables_eq_ok] at htables
  rw [unwrap_eq_ok] at htable
  rcases key with _ | key
  · cases h
    exact Or.inl (edits_print _ (.shown (Or.inl rfl)))
  rcases value with _ | value
  · dsimp only at h
    split at h
    · cases h
      exact Or.inl (edits_print _ (.shown (Or.inr rfl)))
    · cases h
      exact Or.inr (kept_refuse _ _)
  · obtain ⟨parsed, hparse, h⟩ := bind_eq_ok.mp h
    cases parsed with
    | value v =>
        cases h
        exact edits_save (.set hparse htables hindex htable)
    | warning text =>
        cases h
        exact Or.inl (edits_print _ (.warned hparse))
    | error e =>
        cases h
        exact Or.inr (kept_refuse _ _)

theorem edits_matchServerCommand {command : Server}
    (hload : fromDocument floats document = some config)
    (h : matchServerCommand machine file config document command = .ok outcome) :
    Edits floats file document config (.server command) outcome ∨ Kept file outcome := by
  cases command with
  | config serverName key value =>
      rcases serverName with _ | name
      · cases h
        exact Or.inl (edits_print _ .names)
      · rw [matchServerCommand] at h
        split at h
        · cases h
          exact Or.inr (kept_refuse _ _)
        next server index hfind =>
          exact edits_configServer (findServer_eq_some hfind).1 h
  | rename oldName newName =>
      obtain ⟨tables, htables, h⟩ := bind_eq_ok.mp h
      rw [serverTables_eq_ok] at htables
      rw [findTable_eq (mapM_tables hload htables), ok_bind] at h
      split at h
      · cases h
        exact Or.inr (kept_refuse _ _)
      next index hindex =>
        obtain ⟨table, htable, h⟩ := bind_eq_ok.mp h
        cases h
        exact edits_save (.rename htables hindex (unwrap_eq_ok.mp htable))
  | add name host port username password =>
      rw [matchServerCommand] at h
      split at h
      · cases h
        exact Or.inr (kept_refuse _ _)
      next hnew =>
        have hnew : ∀ server ∈ config.saved, server.name ≠ name := by simpa using hnew
        cases hget : Entries.get document "servers" with
        | none =>
            simp only [hget, ok_bind] at h
            cases h
            refine edits_save (.add hnew ?_ (Or.inl ⟨hget, rfl⟩))
            rw [saved_of_missing hload hget]
            rfl
        | some item =>
            simp only [hget] at h
            obtain ⟨tables, htables, h⟩ := bind_eq_ok.mp h
            cases h
            rw [serverTables_eq_ok] at htables
            exact edits_save (.add hnew (mapM_tables hload htables) (Or.inr htables))
  | remove name =>
      rw [matchServerCommand] at h
      split at h
      · cases h
        exact Or.inr (kept_refuse _ _)
      next index hindex =>
        obtain ⟨tables, htables, h⟩ := bind_eq_ok.mp h
        obtain ⟨table, -, h⟩ := bind_eq_ok.mp h
        cases h
        exact edits_save (.remove (serverTables_eq_ok.mp htables) hindex)

/-- A volume is configured by one of the two cases, whichever it is. -/
theorem edits_configVolume {key value : String} {command : F32 → Mumlib.Command}
    {edit : Command}
    (hnone : floats.parse value = none → EditCase floats document config edit none)
    (hsome : ∀ volume audio, floats.parse value = some volume →
      ((Entries.get document "audio").getD (.table [])).setValue key (.float volume) =
        some audio →
      EditCase floats document config edit (some (Entries.set document "audio" audio)))
    (h : configVolume floats machine file document key command value = .ok outcome) :
    Edits floats file document config edit outcome ∨ Kept file outcome := by
  unfold configVolume at h
  split at h
  next hparse =>
    cases h
    exact Or.inl (edits_print _ (hnone hparse))
  next volume hparse =>
    split at h
    · cases h
      exact Or.inr (kept_refuse _ _)
    · cases h
      exact Or.inr (kept_refuse _ _)
    · obtain ⟨audio, haudio, h⟩ := bind_eq_ok.mp h
      cases h
      exact edits_save (hsome volume audio hparse (unwrap_eq_ok.mp haudio))

theorem edits_matchConfig {key value : String}
    (h : matchConfig floats machine file document key value = .ok outcome) :
    Edits floats file document config (.config key value) outcome ∨ Kept file outcome := by
  unfold matchConfig at h
  split at h
  · exact edits_configVolume (fun hparse => .unparsed (Or.inl ⟨rfl, hparse⟩))
      (fun _ _ hparse haudio => .inputVolume hparse haudio) h
  · exact edits_configVolume (fun hparse => .unparsed (Or.inr (Or.inl ⟨rfl, hparse⟩)))
      (fun _ _ hparse haudio => .outputVolume hparse haudio) h
  · split at h
    next hparse =>
      cases h
      exact Or.inl (edits_print _ (.unparsed (Or.inr (Or.inr ⟨rfl, hparse⟩))))
    next b hparse =>
      cases h
      exact edits_save (.allow hparse)
  · cases h
    exact Or.inr (kept_refuse _ _)

/-- **What a command comes to**, unless it panics: it makes one of the edits, or it
fails and leaves the file as it was. -/
theorem edits_matchOpt {command : Command} (hparse : file.parse = some document)
    (hload : fromDocument floats document = some config)
    (h : matchOpt floats machine file command = .ok outcome) :
    Edits floats file document config command outcome ∨ Kept file outcome := by
  rw [matchOpt, hparse] at h
  dsimp only at h
  rw [hload] at h
  cases command with
  | server command => exact edits_matchServerCommand hload h
  | config key value => exact edits_matchConfig h

/-- A command that succeeds could read the file. -/
theorem load_of_matchOpt {command : Command}
    (h : matchOpt floats machine file command = .ok outcome) (hok : outcome.result = .ok ()) :
    ∃ document config, file.parse = some document ∧
      fromDocument floats document = some config := by
  unfold matchOpt at h
  split at h
  · cases h
    cases hok
  next document hparse =>
    split at h
    · cases h
      cases hok
    next config hload => exact ⟨document, config, hparse, hload⟩

/-- What a successful command comes to. -/
theorem edits_of_ok {command : Command} (hparse : file.parse = some document)
    (hload : fromDocument floats document = some config)
    (h : matchOpt floats machine file command = .ok outcome) (hok : outcome.result = .ok ()) :
    ∃ edited, EditCase floats document config command edited ∧
      Saves file edited outcome.file := by
  rcases edits_matchOpt hparse hload h with ⟨-, hedits⟩ | ⟨⟨e, herror⟩, -⟩
  · exact hedits
  · cases hok.symm.trans herror

end Cases

end Ctl

end Mum
