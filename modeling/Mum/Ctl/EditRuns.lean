import Mum.Ctl.Settings
import Mum.Library.Transition

/-!
# Running the editing commands

One command after the other edits the file.  Each sets what it is asked to set, but
two of them ask too little first: `server config` writes every port that is an `i64`,
and `server rename` any name.

`StepCase` says what a command leaves of the file: nothing is changed, or one edit is
written.  That a command sets what it is asked to is `EditCase.reads` (`Mum.Ctl.Settings`)
read from the file again.  For the other two, `loads_edit_iff` and `namesDistinct_edit_iff`
say for one edit what it must be like, and the runs follow with `Run.allSteps_iff`; for the
names, each kind of edit changes the list of names in its own way (`names_updateServer`,
`names_remove`).
-/

namespace Mum.Ctl

open Library Library.Eval Library.Toml Mumlib

/-- The configuration that `mumctl` starts with. -/
def File.load (floats : Floats) (file : File) : Option Config :=
  file.parse.bind (fromDocument floats)

/-- A command that succeeds. -/
def Step (floats : Floats) (file : File) (label : Machine × Command) (file' : File) : Prop :=
  ∃ outcome, matchOpt floats label.1 file label.2 = .ok outcome ∧ outcome.result = .ok () ∧
    outcome.file = file'

theorem File.dropEmpty_of_parse {file : File} {document : Document}
    (h : file.parse = some document) : dropEmpty document = document := by
  cases file with
  | missing | unreadable =>
      cases h
      rfl
  | malformed => cases h
  | text content =>
      cases h
      exact content.2

section Quiet

variable {floats : Floats} {document : Document} {config : Config} {command : Command}

/-- A command that writes nothing has nothing to set. -/
theorem EditCase.apply_eq (hcase : EditCase floats document config command none)
    (settings : Settings) : command.apply floats settings = settings := by
  cases hcase with
  | names => rfl
  | @shown name key value h =>
      rcases h with rfl | rfl
      · rfl
      · cases key <;> rfl
  | @warned name key value text hparse =>
      have hnone : ∀ server, (setKey key value server).getD server = server := by
        intro server
        unfold parseValue at hparse
        split at hparse
        · cases hparse
        · cases hparse
        · obtain ⟨port, -, hparse⟩ := bind_eq_ok.mp hparse
          cases hparse
        · cases hparse
        · cases hparse
        · split at hparse
          · cases hparse
          next hvalue => simp [setKey, hvalue]
        · cases hparse
      rw [Command.apply, Settings.updateServer, updateFirst_of_eq fun e _ => by rw [hnone]]
  | @unparsed key value h =>
      rcases h with ⟨rfl, hparse⟩ | ⟨rfl, hparse⟩ | ⟨rfl, hparse⟩
      · rw [Command.apply, hparse, Option.elim_none]
      · rw [Command.apply, hparse, Option.elim_none]
      · rw [Command.apply, hparse, Option.elim_none]

theorem EditCase.portInRange (hcase : EditCase floats document config command none) :
    command.PortInRange := by
  cases hcase with
  | names | unparsed => trivial
  | @shown name key value h =>
      rcases h with rfl | rfl
      · trivial
      · cases key <;> trivial
  | @warned name key value text hparse =>
      rintro rfl
      obtain ⟨port, -, hparse⟩ := bind_eq_ok.mp hparse
      cases hparse

end Quiet

/-! ## Reading what was written -/

/-- Everything can be written, and the daemon is content. -/
def Machine.writable : Machine := ⟨false, true, fun _ => .ok (.ok none)⟩

/-- No string is a float. -/
def noFloats : Floats := ⟨fun _ => none, fun _ => ⟨0⟩, fun _ => ⟨0⟩⟩

/-- A server with a key of the user's own. -/
def savedTable (name : String) : Toml.Table F64 :=
  [("name", .value (.string name)), ("host", .value (.string "localhost")),
    ("color", .value (.string "red"))]

def savedServers (names : List String) : Toml.Text F64 :=
  .of [("servers", .arrayOfTables (names.map savedTable))]

/-- **Editing and loading.**  The settings that are loaded after a command are those
from before it with what the command sets; keys that are not known stay. -/
theorem settings_of_matchOpt {floats : Floats} {machine : Machine} {file : File}
    {document : Document} {text : Toml.Text F64} {command : Command} {outcome : Outcome}
    {config config' : Config} (hparse : file.parse = some document)
    (hload : fromDocument floats document = some config)
    (h : matchOpt floats machine file command = .ok outcome) (hok : outcome.result = .ok ())
    (hfile : outcome.file = .text text) (hload' : fromDocument floats text.1 = some config') :
    Settings.of config' text.1 = command.apply floats (Settings.of config document) := by
  obtain ⟨edited, hcase, hsaves⟩ := edits_of_ok hparse hload h hok
  rw [hfile] at hsaves
  rcases edited with _ | edited
  · -- the file is as it was
    rw [← show File.text text = file from hsaves] at hparse
    cases hparse
    cases hload.symm.trans hload'
    exact (hcase.apply_eq _).symm
  · rcases hsaves with hsaves | ⟨-, hsaves⟩
    · cases hsaves
      have hdocument := File.dropEmpty_of_parse hparse
      by_cases hport : command.PortInRange
      · obtain ⟨config'', hload'', hreads⟩ := hcase.reads hdocument hload hport
        cases hload''.symm.trans hload'
        exact hreads
      · cases (hcase.fromDocument_eq_none hdocument hload hport).symm.trans hload'
    · cases hsaves

theorem settings_of_matchOpt_host :
    ∃ outcome text config',
      matchOpt noFloats .writable (.text (savedServers ["home", "work"]))
        (.server (.config (some "work") (some "host") (some "example.org"))) = .ok outcome ∧
      outcome.file = .text text ∧ fromDocument noFloats text.1 = some config' ∧
      (Settings.of config' text.1).servers =
        [(⟨"home", "localhost", none, none, none, none⟩, [("color", .value (.string "red"))]),
          (⟨"work", "example.org", none, none, none, none⟩,
            [("color", .value (.string "red"))])] := by
  have hload : fromDocument noFloats (savedServers ["home", "work"]).1 = some _ := rfl
  have hrun : matchOpt noFloats .writable (.text (savedServers ["home", "work"]))
      (.server (.config (some "work") (some "host") (some "example.org"))) = .ok _ := rfl
  refine ⟨_, .of _, _, hrun, rfl, rfl, ?_⟩
  rw [settings_of_matchOpt rfl hload hrun rfl rfl rfl]
  rfl

/-! ## Runs of commands -/

/-- What a step from a file that loads comes to: nothing is written, or an edit is. -/
inductive StepCase (floats : Floats) (file : File) (document : Document) (config : Config)
    (command : Command) : File → Prop
  | quiet (hport : command.PortInRange)
      (hcommand : ∀ oldName newName, command ≠ .server (.rename oldName newName)) :
      StepCase floats file document config command file
  | writes {edited : Document} (hcase : EditCase floats document config command (some edited)) :
      StepCase floats file document config command (.text (.of edited))

theorem step_cases {floats : Floats} {file file' : File} {label : Machine × Command}
    (hstep : Step floats file label file') :
    ∃ document config, file.parse = some document ∧ fromDocument floats document = some config ∧
      StepCase floats file document config label.2 file' := by
  obtain ⟨outcome, houtcome, hok, rfl⟩ := hstep
  obtain ⟨machine, command⟩ := label
  obtain ⟨document, config, hparse, hload⟩ := load_of_matchOpt houtcome hok
  obtain ⟨edited, hcase, hsaves⟩ := edits_of_ok hparse hload houtcome hok
  refine ⟨document, config, hparse, hload, ?_⟩
  rcases edited with _ | edited
  · rw [show outcome.file = file from hsaves]
    refine .quiet hcase.portInRange ?_
    intro oldName newName heq
    rw [heq] at hcase
    cases hcase
  · rcases hsaves with hsaves | ⟨rfl, hsaves⟩
    · rw [hsaves]
      exact .writes hcase
    · -- without a file there are no servers to edit
      cases hparse
      rw [hsaves]
      refine .quiet ?_ ?_
      · cases hcase with
        | set hparse htables => cases htables
        | rename | add | remove | inputVolume | outputVolume | allow => trivial
      · intro oldName newName heq
        rw [heq] at hcase
        cases hcase with
        | rename htables => cases htables

/-- The file can be loaded. -/
def File.Loads (floats : Floats) (file : File) : Prop := ∃ config, file.load floats = some config

/-- An edit that is written can be loaded exactly if a port is in the range. -/
theorem loads_edit_iff {floats : Floats} {file : File} {document edited : Document}
    {config : Config} {command : Command} (hparse : file.parse = some document)
    (hload : fromDocument floats document = some config)
    (hcase : EditCase floats document config command (some edited)) :
    File.Loads floats (.text (.of edited)) ↔ command.PortInRange := by
  have hdocument := File.dropEmpty_of_parse hparse
  constructor
  · rintro ⟨config', hload'⟩
    by_contra hport
    cases (hcase.fromDocument_eq_none hdocument hload hport).symm.trans hload'
  · intro hport
    obtain ⟨config', hload', -⟩ := hcase.reads hdocument hload hport
    exact ⟨config', hload'⟩

/-- **Files that load.**  Commands that succeed leave a file that can be loaded
exactly as long as every port that is set is one. -/
theorem loads_of_run {floats : Floats} {file : File} {trace : List ((Machine × Command) × File)}
    (hload : file.Loads floats) (hrun : Run (Step floats) file trace) :
    AllSteps (fun _ _ file' => file'.Loads floats) file trace ↔
      AllSteps (fun _ label _ => label.2.PortInRange) file trace := by
  refine hrun.allSteps_iff (fun file => file.Loads floats) hload ?_ fun _ _ _ _ _ h => h
  intro file label file' hloads hstep
  obtain ⟨document, config, hparse, hload, hcase⟩ := step_cases hstep
  cases hcase with
  | quiet hport hcommand => exact iff_of_true hloads hport
  | writes hcase => exact loads_edit_iff hparse hload hcase

theorem loads_of_run_port :
    ∃ file', Run (Step noFloats) (.text (savedServers ["home"]))
        [((.writable, .server (.config (some "home") (some "port") (some "2000"))), file')] ∧
      file'.Loads noFloats := by
  have hload : File.Loads noFloats (.text (savedServers ["home"])) := ⟨_, rfl⟩
  have hrun : Run (Step noFloats) (.text (savedServers ["home"]))
      [((.writable, .server (.config (some "home") (some "port") (some "2000"))), _)] :=
    .cons ⟨_, rfl, rfl, rfl⟩ .nil
  refine ⟨_, hrun, ((loads_of_run hload hrun).mpr ⟨?_, trivial⟩).1⟩
  intro _ port hport
  cases (show parseI64 "2000" = some 2000 by decide).symm.trans hport
  decide

/-- The port is written, and nothing can be read after it. -/
theorem not_loads_port :
    ∃ file', File.Loads noFloats (.text (savedServers ["home"])) ∧
      Step noFloats (.text (savedServers ["home"]))
        (.writable, .server (.config (some "home") (some "port") (some "70000"))) file' ∧
      ¬ file'.Loads noFloats := by
  refine ⟨_, ⟨_, rfl⟩, ⟨_, rfl, rfl, rfl⟩, ?_⟩
  rintro ⟨config, hload⟩
  cases hload

/-! ## Names -/

/-- The names of the saved servers. -/
def names (config : Config) : List String := config.saved.map ServerConfig.name

/-- No two saved servers have the same name. -/
def File.NamesDistinct (floats : Floats) (file : File) : Prop :=
  ∀ config, file.load floats = some config → (names config).Nodup

/-- A new name is not the name of another server. -/
def Command.NewNameFree (floats : Floats) (file : File) : Command → Prop
  | .server (.rename oldName newName) =>
      ∀ config, file.load floats = some config → newName ∉ (names config).erase oldName
  | _ => True

/-- The names of the servers in settings. -/
def Settings.names (settings : Settings) : List String :=
  settings.servers.map fun e => e.1.name

theorem names_settings {floats : Floats} {document : Document} {config : Config}
    (hload : fromDocument floats document = some config) :
    (Settings.of config document).names = names config := by
  have hlength : config.saved.length = (serversUnknown document).length := by
    have hservers := (fromDocument_eq_some.mp hload).2.2
    cases hget : Entries.get document "servers" with
    | none =>
        rw [saved_of_missing hload hget, serversUnknown, hget]
        rfl
    | some item =>
        rw [Reader.optional, hget] at hservers
        obtain ⟨servers, hread, hsome⟩ := Option.map_eq_some_iff.mp hservers
        rw [Reader.seq] at hread
        split at hread
        next items hcontent =>
          have hitems : item.items = items := by rw [Item.items, hcontent]
          rw [serversUnknown, hget, Option.map_some, Option.getD_some, hitems, List.length_map,
            length_of_mapM hread, Config.saved, ← hsome, Option.getD_some]
        · cases hread
  have hzip : (config.saved.zip (serversUnknown document)).map Prod.fst = config.saved :=
    List.map_fst_zip (Nat.le_of_eq hlength)
  rw [Settings.names, names, ← hzip, List.map_map]
  rfl

theorem name_setKey {key value : String} {server server' : ServerConfig}
    (h : setKey key value server = some server') : server'.name = server.name := by
  unfold setKey at h
  split at h
  · cases h
    rfl
  · obtain ⟨port, -, rfl⟩ := Option.map_eq_some_iff.mp h
    rfl
  · cases h
    rfl
  · cases h
    rfl
  · obtain ⟨b, -, rfl⟩ := Option.map_eq_some_iff.mp h
    rfl
  · cases h

theorem names_updateServer (settings : Settings) (name : String) {f : ServerConfig → ServerConfig}
    (g : String → String) (hf : ∀ server, (f server).name = g server.name) :
    (settings.updateServer name f).names = updateFirst (· = name) g settings.names := by
  rw [Settings.names, Settings.names, Settings.updateServer]
  refine map_updateFirst (q := (· = name)) ?_ ?_ settings.servers
  · intro e
    rfl
  · intro e
    exact hf e.1

/-- Setting a key of a server keeps the names. -/
theorem names_setKey (settings : Settings) (name key value : String) :
    (settings.updateServer name fun server => (setKey key value server).getD server).names =
      settings.names := by
  have hname : ∀ server, ((setKey key value server).getD server).name = server.name := by
    intro server
    cases hserver : setKey key value server with
    | none => rfl
    | some server' => exact name_setKey hserver
  rw [names_updateServer settings name (fun name => name) hname]
  exact updateFirst_of_eq fun _ _ => rfl

theorem names_remove (settings : Settings) (name : String) :
    (settings.servers.eraseP fun e => e.1.name = name).map (fun e => e.1.name) =
      settings.names.erase name := by
  rw [Settings.names, List.erase_eq_eraseP, List.eraseP_map]
  congr 2
  funext e
  by_cases h : e.1.name = name <;> simp [h, Ne.symm]

section Distinct

variable {floats : Floats} {file : File} {document edited : Document} {config : Config}
  {command : Command}

/-- The names that are saved after an edit that can be read. -/
theorem namesDistinct_edit_iff (hparse : file.parse = some document)
    (hload : fromDocument floats document = some config)
    (hcase : EditCase floats document config command (some edited)) (hport : command.PortInRange) :
    File.NamesDistinct floats (.text (.of edited)) ↔
      (command.apply floats (Settings.of config document)).names.Nodup := by
  obtain ⟨config', hload', hreads⟩ := hcase.reads (File.dropEmpty_of_parse hparse) hload hport
  have hnames := names_settings hload'
  rw [hreads] at hnames
  rw [hnames]
  constructor
  · intro hdistinct
    exact hdistinct config' hload'
  · intro hnodup config'' hload''
    cases hload'.symm.trans hload''
    exact hnodup

/-- Only a new name for a server can bring a name twice. -/
theorem namesDistinct_iff_newNameFree (hparse : file.parse = some document)
    (hload : fromDocument floats document = some config) (hnodup : (names config).Nodup)
    (hcase : EditCase floats document config command (some edited)) :
    File.NamesDistinct floats (.text (.of edited)) ↔ command.NewNameFree floats file := by
  have hsettings := names_settings hload
  cases hcase with
  | @set name key value tables index table v hvalue htables hindex htable =>
      refine iff_of_true ?_ trivial
      by_cases hport :
          (Command.server (.config (some name) (some key) (some value))).PortInRange
      · rw [namesDistinct_edit_iff hparse hload (.set hvalue htables hindex htable) hport,
          Command.apply, names_setKey, hsettings]
        exact hnodup
      · -- nothing can be read
        intro config' hload'
        cases ((EditCase.set hvalue htables hindex htable).fromDocument_eq_none
          (File.dropEmpty_of_parse hparse) hload hport).symm.trans hload'
  | @rename oldName newName tables index table htables hindex htable =>
      have hfound : oldName ∈ names config := by
        obtain ⟨hlt, hname, -⟩ := List.findIdx?_eq_some_iff_getElem.mp hindex
        exact List.mem_map.mpr ⟨_, List.getElem_mem hlt, of_decide_eq_true hname⟩
      rw [namesDistinct_edit_iff hparse hload (.rename htables hindex htable) trivial,
        Command.apply, names_updateServer _ oldName (fun _ => newName) fun _ => rfl,
        hsettings, nodup_updateFirst_iff hnodup hfound, Command.NewNameFree]
      have hfile : file.load floats = some config := by
        rw [File.load, hparse]
        exact hload
      constructor
      · intro hfree config' hload'
        cases hfile.symm.trans hload'
        exact hfree
      · intro hfree
        exact hfree config hfile
  | @add name host port username password tables hnew htables hget =>
      refine iff_of_true ?_ trivial
      rw [namesDistinct_edit_iff hparse hload (.add hnew htables hget) trivial, Command.apply,
        Settings.names, List.map_append]
      refine List.nodup_append.mpr ⟨?_, by simp, ?_⟩
      · rw [← Settings.names, hsettings]
        exact hnodup
      · intro name' hname' name'' hname''
        rw [← Settings.names, hsettings] at hname'
        obtain ⟨server, hserver, rfl⟩ := List.mem_map.mp hname'
        rw [List.mem_singleton.mp hname'']
        exact hnew server hserver
  | @remove name tables index htables hindex =>
      refine iff_of_true ?_ trivial
      rw [namesDistinct_edit_iff hparse hload (.remove htables hindex) trivial, Command.apply,
        Settings.names, names_remove, hsettings]
      exact hnodup.erase name
  | @inputVolume value volume audio hvalue haudio =>
      refine iff_of_true ?_ trivial
      rw [namesDistinct_edit_iff hparse hload (.inputVolume hvalue haudio) trivial,
        Command.apply, hvalue, Option.elim_some]
      exact hsettings ▸ hnodup
  | @outputVolume value volume audio hvalue haudio =>
      refine iff_of_true ?_ trivial
      rw [namesDistinct_edit_iff hparse hload (.outputVolume hvalue haudio) trivial,
        Command.apply, hvalue, Option.elim_some]
      exact hsettings ▸ hnodup
  | @allow value b hvalue =>
      refine iff_of_true ?_ trivial
      rw [namesDistinct_edit_iff hparse hload (.allow hvalue) trivial, Command.apply, hvalue,
        Option.elim_some]
      exact hsettings ▸ hnodup

end Distinct

/-- **Distinct names.**  Commands that succeed leave the names of the saved servers
distinct exactly as long as no server is renamed to the name of another. -/
theorem namesDistinct_of_run {floats : Floats} {file : File}
    {trace : List ((Machine × Command) × File)} (hnames : file.NamesDistinct floats)
    (hrun : Run (Step floats) file trace) :
    AllSteps (fun _ _ file' => file'.NamesDistinct floats) file trace ↔
      AllSteps (fun file label _ => label.2.NewNameFree floats file) file trace := by
  refine hrun.allSteps_iff (fun file => file.NamesDistinct floats) hnames ?_ fun _ _ _ _ _ h => h
  intro file label file' hnames hstep
  obtain ⟨document, config, hparse, hload, hcase⟩ := step_cases hstep
  have hfile : file.load floats = some config := by
    rw [File.load, hparse]
    exact hload
  obtain ⟨machine, command⟩ := label
  cases hcase with
  | quiet hport hcommand =>
      refine iff_of_true hnames ?_
      cases command with
      | server server =>
          cases server with
          | rename oldName newName => exact absurd rfl (hcommand oldName newName)
          | add | config | remove => trivial
      | config key value => trivial
  | writes hcase => exact namesDistinct_iff_newNameFree hparse hload (hnames config hfile) hcase

theorem namesDistinct_of_run_rename :
    ∃ file' file'', Run (Step noFloats) (.text (savedServers ["home"]))
        [((.writable, .server (.add "work" "localhost" none none none)), file'),
          ((.writable, .server (.rename "work" "cabin")), file'')] ∧
      file''.NamesDistinct noFloats := by
  have hnames : File.NamesDistinct noFloats (.text (savedServers ["home"])) := by
    intro config hload
    cases hload
    decide
  have hrun : Run (Step noFloats) (.text (savedServers ["home"]))
      [((.writable, .server (.add "work" "localhost" none none none)), _),
        ((.writable, .server (.rename "work" "cabin")), _)] :=
    .cons ⟨_, rfl, rfl, rfl⟩ (.cons ⟨_, rfl, rfl, rfl⟩ .nil)
  refine ⟨_, _, hrun, ((namesDistinct_of_run hnames hrun).mpr ⟨trivial, ?_, trivial⟩).2.1⟩
  intro config hload
  cases hload
  decide

/-- A server takes the name of another. -/
theorem not_namesDistinct_rename :
    ∃ file', File.NamesDistinct noFloats (.text (savedServers ["home", "work"])) ∧
      Step noFloats (.text (savedServers ["home", "work"]))
        (.writable, .server (.rename "work" "home")) file' ∧
      ¬ file'.NamesDistinct noFloats := by
  refine ⟨_, ?_, ⟨_, rfl, rfl, rfl⟩, ?_⟩
  · intro config hload
    cases hload
    decide
  · intro hdistinct
    exact absurd (hdistinct _ rfl) (by decide)

end Mum.Ctl
