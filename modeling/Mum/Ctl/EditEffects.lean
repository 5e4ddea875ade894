import Mum.Ctl.MatchOpt

/-!
# What the edits are for

After a run of edits the file says what the commands set, one after the other
(`says_of_run`).  So `mumctl` looks up in those settings whatever it looks up: `connect`
and `server list` see every edit, and so does the next edit, which finds its server
among the ones that the edits before it left.

## Strategy

A step keeps `File.Says`, with the command folded into the settings: this is
`edits_of_ok` with what each edit does to a document, and a run follows by induction.
For what a command makes of the file, `Opt.run_congr` goes through the commands and
shows that two things of a configuration are read, the saved servers and one flag; both
are the same in the configuration that was loaded and in the one that the settings are.
-/

namespace Mum.Ctl

open Library Library.Eval Library.Toml Mumlib

/-- What a file says. -/
def File.Says (floats : Floats) (file : File) (settings : Settings) : Prop :=
  ∃ document, file.parse = some document ∧ Reads floats document settings

/-- The configuration that settings are. -/
def Settings.config (settings : Settings) : Config :=
  ⟨settings.allowInvalidServerCert, settings.audio, some (settings.servers.map Prod.fst)⟩

/-- The settings after commands. -/
def Settings.applyAll (floats : Floats) (settings : Settings) (commands : List Command) :
    Settings :=
  commands.foldl (fun settings command => command.apply floats settings) settings

section Runs

variable {floats : Floats} {file file' : File} {settings : Settings}

/-- A file that is there stays there. -/
theorem Saves.ne_missing {edited : Option Document} (h : Saves file edited file')
    (hfile : file ≠ .missing) : file' ≠ .missing := by
  cases edited with
  | none =>
      rw [show file' = file from h]
      exact hfile
  | some edited =>
      rcases h with rfl | ⟨hmissing, -⟩
      · exact fun h => nomatch h
      · exact absurd hmissing hfile

/-- A command that succeeds on a file that is there. -/
theorem says_of_step {label : Machine × Command} (hfile : file ≠ .missing)
    (hsaid : file.Says floats settings) (hstep : Step floats file label file')
    (hport : label.2.PortInRange) :
    file' ≠ .missing ∧ file'.Says floats (label.2.apply floats settings) := by
  obtain ⟨outcome, houtcome, hok, rfl⟩ := hstep
  obtain ⟨document, hparse, config, hload, rfl⟩ := hsaid
  obtain ⟨edited, hcase, hsaves⟩ := edits_of_ok hparse hload houtcome hok
  refine ⟨hsaves.ne_missing hfile, ?_⟩
  rcases edited with _ | edited
  · rw [show outcome.file = file from hsaves, hcase.apply_eq]
    exact ⟨document, hparse, config, hload, rfl⟩
  · rcases hsaves with hsaves | ⟨hmissing, -⟩
    · rw [hsaves]
      exact ⟨dropEmpty edited, rfl,
        hcase.reads (File.dropEmpty_of_parse hparse) hload hport⟩
    · exact absurd hmissing hfile

theorem says_of_run {trace : List ((Machine × Command) × File)} (hfile : file ≠ .missing)
    (hsaid : file.Says floats settings) (hrun : Run (Step floats) file trace)
    (hports : ∀ entry ∈ trace, entry.1.2.PortInRange) :
    (final file trace).Says floats
      (settings.applyAll floats (trace.map fun entry => entry.1.2)) := by
  induction hrun generalizing settings with
  | nil => exact hsaid
  | cons hstep _ ih =>
      obtain ⟨hfile', hsaid'⟩ :=
        says_of_step hfile hsaid hstep (hports _ (List.mem_cons_self ..))
      exact ih hfile' hsaid' fun entry hmem => hports entry (List.mem_cons_of_mem _ hmem)

end Runs

/-! ## What `mumctl` makes of a file -/

section Commands

variable {floats : Floats} {file : File} {document : Document} {config config' : Config}

/-- The saved servers are those of the settings. -/
theorem saved_settings (hload : fromDocument floats document = some config) :
    (Settings.of config document).servers.map Prod.fst = config.saved := by
  have hnames := congrArg List.length (names_settings hload)
  rw [Settings.names, names, List.length_map, List.length_map] at hnames
  have hle : config.saved.length ≤ (serversUnknown document).length := by
    have hzip : (config.saved.zip (serversUnknown document)).length = config.saved.length := hnames
    rw [List.length_zip] at hzip
    omega
  exact List.map_fst_zip hle

/-- The `server` commands look at the saved servers only. -/
theorem matchServerCommand_congr (machine : Machine) (file : File) (document : Document)
    (hsaved : config.saved = config'.saved) (command : Server) :
    matchServerCommand machine file config document command =
      matchServerCommand machine file config' document command := by
  cases command with
  | config serverName key value =>
      cases serverName with
      | none => simp only [matchServerCommand, hsaved]
      | some serverName => simp only [matchServerCommand, findServer, hsaved]
  | rename oldName newName => rfl
  | add name host port username password => simp only [matchServerCommand, hsaved]
  | remove name => simp only [matchServerCommand, hsaved]

theorem runEdit_congr (machine : Machine) (file : File) (document : Document)
    (hsaved : config.saved = config'.saved) (command : Command) :
    runEdit floats machine file document config command =
      runEdit floats machine file document config' command := by
  cases command with
  | server command => exact matchServerCommand_congr machine file document hsaved command
  | config key value => rfl

/-- A command looks at the servers and at one flag. -/
theorem Opt.run_congr (terminal : Terminal) (file : File) (document : Document)
    (hsaved : config.saved = config'.saved)
    (hallow : config.allowInvalidServerCert = config'.allowInvalidServerCert) (opt : Opt) :
    opt.run floats terminal file document config =
      opt.run floats terminal file document config' := by
  cases opt with
  | connect host username password port acceptInvalidCert =>
      simp only [Opt.run, connectCommand, hsaved, hallow]
  | edit command => simp only [Opt.run, runEdit_congr _ file document hsaved command]
  | serverList => simp only [Opt.run, Ctl.serverList, hsaved]
  | channel command => cases command <;> rfl
  | mute user | unmute user => cases user <;> rfl
  | volume user amount => cases amount <;> rfl
  | _ => rfl

/-- The configuration that was loaded, replaced by the one that the settings are. -/
theorem matchOpt_of_reads {settings : Settings} (hparse : file.parse = some document)
    (hreads : Reads floats document settings) (terminal : Terminal) (opt : Opt) :
    opt.matchOpt floats terminal file =
      opt.run floats terminal file document settings.config := by
  obtain ⟨config, hload, rfl⟩ := hreads
  rw [Opt.matchOpt_eq_run hparse hload]
  refine Opt.run_congr terminal file document ?_ ?_ opt
  · exact (saved_settings hload).symm
  · rfl

end Commands

/-- **Edits take effect.**  After any commands that edited a file, in which no port was
too large, the document of the file reads as the settings that they set, and `mumctl`
does with it what it does with the configuration that these are.  The next edit, too,
looks its server up among them. -/
theorem matchOpt_of_run {floats : Floats} {file : File} {settings : Settings}
    {trace : List ((Machine × Command) × File)} (hfile : file ≠ .missing)
    (hsaid : file.Says floats settings) (hrun : Run (Step floats) file trace)
    (hports : ∀ entry ∈ trace, entry.1.2.PortInRange) :
    ∃ document, (final file trace).parse = some document ∧
      Reads floats document
        (settings.applyAll floats (trace.map fun entry => entry.1.2)) ∧
      ∀ (terminal : Terminal) (opt : Opt), opt.matchOpt floats terminal (final file trace) =
        opt.run floats terminal (final file trace) document
          (settings.applyAll floats (trace.map fun entry => entry.1.2)).config := by
  obtain ⟨document, hparse, hreads⟩ := says_of_run hfile hsaid hrun hports
  exact ⟨document, hparse, hreads, matchOpt_of_reads hparse hreads⟩

/-- A port and a name are saved for a server: `connect` sends both, and `server config`
finds the server and prints the port. -/
theorem matchOpt_of_run_home :
    ∃ trace, Run (Step noFloats) (.text (savedServers ["home"])) trace ∧ ∀ terminal,
      (Opt.connect "home" none none (some 1) false).matchOpt noFloats terminal
          (final (.text (savedServers ["home"])) trace) =
        connect terminal (final (.text (savedServers ["home"])) trace)
          (.serverConnect "localhost" 2000 "me" none false) false ∧
      (Opt.edit (.server (.config (some "home") (some "port") none))).matchOpt noFloats terminal
          (final (.text (savedServers ["home"])) trace) =
        .ok { file := final (.text (savedServers ["home"])) trace, result := .ok (),
              output := ["2000"] } := by
  have hrun : Run (Step noFloats) (.text (savedServers ["home"]))
      [((.writable, .server (.config (some "home") (some "port") (some "2000"))), _),
        ((.writable, .server (.config (some "home") (some "username") (some "me"))), _)] :=
    .cons ⟨_, rfl, rfl, rfl⟩ (.cons ⟨_, rfl, rfl, rfl⟩ .nil)
  have hfile : File.text (savedServers ["home"]) ≠ .missing := fun h => nomatch h
  obtain ⟨document, hparse, -, hmatch⟩ :=
    matchOpt_of_run hfile ⟨_, rfl, _, rfl, rfl⟩ hrun (by
      intro entry hmem
      rcases List.mem_pair.mp hmem with rfl | rfl
      · intro _ port hport
        cases (show parseI64 "2000" = some 2000 by decide).symm.trans hport
        decide
      · intro hkey
        exact absurd hkey (by decide))
  obtain rfl := Option.some.inj hparse
  exact ⟨_, hrun, fun terminal => ⟨(hmatch terminal _).trans rfl, (hmatch terminal _).trans rfl⟩⟩

end Mum.Ctl
