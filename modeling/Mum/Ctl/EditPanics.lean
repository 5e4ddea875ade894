import Mum.Ctl.EditRuns

/-!
# Commands that panic

Every command on a saved server takes the servers out of the document as an array of
tables, and unwraps.  A file may also say them as an inline array, or not at all,
and `Config` reads both.  `server config` unwraps the port as well.

The unwraps are on the way to the tables and on the way to the value, so the condition is
put together from `returns_serverTables_iff` and `returns_parseValue_iff`; in between, what
the command looks up in the `Config` it also finds in the tables (`exists_table`).
-/

namespace Mum.Ctl

open Library Library.Eval Library.Toml Mumlib

/-- The servers are written as `[[servers]]`. -/
def HasTables (document : Document) : Prop :=
  ∃ tables, Entries.get document "servers" = some (.arrayOfTables tables)

/-- The file has the shape that the command unwraps, as far as it comes to that, and
a port is an integer. -/
def Server.Fits (document : Document) (config : Config) : Server → Prop
  | .config none _ _ => True
  | .config (some name) key value =>
      name ∈ names config → HasTables document ∧
        (key = some "port" → ∀ port, value = some port → (parseI64 port).isSome)
  | .rename _ _ => HasTables document
  | .add name _ _ _ _ =>
      name ∉ names config → Entries.get document "servers" = none ∨ HasTables document
  | .remove name => name ∈ names config → HasTables document

section Returns

variable {floats : Floats} {machine : Machine} {file : File} {document : Document}
  {config : Config}

theorem returns_serverTables_iff : Returns (serverTables document) ↔ HasTables document := by
  constructor
  · rintro ⟨tables, htables⟩
    exact ⟨tables, serverTables_eq_ok.mp htables⟩
  · rintro ⟨tables, htables⟩
    exact ⟨tables, serverTables_eq_ok.mpr htables⟩

/-- A server is found if its name is among the names. -/
theorem findIdx?_isSome_iff {name : String} :
    (config.saved.findIdx? (·.name = name)).isSome ↔ name ∈ names config := by
  rw [List.findIdx?_isSome, List.any_eq_true, names, List.mem_map]
  simp

theorem returns_parseValue_iff {key value : String} :
    Returns (parseValue key value) ↔ (key = "port" → (parseI64 value).isSome) := by
  unfold parseValue
  split
  · exact iff_of_true (returns_ok _) (by simp)
  · exact iff_of_true (returns_ok _) (by simp)
  · cases parseI64 value with
    | none => exact iff_of_false (not_returns_error _) (by simp)
    | some port => exact iff_of_true (returns_ok _) (by simp)
  · exact iff_of_true (returns_ok _) (by simp)
  · exact iff_of_true (returns_ok _) (by simp)
  · split
    · exact iff_of_true (returns_ok _) (by simp)
    · exact iff_of_true (returns_ok _) (by simp)
  next hport _ _ _ => exact iff_of_true (returns_ok _) fun h => absurd h hport

/-- The table in the place of a server. -/
theorem exists_table (hload : fromDocument floats document = some config)
    {tables : List (Toml.Table F64)}
    (htables : Entries.get document "servers" = some (.arrayOfTables tables)) {name : String}
    {index : ℕ} (hindex : config.saved.findIdx? (·.name = name) = some index) :
    ∃ table, tables[index]? = some table := by
  have hlength := length_of_mapM (mapM_tables hload htables)
  obtain ⟨hlt, -⟩ := List.findIdx?_eq_some_iff_getElem.mp hindex
  exact ⟨_, List.getElem?_eq_getElem (hlength ▸ hlt)⟩

theorem returns_configServer_iff (hload : fromDocument floats document = some config)
    {name : String} {server : ServerConfig} {index : ℕ} {key value : Option String}
    (hindex : config.saved.findIdx? (·.name = name) = some index) :
    Returns (configServer machine file document server index key value) ↔
      HasTables document ∧
        (key = some "port" → ∀ port, value = some port → (parseI64 port).isSome) := by
  constructor
  · rintro ⟨outcome, h⟩
    obtain ⟨tables, htables, h⟩ := bind_eq_ok.mp h
    obtain ⟨table, -, h⟩ := bind_eq_ok.mp h
    refine ⟨returns_serverTables_iff.mp ⟨tables, htables⟩, ?_⟩
    rintro rfl port rfl
    obtain ⟨parsed, hparse, -⟩ := bind_eq_ok.mp h
    exact returns_parseValue_iff.mp ⟨parsed, hparse⟩ rfl
  · rintro ⟨⟨tables, htables⟩, hport⟩
    obtain ⟨table, htable⟩ := exists_table hload htables hindex
    simp only [configServer, serverTables_eq_ok.mpr htables, htable, unwrap_some, ok_bind]
    rcases key with _ | key
    · exact returns_ok _
    rcases value with _ | value
    · dsimp only
      split
      · exact returns_ok _
      · exact returns_ok _
    · obtain ⟨parsed, hparse⟩ : Returns (parseValue key value) :=
        returns_parseValue_iff.mpr fun hkey => hport (by rw [hkey]) value rfl
      simp only [hparse, ok_bind]
      cases parsed with
      | value v => exact returns_ok _
      | warning text => exact returns_ok _
      | error e => exact returns_ok _

theorem returns_matchServerCommand_iff (machine : Machine) (file : File)
    (hload : fromDocument floats document = some config) (command : Server) :
    Returns (matchServerCommand machine file config document command) ↔
      command.Fits document config := by
  cases command with
  | config serverName key value =>
      rcases serverName with _ | name
      · exact iff_of_true (returns_ok _) trivial
      · rw [matchServerCommand, Server.Fits, ← findIdx?_isSome_iff]
        cases hfind : findServer config name with
        | none =>
            have hnone := findServer_eq_none_iff.mp hfind
            refine iff_of_true (returns_ok _) ?_
            simp [hnone]
        | some entry =>
            obtain ⟨server, index⟩ := entry
            have hindex := (findServer_eq_some hfind).1
            rw [hindex]
            refine (returns_configServer_iff hload hindex).trans ?_
            exact ⟨fun h _ => h, fun h => h rfl⟩
  | rename oldName newName =>
      rw [matchServerCommand, Server.Fits, ← returns_serverTables_iff]
      refine returns_bind_iff fun tables htables => ?_
      rw [serverTables_eq_ok] at htables
      rw [findTable_eq (mapM_tables hload htables), ok_bind]
      cases hindex : config.saved.findIdx? (·.name = oldName) with
      | none => exact returns_ok _
      | some index =>
          obtain ⟨table, htable⟩ := exists_table hload htables hindex
          simp only [htable, unwrap_some, ok_bind]
          exact returns_ok _
  | add name host port username password =>
      rw [matchServerCommand, Server.Fits]
      by_cases hname : name ∈ names config
      · have hany : config.saved.any (·.name = name) := by
          rw [← List.findIdx?_isSome]
          exact findIdx?_isSome_iff.mpr hname
        rw [if_pos hany]
        exact iff_of_true (returns_ok _) fun h => absurd hname h
      · have hany : ¬ config.saved.any (·.name = name) := by
          rw [← List.findIdx?_isSome, findIdx?_isSome_iff]
          exact hname
        rw [if_neg hany]
        cases hget : Entries.get document "servers" with
        | none => exact iff_of_true (returns_ok _) fun _ => Or.inl rfl
        | some item =>
            refine (returns_bind_iff fun tables _ => returns_ok _).trans ?_
            rw [returns_serverTables_iff]
            simp [hname]
  | remove name =>
      rw [matchServerCommand, Server.Fits, ← findIdx?_isSome_iff]
      cases hindex : config.saved.findIdx? (·.name = name) with
      | none => exact iff_of_true (returns_ok _) (by simp)
      | some index =>
          refine (returns_bind_iff fun tables htables => ?_).trans ?_
          · obtain ⟨table, htable⟩ := exists_table hload (serverTables_eq_ok.mp htables) hindex
            simp only [htable, unwrap_some, ok_bind]
            exact returns_ok _
          · rw [returns_serverTables_iff]
            simp

/-- **Commands on saved servers.**  A command makes one of the edits, or fails and
leaves the file as it was, exactly when the file has the shape that it unwraps and
a port is an integer; otherwise it panics. -/
theorem completes_iff (machine : Machine) (hparse : file.parse = some document)
    (hload : fromDocument floats document = some config) (command : Server) :
    (∃ outcome, matchOpt floats machine file (.server command) = .ok outcome ∧
      (Edits floats file document config (.server command) outcome ∨ Kept file outcome)) ↔
      command.Fits document config := by
  have hmatch : matchOpt floats machine file (.server command) =
      matchServerCommand machine file config document command := by
    rw [matchOpt, hparse]
    dsimp only
    rw [hload]
  rw [← returns_matchServerCommand_iff machine file hload, ← hmatch]
  constructor
  · rintro ⟨outcome, houtcome, -⟩
    exact ⟨outcome, houtcome⟩
  · rintro ⟨outcome, houtcome⟩
    exact ⟨outcome, houtcome, edits_matchOpt hparse hload houtcome⟩

end Returns

theorem completes_rename :
    ∃ outcome document config,
      matchOpt noFloats .writable (.text (savedServers ["home"]))
        (.server (.rename "home" "cabin")) = .ok outcome ∧
      (Edits noFloats (.text (savedServers ["home"])) document config
          (.server (.rename "home" "cabin")) outcome ∨
        Kept (.text (savedServers ["home"])) outcome) := by
  have hparse : File.parse (.text (savedServers ["home"])) = some (savedServers ["home"]).1 := rfl
  have hload : fromDocument noFloats (savedServers ["home"]).1 = some _ := rfl
  obtain ⟨outcome, h⟩ :=
    (completes_iff .writable hparse hload (.rename "home" "cabin")).mpr ⟨_, rfl⟩
  exact ⟨outcome, _, _, h⟩

/-- The one saved server, written as an inline table of an inline array. -/
def inlineServer : Toml.Text F64 :=
  .of [("servers", .value (.array [.inlineTable
    [("name", .string "home"), ("host", .string "localhost")]]))]

/-- A port that is no number, a server of an inline array, and a file without
servers. -/
theorem matchOpt_panics :
    matchOpt noFloats .writable (.text (savedServers ["home"]))
        (.server (.config (some "home") (some "port") (some "http"))) = .error .panic ∧
      (fromDocument noFloats inlineServer.1).isSome ∧
      matchOpt noFloats .writable (.text inlineServer) (.server (.remove "home")) =
        .error .panic ∧
      matchOpt noFloats .writable .missing (.server (.rename "home" "cabin")) =
        .error .panic :=
  ⟨rfl, rfl, rfl, rfl⟩

end Mum.Ctl
