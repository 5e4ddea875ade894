import Mum.Library.Eval
import Mum.Mumlib.Command
import Mum.Mumlib.ReadConfig

/-!
# Editing the configuration file

The commands of `mumctl` that edit the configuration: `server add`, `config`,
`rename` and `remove` of `match_server_command`, and `config` of `match_opt`.

All of them are looked up in the `Config` that was read from the file, and edit the
document that it was read from.  What a file says is kept as its document; the
dialogue about a file that does not exist is left out, except for its answer.
-/

namespace Mum.Ctl

open Library Library.Eval Library.Toml Mumlib

inductive CliError
  | connectionError
  | noServerFound (name : String)
  | notSet (key : String)
  | useServerRename
  | configKeyNotFound (key : String)
  | serverAlreadyExists (name : String)
deriving DecidableEq, Repr

/-- Why a command fails. -/
inductive Error
  | cli (e : CliError)
  /-- The daemon refused a command. -/
  | daemon (e : Mumlib.Error)
  /-- The file could not be parsed, or not be read as a `Config`. -/
  | toml
  /-- The file could not be written. -/
  | io
deriving DecidableEq, Repr

/-- The commands on saved servers that edit. -/
inductive Server
  | add (name host : String) (port : Option UInt16) (username password : Option String)
  | config (serverName key value : Option String)
  | rename (oldName newName : String)
  | remove (name : String)
deriving DecidableEq, Repr

inductive Command
  | server (command : Server)
  | config (key value : String)
deriving DecidableEq, Repr

/-! ## The file -/

/-- The configuration file. -/
inductive File
  | missing
  /-- It cannot be read as a string. -/
  | unreadable
  /-- It is no TOML. -/
  | malformed
  | text (content : Toml.Text F64)

/-- `read_to_string(..).unwrap_or_else(..).parse()`. -/
def File.parse : File → Option Document
  | missing | unreadable => some []
  | malformed => none
  | text content => some content.1

/-- What `mumctl` meets on the machine it runs on. -/
structure Machine where
  /-- The answer is `n` when it asks whether to create the file. -/
  declines : Bool
  /-- `std::fs::write` succeeds; the file stays as it was when not. -/
  writes : Bool
  /-- `send_command`. -/
  sendCommand : Mumlib.Command → Except CliError Response

def maybeWriteConfig (machine : Machine) (file : File) (document : Document) :
    Except Error File :=
  match file with
  | .missing =>
      if machine.declines then .ok file
      else if machine.writes then .ok (.text (.of document)) else .error .io
  | _ => if machine.writes then .ok (.text (.of document)) else .error .io

/-- What a command comes to: the file after it, its result, and the lines that are
printed. -/
structure Outcome where
  file : File
  result : Except Error Unit
  output : List String := []

/-- The command fails before it writes. -/
def refuse (file : File) (e : Error) : Outcome := ⟨file, .error e, []⟩

def print (file : File) (lines : List String) : Outcome := ⟨file, .ok (), lines⟩

/-- The command ends with writing the document. -/
def save (machine : Machine) (file : File) (document : Document) : Outcome :=
  match maybeWriteConfig machine file document with
  | .ok file => ⟨file, .ok (), []⟩
  | .error e => refuse file e

/-! ## Strings as values -/

/-- The number that decimal digits stand for. -/
def parseDigits (digits : List Char) : Option ℕ :=
  if digits = [] ∨ digits.any (!·.isDigit) then none
  else some (digits.foldl (fun n c => 10 * n + (c.toNat - 48)) 0)

/-- `str::parse::<i64>`. -/
def parseI64 (s : String) : Option Int := do
  let i : Int ← match s.toList with
    | '-' :: digits => (parseDigits digits).map fun n => -(n : Int)
    | '+' :: digits => (parseDigits digits).map fun n => (n : Int)
    | digits => (parseDigits digits).map fun n => (n : Int)
  if -9223372036854775808 ≤ i ∧ i < 9223372036854775808 then some i else none

/-- `str::parse::<bool>`. -/
def parseBool (s : String) : Option Bool :=
  if s = "true" then some true else if s = "false" then some false else none

/-- The table that `add` pushes, `to_item(..).into_table()`. -/
def tableOf (server : ServerConfig) : Toml.Table F64 :=
  [("name", .value (.string server.name)), ("host", .value (.string server.host))] ++
    (server.port.map fun port => ("port", .value (.integer port.toNat))).toList ++
    (server.username.map fun username => ("username", .value (.string username))).toList ++
    (server.password.map fun password => ("password", .value (.string password))).toList ++
    (server.acceptInvalidCert.map fun b => ("accept_invalid_cert", .value (.boolean b))).toList

/-! ## `server config` -/

/-- All that is set for a server. -/
def describe (server : ServerConfig) : List String :=
  ["host: " ++ server.host] ++
    (server.port.map fun port => "port: " ++ toString port.toNat).toList ++
    (server.username.map fun username => "username: " ++ username).toList ++
    (server.password.map fun password => "password: " ++ password).toList ++
    (server.acceptInvalidCert.map fun b => "accept_invalid_cert: " ++ toString b).toList

/-- A key of a server, as it is printed. -/
def lookUp (server : ServerConfig) (key : String) : Except CliError String :=
  match key with
  | "name" => .ok server.name
  | "host" => .ok server.host
  | "port" => (server.port.map fun port => toString port.toNat).elim (.error (.notSet "port")) .ok
  | "username" => server.username.elim (.error (.notSet "username")) .ok
  | "password" => server.password.elim (.error (.notSet "password")) .ok
  | "accept_invalid_cert" =>
      (server.acceptInvalidCert.map toString).elim (.error (.notSet "accept_invalid_cert")) .ok
  | key => .error (.configKeyNotFound key)

/-- What a string is for a key of a server. -/
inductive Parsed
  | value (v : Value F64)
  | warning (text : String)
  | error (e : CliError)

def parseValue (key value : String) : Eval Parsed :=
  match key with
  | "name" => .ok (.error .useServerRename)
  | "host" => .ok (.value (.string value))
  | "port" => do
      let port ← unwrap (parseI64 value)
      .ok (.value (.integer port))
  | "username" => .ok (.value (.string value))
  | "password" => .ok (.value (.string value))
  | "accept_invalid_cert" =>
      match parseBool value with
      | some b => .ok (.value (.boolean b))
      | none => .ok (.warning "provided string was not `true` or `false`")
  | key => .ok (.error (.configKeyNotFound key))

/-- `document["servers"].as_array_of_tables_mut().unwrap()`. -/
def serverTables (document : Document) : Eval (List (Toml.Table F64)) :=
  match Entries.get document "servers" with
  | some (.arrayOfTables tables) => .ok tables
  | _ => .error .panic

def setServerTables (document : Document) (tables : List (Toml.Table F64)) : Document :=
  Entries.set document "servers" (.arrayOfTables tables)

/-- The first saved server with the name, and its place. -/
def findServer (config : Config) (name : String) : Option (ServerConfig × ℕ) :=
  config.saved.zipIdx.find? fun e => e.1.name = name

/-- `Server::Config` for the server at a place. -/
def configServer (machine : Machine) (file : File) (document : Document) (server : ServerConfig)
    (index : ℕ) (key value : Option String) : Eval Outcome := do
  -- the table is looked up also when nothing is set
  let tables ← serverTables document
  let table ← unwrap tables[index]?
  match key, value with
  | none, _ => .ok (print file (describe server))
  | some key, none =>
      match lookUp server key with
      | .ok text => .ok (print file [text])
      | .error e => .ok (refuse file (.cli e))
  | some key, some value => do
      match ← parseValue key value with
      | .value v =>
          let table := Entries.set table key (.value v)
          .ok (save machine file (setServerTables document (tables.set index table)))
      | .warning text => .ok (print file [text])
      | .error e => .ok (refuse file (.cli e))

/-! ## The other commands -/

/-- The first table with the name; a table without a name that is a string is a
failed `unwrap`. -/
def findTable (name : String) : List (Toml.Table F64) → Eval (Option ℕ)
  | [] => .ok none
  | table :: rest => do
      let item ← unwrap (Entries.get table "name")
      let text ← unwrap (Reader.string item)
      if text = name then return some 0
      else return (← findTable name rest).map (· + 1)

def matchServerCommand (machine : Machine) (file : File) (config : Config)
    (document : Document) : Server → Eval Outcome
  | .config none _ _ => .ok (print file (config.saved.map ServerConfig.name))
  | .config (some serverName) key value =>
      match findServer config serverName with
      | none => .ok (refuse file (.cli (.noServerFound serverName)))
      | some (server, index) => configServer machine file document server index key value
  | .rename oldName newName => do
      let tables ← serverTables document
      match ← findTable oldName tables with
      | none => .ok (refuse file (.cli (.noServerFound oldName)))
      | some index =>
          let table ← unwrap tables[index]?
          let table := Entries.set table "name" (.value (.string newName))
          .ok (save machine file (setServerTables document (tables.set index table)))
  | .add name host port username password =>
      if config.saved.any (·.name = name) then
        .ok (refuse file (.cli (.serverAlreadyExists name)))
      else do
        let table := tableOf ⟨name, host, port, username, password, none⟩
        let tables ← match Entries.get document "servers" with
          | none => .ok []
          | some _ => serverTables document
        .ok (save machine file (setServerTables document (tables ++ [table])))
  | .remove name =>
      match config.saved.findIdx? (·.name = name) with
      | none => .ok (refuse file (.cli (.noServerFound name)))
      | some index => do
          let tables ← serverTables document
          let _ ← unwrap tables[index]?
          .ok (save machine file (setServerTables document (tables.eraseIdx index)))

/-- A volume is told to the daemon before it is stored. -/
def configVolume (floats : Floats) (machine : Machine) (file : File) (document : Document)
    (key : String) (command : F32 → Mumlib.Command) (value : String) : Eval Outcome :=
  match floats.parse value with
  | none => .ok (print file [])
  | some volume =>
      match machine.sendCommand (command (floats.ofF64 volume)) with
      | .error e => .ok (refuse file (.cli e))
      | .ok (.error e) => .ok (refuse file (.daemon e))
      | .ok (.ok _) => do
          let audio := (Entries.get document "audio").getD (.table [])
          let audio ← unwrap (audio.setValue key (.float volume))
          .ok (save machine file (Entries.set document "audio" audio))

def matchConfig (floats : Floats) (machine : Machine) (file : File) (document : Document)
    (key value : String) : Eval Outcome :=
  match key with
  | "audio.input_volume" =>
      configVolume floats machine file document "input_volume" .inputVolumeSet value
  | "audio.output_volume" =>
      configVolume floats machine file document "output_volume" .outputVolumeSet value
  | "accept_all_invalid_certs" =>
      match parseBool value with
      | none => .ok (print file [])
      | some b => .ok (save machine file
          (Entries.set document "allow_invalid_server_cert" (.value (.boolean b))))
  | key => .ok (refuse file (.cli (.configKeyNotFound key)))

/-- `match_opt`. -/
def matchOpt (floats : Floats) (machine : Machine) (file : File) (command : Command) :
    Eval Outcome :=
  match file.parse with
  | none => .ok (refuse file .toml)
  | some document =>
      match fromDocument floats document with
      | none => .ok (refuse file .toml)
      | some config =>
          match command with
          | .server command => matchServerCommand machine file config document command
          | .config key value => matchConfig floats machine file document key value

end Mum.Ctl
