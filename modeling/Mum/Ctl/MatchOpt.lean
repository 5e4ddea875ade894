import Mum.Ctl.EditRuns
import Mum.Ctl.Status

/-!
# The commands of `mumctl`

`match_opt` with every command.  The file is read once: the document and the
configuration that was made of it are handed to the command.  `config` and `server`
edit the document, as in `Ctl.matchOpt` (`matchOpt_edit`), and look servers up in the
configuration; the others ask the daemon, print what it answers, and leave the file
alone.

An answer of the wrong kind is an `unreachable!`.  Colours, and the prefixes of
errors and warnings, are left out of what is printed.

## Strategy

`Opt.run` is split by the commands, and each command that does more than to send one
order has a definition of its own (`connect`, `serverList`, `printAll`, `runEdit`).
What is said elsewhere of `match_opt` is said of these first.
-/

namespace Mum.Ctl

open Library Library.Eval Mumlib

/-- `mumlib::DEFAULT_PORT`. -/
def defaultPort : UInt16 := 64738

def CliError.display : CliError → String
  | connectionError => "Unable to connect to mumd. Is mumd running?"
  | noServerFound s => "Server '" ++ s ++ "' not found"
  | notSet s => "Key '" ++ s ++ "' not set"
  | useServerRename => "Use 'server rename' instead"
  | configKeyNotFound s => "Key '" ++ s ++ "' not found"
  | serverAlreadyExists s => "A server named '" ++ s ++ "' already exists"

/-- `channel`. -/
inductive ChannelCommand
  | connect (name : String)
  | list (short : Bool)
deriving DecidableEq, Repr

inductive Target
  | channel (message : String) (recursive : Bool) (names : List String)
  | user (message : String) (names : List String)
deriving DecidableEq, Repr

/-- `clap_complete::Shell`. -/
inductive Shell
  | bash
  | elvish
  | fish
  | powerShell
  | zsh
deriving DecidableEq, Repr

inductive Opt
  | channel (command : ChannelCommand)
  | completions (shell : Shell)
  | configReload
  | connect (host : String) (username password : Option String) (port : Option UInt16)
      (acceptInvalidCert : Bool)
  | deafen
  | disconnect
  /-- `config`, and every `server` command but `server list`. -/
  | edit (command : Command)
  | events (follow : Bool)
  | message (target : Target)
  | messages (follow : Bool)
  | mute (user : Option String)
  | serverList
  | status
  | undeafen
  | unmute (user : Option String)
  | volume (user : String) (volume : Option F32)
deriving DecidableEq, Repr

/-- Why a command fails. -/
inductive OptError
  | noUsername
  | noServers
  | error (e : Error)
deriving DecidableEq, Repr

/-- What `mumctl` meets, with all its ways to ask the daemon. -/
structure Terminal extends Machine where
  /-- `send_command` on the thread of the server at a place. -/
  spawned : ℕ → Mumlib.Command → Except CliError Response
  /-- `send_command_multi`, with the responses up to the end of the stream. -/
  sendCommandMulti : Mumlib.Command → Except CliError (List Response)
  /-- A time as `%d %b %H:%M`. -/
  format : NaiveDateTime → String
  /-- The script that `clap_complete::generate` makes of the commands. -/
  generate : Shell → List String

/-- Commands with one response are answered so, and others not at all. -/
def Terminal.answering (sendCommand : Mumlib.Command → Except CliError Response) : Terminal where
  declines := false
  writes := true
  sendCommand := sendCommand
  spawned := fun _ _ => .error .connectionError
  sendCommandMulti := fun _ => .error .connectionError
  format := fun _ => ""
  generate := fun _ => []

/-- What a command comes to: the file after it, its result, the lines that are printed,
and those that go to the standard error. -/
structure OptOutcome where
  file : File
  result : Except OptError Unit
  output : List String := []
  help : List String := []

/-- What `??` makes of an answer of the daemon. -/
def answer : Except CliError Response → Except OptError (Option CommandResponse)
  | .error e => .error (.error (.cli e))
  | .ok (.error e) => .error (.error (.daemon e))
  | .ok (.ok response) => .ok response

/-- `send_command(..)??`, without a look at the response. -/
def order (terminal : Terminal) (file : File) (command : Mumlib.Command) : OptOutcome :=
  match answer (terminal.sendCommand command) with
  | .error e => { file := file, result := .error e }
  | .ok _ => { file := file, result := .ok () }

/-! ## `connect` -/

/-- What `connect` sends, and whether anybody says what to do about an invalid
certificate.  What is saved for a server comes before what the command line says,
except for the certificate. -/
def connectCommand (config : Config) (host : String) (username password : Option String)
    (port : Option UInt16) (acceptInvalidCert : Bool) :
    Except OptError (Mumlib.Command × Bool) := do
  let port := port.getD defaultPort
  let (host, username, password, port, serverAcceptInvalidCert) ←
    match config.saved.find? fun e => e.name = host with
    | some server => do
        let username ← (server.username.or username).elim (.error .noUsername) .ok
        .ok (server.host, username, server.password.or password, server.port.getD port,
          server.acceptInvalidCert)
    | none => do
        let username ← username.elim (.error .noUsername) .ok
        .ok (host, username, password, port, none)
  let configAcceptInvalidCert := serverAcceptInvalidCert.or config.allowInvalidServerCert
  let specifiedAcceptInvalidCert := acceptInvalidCert || configAcceptInvalidCert.isSome
  .ok (.serverConnect host port username password
    (acceptInvalidCert || configAcceptInvalidCert.getD false), specifiedAcceptInvalidCert)

/-- The command in terms of the server that is saved under the name, if there is one. -/
theorem connectCommand_eq (config : Config) (host : String) (username password : Option String)
    (port : Option UInt16) (acceptInvalidCert : Bool) :
    connectCommand config host username password port acceptInvalidCert =
      let saved := config.saved.find? fun e => e.name = host
      let configAcceptInvalidCert :=
        (saved.bind ServerConfig.acceptInvalidCert).or config.allowInvalidServerCert
      match (saved.bind ServerConfig.username).or username with
      | none => .error .noUsername
      | some username => .ok (.serverConnect ((saved.map ServerConfig.host).getD host)
          ((saved.bind ServerConfig.port).getD (port.getD defaultPort)) username
          ((saved.bind ServerConfig.password).or password)
          (acceptInvalidCert || configAcceptInvalidCert.getD false),
          acceptInvalidCert || configAcceptInvalidCert.isSome) := by
  unfold connectCommand
  cases config.saved.find? fun e => e.name = host with
  | none => cases username <;> rfl
  | some server =>
      dsimp only [Option.bind_some, Option.map_some, Option.getD_some]
      cases server.username.or username <;> rfl

def certReject : String :=
  "Connection rejected since the server supplied an invalid certificate."

def certHelp : List String := [
  "help: If you trust this server anyway, you can do any of the following to connect:",
  "  1. Temporarily trust this server by passing --accept-invalid-cert when connecting.",
  "  2. Permanently trust this server by setting accept_invalid_cert=true in the server's config.",
  "  3. Permantently trust all invalid certificates by setting accept_all_invalid_certs=true " ++
    "globally"]

def connect (terminal : Terminal) (file : File) (command : Mumlib.Command)
    (specifiedAcceptInvalidCert : Bool) : Eval OptOutcome :=
  match terminal.sendCommand command with
  | .error e => .ok { file := file, result := .error (.error (.cli e)) }
  | .ok (.ok (some (.serverConnect welcomeMessage serverState))) => do
      let output ← parseState serverState
      let welcome := (welcomeMessage.map fun message => ["", "Welcome: " ++ message]).getD []
      .ok { file := file, result := .ok (), output := output ++ welcome }
  | .ok (.error .serverCertReject) =>
      .ok { file := file, result := .ok (), output := [certReject],
            help := if specifiedAcceptInvalidCert then [] else certHelp }
  | .ok (.ok _) => .error .panic
  | .ok (.error e) => .ok { file := file, result := .error (.error (.daemon e)) }

/-! ## `channel list` -/

/-- `INDENTATION`, so many times. -/
def indent (depth : ℕ) : String := String.join (List.replicate depth indentation)

def channelLine (depth : ℕ) (channel : Mumlib.Channel) : String :=
  indent depth ++ channel.name ++
    if channel.maxUsers ≠ 0 then
      " " ++ toString channel.users.length ++ "/" ++ toString channel.maxUsers.toNat
    else ""

def userLine (depth : ℕ) (user : Mumlib.User) : String :=
  indent (depth + 1) ++ "- " ++ user.display

/-- The lines of a channel itself. -/
def ownLines (depth : ℕ) (channel : Mumlib.Channel) : List String :=
  channelLine depth channel :: channel.users.map (userLine depth)

mutual

def printChannel (depth : ℕ) : Mumlib.Channel → List String
  | ⟨description, maxUsers, name, children, users, links⟩ =>
      ownLines depth ⟨description, maxUsers, name, children, users, links⟩ ++
        printChannels (depth + 1) children

/-- The children one after the other. -/
def printChannels (depth : ℕ) : List Mumlib.Channel → List String
  | [] => []
  | child :: rest => printChannel depth child ++ printChannels depth rest

end

/-! ## `server list` -/

def statusQuery (server : ServerConfig) : Mumlib.Command :=
  .serverStatus server.host (server.port.getD defaultPort)

/-- `{0:<1$}`: as many blanks as are missing to a number of characters. -/
def pad (width : ℕ) (s : String) : String := s.pushn ' ' (width - s.length)

/-- The width of the names.  `len` counts bytes. -/
def longest (servers : List ServerConfig) : Eval ℕ := do
  let bytes ← unwrap (servers.map fun s => s.name.utf8ByteSize).max?
  .ok (bytes + 1)

/-- The loop over the servers and the answers to their queries. -/
def listServers (longest : ℕ) :
    List (ServerConfig × Except CliError Response) → Eval (List String × Except OptError Unit)
  | [] => .ok ([], .ok ())
  | (server, .ok (.ok (some response))) :: rest =>
      match response with
      | .serverStatus _ users maxUsers _ => do
          let (output, result) ← listServers longest rest
          let line := pad longest server.name ++ " [" ++ toString users.toNat ++ "/" ++
            toString maxUsers.toNat ++ "]"
          .ok (line :: output, result)
      | _ => .error .panic
  | (server, .ok (.ok none)) :: rest => do
      let (output, result) ← listServers longest rest
      .ok ((pad longest server.name ++ " offline") :: output, result)
  | (_, .ok (.error e)) :: _ => .ok ([e.display], .error (.error (.daemon e)))
  | (_, .error e) :: _ => .ok ([e.display], .error (.error (.cli e)))

def serverList (terminal : Terminal) (file : File) (config : Config) : Eval OptOutcome :=
  if config.saved = [] then .ok { file := file, result := .error .noServers }
  else do
    let longest ← longest config.saved
    let queries := config.saved.mapIdx fun i server => terminal.spawned i (statusQuery server)
    let (output, result) ← listServers longest (config.saved.zip queries)
    .ok { file := file, result := result, output := output }

/-! ## `messages` and `events` -/

def messageLine (format : NaiveDateTime → String) : Response → Eval String
  | .ok (some (.pastMessage timestamp message user)) =>
      .ok ("[" ++ format timestamp ++ "] " ++ user ++ ": " ++ message)
  | .ok _ => .error .panic
  | .error e => .ok e.display

def eventLine (format : NaiveDateTime → String) : Response → Eval String
  | .ok (some (.event event)) => .ok (event.display format)
  | .ok _ => .error .panic
  | .error e => .ok e.display

/-- The loop over the responses, which goes on after an error. -/
def printAll (terminal : Terminal) (file : File) (command : Mumlib.Command)
    (line : Response → Eval String) : Eval OptOutcome :=
  match terminal.sendCommandMulti command with
  | .error e => .ok { file := file, result := .error (.error (.cli e)) }
  | .ok responses => do
      let output ← responses.mapM line
      .ok { file := file, result := .ok (), output := output }

/-! ## Every command -/

/-- The targets of `message channel`. -/
def channelTargets (recursive : Bool) (names : List String) : MessageTarget :=
  if names = [] then .channel [(.current, recursive)]
  else .channel (names.map fun name => (.named name, recursive))

def Target.command : Target → Mumlib.Command
  | channel message recursive names => .sendMessage message (channelTargets recursive names)
  | user message names => .sendMessage message (.user names)

/-- The commands that edit, on the document and the configuration of the file. -/
def runEdit (floats : Floats) (machine : Machine) (file : File) (document : Document)
    (config : Config) : Command → Eval Outcome
  | .server command => matchServerCommand machine file config document command
  | .config key value => matchConfig floats machine file document key value

/-- What `match_opt` does with a document and the configuration that was made of it. -/
def Opt.run (floats : Floats) (terminal : Terminal) (file : File) (document : Document)
    (config : Config) : Opt → Eval OptOutcome
  | connect host username password port acceptInvalidCert =>
      match connectCommand config host username password port acceptInvalidCert with
      | .error e => .ok { file := file, result := .error e }
      | .ok (command, specified) => Ctl.connect terminal file command specified
  | disconnect => .ok (order terminal file .serverDisconnect)
  | serverList => Ctl.serverList terminal file config
  | channel (.list _) =>
      match answer (terminal.sendCommand .channelList) with
      | .error e => .ok { file := file, result := .error e }
      | .ok (some (.channelList channels)) =>
          .ok { file := file, result := .ok (), output := printChannel 0 channels }
      | .ok _ => .error .panic
  | channel (.connect name) => .ok (order terminal file (.channelJoin name))
  | status =>
      match answer (terminal.sendCommand .status) with
      | .error e => .ok { file := file, result := .error e }
      | .ok (some (.status serverState)) => do
          let output ← parseState serverState
          .ok { file := file, result := .ok (), output := output }
      | .ok _ => .error .panic
  | edit command => do
      let outcome ← runEdit floats terminal.toMachine file document config command
      .ok { file := outcome.file, result := outcome.result.mapError .error,
            output := outcome.output }
  | configReload => .ok (order terminal file .configReload)
  | completions shell =>
      .ok { file := file, result := .ok (), output := terminal.generate shell }
  | volume user (some amount) => .ok (order terminal file (.userVolumeSet user amount))
  | volume _ none =>
      .ok { file := file, result := .ok (), output := ["Currently unimplemented"] }
  | mute (some user) => .ok (order terminal file (.muteOther user (some true)))
  | mute none => .ok (order terminal file (.muteSelf (some true)))
  | unmute (some user) => .ok (order terminal file (.muteOther user (some false)))
  | unmute none => .ok (order terminal file (.muteSelf (some false)))
  | deafen => .ok (order terminal file (.deafenSelf (some true)))
  | undeafen => .ok (order terminal file (.deafenSelf (some false)))
  | messages follow => printAll terminal file (.pastMessages follow) (messageLine terminal.format)
  | message target => .ok (order terminal file target.command)
  | events follow => printAll terminal file (.events follow) (eventLine terminal.format)

/-- `match_opt`. -/
def Opt.matchOpt (floats : Floats) (terminal : Terminal) (file : File) (opt : Opt) :
    Eval OptOutcome :=
  match file.parse with
  | none => .ok { file := file, result := .error (.error .toml) }
  | some document =>
      match fromDocument floats document with
      | none => .ok { file := file, result := .error (.error .toml) }
      | some config => opt.run floats terminal file document config

section Files

variable {floats : Floats} {file : File} {document : Document} {config : Config}

theorem matchOpt_eq_runEdit (hparse : file.parse = some document)
    (hload : fromDocument floats document = some config) (machine : Machine) (command : Command) :
    Ctl.matchOpt floats machine file command =
      runEdit floats machine file document config command := by
  rw [Ctl.matchOpt, hparse]
  dsimp only
  rw [hload]
  cases command <;> rfl

theorem Opt.matchOpt_eq_run (hparse : file.parse = some document)
    (hload : fromDocument floats document = some config) (terminal : Terminal) (opt : Opt) :
    opt.matchOpt floats terminal file = opt.run floats terminal file document config := by
  rw [Opt.matchOpt, hparse]
  dsimp only
  rw [hload]

/-- The commands that edit are those of `Ctl.matchOpt`. -/
theorem Opt.matchOpt_edit (floats : Floats) (terminal : Terminal) (file : File)
    (command : Command) :
    (Opt.edit command).matchOpt floats terminal file = (do
      let outcome ← Ctl.matchOpt floats terminal.toMachine file command
      .ok { file := outcome.file, result := outcome.result.mapError .error,
            output := outcome.output }) := by
  cases hparse : file.parse with
  | none =>
      rw [Opt.matchOpt, Ctl.matchOpt, hparse]
      rfl
  | some document =>
      cases hload : fromDocument floats document with
      | none =>
          rw [Opt.matchOpt, Ctl.matchOpt, hparse]
          dsimp only
          rw [hload]
          rfl
      | some config =>
          rw [Opt.matchOpt_eq_run hparse hload, matchOpt_eq_runEdit hparse hload, Opt.run]

end Files

end Mum.Ctl
