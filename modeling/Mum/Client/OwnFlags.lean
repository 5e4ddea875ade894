import Mum.Library.Echo
import Mum.Library.Transition
import Mum.Network.Tcp

/-!
# Our own mute and deaf flags

`MuteSelf` and `DeafenSelf` change `muted` and `deafened` of the
`ConnectedServer` at once and tell the server only what differs.  The server
couples its two flags, and echoes what it made of them; the echoes change our
entry in the user map and nothing else.

What we asked for is that the server has us muted if we are muted or deafened,
and deafened if we are deafened (`ConnectedServer.selfFlags`).  Every message
makes the new of the old flags asked for (`apply_selfMessage`), so the messages
and echoes on their way always lead there.

The server and the echoes are an instance of `Mum.Library.Echo`, whose `InFlight` says that
what is on its way, taken in order, leads to the flags asked for.  `Inv` adds what the
code needs to go on at all: our entry is there, and all echoes are about it.  A command
appends a message (`command_returns`), the server takes one and appends an echo
(`serve_returns`), and an echo is merged into our entry (`deliver_returns`).  None of these
panics and each keeps `Inv`; with nothing on its way `InFlight` is an equation.
-/

namespace Mum

open Library Library.Eval Library.Echo Msgs
open Mumlib (Command CommandResponse)

/-- The flags of a user that the user sets. -/
structure SelfFlags where
  mute : Bool
  deaf : Bool
deriving DecidableEq, Repr

namespace SelfFlags

def unset : SelfFlags := ⟨false, false⟩

/-- What the server makes of a message: who cannot hear cannot speak, and who can
speak can hear. -/
def apply (flags : SelfFlags) (msg : UserState) : SelfFlags :=
  let mute := if msg.selfDeaf = some true then some true else msg.selfMute
  let deaf := if mute = some false then some false else msg.selfDeaf
  ⟨mute.getD flags.mute, deaf.getD flags.deaf⟩

/-- What a packet about us says. -/
def merge (flags : SelfFlags) (msg : UserState) : SelfFlags :=
  ⟨msg.selfMute.getD flags.mute, msg.selfDeaf.getD flags.deaf⟩

/-- The packet carries no flag but the new ones, and all that have changed. -/
def Tells (flags flags' : SelfFlags) (msg : UserState) : Prop :=
  (msg.selfMute = some flags'.mute ∨ msg.selfMute = none ∧ flags'.mute = flags.mute) ∧
    (msg.selfDeaf = some flags'.deaf ∨ msg.selfDeaf = none ∧ flags'.deaf = flags.deaf)

instance (flags flags' : SelfFlags) (msg : UserState) : Decidable (Tells flags flags' msg) :=
  inferInstanceAs (Decidable (_ ∧ _))

theorem Tells.merge {flags flags' : SelfFlags} {msg : UserState} (h : Tells flags flags' msg) :
    flags.merge msg = flags' := by
  obtain ⟨hmute, hdeaf⟩ := h
  have hmute' : msg.selfMute.getD flags.mute = flags'.mute := by
    rcases hmute with hmute | ⟨hmute, hsame⟩
    · rw [hmute, Option.getD_some]
    · rw [hmute, Option.getD_none, hsame]
  have hdeaf' : msg.selfDeaf.getD flags.deaf = flags'.deaf := by
    rcases hdeaf with hdeaf | ⟨hdeaf, hsame⟩
    · rw [hdeaf, Option.getD_some]
    · rw [hdeaf, Option.getD_none, hsame]
  rw [SelfFlags.merge, hmute', hdeaf']

/-- Our messages are the updates, and the echoes the notes. -/
def protocol : Protocol SelfFlags UserState UserState := ⟨apply, merge⟩

end SelfFlags

def User.selfFlags (user : User) : SelfFlags := ⟨user.selfMute, user.selfDeaf⟩

/-- The flags that the server should have for us. -/
def ConnectedServer.selfFlags (s : ConnectedServer) : SelfFlags :=
  ⟨s.muted || s.deafened, s.deafened⟩

/-! ## What we tell the server -/

namespace State

/-- The flags that `MuteSelf` or `DeafenSelf` asks for; other commands are not
about our flags. -/
def selfAction (s : ConnectedServer) : Command → Option (Bool × Bool)
  | .muteSelf toggle => muteAction toggle s.muted s.deafened
  | .deafenSelf toggle => deafenAction toggle s.muted s.deafened
  | _ => none

/-- A message turns the flags that were asked for into those that are. -/
theorem apply_selfMessage {s : ConnectedServer} {command : Command} {mute deafen : Bool}
    (haction : selfAction s command = some (mute, deafen)) :
    s.selfFlags.apply (selfMessage s mute deafen) = ⟨mute || deafen, deafen⟩ := by
  have hmute : ∀ (toggle : Option Bool) (muted deafened : Bool),
      muteAction toggle muted deafened = some (mute, deafen) →
      s.muted = muted → s.deafened = deafened →
      s.selfFlags.apply (selfMessage s mute deafen) = ⟨mute || deafen, deafen⟩ := by
    intro toggle muted deafened h hmuted hdeafened
    rcases toggle with _ | _ | _ <;> cases muted <;> cases deafened <;> cases h <;>
      simp [ConnectedServer.selfFlags, selfMessage, SelfFlags.apply, hmuted, hdeafened]
  have hdeafen : ∀ (toggle : Option Bool) (muted deafened : Bool),
      deafenAction toggle muted deafened = some (mute, deafen) →
      s.muted = muted → s.deafened = deafened →
      s.selfFlags.apply (selfMessage s mute deafen) = ⟨mute || deafen, deafen⟩ := by
    intro toggle muted deafened h hmuted hdeafened
    rcases toggle with _ | _ | _ <;> cases muted <;> cases deafened <;> cases h <;>
      simp [ConnectedServer.selfFlags, selfMessage, SelfFlags.apply, hmuted, hdeafened]
  cases command with
  | muteSelf toggle => exact hmute toggle _ _ haction rfl rfl
  | deafenSelf toggle => exact hdeafen toggle _ _ haction rfl rfl
  | _ => cases haction

end State

/-! ## A session with its server -/

/-- The client, the flags that the server has for it, and what is on its way
between them. -/
structure OwnFlags where
  state : State
  listen : Listen
  messages : List UserState
  flags : SelfFlags
  echoes : List UserState

namespace OwnFlags

inductive Label
  | muteSelf (toggle : Option Bool)
  | deafenSelf (toggle : Option Bool)
  /-- The server takes a message and answers with the packet. -/
  | serve (echo : UserState)
  /-- The client takes a packet. -/
  | deliver
deriving DecidableEq, Repr

/-- The messages about users among packets. -/
def userStates (packets : List Serverbound) : List UserState :=
  packets.filterMap fun packet =>
    match packet with
    | .userState msg => some msg
    | _ => none

def command (host : Host) (x : OwnFlags) (command : Command) : Eval OwnFlags := do
  let outcome ← handleCommand host x.state command
  .ok { x with
    state := outcome.state
    messages := x.messages ++ userStates outcome.packets }

/-- `none` when there is nothing to take, or the packet is not an echo. -/
def step (host : Host) (x : OwnFlags) : Label → Option (Eval OwnFlags)
  | .muteSelf toggle => some (x.command host (.muteSelf toggle))
  | .deafenSelf toggle => some (x.command host (.deafenSelf toggle))
  | .serve echo =>
      match x.state.server, x.messages with
      | .connected s, msg :: messages =>
          let flags := x.flags.apply msg
          if echo.session = some s.sessionId ∧ x.flags.Tells flags echo then some (.ok { x with
            messages := messages
            flags := flags
            echoes := x.echoes ++ [echo] })
          else none
      | _, _ => none
  | .deliver =>
      match x.echoes with
      | echo :: echoes => some do
          let handled ← handlePacket host x.state x.listen (.userState echo)
          .ok { x with
            state := handled.state
            listen := handled.listen
            echoes := echoes }
      | [] => none

def next (x : OwnFlags) (label : Host × Label) : Option OwnFlags :=
  match x.step label.1 label.2 with
  | some (.ok x') => some x'
  | _ => none

/-- A step that does not panic. -/
def Step (x : OwnFlags) (label : Host × Label) (x' : OwnFlags) : Prop := x.next label = some x'

theorem step_eq_ok {x x' : OwnFlags} {label : Host × Label} (h : Step x label x') :
    x.step label.1 label.2 = some (.ok x') := by
  unfold Step next at h
  split at h
  next hstep =>
    cases h
    exact hstep
  · cases h

/-- The client has just handled `ServerSync`: nothing was sent, and the server has
let us in with our flags unset and told us so. -/
structure Begins (x : OwnFlags) : Prop where
  login : ∃ (host : Host) (state : State) (sb : ConnectingServer) (own : User) (listen : Listen)
    (sync : ServerSync) (handled : Handled),
    state.server = .connecting sb ∧ sb.users.lookup sync.getSession = some own ∧
      own.selfFlags = .unset ∧ handlePacket host state listen (.serverSync sync) = .ok handled ∧
      x.state = handled.state ∧ x.listen = handled.listen
  messages : x.messages = []
  flags : x.flags = .unset
  echoes : x.echoes = []

/-- Our entry is known, and what is on its way leads to the flags asked for. -/
structure Inv (x : OwnFlags) (s : ConnectedServer) (own : User) : Prop where
  server : x.state.server = .connected s
  user : s.users.lookup s.sessionId = some own
  inFlight : InFlight SelfFlags.protocol s.selfFlags x.messages x.flags x.echoes own.selfFlags
  aboutUs : ∀ echo ∈ x.echoes, echo.session = some s.sessionId

/-- The server's flags for us and those of our entry are those asked for. -/
def Agrees (x : OwnFlags) : Prop :=
  ∃ s own, x.state.server = .connected s ∧ s.users.lookup s.sessionId = some own ∧
    x.flags = ⟨s.muted || s.deafened, s.deafened⟩ ∧
    own.selfMute = (s.muted || s.deafened) ∧ own.selfDeaf = s.deafened

theorem Begins.inv {x : OwnFlags} (h : x.Begins) : ∃ s own, x.Inv s own := by
  obtain ⟨host, state, sb, own, listen, sync, handled, hserver, hown, hunset, hhandled, hstate,
    -⟩ := h.login
  have hconnected : handled.state.server = .connected (sb.serverSync sync) := by
    obtain ⟨audioOutput, hsync, -⟩ := State.serverSync_eq_ok hserver sync
    rw [handlePacket, hsync] at hhandled
    split at hhandled
    · obtain ⟨crypt, -, hhandled⟩ := bind_eq_ok.mp hhandled
      cases hhandled
      rfl
    · cases hhandled
      rfl
  refine ⟨sb.serverSync sync, own, hstate ▸ hconnected, hown, ?_, ?_⟩
  · rw [h.messages, h.flags, h.echoes, hunset]
    exact .start SelfFlags.unset
  · rw [h.echoes]
    exact List.forall_mem_nil _

section Steps

variable {x : OwnFlags} {s : ConnectedServer} {own : User} (h : x.Inv s own)

include h

/-- A command about our flags does not fail, and what it sends makes the new of
the old flags asked for. -/
theorem command_returns (host : Host) {command : Command}
    (hself : (∃ toggle, command = .muteSelf toggle) ∨ ∃ toggle, command = .deafenSelf toggle) :
    ∃ x', x.command host command = .ok x' ∧ ∃ s' own', x'.Inv s' own' := by
  have hcommand : ∃ response, handleCommand host x.state command =
      x.state.updateSelf s (State.selfAction s command) response := by
    rcases hself with ⟨toggle, rfl⟩ | ⟨toggle, rfl⟩
    · rw [handleCommand, h.server]
      exact ⟨_, rfl⟩
    · rw [handleCommand, h.server]
      exact ⟨_, rfl⟩
  obtain ⟨response, hcommand⟩ := hcommand
  obtain ⟨audioOutput, -, houtcome⟩ :=
    x.state.updateSelf_eq_ok s (State.selfAction s command) response
  refine ⟨_, by rw [OwnFlags.command, hcommand, houtcome, ok_bind], ?_⟩
  cases haction : State.selfAction s command with
  | none => exact ⟨s, own, h.server, h.user, h.inFlight.choose rfl, h.aboutUs⟩
  | some flags =>
      obtain ⟨mute, deafen⟩ := flags
      exact ⟨{ s with muted := mute, deafened := deafen }, own, rfl, h.user,
        h.inFlight.choose (State.apply_selfMessage haction), h.aboutUs⟩

/-- A message that the server takes leads to the same flags as before, and so does
its echo. -/
theorem serve_returns {host : Host} {echo : UserState} {result : Eval OwnFlags}
    (hstep : x.step host (.serve echo) = some result) : ∃ x', result = .ok x' ∧ x'.Inv s own := by
  rw [step, h.server] at hstep
  have hflight := h.inFlight
  cases hmessages : x.messages with
  | nil =>
      rw [hmessages] at hstep
      cases hstep
  | cons msg messages =>
      simp only [hmessages] at hstep
      split at hstep
      next hecho =>
        cases hstep
        rw [hmessages] at hflight
        refine ⟨_, rfl, h.server, h.user, hflight.serve hecho.2.merge, fun echo' hecho' => ?_⟩
        rcases List.mem_append.mp hecho' with hold | hnew
        · exact h.aboutUs echo' hold
        · rw [List.mem_singleton.mp hnew]
          exact hecho.1
      · cases hstep

/-- An echo on its way is handled, and our entry takes its flags. -/
theorem deliver_returns (host : Host) {echo : UserState} {echoes : List UserState}
    (hechoes : x.echoes = echo :: echoes) :
    ∃ x', x.step host .deliver = some (.ok x') ∧ ∃ s' own', x'.Inv s' own' := by
  obtain ⟨audioOutput, huserState, -⟩ := State.userState_eq_ok host h.server h.user echo
  have hflight := h.inFlight
  have hsession := h.aboutUs
  rw [hechoes] at hflight hsession
  refine ⟨_, by simp only [step, hechoes, handlePacket, huserState, ok_bind]; rfl,
    s.userState echo, own.parseUserState echo, ⟨rfl, ?_, ?_, (List.forall_mem_cons.mp hsession).2⟩⟩
  case refine_2 => exact hflight.deliver
  show (Mum.userState echo s.users).lookup s.sessionId = _
  rw [lookup_userState, if_pos (List.forall_mem_cons.mp hsession).1, h.user]
  rfl

/-- No command and no echo makes the client panic. -/
theorem step_returns (label : Host × Label) {result : Eval OwnFlags}
    (hstep : x.step label.1 label.2 = some result) :
    ∃ x', result = .ok x' ∧ ∃ s' own', x'.Inv s' own' := by
  obtain ⟨host, label⟩ := label
  cases label with
  | muteSelf toggle =>
      cases hstep
      exact command_returns h host (.inl ⟨toggle, rfl⟩)
  | deafenSelf toggle =>
      cases hstep
      exact command_returns h host (.inr ⟨toggle, rfl⟩)
  | serve echo =>
      obtain ⟨x', hx', hinv⟩ := serve_returns h hstep
      exact ⟨x', hx', s, own, hinv⟩
  | deliver =>
      cases hechoes : x.echoes with
      | nil =>
          rw [step, hechoes] at hstep
          cases hstep
      | cons echo echoes =>
          obtain ⟨x', hx', hinv⟩ := deliver_returns h host hechoes
          cases hx'.symm.trans hstep
          exact ⟨x', rfl, hinv⟩

end Steps

/-- What holds of a state that a run has reached: nothing that may happen next
panics, and the flags agree if nothing is on its way. -/
def Settles (x : OwnFlags) : Prop :=
  (∀ host label fault, x.step host label ≠ some (.error fault)) ∧
    (x.messages = [] → x.echoes = [] → x.Agrees)

theorem Inv.settles {x : OwnFlags} {s : ConnectedServer} {own : User} (h : x.Inv s own) :
    x.Settles := by
  constructor
  · intro host label fault hstep
    obtain ⟨x', hx', -⟩ := step_returns h (host, label) hstep
    cases hx'
  · intro hmessages hechoes
    have hflight := h.inFlight
    rw [hmessages, hechoes] at hflight
    obtain ⟨hflags, hown⟩ := hflight.settled
    rw [hflags] at hown
    exact ⟨s, own, h.server, h.user, hflags, congrArg SelfFlags.mute hown,
      congrArg SelfFlags.deaf hown⟩

/-- **Our flags.**  However `MuteSelf` and `DeafenSelf` come in after the login,
and however the server's answers fall between them, nothing panics, and once all
messages and echoes have arrived the server and our entry have us muted if we are
muted or deafened, and deafened if we are deafened. -/
theorem settles_of_run {x : OwnFlags} {trace : List ((Host × Label) × OwnFlags)}
    (hbegins : x.Begins) (hrun : Run Step x trace) : (final x trace).Settles := by
  obtain ⟨s, own, hinv⟩ := hbegins.inv
  clear hbegins
  induction hrun generalizing s own with
  | nil => exact hinv.settles
  | cons hstep _ ih =>
      obtain ⟨x', hx', s', own', hinv'⟩ := step_returns hinv _ (step_eq_ok hstep)
      cases hx'
      exact ih s' own' hinv'

/-- A server that has named us. -/
def named : ConnectingServer :=
  (ConnectingServer.new "localhost" "me" none).userState { session := some 1, name := some "me" }

/-- The client after a login in which the server named us. -/
def loggedIn : OwnFlags where
  state :=
    match (State.fresh (.connecting named) .connecting).serverSync { session := some 1 } with
    | .ok state => state
    | .error _ => .idle
  listen := { Listen.new with cryptStateSender := false }
  messages := []
  flags := .unset
  echoes := []

theorem begins_loggedIn : loggedIn.Begins where
  login := ⟨.offline, .fresh (.connecting named) .connecting, named, _,
    { Listen.new with cryptStateSender := false }, { session := some 1 }, _,
    rfl, rfl, rfl, rfl, rfl, rfl⟩
  messages := rfl
  flags := rfl
  echoes := rfl

/-- We mute and deafen ourselves before the server has answered. -/
theorem settles_of_run_loggedIn :
    ∃ trace, follow next loggedIn
        ([.muteSelf none, .deafenSelf none, .serve { session := some 1, selfMute := some true },
          .serve { session := some 1, selfDeaf := some true }, .deliver, .deliver].map
          (Host.offline, ·)) = some trace ∧
      (final loggedIn trace).Settles :=
  ⟨Option.get _ (by decide), (Option.some_get _).symm,
    settles_of_run begins_loggedIn (run_follow (fun _ _ _ h => h) (Option.some_get _).symm)⟩

end OwnFlags

end Mum
