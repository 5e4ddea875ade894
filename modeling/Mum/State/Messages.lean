import Mum.Library.InOrder
import Mum.State.HandleCommand
import Mum.State.Identifiers

/-!
# To whom a message is sent

`SendMessage` folds its targets into three lists of one packet and gives up at
the first target that it does not find.

What a target means is said by relations, a channel by what `channel_name`
answers and a user by being the only one with the name.  They leave a named
channel without any meaning when `channel_name` does not answer at all, which is
when the path of some channel, not only of one that is named, cannot be spelled
out (`channelName_returns_iff`).

Both loops are instances of the `Loop` of `Mum.Library.InOrder` (`loop_pushChannels`,
`loop_pushUsers`): they break off at the first target that means an error, and otherwise push
what all targets mean.  What is left to show is that the lists of the packet are then those
of the ids, for channels one list for each kind of target (`pushAll_pushChannel`).
-/

namespace Mum

open Library Library.Eval Library.InOrder Library.ParentChain Msgs
open Mumlib (ChannelTarget Command MessageTarget)

namespace ConnectedServer

/-- What a channel target of a message means. -/
inductive MeansChannel (host : Host) (s : ConnectedServer) :
    ChannelTarget → Except Mumlib.Error UInt32 → Prop
  | current {own : User} (hown : s.users.lookup s.sessionId = some own) :
      MeansChannel host s .current (.ok own.channel)
  | named {name : String} {id : UInt32} {channel : Channel}
      (hname : s.channelName host.toLowercase name = .ok (.ok (id, channel))) :
      MeansChannel host s (.named name) (.ok id)
  | unknown {name : String} {kind : Mumlib.ChannelIdentifierError}
      (hname : s.channelName host.toLowercase name = .ok (.error kind)) :
      MeansChannel host s (.named name) (.error (.channelIdentifierError name kind))

/-- What a user target of a message means. -/
inductive MeansUser (s : ConnectedServer) : String → Except Mumlib.Error UInt32 → Prop
  | named {id : UInt32} {user : User} (huser : s.users.lookup id = some user)
      (honly : ∀ id' user', s.users.lookup id' = some user' → user'.name = user.name → id' = id) :
      MeansUser s user.name (.ok id)
  | unknown {name : String} (hnone : ∀ id user, s.users.lookup id = some user → user.name ≠ name) :
      MeansUser s name (.error (.invalidUsername name))

end ConnectedServer

/-! ## The packet -/

/-- A message to channels, which are recursive or not. -/
def channelMessage (message : String) (channels : List (ChannelTarget × Bool))
    (ids : List UInt32) : TextMessage where
  message := some message
  treeId := valuesWhere (fun target => target.2) channels ids
  channelId := valuesWhere (fun target => !target.2) channels ids

def userMessage (message : String) (ids : List UInt32) : TextMessage where
  message := some message
  session := ids

/-- The answer is the error for the first target that means one, and nothing is
sent; or the one packet goes to what all targets mean.  The state stays. -/
def Delivers {T : Type} (state : State) (means : T → Except Mumlib.Error UInt32 → Prop)
    (targets : List T) (packet : List UInt32 → TextMessage) (outcome : Outcome) : Prop :=
  (∃ error, FirstError means targets error ∧
    outcome = { state := state, packets := [], context := .now [.error error] }) ∨
  ∃ ids, AllMean means targets ids ∧
    outcome = { state := state, packets := [.textMessage (packet ids)],
                context := .now [.ok none] }

/-- The command is answered, and the message goes to its targets and nowhere else. -/
def SendsTo (host : Host) (state : State) (s : ConnectedServer) (message : String)
    (targets : MessageTarget) : Prop :=
  ∃ outcome, handleCommand host state (.sendMessage message targets) = .ok outcome ∧
    match targets with
    | .channel channels =>
        Delivers state (fun target => s.MeansChannel host target.1) channels
          (channelMessage message channels) outcome
    | .user names => Delivers state s.MeansUser names (userMessage message) outcome

namespace State

/-! ## The two loops -/

def pushChannel (msg : TextMessage) (target : ChannelTarget × Bool) (id : UInt32) : TextMessage :=
  if target.2 then { msg with treeId := msg.treeId ++ [id] }
  else { msg with channelId := msg.channelId ++ [id] }

def pushUser (msg : TextMessage) (_ : String) (id : UInt32) : TextMessage :=
  { msg with session := msg.session ++ [id] }

section Loops

variable {host : Host} {s : ConnectedServer} {own : User} {channel : Channel}

theorem loop_pushChannels (hown : s.users.lookup s.sessionId = some own)
    (hchannel : s.channels.lookup own.channel = some channel) :
    Loop (fun target => s.MeansChannel host target.1) pushChannel (pushChannels host s)
      (fun msg => .ok (.ok msg)) (fun error => .ok (.error error)) where
  nil msg := rfl
  ok msg target id rest hmeans := by
    obtain ⟨target, recursive⟩ := target
    cases hmeans with
    | current hown' =>
        cases hown.symm.trans hown'
        have hcurrent : s.currentChannel = .ok (own.channel, channel) := by
          simp [ConnectedServer.currentChannel, hown, hchannel, pure, Except.pure]
        rw [pushChannels, hcurrent]
        rfl
    | named hname =>
        rw [pushChannels, hname]
        rfl
  error msg target error rest hmeans := by
    obtain ⟨target, recursive⟩ := target
    cases hmeans with
    | unknown hname =>
        rw [pushChannels, hname]
        rfl

theorem loop_pushUsers :
    Loop s.MeansUser pushUser (pushUsers s) .ok .error where
  nil msg := rfl
  ok msg name id rest hmeans := by
    cases hmeans with
    | @named id user huser honly =>
        cases hfind : findUser s.users user.name with
        | none => exact absurd rfl (findUser_eq_none_iff.mp hfind id user huser)
        | some entry =>
            obtain ⟨id', user'⟩ := entry
            obtain ⟨huser', hname⟩ := findUser_eq_some hfind
            obtain rfl := honly id' user' huser' hname
            rw [pushUsers, hfind]
            rfl
  error msg name error rest hmeans := by
    cases hmeans with
    | unknown hnone =>
        rw [pushUsers, findUser_eq_none_iff.mpr hnone]

end Loops

/-- Every recursive channel has become a tree. -/
theorem pushAll_pushChannel (channels : List (ChannelTarget × Bool)) (ids : List UInt32)
    (msg : TextMessage) :
    pushAll pushChannel msg channels ids =
      { msg with
        treeId := msg.treeId ++ valuesWhere (fun target => target.2) channels ids
        channelId := msg.channelId ++ valuesWhere (fun target => !target.2) channels ids } := by
  induction channels generalizing ids msg with
  | nil => simp [pushAll, valuesWhere]
  | cons target rest ih =>
      cases ids with
      | nil => simp [pushAll, valuesWhere]
      | cons id ids =>
          rw [pushAll, ih, valuesWhere_cons, valuesWhere_cons, pushChannel]
          cases target.2 with
          | true => simp
          | false => simp

theorem pushAll_pushUser {names : List String} {ids : List UInt32}
    (hlength : names.length = ids.length) (msg : TextMessage) :
    pushAll pushUser msg names ids = { msg with session := msg.session ++ ids } := by
  induction names generalizing ids msg with
  | nil =>
      obtain rfl := List.length_eq_zero_iff.mp hlength.symm
      simp [pushAll]
  | cons name rest ih =>
      cases ids with
      | nil => simp at hlength
      | cons id ids =>
          rw [pushAll, ih (by simpa using hlength), pushUser]
          simp

end State

/-! ## When a message is sent to its targets -/

/-- No two users have the same name. -/
def Users.DistinctNames (users : Users) : Prop :=
  ∀ id id' user user', users.lookup id = some user → users.lookup id' = some user' →
    user.name = user'.name → id = id'

/-- From every channel, following the parents stays in the map and ends. -/
def Channels.PathsEnd (channels : Channels) : Prop :=
  ∀ id ∈ channels, ∃ walk r, Leads channels.parentOf id walk r

/-- Some target is a channel by its name. -/
def NamesChannel : MessageTarget → Prop
  | .channel channels => ∃ name recursive, (.named name, recursive) ∈ channels
  | .user _ => False

theorem Channels.pathsEnd_iff {channels : Channels} :
    channels.PathsEnd ↔
      ∀ id channel, channels.lookup id = some channel → Returns (channel.path channels) := by
  constructor
  · intro h id channel hchannel
    exact (path_returns_iff hchannel).mpr (h id (HashMap.mem_iff_lookup.mpr ⟨channel, hchannel⟩))
  · intro h id hid
    obtain ⟨channel, hchannel⟩ := HashMap.mem_iff_lookup.mp hid
    exact (path_returns_iff hchannel).mp (h id channel hchannel)

section Sending

variable {host : Host} {state : State} {s : ConnectedServer} {own : User} {channel : Channel}

theorem exists_meansChannel (hown : s.users.lookup s.sessionId = some own)
    {target : ChannelTarget} (hnamed : ∀ name, target = .named name → s.channels.PathsEnd) :
    ∃ result, s.MeansChannel host target result := by
  cases target with
  | current => exact ⟨_, .current hown⟩
  | named name =>
      obtain ⟨result, hresult⟩ := ConnectedServer.channelName_returns_iff.mpr
        (Channels.pathsEnd_iff.mp (hnamed name rfl))
      cases result with
      | error kind => exact ⟨_, .unknown hresult⟩
      | ok found => exact ⟨_, .named hresult⟩

theorem exists_meansUser (hnames : s.users.DistinctNames) (name : String) :
    ∃ result, s.MeansUser name result := by
  by_cases h : ∃ id user, s.users.lookup id = some user ∧ user.name = name
  · obtain ⟨id, user, huser, rfl⟩ := h
    have honly : ∀ id' user', s.users.lookup id' = some user' → user'.name = user.name → id' = id :=
      fun id' user' huser' hname => hnames id' id user' user huser' huser hname
    exact ⟨_, .named huser honly⟩
  · exact ⟨_, .unknown fun id user huser hname => h ⟨id, user, huser, hname⟩⟩

/-- A name that means anything has been looked up. -/
theorem pathsEnd_of_meansChannel {name : String} {result : Except Mumlib.Error UInt32}
    (hmeans : s.MeansChannel host (.named name) result) : s.channels.PathsEnd := by
  refine Channels.pathsEnd_iff.mpr ?_
  cases hmeans with
  | named hname => exact ConnectedServer.channelName_returns_iff.mp ⟨_, hname⟩
  | unknown hname => exact ConnectedServer.channelName_returns_iff.mp ⟨_, hname⟩

theorem pathsEnd_of_delivers {channels : List (ChannelTarget × Bool)}
    {packet : List UInt32 → TextMessage} {outcome : Outcome} {name : String} {recursive : Bool}
    (hnamed : (.named name, recursive) ∈ channels)
    (h : Delivers state (fun target => s.MeansChannel host target.1) channels packet outcome) :
    s.channels.PathsEnd := by
  rcases h with ⟨error, ⟨before, ⟨target, _⟩, after, -, -, herror⟩, -⟩ | ⟨ids, hall, -⟩
  · cases target with
    | current => cases herror
    | named name => exact pathsEnd_of_meansChannel herror
  · obtain ⟨id, hmeans⟩ := hall.exists_of_mem hnamed
    exact pathsEnd_of_meansChannel hmeans

theorem handleCommand_sendMessage (hserver : state.server = .connected s) (message : String)
    (targets : MessageTarget) :
    handleCommand host state (.sendMessage message targets) =
      state.sendMessage host s message targets := by
  rw [handleCommand, hserver]

/-- **A message goes to its targets and nowhere else.**  It is sent to what they
mean, or the first that means an error is told, if and only if no channel is
named or the path of every channel of the server can be spelled out. -/
theorem sendsTo_iff (hserver : state.server = .connected s)
    (hown : s.users.lookup s.sessionId = some own)
    (hchannel : s.channels.lookup own.channel = some channel) (hnames : s.users.DistinctNames)
    (message : String) (targets : MessageTarget) :
    SendsTo host state s message targets ↔ (NamesChannel targets → s.channels.PathsEnd) := by
  rw [SendsTo, handleCommand_sendMessage hserver]
  cases targets with
  | channel channels =>
      constructor
      · rintro ⟨outcome, -, hdelivers⟩ ⟨name, recursive, hnamed⟩
        exact pathsEnd_of_delivers hnamed hdelivers
      · intro hpaths
        have hmeans : ∀ target ∈ channels, ∃ result, s.MeansChannel host target.1 result := by
          rintro ⟨target, recursive⟩ htarget
          refine exists_meansChannel hown fun name hname => hpaths ⟨name, recursive, ?_⟩
          rwa [← hname]
        rcases (State.loop_pushChannels hown hchannel).run_cases hmeans
          { message := some message } with ⟨error, herror, hrun⟩ | ⟨ids, hids, hrun⟩
        · refine ⟨_, ?_, Or.inl ⟨error, herror, rfl⟩⟩
          simp only [State.sendMessage, hrun, ok_bind]
          rfl
        · refine ⟨_, ?_, Or.inr ⟨ids, hids, rfl⟩⟩
          simp only [State.sendMessage, hrun, ok_bind, State.pushAll_pushChannel, List.nil_append]
          rfl
  | user names =>
      refine iff_of_true ?_ fun h => h.elim
      have hmeans : ∀ name ∈ names, ∃ result, s.MeansUser name result :=
        fun name _ => exists_meansUser hnames name
      rcases State.loop_pushUsers.run_cases hmeans { message := some message } with
        ⟨error, herror, hrun⟩ | ⟨ids, hids, hrun⟩
      · refine ⟨_, ?_, Or.inl ⟨error, herror, rfl⟩⟩
        simp only [State.sendMessage, hrun, ok_bind]
        rfl
      · refine ⟨_, ?_, Or.inr ⟨ids, hids, rfl⟩⟩
        have hpacket := State.pushAll_pushUser hids.length_eq { message := some message }
        simp only [State.sendMessage, hrun, ok_bind, hpacket, List.nil_append]
        rfl

end Sending

/-- The one user of a server that has just let us in. -/
def onlyMe : Users := (∅ : Users).insert 1 (User.new { name := some "me" })

theorem distinctNames_onlyMe : onlyMe.DistinctNames := by
  have hone : ∀ id user, onlyMe.lookup id = some user → id = 1 := by
    intro id user huser
    have hmem : (id, user) ∈ [(1, User.new { name := some "me" })] := HashMap.mem_iter.mpr huser
    simp only [List.mem_singleton, Prod.mk.injEq] at hmem
    exact hmem.1
  intro id id' user user' huser huser' _
  rw [hone id user huser, hone id' user' huser']

def lobbyServer : ConnectedServer :=
  { serverOf threeChannels with users := onlyMe, sessionId := 1 }

theorem sendsTo_iff_lobby :
    SendsTo .offline (.fresh (.connected lobbyServer) (.connected .tcp)) lobbyServer "hello"
      (.channel [(.current, false), (.named "Lobby", true)]) := by
  refine (sendsTo_iff (s := lobbyServer) rfl rfl rfl distinctNames_onlyMe "hello" _).mpr
    fun _ id hid => ?_
  obtain ⟨walk, hwalk⟩ := isTree_threeChannels.leads id hid
  exact ⟨walk, 0, hwalk⟩

/-- What the packets of a login leave whose last channel has a parent that the
server never sends. -/
def danglingServer : ConnectedServer :=
  let server := ConnectingServer.new "localhost" "me" none
  let server := server.channelState { channelId := some 0, name := some "Root" }
  let server := server.channelState { channelId := some 1, parent := some 2, name := some "Lobby" }
  let server := server.userState { session := some 1, name := some "me" }
  server.serverSync { session := some 1 }

/-- There not even a message to the root is answered. -/
theorem not_sendsTo_dangling :
    danglingServer.users = onlyMe ∧ danglingServer.users.DistinctNames ∧
      danglingServer.currentChannel = .ok (0, Channel.new { name := some "Root" }) ∧
      ¬ SendsTo .offline (.fresh (.connected danglingServer) (.connected .tcp)) danglingServer
        "hello" (.channel [(.named "Root", false)]) := by
  refine ⟨rfl, distinctNames_onlyMe, rfl, ?_⟩
  rintro ⟨outcome, houtcome, -⟩
  have hpanic : handleCommand .offline (.fresh (.connected danglingServer) (.connected .tcp))
      (.sendMessage "hello" (.channel [(.named "Root", false)])) = .error .panic := rfl
  rw [hpanic] at houtcome
  cases houtcome

end Mum
