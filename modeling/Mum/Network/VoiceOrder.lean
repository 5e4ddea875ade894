import Mum.Library.SharedStream
import Mum.Network.Phase

/-!
# The order of voice frames

`send_voice` of `mum/src/network/tcp.rs` and of `mum/src/network/udp.rs`: two
loops that send the frames of one stream, which is behind a lock, each while the
phase says that voice goes its way.  Around a switch both may be running; the
loser is cancelled at the await point where it stands.

Over TCP a frame is put on the packet channel in the statement that takes it, and
the lock is held for this statement only.  Over UDP the lock is held for as long
as the loop runs, and a frame is in hand until the socket takes it.

`VoiceTasks` is the two loops; it refines a `SharedStream`.

A step of the loops is some steps of the `SharedStream`, and often none (`step_shared`): what
the loops do besides, such as waiting for the lock, it does not show.  The refinement needs
that a frame in hand comes with the lock (`LockHeld`), since whoever takes the next frame
from the stream must not find one in hand.  That frames are sent in order is then a property
of the `SharedStream`.  What is lost is read off the steps themselves
(`step_losesInHand`): a frame is lost only when the loop that has it in hand is cancelled.
-/

namespace Mum

open Library Msgs

/-- A captured frame.  Its number is what `enumerate` counts; that is a `usize`, and
no microphone captures 2^64 frames. -/
structure Frame where
  seqNum : ℕ
  payload : Bytes
deriving DecidableEq, Repr

/-- The await points of the loop over TCP. -/
inductive TcpLoop
  | locking
  | taking
deriving DecidableEq, Repr

/-- The await points of the loop over UDP. -/
inductive UdpLoop
  | locking
  | taking
  /-- Waits for the socket with a frame in hand. -/
  | sending (frame : Frame)
  /-- The socket has the frame. -/
  | flushing
deriving DecidableEq, Repr

/-- `send_voice`, with the phase that it saw last. -/
inductive SendVoice (Loop : Type)
  | waiting (seen : ℕ)
  | running (seen : ℕ) (loop : Loop)
deriving DecidableEq, Repr

namespace SendVoice

variable {Loop : Type}

def new : SendVoice Loop := waiting 0

/-- A poll that looks at the phase; `none` while no new phase is there.
`run_until` starts with a receiver that has seen the version `untilSeen`. -/
def poll (streamType : VoiceStreamType) (untilSeen : ℕ → ℕ) (start : Loop)
    (watcher : Watch StatePhase) : SendVoice Loop → Option (SendVoice Loop)
  | waiting seen =>
      if watcher.version = seen then none
      else if watcher.value = .connected streamType then
        some (running (untilSeen watcher.version) start)
      else some (waiting watcher.version)
  | running seen loop =>
      match runUntil (fun phase => phase ≠ .connected streamType) watcher seen with
      | .pending => none
      | .seen version => some (running version loop)
      | .stopped => some new

/-- Where the loop stands, if it runs. -/
def loop : SendVoice Loop → Option Loop
  | waiting _ => none
  | running _ loop => some loop

def setLoop (next : Loop) : SendVoice Loop → SendVoice Loop
  | waiting seen => waiting seen
  | running seen _ => running seen next

/-- A poll starts the loop, or drops it, or leaves it where it is. -/
theorem loop_poll {streamType : VoiceStreamType} {untilSeen : ℕ → ℕ} {start : Loop}
    {watcher : Watch StatePhase} {task task' : SendVoice Loop}
    (h : task.poll streamType untilSeen start watcher = some task') :
    task'.loop = none ∨ task.loop = none ∧ task'.loop = some start ∨ task'.loop = task.loop := by
  cases task with
  | waiting seen =>
      rw [poll] at h
      split at h
      · cases h
      · split at h
        · cases h
          exact Or.inr (Or.inl ⟨rfl, rfl⟩)
        · cases h
          exact Or.inl rfl
  | running seen loop =>
      rw [poll] at h
      split at h
      · cases h
      · cases h
        exact Or.inr (Or.inr rfl)
      · cases h
        exact Or.inl rfl

end SendVoice

/-- The loop over TCP is the one of a TCP session. -/
def SendVoice.voiceTask : SendVoice TcpLoop → VoiceTask
  | waiting seen => .waiting seen
  | running seen _ => .sending seen

theorem SendVoice.poll_voiceTask (watcher : Watch StatePhase) (task : SendVoice TcpLoop) :
    task.voiceTask.poll watcher =
      (task.poll .tcp id .locking watcher).map SendVoice.voiceTask := by
  cases task with
  | waiting seen =>
      simp only [voiceTask, VoiceTask.poll, poll]
      split
      · rfl
      · split
        · rfl
        · rfl
  | running seen loop =>
      simp only [voiceTask, VoiceTask.poll, poll]
      cases runUntil (fun phase => phase ≠ .connected .tcp) watcher seen with
      | pending => rfl
      | seen version => rfl
      | stopped => rfl

/-- What happened so far. -/
structure VoiceHistory where
  /-- The frames handed over, in the order of the hand-overs. -/
  handed : List (VoiceStreamType × Frame)
  lost : List Frame
  /-- How many loops were cancelled. -/
  cancelled : ℕ
deriving DecidableEq

/-- Both loops and what they share. -/
structure VoiceTasks where
  phaseWatcher : Watch StatePhase
  /-- How many frames the stream has yielded. -/
  count : ℕ
  /-- Who holds the lock of the stream. -/
  locked : Option VoiceStreamType
  tcp : SendVoice TcpLoop
  udp : SendVoice UdpLoop
  history : VoiceHistory
deriving DecidableEq

inductive VoiceLabel
  /-- Somebody writes the phase. -/
  | phase (phase : StatePhase)
  | poll (streamType : VoiceStreamType)
  /-- The session is over and drops its `send_voice`. -/
  | sessionOver (streamType : VoiceStreamType)
  | lock (streamType : VoiceStreamType)
  /-- The stream yields a frame to who waits for one. -/
  | frame (streamType : VoiceStreamType) (payload : Bytes)
  /-- The UDP socket takes the frame. -/
  | udpStart
  | udpSent
deriving DecidableEq, Repr

namespace VoiceTasks

def start (phase : StatePhase) : VoiceTasks where
  phaseWatcher := .new phase
  count := 0
  locked := none
  tcp := .new
  udp := .new
  history := ⟨[], [], 0⟩

/-- The frame that the loop over UDP has in hand. -/
def inHand (tasks : VoiceTasks) : Option Frame :=
  match tasks.udp.loop with
  | some (.sending frame) => some frame
  | _ => none

/-- A loop is dropped, with its lock and the frame in hand. -/
def cancel (tasks : VoiceTasks) (streamType : VoiceStreamType) : VoiceTasks :=
  { tasks with
    locked := if tasks.locked = some streamType then none else tasks.locked
    history := { tasks.history with
      lost := tasks.history.lost ++
        if streamType = .udp then tasks.inHand.toList else []
      cancelled := tasks.history.cancelled + 1 } }

/-- Cancels a loop that has run until now. -/
def cancelIf (tasks : VoiceTasks) (stopped : Bool) (streamType : VoiceStreamType) : VoiceTasks :=
  if stopped then tasks.cancel streamType else tasks

/-- A step of one of the loops, or of those who write the phase. -/
def next (tasks : VoiceTasks) : VoiceLabel → Option VoiceTasks
  | .phase phase => some { tasks with phaseWatcher := tasks.phaseWatcher.send phase }
  | .poll .tcp =>
      (tasks.tcp.poll .tcp id .locking tasks.phaseWatcher).map fun tcp =>
        { tasks.cancelIf (tasks.tcp.loop.isSome && tcp.loop.isNone) .tcp with tcp := tcp }
  | .poll .udp =>
      -- the receiver of `run_until` has seen no phase yet
      (tasks.udp.poll .udp (fun _ => 0) .locking tasks.phaseWatcher).map fun udp =>
        { tasks.cancelIf (tasks.udp.loop.isSome && udp.loop.isNone) .udp with udp := udp }
  | .sessionOver .tcp =>
      some { tasks.cancelIf tasks.tcp.loop.isSome .tcp with tcp := .new }
  | .sessionOver .udp =>
      some { tasks.cancelIf tasks.udp.loop.isSome .udp with udp := .new }
  | .lock .tcp =>
      if tasks.locked = none ∧ tasks.tcp.loop = some .locking then
        some { tasks with locked := some .tcp, tcp := tasks.tcp.setLoop .taking }
      else none
  | .lock .udp =>
      if tasks.locked = none ∧ tasks.udp.loop = some .locking then
        some { tasks with locked := some .udp, udp := tasks.udp.setLoop .taking }
      else none
  | .frame .tcp payload =>
      if tasks.tcp.loop = some .taking then
        -- the guard lives until the packet is on the packet channel
        some { tasks with
          count := tasks.count + 1
          locked := none
          tcp := tasks.tcp.setLoop .locking
          history := { tasks.history with
            handed := tasks.history.handed ++ [(.tcp, ⟨tasks.count, payload⟩)] } }
      else none
  | .frame .udp payload =>
      if tasks.udp.loop = some .taking then
        some { tasks with
          count := tasks.count + 1
          udp := tasks.udp.setLoop (.sending ⟨tasks.count, payload⟩) }
      else none
  | .udpStart =>
      match tasks.udp.loop with
      | some (.sending frame) => some { tasks with
          udp := tasks.udp.setLoop .flushing
          history := { tasks.history with
            handed := tasks.history.handed ++ [(.udp, frame)] } }
      | _ => none
  | .udpSent =>
      if tasks.udp.loop = some .flushing then
        -- the loop keeps the lock and goes on to the next frame
        some { tasks with udp := tasks.udp.setLoop .taking }
      else none

def Step (tasks : VoiceTasks) (label : VoiceLabel) (tasks' : VoiceTasks) : Prop :=
  tasks.next label = some tasks'

/-! ## The shared stream -/

/-- The stream as both loops see it. -/
def shared (tasks : VoiceTasks) : SharedStream VoiceStreamType where
  next := tasks.count
  holder := tasks.locked
  inHand := tasks.inHand.map Frame.seqNum
  handed := tasks.history.handed.map fun entry => (entry.1, entry.2.seqNum)
  lost := tasks.history.lost.map Frame.seqNum

/-- The lock is held by the loop that is past it. -/
structure LockHeld (tasks : VoiceTasks) : Prop where
  tcp : tasks.locked = some .tcp ↔ tasks.tcp.loop = some .taking
  udp : tasks.locked = some .udp ↔ ∃ loop, tasks.udp.loop = some loop ∧ loop ≠ .locking

/-- The stream can go from one to the other. -/
def Reaches (stream stream' : SharedStream VoiceStreamType) : Prop :=
  ∃ trace, Run SharedStream.Step stream trace ∧ final stream trace = stream'

theorem Reaches.refl (stream : SharedStream VoiceStreamType) : Reaches stream stream :=
  ⟨[], .nil, rfl⟩

theorem Reaches.step {stream stream' stream'' : SharedStream VoiceStreamType}
    {op : SharedStream.Op VoiceStreamType} (h : SharedStream.Step stream op stream')
    (hrest : Reaches stream' stream'') : Reaches stream stream'' := by
  obtain ⟨trace, hrun, rfl⟩ := hrest
  exact ⟨(op, stream') :: trace, .cons h hrun, rfl⟩

theorem Reaches.of_eq {stream stream' : SharedStream VoiceStreamType} (h : stream = stream') :
    Reaches stream stream' :=
  h ▸ .refl stream

variable {tasks tasks' : VoiceTasks} {label : VoiceLabel}

@[simp] theorem loop_setLoop {Loop : Type} {task : SendVoice Loop} {loop next : Loop}
    (h : task.loop = some loop) : (task.setLoop next).loop = some next := by
  cases task with
  | waiting seen => cases h
  | running seen loop => rfl

theorem inHand_congr (h : tasks'.udp = tasks.udp) : tasks'.inHand = tasks.inHand := by
  rw [inHand, inHand, h]

theorem LockHeld.inHand_eq_none (hheld : tasks.LockHeld) (h : tasks.locked ≠ some .udp) :
    tasks.inHand = none := by
  unfold inHand
  split
  next frame hloop => exact absurd (hheld.udp.mpr ⟨_, hloop, by simp⟩) h
  · rfl

/-- A loop over TCP that is gone. -/
theorem cancel_tcp (hheld : tasks.LockHeld) {tcp : SendVoice TcpLoop} (htcp : tcp.loop = none) :
    LockHeld { tasks.cancel .tcp with tcp := tcp } ∧
      Reaches tasks.shared (shared { tasks.cancel .tcp with tcp := tcp }) := by
  by_cases hlocked : tasks.locked = some .tcp
  · have hinHand : tasks.inHand = none := hheld.inHand_eq_none (by simp [hlocked])
    have hudp : ¬ ∃ loop, tasks.udp.loop = some loop ∧ loop ≠ .locking := by
      rw [← hheld.udp, hlocked]
      simp
    refine ⟨⟨by simp [cancel, hlocked, htcp], by simpa [cancel, hlocked] using hudp⟩, ?_⟩
    refine .step (.release hlocked) (.of_eq ?_)
    have hinHand' : inHand { tasks.cancel .tcp with tcp := tcp } = tasks.inHand := rfl
    simp only [shared, hinHand', hinHand]
    simp [cancel, hlocked]
  · refine ⟨⟨by simp [cancel, hlocked, htcp], by simpa [cancel, hlocked] using hheld.udp⟩, ?_⟩
    refine .of_eq ?_
    have hinHand' : inHand { tasks.cancel .tcp with tcp := tcp } = tasks.inHand := rfl
    simp only [shared, hinHand']
    simp [cancel, hlocked]

/-- A loop over UDP that is gone, and the frame that it had in hand. -/
theorem cancel_udp (hheld : tasks.LockHeld) {udp : SendVoice UdpLoop} (hudp : udp.loop = none) :
    LockHeld { tasks.cancel .udp with udp := udp } ∧
      Reaches tasks.shared (shared { tasks.cancel .udp with udp := udp }) := by
  have hinHand' : inHand { tasks.cancel .udp with udp := udp } = none := by
    simp [inHand, hudp]
  by_cases hlocked : tasks.locked = some .udp
  · have htcp : tasks.tcp.loop ≠ some .taking := by
      rw [Ne, ← hheld.tcp, hlocked]
      simp
    refine ⟨⟨by simpa [cancel, hlocked] using htcp, by simp [cancel, hlocked, hudp]⟩, ?_⟩
    refine .step (.release hlocked) (.of_eq ?_)
    simp only [shared, hinHand']
    cases hinHand : tasks.inHand <;> simp [cancel, hlocked, hinHand]
  · refine ⟨⟨by simpa [cancel, hlocked] using hheld.tcp, by simp [cancel, hlocked, hudp]⟩, ?_⟩
    refine .of_eq ?_
    simp only [shared, hinHand', hheld.inHand_eq_none hlocked]
    simp [cancel, hlocked, hheld.inHand_eq_none hlocked]

/-- A loop over TCP that stands where it stood, as far as the lock is concerned. -/
theorem keep_tcp (hheld : tasks.LockHeld) {tcp : SendVoice TcpLoop}
    (h : tcp.loop = some .taking ↔ tasks.tcp.loop = some .taking) :
    LockHeld { tasks with tcp := tcp } ∧
      Reaches tasks.shared (shared { tasks with tcp := tcp }) :=
  ⟨⟨hheld.tcp.trans h.symm, hheld.udp⟩, .refl _⟩

theorem keep_udp (hheld : tasks.LockHeld) {udp : SendVoice UdpLoop}
    (h : udp.loop = tasks.udp.loop ∨
      tasks.udp.loop = none ∧ (udp.loop = none ∨ udp.loop = some .locking)) :
    LockHeld { tasks with udp := udp } ∧
      Reaches tasks.shared (shared { tasks with udp := udp }) := by
  have hinHand : inHand { tasks with udp := udp } = tasks.inHand := by
    rcases h with h | ⟨hnone, h | h⟩
    · simp [inHand, h]
    · simp [inHand, hnone, h]
    · simp [inHand, hnone, h]
  refine ⟨⟨hheld.tcp, hheld.udp.trans ?_⟩, .of_eq ?_⟩
  · rcases h with h | ⟨hnone, h | h⟩
    · simp [h]
    · simp [hnone, h]
    · simp [hnone, h]
  · simp only [shared, hinHand]

theorem isSome_and_isNone {α : Type} (o : Option α) : (o.isSome && o.isNone) = false := by
  cases o <;> rfl

/-- A poll starts a loop or drops it. -/
theorem poll_shared (hheld : tasks.LockHeld) {streamType : VoiceStreamType}
    (h : tasks.Step (.poll streamType) tasks') :
    tasks'.LockHeld ∧ Reaches tasks.shared tasks'.shared := by
  cases streamType with
  | tcp =>
      obtain ⟨tcp, hpoll, rfl⟩ := Option.map_eq_some_iff.mp h
      rcases SendVoice.loop_poll hpoll with hnone | ⟨hwas, hstart⟩ | hsame
      · cases hloop : tasks.tcp.loop with
        | none =>
            rw [hnone]
            exact keep_tcp hheld (by rw [hnone, hloop])
        | some loop =>
            rw [hnone]
            exact cancel_tcp hheld hnone
      · rw [hwas]
        exact keep_tcp hheld (by simp [hwas, hstart])
      · rw [hsame, isSome_and_isNone]
        exact keep_tcp hheld (by rw [hsame])
  | udp =>
      obtain ⟨udp, hpoll, rfl⟩ := Option.map_eq_some_iff.mp h
      rcases SendVoice.loop_poll hpoll with hnone | ⟨hwas, hstart⟩ | hsame
      · cases hloop : tasks.udp.loop with
        | none =>
            rw [hnone]
            exact keep_udp hheld (Or.inl (by rw [hnone, hloop]))
        | some loop =>
            rw [hnone]
            exact cancel_udp hheld hnone
      · rw [hwas]
        exact keep_udp hheld (Or.inr ⟨hwas, Or.inr hstart⟩)
      · rw [hsame, isSome_and_isNone]
        exact keep_udp hheld (Or.inl hsame)

/-- The end of a session drops the loop. -/
theorem sessionOver_shared (hheld : tasks.LockHeld) {streamType : VoiceStreamType}
    (h : tasks.Step (.sessionOver streamType) tasks') :
    tasks'.LockHeld ∧ Reaches tasks.shared tasks'.shared := by
  cases streamType with
  | tcp =>
      cases h
      cases hloop : tasks.tcp.loop with
      | none => exact keep_tcp hheld (by rw [hloop]; rfl)
      | some loop => exact cancel_tcp hheld rfl
  | udp =>
      cases h
      cases hloop : tasks.udp.loop with
      | none => exact keep_udp hheld (Or.inl hloop.symm)
      | some loop => exact cancel_udp hheld rfl

theorem lock_shared (hheld : tasks.LockHeld) {streamType : VoiceStreamType}
    (h : tasks.Step (.lock streamType) tasks') :
    tasks'.LockHeld ∧ Reaches tasks.shared tasks'.shared := by
  cases streamType with
  | tcp =>
      obtain ⟨⟨hfree, hloop⟩, h⟩ := Option.ite_none_right_eq_some.mp h
      cases h
      refine ⟨⟨by simp [loop_setLoop hloop], ?_⟩, .step (.acquire hfree) (.refl _)⟩
      have hudp := hheld.udp
      rw [hfree] at hudp
      simpa using hudp
  | udp =>
      obtain ⟨⟨hfree, hloop⟩, h⟩ := Option.ite_none_right_eq_some.mp h
      cases h
      have hinHand := hheld.inHand_eq_none (by simp [hfree])
      refine ⟨⟨?_, by simp [loop_setLoop hloop]⟩,
        .step (.acquire (p := .udp) hfree) (.of_eq ?_)⟩
      · have htcp := hheld.tcp
        rw [hfree] at htcp
        simpa using htcp
      · simp only [shared, hinHand]
        simp [inHand, loop_setLoop hloop]

/-- Over TCP a frame is handed over at once, over UDP it is in hand. -/
theorem frame_shared (hheld : tasks.LockHeld) {streamType : VoiceStreamType} {payload : Bytes}
    (h : tasks.Step (.frame streamType payload) tasks') :
    tasks'.LockHeld ∧ Reaches tasks.shared tasks'.shared := by
  cases streamType with
  | tcp =>
      obtain ⟨hloop, h⟩ := Option.ite_none_right_eq_some.mp h
      cases h
      have hlocked := hheld.tcp.mpr hloop
      have hinHand := hheld.inHand_eq_none (by simp [hlocked])
      refine ⟨⟨by simp [loop_setLoop hloop], ?_⟩, ?_⟩
      · have hudp := hheld.udp
        rw [hlocked] at hudp
        simpa using hudp
      · refine .step (.take hlocked (by simp [shared, hinHand])) ?_
        refine .step (.handOver hlocked rfl) (.step (.release hlocked) (.of_eq ?_))
        have hinHand' : ∀ tasks' : VoiceTasks, tasks'.udp = tasks.udp → tasks'.inHand = none :=
          fun tasks' hudp => (inHand_congr hudp).trans hinHand
        simp [shared, hinHand']
  | udp =>
      obtain ⟨hloop, h⟩ := Option.ite_none_right_eq_some.mp h
      cases h
      have hlocked := hheld.udp.mpr ⟨_, hloop, by simp⟩
      refine ⟨⟨hheld.tcp, by simp [hlocked, loop_setLoop hloop]⟩, ?_⟩
      refine .step (.take hlocked (by simp [shared, inHand, hloop])) (.of_eq ?_)
      simp [shared, inHand, loop_setLoop hloop]

theorem udpStart_shared (hheld : tasks.LockHeld)
    (h : tasks.Step (.udpStart) tasks') : tasks'.LockHeld ∧ Reaches tasks.shared tasks'.shared := by
  rw [Step, next] at h
  split at h
  next frame hloop =>
    cases h
    have hlocked := hheld.udp.mpr ⟨_, hloop, by simp⟩
    refine ⟨⟨hheld.tcp, by simp [hlocked, loop_setLoop hloop]⟩, ?_⟩
    refine .step (.handOver hlocked (by simp [shared, inHand, hloop]; rfl)) (.of_eq ?_)
    simp [shared, inHand, loop_setLoop hloop]
  · cases h

theorem udpSent_shared (hheld : tasks.LockHeld)
    (h : tasks.Step (.udpSent) tasks') : tasks'.LockHeld ∧ Reaches tasks.shared tasks'.shared := by
  obtain ⟨hloop, h⟩ := Option.ite_none_right_eq_some.mp h
  cases h
  have hlocked := hheld.udp.mpr ⟨_, hloop, by simp⟩
  refine ⟨⟨hheld.tcp, by simp [hlocked, loop_setLoop hloop]⟩, .of_eq ?_⟩
  simp [shared, inHand, hloop, loop_setLoop hloop]

/-- Every step of the loops is some operations on the shared stream. -/
theorem step_shared (hheld : tasks.LockHeld) (h : tasks.Step label tasks') :
    tasks'.LockHeld ∧ Reaches tasks.shared tasks'.shared := by
  cases label with
  | phase phase =>
      cases h
      exact ⟨⟨hheld.tcp, hheld.udp⟩, .refl _⟩
  | poll streamType => exact poll_shared hheld h
  | sessionOver streamType => exact sessionOver_shared hheld h
  | lock streamType => exact lock_shared hheld h
  | frame streamType payload => exact frame_shared hheld h
  | udpStart => exact udpStart_shared hheld h
  | udpSent => exact udpSent_shared hheld h

/-! ## What is sent -/

/-- The numbers of the frames that were handed over to either transport, in the
order of this. -/
def sent (tasks : VoiceTasks) : List ℕ := tasks.history.handed.map fun entry => entry.2.seqNum

/-- The frames are handed over in order, and each captured frame is handed over,
lost or in hand, once; a cancellation loses one frame at most. -/
structure InOrder (tasks : VoiceTasks) : Prop where
  sorted : tasks.sent.Pairwise (· < ·)
  accounted : (tasks.sent ++ tasks.history.lost.map Frame.seqNum ++
    tasks.inHand.toList.map Frame.seqNum).Perm (List.range tasks.count)
  lost : tasks.history.lost.length ≤ tasks.history.cancelled

/-- A step loses nothing but the frame in hand, and this only if it cancels a
loop. -/
def LosesInHand (tasks tasks' : VoiceTasks) : Prop :=
  tasks'.history.lost = tasks.history.lost ∧
      tasks.history.cancelled ≤ tasks'.history.cancelled ∨
    tasks'.history.lost = tasks.history.lost ++ tasks.inHand.toList ∧
      tasks'.history.cancelled = tasks.history.cancelled + 1

theorem losesInHand_cancelIf (tasks : VoiceTasks) (stopped : Bool) (streamType : VoiceStreamType) :
    tasks.LosesInHand (tasks.cancelIf stopped streamType) := by
  cases stopped with
  | false => exact Or.inl ⟨rfl, Nat.le_refl _⟩
  | true =>
      cases streamType with
      | tcp => exact Or.inl ⟨List.append_nil _, Nat.le_succ _⟩
      | udp => exact Or.inr ⟨rfl, rfl⟩

theorem step_losesInHand (h : tasks.Step label tasks') : tasks.LosesInHand tasks' := by
  cases label with
  | phase phase =>
      cases h
      exact Or.inl ⟨rfl, Nat.le_refl _⟩
  | poll streamType =>
      cases streamType with
      | tcp =>
          obtain ⟨tcp, -, rfl⟩ := Option.map_eq_some_iff.mp h
          exact losesInHand_cancelIf tasks _ .tcp
      | udp =>
          obtain ⟨udp, -, rfl⟩ := Option.map_eq_some_iff.mp h
          exact losesInHand_cancelIf tasks _ .udp
  | sessionOver streamType =>
      cases streamType with
      | tcp =>
          cases h
          exact losesInHand_cancelIf tasks _ .tcp
      | udp =>
          cases h
          exact losesInHand_cancelIf tasks _ .udp
  | lock streamType =>
      cases streamType with
      | tcp =>
          cases (Option.ite_none_right_eq_some.mp h).2
          exact Or.inl ⟨rfl, Nat.le_refl _⟩
      | udp =>
          cases (Option.ite_none_right_eq_some.mp h).2
          exact Or.inl ⟨rfl, Nat.le_refl _⟩
  | frame streamType payload =>
      cases streamType with
      | tcp =>
          cases (Option.ite_none_right_eq_some.mp h).2
          exact Or.inl ⟨rfl, Nat.le_refl _⟩
      | udp =>
          cases (Option.ite_none_right_eq_some.mp h).2
          exact Or.inl ⟨rfl, Nat.le_refl _⟩
  | udpStart =>
      rw [Step, next] at h
      split at h
      · cases h
        exact Or.inl ⟨rfl, Nat.le_refl _⟩
      · cases h
  | udpSent =>
      cases (Option.ite_none_right_eq_some.mp h).2
      exact Or.inl ⟨rfl, Nat.le_refl _⟩

/-- What carries the order from step to step. -/
structure Inv (tasks : VoiceTasks) : Prop where
  held : tasks.LockHeld
  ordered : tasks.shared.Ordered
  lost : tasks.history.lost.length ≤ tasks.history.cancelled

theorem inv_start (phase : StatePhase) : (start phase).Inv where
  held := ⟨by simp [start, SendVoice.new, SendVoice.loop], by
    simp [start, SendVoice.new, SendVoice.loop]⟩
  ordered := SharedStream.ordered_new
  lost := Nat.le_refl 0

theorem Inv.step (hinv : tasks.Inv) (h : tasks.Step label tasks') : tasks'.Inv := by
  obtain ⟨hheld, trace, hrun, hshared⟩ := step_shared hinv.held h
  refine ⟨hheld, hshared ▸ hinv.ordered.run hrun, ?_⟩
  have hbefore := hinv.lost
  rcases step_losesInHand h with ⟨hlost, hcancelled⟩ | ⟨hlost, hcancelled⟩
  · rw [hlost]
    omega
  · have hinHand : tasks.inHand.toList.length ≤ 1 := Option.length_toList_le
    rw [hlost, List.length_append]
    omega

theorem Inv.inOrder (hinv : tasks.Inv) : tasks.InOrder := by
  have hnumbers : tasks.shared.numbers = tasks.sent := by
    simp [SharedStream.numbers, shared, sent]
  have haccounted := hinv.ordered.accounted
  rw [hnumbers] at haccounted
  refine ⟨hnumbers ▸ hinv.ordered.sorted, ?_, hinv.lost⟩
  have hinHand : (tasks.inHand.map Frame.seqNum).toList =
      tasks.inHand.toList.map Frame.seqNum := by
    cases tasks.inHand <;> rfl
  rw [← hinHand]
  exact haccounted

/-- **Frames go out in order.**  However the phase switches and wherever the loops
are cancelled, the frames that are handed over to both transports have strictly
increasing numbers, and a cancellation loses nothing but the frame in hand. -/
theorem inOrder_of_run {phase : StatePhase} {trace : List (VoiceLabel × VoiceTasks)}
    (hrun : Run Step (start phase) trace) :
    AllSteps (fun tasks _ tasks' => tasks'.InOrder ∧ tasks.LosesInHand tasks')
      (start phase) trace := by
  refine hrun.allSteps_of_inv Inv (inv_start phase) ?_
  intro tasks label tasks' hinv hstep
  exact ⟨hinv.step hstep, (hinv.step hstep).inOrder, step_losesInHand hstep⟩

/-- Voice goes over TCP, then over UDP, and back while a frame is in hand. -/
def thereAndBack : List VoiceLabel :=
  [.phase (.connected .tcp), .poll .tcp, .lock .tcp, .frame .tcp [], .phase (.connected .udp),
    .poll .udp, .lock .udp, .frame .udp [], .udpStart, .udpSent, .frame .udp [],
    .phase (.connected .tcp), .poll .udp, .poll .tcp, .lock .tcp, .frame .tcp []]

theorem inOrder_thereAndBack :
    ∃ trace, follow next (start .disconnected) thereAndBack = some trace ∧
      (final (start .disconnected) trace).sent = [0, 1, 3] ∧
      AllSteps (fun tasks _ tasks' => tasks'.InOrder ∧ tasks.LosesInHand tasks')
        (start .disconnected) trace :=
  ⟨Option.get _ (by decide), (Option.some_get _).symm, by decide,
    inOrder_of_run (run_follow (fun _ _ _ h => h) (Option.some_get _).symm)⟩

end VoiceTasks

end Mum
