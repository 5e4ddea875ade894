import Mum.Daemon.Answers

/-!
# Starting the daemon

`mum/src/bin/mumd.rs`: a daemon looks for another one before it takes the socket.  It
connects to the path; whoever is there is asked for a `Pong`.  A file that nobody
listens to is removed, and then the path is bound.

A `Site` is the path and all processes that were ever started.  Looking and binding
are different steps, so that two starts can get in each other's way, by removing a file
that is in use again; if they come one at a time, they do not.  What the system refuses
besides, and whether `State::new` returns, is up to the step: a connection that fails in
another way than by being refused is taken for a path without a file, and an error of
`remove_file` or of `bind` is a failed `unwrap`.

## Strategy

`step_cases` says once what a step does.  That one daemon serves is an invariant that
one kind of step can break, whoever starts when.  While starts come one at a time,
`Calm` says where the path leads at each stage, and no step breaks it.  Whether a process
panics is up to its own steps only: `Clear` is kept for a process that nothing impedes,
as `Calm` forbids that somebody else binds the path meanwhile.  For the way to the end,
each stage has its next step, and a process that is not clear has none that helps.
-/

namespace Mum.Mumd

open Library Library.Log
open Mumlib (Command Response)

/-- How far a process has come. -/
inductive Stage
  | absent
  | connecting
  /-- It is connected to a process, and waits for a response to `Ping`. -/
  | pinging (peer : ℕ)
  | removing
  /-- It makes its `State`. -/
  | creating
  | binding
  | serving
  | exited
  | panicked
deriving DecidableEq, Repr

/-- The process was started and has neither come to serve nor to an end. -/
def Stage.isStarting : Stage → Bool
  | connecting | pinging _ | removing | creating | binding => true
  | absent | serving | exited | panicked => false

/-- The socket path and the processes. -/
structure Site where
  /-- The process that bound the file at `SOCKET_PATH`, if there is a file. -/
  path : Option ℕ
  stage : ℕ → Stage

/-- What `UnixStream::connect` returns. -/
inductive Connection
  | stream
  /-- `ErrorKind::ConnectionRefused`. -/
  | refused
  | otherError
deriving DecidableEq, Repr

/-- What a process does. -/
inductive Act
  | start
  | connect (connection : Connection)
  | answered (response : Response)
  /-- The stream ends before there is a response. -/
  | hungUp
  /-- `remove_file`, which may fail. -/
  | remove (ok : Bool)
  /-- `State::new`. -/
  | create (host : Host)
  /-- `UnixListener::bind`, which may fail. -/
  | bind (ok : Bool)
  /-- It is killed, or returns from `client::handle`; the file stays. -/
  | die

namespace Site

def set (s : Site) (p : ℕ) (stage : Stage) : Site :=
  { s with stage := Function.update s.stage p stage }

@[simp] theorem path_set (s : Site) (p : ℕ) (stage : Stage) : (s.set p stage).path = s.path := rfl

theorem stage_set (s : Site) (p : ℕ) (stage : Stage) (q : ℕ) :
    (s.set p stage).stage q = if q = p then stage else s.stage q := Function.update_apply ..

theorem stage_set_self (s : Site) (p : ℕ) (stage : Stage) : (s.set p stage).stage p = stage :=
  Function.update_self ..

/-- A step of a process. -/
def next (s : Site) (label : ℕ × Act) : Option Site :=
  let p := label.1
  match label.2, s.stage p with
  | .start, .absent => some (s.set p .connecting)
  | .connect .stream, .connecting =>
      match s.path with
      | none => none
      | some peer => if s.stage peer = .serving then some (s.set p (.pinging peer)) else none
  | .connect .refused, .connecting =>
      match s.path with
      | none => none
      | some peer => if s.stage peer = .serving then none else some (s.set p .removing)
  -- there is no file, or it cannot be connected to for another reason
  | .connect .otherError, .connecting => some (s.set p .creating)
  | .answered response, .pinging _ =>
      match response with
      | .ok (some .pong) => some (s.set p .exited)
      | _ => some (s.set p .removing)
  | .hungUp, .pinging peer =>
      if s.stage peer = .serving then none else some (s.set p .removing)
  | .remove true, .removing =>
      if s.path = none then none else some { s.set p .creating with path := none }
  | .remove false, .removing => some (s.set p .panicked)
  | .create host, .creating =>
      match State.new host with
      | .ok (some _) => some (s.set p .binding)
      | .ok none => some (s.set p .exited)
      | .error .panic => some (s.set p .panicked)
      | .error .hang => none
  | .bind true, .binding =>
      if s.path = none then some { s.set p .serving with path := some p } else none
  | .bind false, .binding => some (s.set p .panicked)
  | .die, .absent => none
  | .die, _ => some (s.set p .exited)
  | _, _ => none

/-- A step whose responses are those of the daemon. -/
def Step (s : Site) (label : ℕ × Act) (s' : Site) : Prop :=
  s.next label = some s' ∧ ∀ response, label.2 = .answered response → Daemon.Serves .ping response

/-- Only one daemon serves, and the path leads to it. -/
def OneDaemon (s : Site) : Prop := ∀ p, s.stage p = .serving → s.path = some p

/-- The file of a process that serves is removed. -/
def RemovesLive (s : Site) (label : ℕ × Act) : Prop :=
  s.stage label.1 = .removing ∧ label.2 = .remove true ∧
    ∃ peer, s.path = some peer ∧ s.stage peer = .serving

/-- The host does not let a process do what the site would allow: connect to the file,
remove it, bind the path, or make a `State`. -/
def Impedes (s : Site) (label : ℕ × Act) : Prop :=
  match label.2 with
  | .connect .otherError => s.path ≠ none
  | .remove ok => ok = false ∧ s.path ≠ none
  | .create host => State.new host = .error .panic
  | .bind ok => ok = false ∧ s.path = none
  | _ => False

/-- Nobody has started yet; there may be a file from before. -/
def Quiet (s : Site) : Prop := ∀ p, s.stage p = .absent ∨ s.stage p = .exited

/-! ## The steps -/

/-- What a process does, and where it comes to. -/
inductive StepCase (s : Site) (p : ℕ) : Act → Site → Prop
  | start (hstage : s.stage p = .absent) : StepCase s p .start (s.set p .connecting)
  | connected {peer : ℕ} (hstage : s.stage p = .connecting) (hpath : s.path = some peer)
      (hpeer : s.stage peer = .serving) : StepCase s p (.connect .stream) (s.set p (.pinging peer))
  | refused {peer : ℕ} (hstage : s.stage p = .connecting) (hpath : s.path = some peer)
      (hpeer : s.stage peer ≠ .serving) : StepCase s p (.connect .refused) (s.set p .removing)
  | notConnected (hstage : s.stage p = .connecting) :
      StepCase s p (.connect .otherError) (s.set p .creating)
  | pong {peer : ℕ} (hstage : s.stage p = .pinging peer) :
      StepCase s p (.answered (.ok (some .pong))) (s.set p .exited)
  | hungUp {peer : ℕ} (hstage : s.stage p = .pinging peer) (hpeer : s.stage peer ≠ .serving) :
      StepCase s p .hungUp (s.set p .removing)
  | removed (hstage : s.stage p = .removing) (hpath : s.path ≠ none) :
      StepCase s p (.remove true) { s.set p .creating with path := none }
  | notRemoved (hstage : s.stage p = .removing) :
      StepCase s p (.remove false) (s.set p .panicked)
  | created {host : Host} {state : State} (hstage : s.stage p = .creating)
      (hnew : State.new host = .ok (some state)) : StepCase s p (.create host) (s.set p .binding)
  | failed {host : Host} (hstage : s.stage p = .creating) (hnew : State.new host = .ok none) :
      StepCase s p (.create host) (s.set p .exited)
  | crashed {host : Host} (hstage : s.stage p = .creating)
      (hnew : State.new host = .error .panic) : StepCase s p (.create host) (s.set p .panicked)
  | bound (hstage : s.stage p = .binding) (hpath : s.path = none) :
      StepCase s p (.bind true) { s.set p .serving with path := some p }
  | notBound (hstage : s.stage p = .binding) : StepCase s p (.bind false) (s.set p .panicked)
  | died (hstage : s.stage p ≠ .absent) : StepCase s p .die (s.set p .exited)

variable {s s' : Site} {p : ℕ} {act : Act}

/-- A daemon answers `Ping` with `Pong`. -/
theorem pong_of_serves {response : Response} (h : Daemon.Serves .ping response) :
    response = .ok (some .pong) := by
  have hanswers := h.answers
  cases response with
  | error e => exact hanswers.elim
  | ok response => rw [show response = some .pong from hanswers]

theorem step_cases (h : Step s (p, act) s') : StepCase s p act s' := by
  obtain ⟨hnext, hserved⟩ := h
  unfold next at hnext
  dsimp only at hnext
  split at hnext
  next hstage =>
    cases hnext
    exact .start hstage
  next hstage =>
    split at hnext
    · cases hnext
    next peer hpath =>
      obtain ⟨hpeer, hnext⟩ := Option.ite_none_right_eq_some.mp hnext
      cases hnext
      exact .connected hstage hpath hpeer
  next hstage =>
    split at hnext
    · cases hnext
    next peer hpath =>
      obtain ⟨hpeer, hnext⟩ := Option.ite_none_left_eq_some.mp hnext
      cases hnext
      exact .refused hstage hpath hpeer
  next hstage =>
    cases hnext
    exact .notConnected hstage
  next response peer hstage =>
    have hpong := pong_of_serves (hserved response rfl)
    subst hpong
    cases hnext
    exact .pong hstage
  next peer hstage =>
    obtain ⟨hpeer, hnext⟩ := Option.ite_none_left_eq_some.mp hnext
    cases hnext
    exact .hungUp hstage hpeer
  next hstage =>
    obtain ⟨hpath, hnext⟩ := Option.ite_none_left_eq_some.mp hnext
    cases hnext
    exact .removed hstage hpath
  next hstage =>
    cases hnext
    exact .notRemoved hstage
  next host hstage =>
    split at hnext
    next state hnew =>
      cases hnext
      exact .created hstage hnew
    next hnew =>
      cases hnext
      exact .failed hstage hnew
    next hnew =>
      cases hnext
      exact .crashed hstage hnew
    · cases hnext
  next hstage =>
    obtain ⟨hpath, hnext⟩ := Option.ite_none_right_eq_some.mp hnext
    cases hnext
    exact .bound hstage hpath
  next hstage =>
    cases hnext
    exact .notBound hstage
  · cases hnext
  next hstage =>
    cases hnext
    exact .died hstage
  · cases hnext

/-! ## One daemon -/

/-- A process that does not come to serve. -/
theorem OneDaemon.set (h : s.OneDaemon) (p : ℕ) {stage : Stage} (hstage : stage ≠ .serving) :
    (s.set p stage).OneDaemon := by
  intro q hq
  rw [stage_set] at hq
  split at hq
  · exact absurd hq hstage
  · exact h q hq

/-- All that can go wrong is that a file is removed under a daemon. -/
theorem oneDaemon_step_iff (h : s.OneDaemon) (hstep : Step s (p, act) s') :
    s'.OneDaemon ↔ ¬ s.RemovesLive (p, act) := by
  have hother : act ≠ .remove true → ¬ s.RemovesLive (p, act) := fun hne hlive => hne hlive.2.1
  cases step_cases hstep with
  | removed hstage hpath =>
      constructor
      · rintro hone ⟨-, -, peer', hpath', hserving⟩
        have hne : peer' ≠ p := by
          rintro rfl
          cases hstage.symm.trans hserving
        have hserving' : (s.set p .creating).stage peer' = .serving := by
          rw [stage_set, if_neg hne]
          exact hserving
        cases hone peer' hserving'
      · intro hlive q hq
        have hq' : (s.set p .creating).stage q = .serving := hq
        rw [stage_set] at hq'
        split at hq'
        · cases hq'
        · exact absurd ⟨hstage, rfl, q, h q hq', hq'⟩ hlive
  | bound hstage hpath =>
      refine iff_of_true (fun q hq => ?_) (hother (fun h => nomatch h))
      have hq' : (s.set p .serving).stage q = .serving := hq
      rw [stage_set] at hq'
      split at hq'
      next heq => rw [heq]
      · cases hpath.symm.trans (h q hq')
  | start | connected | refused | notConnected | pong | hungUp | notRemoved | created | failed
  | crashed | notBound | died =>
      exact iff_of_true (h.set p (fun h => nomatch h)) (hother (fun h => nomatch h))

/-! ## One start at a time -/

/-- Nobody starts while somebody else does. -/
def InTurn (s : Site) (label : ℕ × Act) : Prop :=
  label.2 = .start → ∀ p, ¬ (s.stage p).isStarting

/-- Where the path leads while one process starts. -/
structure Calm (s : Site) : Prop where
  oneDaemon : s.OneDaemon
  alone : ∀ p q, (s.stage p).isStarting → (s.stage q).isStarting → p = q
  pinging : ∀ p peer, s.stage p = .pinging peer → s.path = some peer
  removing : ∀ p, s.stage p = .removing → ∃ peer, s.path = some peer ∧ s.stage peer ≠ .serving

/-- The process can take the path once it comes to that, and has not panicked. -/
structure Clear (s : Site) (p : ℕ) : Prop where
  free : s.stage p = .creating ∨ s.stage p = .binding → s.path = none
  fine : s.stage p ≠ .panicked

theorem Quiet.ne (h : s.Quiet) {stage : Stage} (habsent : stage ≠ .absent)
    (hexited : stage ≠ .exited) : s.stage p ≠ stage := by
  rintro rfl
  rcases h p with h | h
  · exact habsent h
  · exact hexited h

theorem Quiet.not_isStarting (h : s.Quiet) (p : ℕ) : ¬ (s.stage p).isStarting := by
  rcases h p with h | h
  · rw [h]
    decide
  · rw [h]
    decide

theorem Quiet.calm (h : s.Quiet) : s.Calm where
  oneDaemon := fun _ hp => absurd hp (h.ne (by decide) (by decide))
  alone := fun p _ hp => absurd hp (h.not_isStarting p)
  pinging := fun _ _ hp => absurd hp (h.ne (fun h => nomatch h) (fun h => nomatch h))
  removing := fun _ hp => absurd hp (h.ne (by decide) (by decide))

theorem Quiet.clear (h : s.Quiet) (p : ℕ) : s.Clear p where
  free := by
    rintro (hp | hp)
    · exact absurd hp (h.ne (by decide) (by decide))
    · exact absurd hp (h.ne (by decide) (by decide))
  fine := h.ne (by decide) (by decide)

/-- A process comes to another stage, and the path stays. -/
theorem Calm.set (h : s.Calm) {stage : Stage} (hserving : stage ≠ .serving)
    (halone : stage.isStarting → ∀ q, (s.stage q).isStarting → q = p)
    (hpinging : ∀ peer, stage = .pinging peer → s.path = some peer)
    (hremoving : stage = .removing → ∃ peer, s.path = some peer ∧ s.stage peer ≠ .serving) :
    (s.set p stage).Calm where
  oneDaemon := h.oneDaemon.set p hserving
  alone := by
    intro q r hq hr
    rw [stage_set] at hq hr
    split at hq
    next hqp =>
      split at hr
      next hrp => rw [hqp, hrp]
      · rw [hqp, halone hq r hr]
    · split at hr
      next hrp => rw [hrp, halone hr q hq]
      · exact h.alone q r hq hr
  pinging := by
    intro q peer hq
    rw [stage_set] at hq
    split at hq
    · exact hpinging peer hq
    · exact h.pinging q peer hq
  removing := by
    intro q hq
    have hpeer : ∃ peer, s.path = some peer ∧ s.stage peer ≠ .serving := by
      rw [stage_set] at hq
      split at hq
      · exact hremoving hq
      · exact h.removing q hq
    obtain ⟨peer, hpath, hpeer⟩ := hpeer
    refine ⟨peer, hpath, ?_⟩
    rw [stage_set]
    split
    · exact hserving
    · exact hpeer

/-- The process that starts changes the path, and nobody else starts. -/
theorem Calm.move (h : s.Calm) (hstarting : (s.stage p).isStarting) {stage : Stage}
    {path : Option ℕ} (hone : OneDaemon { s.set p stage with path := path })
    (hstage : stage = .creating ∨ stage = .serving) :
    Calm { s.set p stage with path := path } := by
  have hother : ∀ q, ((s.set p stage).stage q).isStarting → q = p ∧ stage.isStarting := by
    intro q hq
    rw [stage_set] at hq
    split at hq
    next heq => exact ⟨heq, hq⟩
    next hne => exact absurd (h.alone q p hq hstarting) hne
  have hnot : ∀ q stage', stage'.isStarting → stage' ≠ .creating →
      (s.set p stage).stage q ≠ stage' := by
    rintro q stage' hstarting' hne rfl
    obtain ⟨rfl, hstarts⟩ := hother q hstarting'
    rw [stage_set_self] at hne
    rcases hstage with hcreating | hserving
    · exact hne hcreating
    · rw [hserving] at hstarts
      cases hstarts
  refine ⟨hone, fun q r hq hr => ?_, fun q peer hq => ?_, fun q hq => ?_⟩
  · rw [(hother q hq).1, (hother r hr).1]
  · exact absurd hq (hnot q _ rfl fun h => nomatch h)
  · exact absurd hq (hnot q _ rfl (by decide))

theorem Calm.step (h : s.Calm) (hturn : s.InTurn (p, act)) (hstep : Step s (p, act) s') :
    s'.Calm := by
  have halone : (s.stage p).isStarting → ∀ q, (s.stage q).isStarting → q = p :=
    fun hp q hq => h.alone q p hq hp
  cases step_cases hstep with
  | start hstage =>
      exact h.set (by decide) (fun _ q hq => absurd hq (hturn rfl q)) (fun _ h => nomatch h)
        (fun h => nomatch h)
  | connected hstage hpath hpeer =>
      refine h.set (fun h => nomatch h) (fun _ => halone (by rw [hstage]; rfl)) (fun peer h => ?_)
        (fun h => nomatch h)
      cases h
      exact hpath
  | refused hstage hpath hpeer =>
      exact h.set (by decide) (fun _ => halone (by rw [hstage]; rfl)) (fun _ h => nomatch h)
        (fun _ => ⟨_, hpath, hpeer⟩)
  | hungUp hstage hpeer =>
      exact h.set (by decide) (fun _ => halone (by rw [hstage]; rfl)) (fun _ h => nomatch h)
        (fun _ => ⟨_, h.pinging p _ hstage, hpeer⟩)
  | notConnected hstage | created hstage =>
      exact h.set (by decide) (fun _ => halone (by rw [hstage]; rfl)) (fun _ h => nomatch h)
        (fun h => nomatch h)
  | pong | notRemoved | failed | crashed | notBound | died =>
      exact h.set (by decide) (fun h => nomatch h) (fun _ h => nomatch h) (fun h => nomatch h)
  | removed hstage _ =>
      obtain ⟨peer, hpath, hpeer⟩ := h.removing p hstage
      have hlive : ¬ s.RemovesLive (p, .remove true) := by
        rintro ⟨-, -, peer', hpath', hserving⟩
        cases hpath.symm.trans hpath'
        exact hpeer hserving
      exact h.move (by rw [hstage]; rfl) ((oneDaemon_step_iff h.oneDaemon hstep).mpr hlive)
        (.inl rfl)
  | bound hstage hpath =>
      have hlive : ¬ s.RemovesLive (p, .bind true) := fun hlive => nomatch hlive.2.1
      exact h.move (by rw [hstage]; rfl) ((oneDaemon_step_iff h.oneDaemon hstep).mpr hlive)
        (.inr rfl)

/-! ## One that is not impeded -/

/-- A process comes to another stage, and the path stays. -/
theorem Clear.set (h : s.Clear p) {q : ℕ} {stage : Stage}
    (hfree : q = p → stage = .creating ∨ stage = .binding → s.path = none)
    (hfine : q = p → stage ≠ .panicked) : (s.set q stage).Clear p where
  free := by
    intro hp
    rw [stage_set] at hp
    split at hp
    next heq => exact hfree heq.symm hp
    · exact h.free hp
  fine := by
    rw [stage_set]
    split
    next heq => exact hfine heq.symm
    · exact h.fine

/-- A process that comes to neither of the stages that matter. -/
theorem Clear.set_of_ne (h : s.Clear p) (q : ℕ) {stage : Stage} (hcreating : stage ≠ .creating)
    (hbinding : stage ≠ .binding) (hpanicked : stage ≠ .panicked) : (s.set q stage).Clear p := by
  refine h.set (fun _ hstage => ?_) fun _ => hpanicked
  rcases hstage with hstage | hstage
  · exact absurd hstage hcreating
  · exact absurd hstage hbinding

/-- The stage of a process that starts, while another one does something to the path. -/
theorem Calm.eq_of_starting (h : s.Calm) {q : ℕ} (hq : (s.stage q).isStarting)
    (hp : s.stage p = .creating ∨ s.stage p = .binding) : p = q := by
  refine h.alone p q ?_ hq
  rcases hp with hp | hp
  · rw [hp]
    rfl
  · rw [hp]
    rfl

theorem set_ne_panicked (h : s.stage p ≠ .panicked) (q : ℕ) {stage : Stage}
    (hstage : stage ≠ .panicked) : (s.set q stage).stage p ≠ .panicked := by
  rw [stage_set]
  split
  · exact hstage
  · exact h

theorem Clear.step (h : s.Clear p) (hcalm : s.Calm) {q : ℕ}
    (hfair : q = p → ¬ s.Impedes (q, act)) (hstep : Step s (q, act) s') : s'.Clear p := by
  cases step_cases hstep with
  | start | refused | pong | hungUp | failed | died =>
      exact h.set_of_ne q (by decide) (by decide) (by decide)
  | connected =>
      exact h.set_of_ne q (fun h => nomatch h) (fun h => nomatch h) (fun h => nomatch h)
  | notConnected hstage =>
      refine h.set (fun heq _ => ?_) fun _ => by decide
      exact not_not.mp (hfair heq)
  | created hstage hnew =>
      refine h.set (fun heq _ => ?_) fun _ => by decide
      subst heq
      exact h.free (.inl hstage)
  | crashed hstage hnew => exact h.set (fun _ h => nomatch h) fun heq => absurd hnew (hfair heq)
  | notRemoved hstage =>
      obtain ⟨peer, hpath, -⟩ := hcalm.removing q hstage
      refine h.set (fun _ h => nomatch h) fun heq => absurd ⟨rfl, ?_⟩ (hfair heq)
      rw [hpath]
      exact Option.some_ne_none peer
  | notBound hstage =>
      refine h.set (fun _ h => nomatch h) fun heq => ?_
      subst heq
      exact absurd ⟨rfl, h.free (.inr hstage)⟩ (hfair rfl)
  | removed hstage hpath => exact ⟨fun _ => rfl, set_ne_panicked h.fine q (by decide)⟩
  | bound hstage hpath =>
      refine ⟨fun hp => ?_, set_ne_panicked h.fine q (by decide)⟩
      have hp' : (s.set q .serving).stage p = .creating ∨ (s.set q .serving).stage p = .binding :=
        hp
      rw [stage_set] at hp'
      split at hp'
      · rcases hp' with hp' | hp'
        · cases hp'
        · cases hp'
      next hne => exact absurd (hcalm.eq_of_starting (by rw [hstage]; rfl) hp') hne

/-- Starts come one at a time, and nothing impedes one of the processes. -/
theorem Calm.clear_step (h : s.Calm ∧ s.Clear p) {label : ℕ × Act} (hstep : Step s label s')
    (hfair : s.InTurn label ∧ (label.1 = p → ¬ s.Impedes label)) : s'.Calm ∧ s'.Clear p :=
  ⟨h.1.step hfair.1 hstep, h.2.step h.1 hfair.2 hstep⟩

theorem Step.of_next {label : ℕ × Act} (h : s.next label = some s')
    (hact : ∀ response, label.2 ≠ .answered response) : Step s label s' :=
  ⟨h, fun response heq => absurd heq (hact response)⟩

/-- There is a file from a process that is gone. -/
def stale : Site := ⟨some 0, fun p => if p = 0 then .exited else .absent⟩

theorem quiet_stale : stale.Quiet := by
  intro p
  show (if p = 0 then Stage.exited else .absent) = .absent ∨ _
  split
  · exact .inr (if_pos ‹_›)
  · exact .inl rfl

/-- **Daemons and the path.**  However starts overlap: one daemon at most serves, and
the path leads to it, exactly as long as nobody removes the file of a daemon that serves. -/
theorem oneDaemon_run_iff {trace : List ((ℕ × Act) × Site)} (h : s.OneDaemon)
    (hrun : Run Step s trace) :
    AllSteps (fun _ _ s' => s'.OneDaemon) s trace ↔
      AllSteps (fun s label _ => ¬ s.RemovesLive label) s trace :=
  hrun.allSteps_iff OneDaemon h (fun _ _ _ hone hstep => oneDaemon_step_iff hone hstep)
    fun _ _ _ _ _ h => h

/-- Two processes find the file before either removes it.  The second removes that of the
first, which serves on without a path to it. -/
theorem oneDaemon_run_iff_overlapping :
    ∃ trace, Run Step stale trace ∧ (final stale trace).stage 1 = .serving ∧
      (final stale trace).stage 2 = .serving ∧ (final stale trace).path = some 2 ∧
      ¬ AllSteps (fun s label _ => ¬ s.RemovesLive label) stale trace := by
  have hrun : Run Step stale [((1, .start), _), ((1, .connect .refused), _), ((2, .start), _),
      ((2, .connect .refused), _), ((1, .remove true), _), ((1, .create .offline), _),
      ((1, .bind true), _), ((2, .remove true), _), ((2, .create .offline), _),
      ((2, .bind true), _)] :=
    .cons (.of_next rfl fun _ h => nomatch h) <| .cons (.of_next rfl fun _ h => nomatch h) <|
      .cons (.of_next rfl fun _ h => nomatch h) <| .cons (.of_next rfl fun _ h => nomatch h) <|
      .cons (.of_next rfl fun _ h => nomatch h) <| .cons (.of_next rfl fun _ h => nomatch h) <|
      .cons (.of_next rfl fun _ h => nomatch h) <| .cons (.of_next rfl fun _ h => nomatch h) <|
      .cons (.of_next rfl fun _ h => nomatch h) <| .cons (.of_next rfl fun _ h => nomatch h) .nil
  refine ⟨_, hrun, rfl, rfl, rfl, fun hremoves => ?_⟩
  have hone := (oneDaemon_run_iff quiet_stale.calm.oneDaemon hrun).mpr hremoves
  have hlast := hone.2.2.2.2.2.2.2.2.2.1 1 rfl
  cases hlast

/-- A step that the host does not impede, of a process that is not stopped: `State::new`
makes a `State`. -/
def GoesOn (s : Site) (label : ℕ × Act) : Prop :=
  ¬ s.Impedes label ∧ label.2 ≠ .die ∧
    ∀ host, label.2 = .create host → ∃ state, State.new host = .ok (some state)

/-- The process is done, and a daemon can be reached. -/
def Settled (s : Site) (p : ℕ) : Prop :=
  (s.stage p = .serving ∨ s.stage p = .exited) ∧
    ∃ q, s.stage q = .serving ∧ s.path = some q

/-- The process can settle by steps of its own. -/
def Settles (s : Site) (p : ℕ) : Prop :=
  ∃ more, Run Step s more ∧ (∀ entry ∈ more, entry.1.1 = p) ∧
    AllSteps (fun s label _ => s.GoesOn label) s more ∧ (final s more).Settled p

theorem Settles.cons (hstep : Step s (p, act) s') (hgoes : s.GoesOn (p, act))
    (h : s'.Settles p) : s.Settles p := by
  obtain ⟨more, hrun, hmine, hgo, hsettled⟩ := h
  refine ⟨((p, act), s') :: more, .cons hstep hrun, fun entry hmem => ?_, ⟨hgoes, hgo⟩, hsettled⟩
  rcases List.mem_cons.mp hmem with rfl | hmem
  · rfl
  · exact hmine entry hmem

/-- Somebody asks a daemon for a `Pong`. -/
theorem serves_pong : Daemon.Serves .ping (.ok (some .pong)) := by
  have hfollow : Library.follow Daemon.next (.start .idle) [.system .online (.command .ping)] =
      some _ := rfl
  exact ⟨.idle, _, 0, run_follow (fun _ _ _ h => h) hfollow, rfl, List.mem_of_getElem? (i := 0) rfl⟩

/-! ### From each stage -/

theorem settles_binding (hstage : s.stage p = .binding) (hpath : s.path = none) :
    s.Settles p := by
  have hstep : Step s (p, .bind true) { s.set p .serving with path := some p } :=
    .of_next (by simp [next, hstage, hpath]) fun _ h => nomatch h
  have hserving : (s.set p .serving).stage p = .serving := stage_set_self ..
  have hsettled : Settled { s.set p .serving with path := some p } p :=
    ⟨.inl hserving, p, hserving, rfl⟩
  refine .cons hstep ⟨?_, (fun h => nomatch h), fun _ h => nomatch h⟩
    ⟨[], .nil, (fun _ h => nomatch h), trivial, hsettled⟩
  exact fun h => nomatch h.1

theorem settles_creating (hstage : s.stage p = .creating) (hpath : s.path = none) :
    s.Settles p := by
  have hnew : State.new .offline = .ok (some .idle) := rfl
  have hstep : Step s (p, .create .offline) (s.set p .binding) :=
    .of_next (by simp [next, hstage, hnew]) fun _ h => nomatch h
  refine .cons hstep ⟨?_, (fun h => nomatch h), fun host heq => ?_⟩
    (settles_binding (stage_set_self ..) hpath)
  · intro h
    cases hnew.symm.trans h
  · cases heq
    exact ⟨_, hnew⟩

theorem settles_removing (hstage : s.stage p = .removing) (hpath : s.path ≠ none) :
    s.Settles p := by
  have hstep : Step s (p, .remove true) { s.set p .creating with path := none } :=
    .of_next (by simp [next, hstage, hpath]) fun _ h => nomatch h
  refine .cons hstep ⟨?_, (fun h => nomatch h), fun _ h => nomatch h⟩
    (settles_creating (stage_set_self ..) rfl)
  exact fun h => nomatch h.1

/-- Whoever is asked answers, or is gone. -/
theorem settles_pinging {peer : ℕ} (hstage : s.stage p = .pinging peer)
    (hpath : s.path = some peer) : s.Settles p := by
  by_cases hpeer : s.stage peer = .serving
  · have hstep : Step s (p, .answered (.ok (some .pong))) (s.set p .exited) := by
      refine ⟨by simp [next, hstage], fun response heq => ?_⟩
      cases heq
      exact serves_pong
    have hne : peer ≠ p := by
      rintro rfl
      cases hstage.symm.trans hpeer
    have hsettled : (s.set p .exited).Settled p := by
      refine ⟨.inr (stage_set_self ..), peer, ?_, hpath⟩
      rw [stage_set, if_neg hne]
      exact hpeer
    exact .cons hstep ⟨id, (fun h => nomatch h), fun _ h => nomatch h⟩
      ⟨[], .nil, (fun _ h => nomatch h), trivial, hsettled⟩
  · have hstep : Step s (p, .hungUp) (s.set p .removing) :=
      .of_next (by simp [next, hstage, hpeer]) fun _ h => nomatch h
    refine .cons hstep ⟨id, (fun h => nomatch h), fun _ h => nomatch h⟩
      (settles_removing (stage_set_self ..) ?_)
    rw [path_set, hpath]
    exact Option.some_ne_none peer

theorem settles_connecting (hstage : s.stage p = .connecting) : s.Settles p := by
  cases hpath : s.path with
  | none =>
      have hstep : Step s (p, .connect .otherError) (s.set p .creating) :=
        .of_next (by simp [next, hstage]) fun _ h => nomatch h
      exact .cons hstep ⟨fun h => h hpath, (fun h => nomatch h), fun _ h => nomatch h⟩
        (settles_creating (stage_set_self ..) hpath)
  | some peer =>
      by_cases hpeer : s.stage peer = .serving
      · have hstep : Step s (p, .connect .stream) (s.set p (.pinging peer)) :=
          .of_next (by simp [next, hstage, hpath, hpeer]) fun _ h => nomatch h
        exact .cons hstep ⟨id, (fun h => nomatch h), fun _ h => nomatch h⟩
          (settles_pinging (stage_set_self ..) hpath)
      · have hstep : Step s (p, .connect .refused) (s.set p .removing) :=
          .of_next (by simp [next, hstage, hpath, hpeer]) fun _ h => nomatch h
        refine .cons hstep ⟨id, (fun h => nomatch h), fun _ h => nomatch h⟩
          (settles_removing (stage_set_self ..) ?_)
        rw [path_set, hpath]
        exact Option.some_ne_none peer

/-- A process that starts, and has not gone past a file. -/
theorem Calm.settles (h : s.Calm) (hstarting : (s.stage p).isStarting)
    (hfree : s.stage p = .creating ∨ s.stage p = .binding → s.path = none) : s.Settles p := by
  cases hstage : s.stage p with
  | connecting => exact settles_connecting hstage
  | pinging peer => exact settles_pinging hstage (h.pinging p peer hstage)
  | removing =>
      obtain ⟨peer, hpath, -⟩ := h.removing p hstage
      refine settles_removing hstage ?_
      rw [hpath]
      exact Option.some_ne_none peer
  | creating => exact settles_creating hstage (hfree (.inl hstage))
  | binding => exact settles_binding hstage (hfree (.inr hstage))
  | absent | serving | exited | panicked =>
      rw [hstage] at hstarting
      cases hstarting

/-! ### Past a file -/

/-- The process has gone past a file, and will not come to serve. -/
structure Barred (s : Site) (p : ℕ) : Prop where
  path : s.path ≠ none
  stage : s.stage p = .creating ∨ s.stage p = .binding ∨ s.stage p = .panicked

theorem Barred.set (h : s.Barred p) {stage : Stage}
    (hstage : stage = .creating ∨ stage = .binding ∨ stage = .panicked) :
    (s.set p stage).Barred p := by
  refine ⟨h.path, ?_⟩
  rw [stage_set_self]
  exact hstage

theorem Barred.step (h : s.Barred p) (hgoes : s.GoesOn (p, act)) (hstep : Step s (p, act) s') :
    s'.Barred p := by
  have hne : ∀ stage, stage ≠ .creating → stage ≠ .binding → stage ≠ .panicked →
      s.stage p ≠ stage := by
    rintro stage hcreating hbinding hpanicked rfl
    rcases h.stage with hstage | hstage | hstage
    · exact hcreating hstage
    · exact hbinding hstage
    · exact hpanicked hstage
  cases step_cases hstep with
  | start hstage | refused hstage | notConnected hstage | removed hstage | notRemoved hstage =>
      exact absurd hstage (hne _ (by decide) (by decide) (by decide))
  | connected hstage => exact absurd hstage (hne _ (by decide) (by decide) (by decide))
  | pong hstage | hungUp hstage =>
      exact absurd hstage (hne _ (fun h => nomatch h) (fun h => nomatch h) (fun h => nomatch h))
  | created hstage hnew => exact h.set (.inr (.inl rfl))
  | failed hstage hnew =>
      obtain ⟨state, hstate⟩ := hgoes.2.2 _ rfl
      cases hnew.symm.trans hstate
  | crashed hstage hnew => exact h.set (.inr (.inr rfl))
  | bound hstage hpath => exact absurd hpath h.path
  | notBound hstage => exact h.set (.inr (.inr rfl))
  | died hstage => exact absurd rfl hgoes.2.1

theorem Barred.not_settles (h : s.Barred p) : ¬ s.Settles p := by
  rintro ⟨more, hrun, hmine, hgo, hsettled, -⟩
  have hbarred : (final s more).Barred p := by
    clear hsettled
    induction hrun with
    | nil => exact h
    | @cons s s' label _ hstep _ ih =>
        obtain ⟨q, act⟩ := label
        obtain rfl : q = p := hmine _ List.mem_cons_self
        exact ih (h.step hgo.1 hstep) (fun entry hmem => hmine entry (List.mem_cons_of_mem _ hmem))
          hgo.2
  rcases hbarred.stage with hstage | hstage | hstage
  all_goals
    rw [hstage] at hsettled
    rcases hsettled with hsettled | hsettled
    · cases hsettled
    · cases hsettled

/-- **Every start can end well.**  Whatever happened before, and whoever died: a process
that starts can go on by itself, if `State::new` succeeds, until it serves or leaves a
daemon that does; then there is a daemon, and the path leads to it.  Only a process that
went on past a file which it could not connect to cannot, and one that nothing impeded has
not done so. -/
theorem exists_run_settled {trace : List ((ℕ × Act) × Site)} (hquiet : s.Quiet)
    (hrun : Run Step s trace) (hturns : AllSteps (fun s label _ => s.InTurn label) s trace)
    (hstarting : ((final s trace).stage p).isStarting) :
    ((final s trace).Settles p ↔
      ((final s trace).stage p = .creating ∨ (final s trace).stage p = .binding →
        (final s trace).path = none)) ∧
      (AllSteps (fun s label _ => label.1 = p → ¬ s.Impedes label) s trace →
        (final s trace).Settles p) := by
  have hcalm : (final s trace).Calm := hrun.inv_final_of_allSteps Calm hquiet.calm
    (fun _ _ _ h hstep hturn => h.step hturn hstep) hturns
  refine ⟨⟨fun hsettles hstage => ?_, hcalm.settles hstarting⟩, fun hfair => ?_⟩
  · by_contra hpath
    refine Barred.not_settles ⟨hpath, ?_⟩ hsettles
    exact hstage.imp_right .inl
  · refine hcalm.settles hstarting (Clear.free ?_)
    exact (hrun.inv_final_of_allSteps (fun s => s.Calm ∧ s.Clear p)
      ⟨hquiet.calm, hquiet.clear p⟩ (fun _ _ _ h hstep hfair => Calm.clear_step h hstep hfair)
      (hturns.and hfair)).2

theorem exists_run_settled_stale : (stale.set 1 .connecting).Settles 1 := by
  have hrun : Run Step stale [((1, .start), stale.set 1 .connecting)] :=
    .cons (.of_next rfl fun _ h => nomatch h) .nil
  exact (exists_run_settled quiet_stale hrun ⟨fun _ => quiet_stale.not_isStarting, trivial⟩
    rfl).2 ⟨fun _ => id, trivial⟩

end Site

end Mum.Mumd
