import Mum.State

/-!
# Tasks that watch the phase

`run_until` of `mum/src/network.rs`, and `send_voice` of
`mum/src/network/tcp.rs`, which waits for a phase and then runs until another.
A poll looks at the latest phase only; the phases between two polls are lost.
-/

namespace Mum

open Library

/-- What a poll of the phase watcher finds. -/
inductive Polled
  | pending
  | seen (version : ℕ)
  | stopped
deriving DecidableEq, Repr

/-- A poll of `run_until` whose receiver saw a version last. -/
def runUntil (phaseChecker : StatePhase → Bool) (watcher : Watch StatePhase) (seen : ℕ) : Polled :=
  if watcher.version = seen then .pending
  else if phaseChecker watcher.value then .stopped
  else .seen watcher.version

theorem runUntil_stopped {phaseChecker : StatePhase → Bool} {watcher : Watch StatePhase} {seen : ℕ}
    (h : runUntil phaseChecker watcher seen = .stopped) : phaseChecker watcher.value := by
  unfold runUntil at h
  split at h
  · cases h
  · split at h
    · assumption
    · cases h

theorem runUntil_seen {phaseChecker : StatePhase → Bool} {watcher : Watch StatePhase}
    {seen version : ℕ} (h : runUntil phaseChecker watcher seen = .seen version) :
    ¬ phaseChecker watcher.value := by
  unfold runUntil at h
  split at h
  · cases h
  · split at h
    · cases h
    · assumption

/-- The task that sends our voice over TCP. -/
inductive VoiceTask
  /-- Waits for `Connected(Tcp)`. -/
  | waiting (seen : ℕ)
  | sending (seen : ℕ)
deriving DecidableEq, Repr

namespace VoiceTask

/-- A receiver of `State::phase_receiver` has seen no phase but the first. -/
def new : VoiceTask := waiting 0

/-- A poll of the task; `none` while no new phase is there. -/
def poll (watcher : Watch StatePhase) : VoiceTask → Option VoiceTask
  | waiting seen =>
      if watcher.version = seen then none
      else if watcher.value = .connected .tcp then some (sending watcher.version)
      else some (waiting watcher.version)
  | sending seen =>
      match runUntil (fun phase => phase ≠ .connected .tcp) watcher seen with
      | .pending => none
      | .seen version => some (sending version)
      | .stopped =>
          -- the outer receiver is cloned again, and it has seen nothing
          some new

def isSending : VoiceTask → Bool
  | waiting _ => false
  | sending _ => true

end VoiceTask

end Mum
