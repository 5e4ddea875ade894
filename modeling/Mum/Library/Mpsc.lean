/-!
# Channels with one receiver

An unbounded channel and the task at its receiving end, which takes one value
after the other and writes each out.  When a write fails the task ends and drops
the receiver; from then on nothing can be sent.
-/

namespace Mum.Library

universe u

/-- Where the receiving task stands. -/
inductive Receiver (α : Type u)
  | waiting
  | writing (a : α)
  | dropped
deriving DecidableEq, Repr

structure Mpsc (α : Type u) where
  queue : List α
  receiver : Receiver α
deriving DecidableEq, Repr

namespace Mpsc

variable {α : Type u}

/-- `mpsc::unbounded_channel`. -/
def new : Mpsc α := ⟨[], .waiting⟩

/-- Sends a value; fails when the receiver is dropped. -/
def send (channel : Mpsc α) (a : α) : Option (Mpsc α) :=
  match channel.receiver with
  | .dropped => none
  | _ => some { channel with queue := channel.queue ++ [a] }

/-- The task takes the next value, if it waits for one and there is one. -/
def recv (channel : Mpsc α) : Option (Mpsc α) :=
  match channel.receiver, channel.queue with
  | .waiting, a :: queue => some ⟨queue, .writing a⟩
  | _, _ => none

/-- The write of the task succeeds or fails. -/
def written (channel : Mpsc α) (ok : Bool) : Option (Mpsc α) :=
  match channel.receiver with
  | .writing _ => some { channel with receiver := if ok then .waiting else .dropped }
  | _ => none

@[simp] theorem send_new (a : α) : new.send a = some ⟨[a], .waiting⟩ := rfl

@[simp] theorem recv_new : (new : Mpsc α).recv = none := rfl

@[simp] theorem written_new (ok : Bool) : (new : Mpsc α).written ok = none := rfl

/-- The first value is taken at once by a task that waits. -/
theorem recv_waiting (a : α) (queue : List α) :
    (⟨a :: queue, .waiting⟩ : Mpsc α).recv = some ⟨queue, .writing a⟩ := rfl

/-- Sending leaves the task where it is. -/
theorem send_waiting (queue : List α) (a : α) :
    (⟨queue, .waiting⟩ : Mpsc α).send a = some ⟨queue ++ [a], .waiting⟩ := rfl

end Mpsc

end Mum.Library
