/-!
# Watch channels

A watch channel holds its latest value only.  Every send counts as a new
version; a receiver remembers the version it saw last, and its `changed` waits
for another one.
-/

namespace Mum.Library

/-- The latest value and how often the channel was written. -/
structure Watch (α : Type) where
  value : α
  version : Nat
deriving DecidableEq, Repr

namespace Watch

variable {α : Type}

/-- `watch::channel`. -/
def new (a : α) : Watch α := ⟨a, 0⟩

def send (watch : Watch α) (a : α) : Watch α := ⟨a, watch.version + 1⟩

@[simp] theorem value_send (watch : Watch α) (a : α) : (watch.send a).value = a := rfl

@[simp] theorem version_send (watch : Watch α) (a : α) :
    (watch.send a).version = watch.version + 1 := rfl

end Watch

end Mum.Library
