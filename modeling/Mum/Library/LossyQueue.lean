import Mathlib.Data.List.Basic

/-!
# Queues that lose their oldest elements

Values arrive at a queue of bounded capacity, and from time to time up to `len`
values are asked for.  `Step` says what may become of them: a value is lost only
if the queue is full of newer ones afterwards, the oldest values are taken
first, and fewer are taken than asked for only if none is left.

Every value that arrived is then accounted for, once and in order
(`Plays.arrived_eq`, `Plays.taken_eq`).

Nothing is said about how the queue is stored.  A queue that is kept in a ring, say, has to
show a `Step` for each use, and gets the rest from here.
-/

namespace Mum.Library

/-- What happens to a queue: values arrive, or of `len` values that are asked for
some are taken. -/
inductive Use (V : Type)
  | arrive (values : List V)
  | take (len : ℕ) (taken : List V)

/-- What became of the values that arrived.  Those that left the queue come with
whether they were taken. -/
structure Fate (V : Type) where
  left : List (V × Bool)
  queue : List V

variable {V : Type}

namespace Use

/-- All values that arrive, in order. -/
def arrived : List (Use V) → List V
  | [] => []
  | .arrive values :: rest => values ++ arrived rest
  | .take _ _ :: rest => arrived rest

/-- All values that are taken, in order. -/
def taken : List (Use V) → List V
  | [] => []
  | .arrive _ :: rest => taken rest
  | .take _ values :: rest => values ++ taken rest

end Use

namespace Fate

/-- No value has arrived yet. -/
def start : Fate V := ⟨[], []⟩

/-- What may become of the values in one use of the queue. -/
inductive Step (capacity : ℕ) : Fate V → Use V → Fate V → Prop
  | arrive {left : List (V × Bool)} {queue values lost kept : List V}
      (hsplit : lost ++ kept = queue ++ values) (hfull : lost ≠ [] → kept.length = capacity) :
      Step capacity ⟨left, queue⟩ (.arrive values) ⟨left ++ lost.map (·, false), kept⟩
  | take {left : List (V × Bool)} {queue taken rest : List V} {len : ℕ}
      (hsplit : taken ++ rest = queue) (hlen : taken.length ≤ len)
      (hfiller : taken.length < len → rest = []) :
      Step capacity ⟨left, queue⟩ (.take len taken) ⟨left ++ taken.map (·, true), rest⟩

/-- What may become of the values in several uses. -/
inductive Plays (capacity : ℕ) : Fate V → List (Use V) → Fate V → Prop
  | done {fate : Fate V} : Plays capacity fate [] fate
  | use {fate next final : Fate V} {use : Use V} {rest : List (Use V)}
      (hstep : Step capacity fate use next) (hrest : Plays capacity next rest final) :
      Plays capacity fate (use :: rest) final

/-- The values that left the queue, and those in it. -/
def all (fate : Fate V) : List V := fate.left.map Prod.fst ++ fate.queue

/-- The values that were taken. -/
def taken (fate : Fate V) : List V := (fate.left.filter Prod.snd).map Prod.fst

variable {capacity : ℕ} {fate next final : Fate V} {uses : List (Use V)}

theorem Step.all_eq {use : Use V} (h : Step capacity fate use next) :
    next.all = fate.all ++ Use.arrived [use] := by
  have hfst : ∀ (values : List V) (b : Bool), (values.map (·, b)).map Prod.fst = values := by
    intro values b
    rw [List.map_map]
    exact List.map_id' _
  cases h with
  | arrive hsplit hfull =>
      rw [all, all, List.map_append, hfst, List.append_assoc, hsplit, List.append_assoc,
        Use.arrived, Use.arrived, List.append_nil]
  | take hsplit hlen hfiller =>
      rw [all, all, List.map_append, hfst, List.append_assoc, hsplit, Use.arrived, Use.arrived,
        List.append_nil]

theorem Step.taken_eq {use : Use V} (h : Step capacity fate use next) :
    next.taken = fate.taken ++ Use.taken [use] := by
  cases h with
  | arrive hsplit hfull => simp [taken, Use.taken, List.filter_map, Function.comp_def]
  | take hsplit hlen hfiller =>
      simp [taken, Use.taken, List.filter_map, Function.comp_def]

theorem Plays.append {more : List (Use V)} {last : Fate V} (h : Plays capacity fate uses final)
    (hmore : Plays capacity final more last) : Plays capacity fate (uses ++ more) last := by
  induction h with
  | done => exact hmore
  | use hstep hrest ih => exact .use hstep (ih hmore)

/-- Nothing is invented, repeated or reordered. -/
theorem Plays.all_eq (h : Plays capacity fate uses final) :
    final.all = fate.all ++ Use.arrived uses := by
  induction h with
  | done => exact (List.append_nil _).symm
  | @use fate next final use rest hstep hrest ih =>
      have happend : Use.arrived (use :: rest) = Use.arrived [use] ++ Use.arrived rest := by
        cases use <;> simp [Use.arrived]
      rw [ih, hstep.all_eq, happend, List.append_assoc]

theorem Plays.taken_append (h : Plays capacity fate uses final) :
    final.taken = fate.taken ++ Use.taken uses := by
  induction h with
  | done => exact (List.append_nil _).symm
  | @use fate next final use rest hstep hrest ih =>
      have happend : Use.taken (use :: rest) = Use.taken [use] ++ Use.taken rest := by
        cases use <;> simp [Use.taken]
      rw [ih, hstep.taken_eq, happend, List.append_assoc]

/-- Every value that arrived left the queue, once and in order, or is in it. -/
theorem Plays.arrived_eq (h : Plays capacity start uses final) :
    final.all = Use.arrived uses := h.all_eq

/-- The taken values are those that left the queue and were not lost. -/
theorem Plays.taken_eq (h : Plays capacity start uses final) :
    final.taken = Use.taken uses := h.taken_append

/-- No more is taken than arrived. -/
theorem Plays.length_taken_le (h : Plays capacity start uses final) :
    (Use.taken uses).length ≤ (Use.arrived uses).length := by
  rw [← h.taken_eq, ← h.arrived_eq, taken, all, List.length_map, List.length_append,
    List.length_map]
  exact Nat.le_trans (List.length_filter_le ..) (Nat.le_add_right ..)

end Fate

end Mum.Library
