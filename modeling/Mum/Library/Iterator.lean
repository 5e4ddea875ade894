import Mum.Library.Eval

/-!
# Iterators

An iterator is a state and a call that returns the next item and the state after
it.  `Lists` says that a call takes the first of the items that remain;
`nthCall_eq` is what the `n`-th call then returns, before and after the end.
-/

namespace Mum.Library

open Eval

universe u

variable {S A : Type u}

/-- What the `n`-th call after this one returns. -/
def nthCall (next : S → Eval (Option A × S)) : ℕ → S → Eval (Option A)
  | 0, s => do
      let (item, _) ← next s
      .ok item
  | n + 1, s => do
      let (_, s) ← next s
      nthCall next n s

/-- In the states with `Inv`, a call takes the first remaining item. -/
def Lists (next : S → Eval (Option A × S)) (Inv : S → Prop) (remaining : S → List A) : Prop :=
  ∀ s, Inv s → ∃ s', next s = .ok ((remaining s).head?, s') ∧ Inv s' ∧
    remaining s' = (remaining s).tail

/-- The calls return the remaining items in order, and after them nothing. -/
theorem nthCall_eq {next : S → Eval (Option A × S)} {Inv : S → Prop} {remaining : S → List A}
    (h : Lists next Inv remaining) {s : S} (hs : Inv s) (n : ℕ) :
    nthCall next n s = .ok (remaining s)[n]? := by
  induction n generalizing s with
  | zero =>
      obtain ⟨s', hnext, -, -⟩ := h s hs
      rw [nthCall, hnext, ok_bind, List.head?_eq_getElem?]
  | succ n ih =>
      obtain ⟨s', hnext, hs', hremaining⟩ := h s hs
      rw [nthCall, hnext, ok_bind]
      dsimp only
      rw [ih hs', hremaining, List.getElem?_tail]

end Mum.Library
