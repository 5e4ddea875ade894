import Mathlib.Data.List.Nodup
import Mathlib.Data.List.Range
import Mum.Library.Transition

/-!
# A stream behind a lock

Several consumers share a stream of numbered items.  Only the holder of the lock
takes items, one at a time; it hands an item over before it takes the next, and
it may let go of the lock at any time, also with an item in hand.

Items are handed over in the order of the stream, whoever hands them over, and
the only items that are lost are those in hand when a holder lets go.

`Ordered` is the invariant: what was handed over is sorted and below the next number, and so
is the item in hand, above all that were handed over.
-/

namespace Mum.Library

structure SharedStream (P : Type) where
  /-- The number of the next item. -/
  next : ℕ
  holder : Option P
  /-- The item that the holder has taken. -/
  inHand : Option ℕ
  handed : List (P × ℕ)
  lost : List ℕ
deriving DecidableEq

namespace SharedStream

variable {P : Type}

inductive Op (P : Type)
  | acquire (p : P)
  | take
  | handOver
  | release
deriving DecidableEq, Repr

/-- What an operation does. -/
inductive Step (s : SharedStream P) : Op P → SharedStream P → Prop
  | acquire {p : P} (hfree : s.holder = none) : Step s (.acquire p) { s with holder := some p }
  | take {p : P} (hholder : s.holder = some p) (hempty : s.inHand = none) :
      Step s .take { s with inHand := some s.next, next := s.next + 1 }
  | handOver {p : P} {n : ℕ} (hholder : s.holder = some p) (hitem : s.inHand = some n) :
      Step s .handOver { s with inHand := none, handed := s.handed ++ [(p, n)] }
  | release {p : P} (hholder : s.holder = some p) :
      Step s .release { s with
        holder := none
        inHand := none
        lost := s.lost ++ s.inHand.toList }

/-- A stream of which nothing has been taken. -/
def new : SharedStream P := ⟨0, none, none, [], []⟩

/-- The numbers of the items that were handed over, in the order of this. -/
def numbers (s : SharedStream P) : List ℕ := s.handed.map Prod.snd

/-- Items are handed over in order, and every item that was taken is handed over,
lost or in hand. -/
structure Ordered (s : SharedStream P) : Prop where
  sorted : s.numbers.Pairwise (· < ·)
  /-- What is handed over next comes later in the stream. -/
  below : ∀ n ∈ s.numbers, n < s.inHand.getD s.next
  newest : ∀ n, s.inHand = some n → n + 1 = s.next
  idle : s.holder = none → s.inHand = none
  accounted : (s.numbers ++ s.lost ++ s.inHand.toList).Perm (List.range s.next)

theorem ordered_new : (new : SharedStream P).Ordered where
  sorted := .nil
  below := fun n hn => by simp [numbers, new] at hn
  newest := fun n hn => by simp [new] at hn
  idle := fun _ => rfl
  accounted := .refl _

variable {s s' : SharedStream P} {op : Op P}

theorem Ordered.step (hordered : s.Ordered) (h : Step s op s') : s'.Ordered := by
  cases h with
  | acquire hfree =>
      exact ⟨hordered.sorted, hordered.below, hordered.newest, by simp, hordered.accounted⟩
  | take hholder hempty =>
      refine ⟨hordered.sorted, fun n hn => ?_, fun n hn => ?_, by simp [hholder], ?_⟩
      · simpa [hempty] using hordered.below n hn
      · simpa using (Option.some.inj hn).symm
      · have haccounted := hordered.accounted
        rw [hempty, Option.toList_none, List.append_nil] at haccounted
        rw [List.range_succ]
        exact haccounted.append_right _
  | @handOver p n hholder hitem =>
      have hnext : n + 1 = s.next := hordered.newest n hitem
      have hbelow : ∀ m ∈ s.numbers, m < n := by
        intro m hm
        simpa [hitem] using hordered.below m hm
      have hnumbers : numbers { s with inHand := none, handed := s.handed ++ [(p, n)] } =
          s.numbers ++ [n] := by simp [numbers]
      refine ⟨?_, fun m hm => ?_, by simp, by simp, ?_⟩
      · rw [hnumbers, List.pairwise_append]
        exact ⟨hordered.sorted, List.pairwise_singleton .., by simpa using hbelow⟩
      · rw [hnumbers, List.mem_append, List.mem_singleton] at hm
        show m < s.next
        rcases hm with hm | rfl
        · have := hbelow m hm
          omega
        · omega
      · rw [hnumbers]
        -- the item goes from the hand to the end of the log
        refine List.Perm.trans ?_ hordered.accounted
        rw [hitem, Option.toList_none, Option.toList_some, List.append_nil, List.append_assoc,
          List.append_assoc]
        exact List.perm_append_comm.append_left _
  | release hholder =>
      refine ⟨hordered.sorted, fun n hn => ?_, by simp, fun _ => rfl, ?_⟩
      · have hlt := hordered.below n hn
        show n < s.next
        cases hitem : s.inHand with
        | none => simpa [hitem] using hlt
        | some m =>
            have := hordered.newest m hitem
            simp only [hitem, Option.getD_some] at hlt
            omega
      · rw [Option.toList_none, List.append_nil, ← List.append_assoc]
        exact hordered.accounted

/-- Operations keep the order. -/
theorem Ordered.run (hordered : s.Ordered) {trace : List (Op P × SharedStream P)}
    (hrun : Run Step s trace) : (final s trace).Ordered := by
  induction hrun with
  | nil => exact hordered
  | cons h _ ih => exact ih (hordered.step h)

end SharedStream

end Mum.Library
