import Mathlib.Data.List.Basic

/-!
# Bounded rings

A ring of at most `maxLen` elements, oldest first.  Pushing into a full ring
drops the oldest element.
-/

namespace Mum.Library

/-- The elements of a ring, oldest first, and its capacity. -/
@[ext] structure Bounded (V : Type) where
  data : List V
  maxLen : ℕ
  length_le : data.length ≤ maxLen

namespace Bounded

variable {V W : Type}

/-- `Bounded::from_full`: all given elements are in the ring, which is full. -/
def fromFull (data : List V) : Bounded V := ⟨data, data.length, Nat.le_refl _⟩

/-- A ring without elements. -/
def empty (maxLen : ℕ) : Bounded V := ⟨[], maxLen, Nat.zero_le _⟩

/-- Adds an element; in a full ring it takes the place of the oldest. -/
def push (ring : Bounded V) (v : V) : Bounded V where
  data := (ring.data ++ [v]).drop (ring.data.length + 1 - ring.maxLen)
  maxLen := ring.maxLen
  length_le := by
    rw [List.length_drop, List.length_append, List.length_singleton]
    omega

def pushAll (ring : Bounded V) (vs : List V) : Bounded V := vs.foldl push ring

/-- Takes the oldest element. -/
def pop (ring : Bounded V) : Option V × Bounded V :=
  (ring.data.head?, ⟨ring.data.tail, ring.maxLen, by
    have := ring.length_le
    rw [List.length_tail]
    omega⟩)

/-- Takes the `n` oldest elements out, or all that there are. -/
def drop (ring : Bounded V) (n : ℕ) : Bounded V where
  data := ring.data.drop n
  maxLen := ring.maxLen
  length_le := by
    have := ring.length_le
    rw [List.length_drop]
    omega

theorem drop_pop (ring : Bounded V) (n : ℕ) : ring.pop.2.drop n = ring.drop (n + 1) :=
  Bounded.ext List.drop_tail rfl

@[simp] theorem maxLen_push (ring : Bounded V) (v : V) : (ring.push v).maxLen = ring.maxLen := rfl

@[simp] theorem maxLen_pushAll (ring : Bounded V) (vs : List V) :
    (ring.pushAll vs).maxLen = ring.maxLen := by
  induction vs generalizing ring with
  | nil => rfl
  | cons v rest ih => exact ih (ring.push v)

/-- The ring keeps the newest elements. -/
theorem data_pushAll (ring : Bounded V) (vs : List V) :
    (ring.pushAll vs).data =
      (ring.data ++ vs).drop (ring.data.length + vs.length - ring.maxLen) := by
  have hle := ring.length_le
  induction vs generalizing ring with
  | nil =>
      rw [List.append_nil, List.length_nil, Nat.add_zero, Nat.sub_eq_zero_of_le hle]
      rfl
  | cons v rest ih =>
      have hpush : (ring.push v).data ++ rest =
          (ring.data ++ v :: rest).drop (ring.data.length + 1 - ring.maxLen) := by
        have hlen : ring.data.length + 1 - ring.maxLen ≤ (ring.data ++ [v]).length := by
          rw [List.length_append, List.length_singleton]
          omega
        rw [push, ← List.drop_append_of_le_length hlen, List.append_assoc, List.singleton_append]
      have hlen : (ring.push v).data.length =
          ring.data.length + 1 - (ring.data.length + 1 - ring.maxLen) := by
        rw [push, List.length_drop, List.length_append, List.length_singleton]
      rw [pushAll, List.foldl_cons]
      refine (ih (ring.push v) (ring.push v).length_le).trans ?_
      rw [hpush, hlen, List.drop_drop, List.length_cons, maxLen_push]
      congr 1
      omega

/-- What is pushed into an empty ring with room for it. -/
theorem data_pushAll_empty {maxLen : ℕ} {vs : List V} (h : vs.length ≤ maxLen) :
    ((empty maxLen).pushAll vs).data = vs := by
  have hzero : ([] : List V).length + vs.length - maxLen = 0 := by
    rw [List.length_nil]
    omega
  rw [data_pushAll, empty, hzero, List.nil_append, List.drop_zero]

/-! ## The ring as a window -/

/-- `history` lists all elements that were ever in the ring, `gone` says how
many of them have left it. -/
structure Shows (ring : Bounded V) (history : List V) (gone : ℕ) : Prop where
  le : gone ≤ history.length
  data_eq : ring.data = history.drop gone

/-- Only a full ring loses elements to a push. -/
theorem Shows.pushAll {ring : Bounded V} {history : List V} {gone : ℕ}
    (h : ring.Shows history gone) (vs : List V) :
    (ring.pushAll vs).Shows (history ++ vs)
      (max gone (history.length + vs.length - ring.maxLen)) where
  le := by
    have hle := h.le
    rw [List.length_append]
    omega
  data_eq := by
    have hle := h.le
    rw [data_pushAll, h.data_eq, List.length_drop, ← List.drop_append_of_le_length hle,
      List.drop_drop]
    congr 1
    omega

theorem Shows.drop {ring : Bounded V} {history : List V} {gone : ℕ}
    (h : ring.Shows history gone) (n : ℕ) :
    (ring.drop n).Shows history (min (gone + n) history.length) where
  le := Nat.min_le_right ..
  data_eq := by
    show ring.data.drop n = _
    rw [h.data_eq, List.drop_drop]
    rcases Nat.le_total (gone + n) history.length with hle | hle
    · rw [Nat.min_eq_left hle]
    · rw [Nat.min_eq_right hle, List.drop_eq_nil_of_le hle, List.drop_length]

/-! ## Mapping the elements -/

def map (f : V → W) (ring : Bounded V) : Bounded W where
  data := ring.data.map f
  maxLen := ring.maxLen
  length_le := by
    rw [List.length_map]
    exact ring.length_le

theorem map_push (f : V → W) (ring : Bounded V) (v : V) :
    (ring.push v).map f = (ring.map f).push (f v) := by
  simp [map, push]

theorem map_pushAll (f : V → W) (ring : Bounded V) (vs : List V) :
    (ring.pushAll vs).map f = (ring.map f).pushAll (vs.map f) := by
  unfold pushAll
  induction vs generalizing ring with
  | nil => rfl
  | cons v rest ih => rw [List.foldl_cons, ih, map_push, List.map_cons, List.foldl_cons]

theorem pop_map (f : V → W) (ring : Bounded V) :
    (ring.map f).pop = Prod.map (Option.map f) (map f) ring.pop := by
  simp [map, pop]

theorem map_drop (f : V → W) (ring : Bounded V) (n : ℕ) :
    (ring.drop n).map f = (ring.map f).drop n := by
  simp [map, drop]

end Bounded

end Mum.Library
