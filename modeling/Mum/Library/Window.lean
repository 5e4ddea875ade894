import Mathlib.Data.Nat.Basic
import Mathlib.Tactic.Common

/-!
# Counters that run down

A counter is set to a delay at some places of a sequence and goes down by one at all others.
`Window` says what it knows of the places: it is above `m` exactly if, after `m` more places
without a mark, there is still a mark among the last `delay`.
-/

namespace Mum.Library

/-- What the counter is after `n` places. -/
def Window (delay counter : ℕ) (marked : ℕ → Prop) (n : ℕ) : Prop :=
  ∀ m, m < counter ↔ ∃ j < n, n + m < j + 1 + delay ∧ marked j

namespace Window

variable {delay counter n : ℕ} {marked marked' : ℕ → Prop}

theorem start (delay : ℕ) (marked : ℕ → Prop) : Window delay 0 marked 0 := by
  intro m
  constructor
  · intro h
    exact absurd h (Nat.not_lt_zero m)
  · rintro ⟨j, hj, -⟩
    exact absurd hj (Nat.not_lt_zero j)

/-- Places that are not there yet make no difference. -/
theorem congr (h : Window delay counter marked n) (hmarked : ∀ j < n, marked j ↔ marked' j) :
    Window delay counter marked' n := by
  intro m
  rw [h m]
  refine exists_congr fun j => and_congr_right fun hj => ?_
  rw [hmarked j hj]

/-- The counter is set. -/
theorem set (hmarked : marked n) : Window delay delay marked (n + 1) := by
  intro m
  constructor
  · intro hm
    exact ⟨n, by omega, by omega, hmarked⟩
  · rintro ⟨j, hj, hm, -⟩
    omega

/-- The counter goes down. -/
theorem down (h : Window delay counter marked n) (hmarked : ¬ marked n) :
    Window delay (counter - 1) marked (n + 1) := by
  intro m
  have hold := h (m + 1)
  constructor
  · intro hm
    obtain ⟨j, hj, hlt, hjmarked⟩ := hold.mp (by omega)
    exact ⟨j, by omega, by omega, hjmarked⟩
  · rintro ⟨j, hj, hlt, hjmarked⟩
    have hne : j ≠ n := by
      rintro rfl
      exact hmarked hjmarked
    have := hold.mpr ⟨j, by omega, by omega, hjmarked⟩
    omega

/-- The counter has not run down exactly if there is a mark among the last places. -/
theorem ne_zero_iff (h : Window delay counter marked (n + 1)) :
    counter ≠ 0 ↔ ∃ j ≤ n, n < j + delay ∧ marked j := by
  rw [← Nat.pos_iff_ne_zero, h 0]
  constructor
  · rintro ⟨j, hj, hlt, hjmarked⟩
    exact ⟨j, by omega, by omega, hjmarked⟩
  · rintro ⟨j, hj, hlt, hjmarked⟩
    exact ⟨j, by omega, by omega, hjmarked⟩

end Window

end Mum.Library
