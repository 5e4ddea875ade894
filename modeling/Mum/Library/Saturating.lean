import Mathlib.Algebra.BigOperators.Group.List.Lemmas
import Mathlib.Algebra.Order.BigOperators.Group.List
import Mathlib.Algebra.Ring.Int.Defs
import Mathlib.Data.List.Induction

/-!
# Sums that are limited after every addition

`runningSum` adds numbers one after the other and limits the sum to a range
after each.  The result is the exact sum, limited once, if no number goes back
from where the exact sum left the range (`Steady`).  Whether a list is steady
depends on its order; `Balanced` does not, and it makes every order steady.

`runningSum_of_steady` is by induction from the end: the sum so far is the limited exact one,
and the next number either keeps it there or brings it back into the range with the exact
sum.
-/

namespace Mum.Library

/-- Limits a number to a range. -/
def limit (lo hi x : ℤ) : ℤ := max lo (min x hi)

def runningSum (lo hi : ℤ) (xs : List ℤ) : ℤ := xs.foldl (fun sum x => limit lo hi (sum + x)) 0

/-- The sum of the positive numbers. -/
def positives (xs : List ℤ) : ℤ := (xs.map fun x => max x 0).sum

/-- The sum of the negative numbers. -/
def negatives (xs : List ℤ) : ℤ := (xs.map fun x => min x 0).sum

/-- After the sum left the range, no number has the other sign. -/
structure Steady (lo hi : ℤ) (xs : List ℤ) : Prop where
  above : ∀ ys zs, xs = ys ++ zs → hi < ys.sum → ∀ z ∈ zs, 0 ≤ z
  below : ∀ ys zs, xs = ys ++ zs → ys.sum < lo → ∀ z ∈ zs, z ≤ 0

/-- The numbers have one sign, or those of either sign sum up within the range. -/
def Balanced (lo hi : ℤ) (xs : List ℤ) : Prop :=
  (∀ x ∈ xs, 0 ≤ x) ∨ (∀ x ∈ xs, x ≤ 0) ∨ lo ≤ negatives xs ∧ positives xs ≤ hi

instance (lo hi : ℤ) (xs : List ℤ) : Decidable (Balanced lo hi xs) :=
  inferInstanceAs (Decidable (_ ∨ _))

variable {lo hi : ℤ} {xs ys : List ℤ}

theorem limit_of_mem {x : ℤ} (hlo : lo ≤ x) (hhi : x ≤ hi) : limit lo hi x = x := by
  rw [limit, min_eq_left hhi, max_eq_right hlo]

theorem limit_of_le {x : ℤ} (hrange : lo ≤ hi) (h : hi ≤ x) : limit lo hi x = hi := by
  rw [limit, min_eq_right h, max_eq_right hrange]

theorem limit_of_ge {x : ℤ} (h : x ≤ lo) : limit lo hi x = lo :=
  max_eq_left ((min_le_left x hi).trans h)

theorem runningSum_concat (xs : List ℤ) (x : ℤ) :
    runningSum lo hi (xs ++ [x]) = limit lo hi (runningSum lo hi xs + x) := by
  rw [runningSum, List.foldl_append]
  rfl

theorem Steady.of_concat {x : ℤ} (h : Steady lo hi (xs ++ [x])) : Steady lo hi xs where
  above ys zs hsplit hsum z hz :=
    h.above ys (zs ++ [x]) (by rw [hsplit, List.append_assoc]) hsum z (List.mem_append_left _ hz)
  below ys zs hsplit hsum z hz :=
    h.below ys (zs ++ [x]) (by rw [hsplit, List.append_assoc]) hsum z (List.mem_append_left _ hz)

/-- One limit at the end is enough for a steady list. -/
theorem runningSum_of_steady (hlo : lo ≤ 0) (hhi : 0 ≤ hi) (h : Steady lo hi xs) :
    runningSum lo hi xs = limit lo hi xs.sum := by
  have hrange : lo ≤ hi := hlo.trans hhi
  induction xs using List.reverseRecOn with
  | nil => exact (limit_of_mem hlo hhi).symm
  | append_singleton xs x ih =>
      have hsum : (xs ++ [x]).sum = xs.sum + x := by
        rw [List.sum_append, List.sum_singleton]
      rw [runningSum_concat, ih h.of_concat, hsum]
      by_cases habove : hi < xs.sum
      · have hx : 0 ≤ x := h.above xs [x] rfl habove x (List.mem_singleton_self x)
        rw [limit_of_le hrange habove.le, limit_of_le hrange (by omega),
          limit_of_le hrange (by omega)]
      · by_cases hbelow : xs.sum < lo
        · have hx : x ≤ 0 := h.below xs [x] rfl hbelow x (List.mem_singleton_self x)
          rw [limit_of_ge hbelow.le, limit_of_ge (by omega), limit_of_ge (by omega)]
        · rw [limit_of_mem (not_lt.mp hbelow) (not_lt.mp habove)]

theorem sum_nonpos (h : ∀ x ∈ xs, x ≤ 0) : xs.sum ≤ 0 := by
  induction xs with
  | nil => exact le_refl 0
  | cons x xs ih =>
      have hx := h x (List.mem_cons_self ..)
      have hxs := ih fun y hy => h y (List.mem_cons_of_mem _ hy)
      rw [List.sum_cons]
      omega

theorem sum_le_positives (xs : List ℤ) : xs.sum ≤ positives xs := by
  induction xs with
  | nil => exact le_refl 0
  | cons x xs ih =>
      simp only [positives, List.map_cons, List.sum_cons] at ih ⊢
      omega

theorem negatives_le_sum (xs : List ℤ) : negatives xs ≤ xs.sum := by
  induction xs with
  | nil => exact le_refl 0
  | cons x xs ih =>
      simp only [negatives, List.map_cons, List.sum_cons] at ih ⊢
      omega

theorem positives_nonneg (xs : List ℤ) : 0 ≤ positives xs := by
  apply List.sum_nonneg
  intro x hx
  obtain ⟨y, -, rfl⟩ := List.mem_map.mp hx
  exact le_max_right y 0

theorem negatives_nonpos (xs : List ℤ) : negatives xs ≤ 0 := by
  apply sum_nonpos
  intro x hx
  obtain ⟨y, -, rfl⟩ := List.mem_map.mp hx
  exact min_le_right y 0

theorem positives_append (xs ys : List ℤ) :
    positives (xs ++ ys) = positives xs + positives ys := by
  rw [positives, List.map_append, List.sum_append]
  rfl

theorem negatives_append (xs ys : List ℤ) :
    negatives (xs ++ ys) = negatives xs + negatives ys := by
  rw [negatives, List.map_append, List.sum_append]
  rfl

theorem Balanced.perm (hperm : xs.Perm ys) (h : Balanced lo hi xs) : Balanced lo hi ys := by
  have hpos : positives xs = positives ys := (hperm.map _).sum_eq
  have hneg : negatives xs = negatives ys := (hperm.map _).sum_eq
  have hmem : ∀ y ∈ ys, y ∈ xs := fun y hy => hperm.mem_iff.mpr hy
  rcases h with h | h | ⟨hlo, hhi⟩
  · exact Or.inl fun y hy => h y (hmem y hy)
  · exact Or.inr (Or.inl fun y hy => h y (hmem y hy))
  · exact Or.inr (Or.inr ⟨hneg ▸ hlo, hpos ▸ hhi⟩)

/-- A balanced list is steady, and so is every order of it. -/
theorem Balanced.steady (hlo : lo ≤ 0) (hhi : 0 ≤ hi) (h : Balanced lo hi xs) :
    Steady lo hi xs := by
  constructor
  · intro ys zs hsplit hsum z hz
    subst hsplit
    rcases h with h | h | ⟨-, hpos⟩
    · exact h z (List.mem_append_right _ hz)
    · have hle : ys.sum ≤ 0 := sum_nonpos fun y hy => h y (List.mem_append_left _ hy)
      omega
    · have hys := sum_le_positives ys
      have hzs := positives_nonneg zs
      rw [positives_append] at hpos
      omega
  · intro ys zs hsplit hsum z hz
    subst hsplit
    rcases h with h | h | ⟨hneg, -⟩
    · have hle : 0 ≤ ys.sum := List.sum_nonneg fun y hy => h y (List.mem_append_left _ hy)
      omega
    · exact h z (List.mem_append_right _ hz)
    · have hys := negatives_le_sum ys
      have hzs := negatives_nonpos zs
      rw [negatives_append] at hneg
      omega

/-- The order of a balanced list does not matter. -/
theorem runningSum_of_perm (hlo : lo ≤ 0) (hhi : 0 ≤ hi) (hperm : xs.Perm ys)
    (h : Balanced lo hi xs) : runningSum lo hi xs = runningSum lo hi ys := by
  calc runningSum lo hi xs = limit lo hi xs.sum := runningSum_of_steady hlo hhi (h.steady hlo hhi)
    _ = limit lo hi ys.sum := by rw [hperm.sum_eq]
    _ = runningSum lo hi ys := (runningSum_of_steady hlo hhi ((h.perm hperm).steady hlo hhi)).symm

end Mum.Library
