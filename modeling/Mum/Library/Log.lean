import Mathlib.Data.List.Basic

/-!
# Positions in a log

A log only grows at its end, so that an entry keeps its position for ever, and
of two entries the one with the smaller position was made first.
-/

namespace Mum.Library.Log

universe u

variable {E : Type u} {log : List E} {e e' : E} {i : ℕ}

/-- The entry at a position. -/
def At (log : List E) (i : ℕ) (e : E) : Prop := log[i]? = some e

instance [DecidableEq E] : Decidable (At log i e) := inferInstanceAs (Decidable (_ = _))

theorem At.lt_length (h : At log i e) : i < log.length := (List.getElem?_eq_some_iff.mp h).1

theorem At.unique (h : At log i e) (h' : At log i e') : e = e' := Option.some.inj (h.symm.trans h')

theorem at_nil : ¬ At ([] : List E) i e := by
  intro h
  exact absurd h.lt_length (Nat.not_lt_zero i)

/-- What stands in a log with one more entry. -/
theorem at_concat : At (log ++ [e']) i e ↔ At log i e ∨ i = log.length ∧ e = e' := by
  unfold At
  rcases Nat.lt_trichotomy i log.length with hlt | heq | hgt
  · rw [List.getElem?_append_left hlt]
    constructor
    · exact fun h => .inl h
    · rintro (h | ⟨h, -⟩)
      · exact h
      · omega
  · rw [heq, List.getElem?_concat_length, List.getElem?_eq_none (Nat.le_refl _)]
    constructor
    · exact fun h => .inr ⟨rfl, (Option.some.inj h).symm⟩
    · rintro (h | ⟨-, h⟩)
      · cases h
      · rw [h]
  · have hlen : (log ++ [e']).length ≤ i := by
      rw [List.length_append, List.length_singleton]
      omega
    rw [List.getElem?_eq_none hlen, List.getElem?_eq_none (by omega)]
    constructor
    · intro h
      cases h
    · rintro (h | ⟨h, -⟩)
      · cases h
      · omega

theorem At.concat (h : At log i e) (e' : E) : At (log ++ [e']) i e := at_concat.mpr (.inl h)

theorem at_last : At (log ++ [e]) log.length e := at_concat.mpr (.inr ⟨rfl, rfl⟩)

/-- An old position, or another entry than the last. -/
theorem At.of_concat (h : At (log ++ [e']) i e) (hne : e ≠ e') : At log i e :=
  (at_concat.mp h).resolve_right fun hlast => hne hlast.2

end Mum.Library.Log
