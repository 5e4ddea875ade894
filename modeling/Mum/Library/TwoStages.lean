import Mathlib.Data.List.Nodup

/-!
# Looking up in two stages

A strict test selects an element if it is the only one that passes.  Only if none
passes, a lenient test is asked in the same way.

`Selects.narrow`: a lookup with a narrower strict test still selects the element, if
the element passes it and whatever passes it would have passed the tests before.
-/

namespace Mum.Library

universe u

variable {A : Type u} {a b : A} {P Q strict lenient strict' lenient' : A → Prop} {l : List A}

/-- `a` passes, and nothing else does. -/
def Only (P : A → Prop) (a : A) : Prop := P a ∧ ∀ b, P b → b = a

/-- What a lookup with a fallback selects. -/
def Selects (strict lenient : A → Prop) (a : A) : Prop :=
  Only strict a ∨ (∀ b, ¬ strict b) ∧ Only lenient a

theorem Selects.narrow (h : Selects strict lenient a) (ha : strict' a)
    (hstrict : strict a → ∀ b, strict' b → strict b) (hlenient : ∀ b, strict' b → lenient b) :
    Selects strict' lenient' a := by
  refine Or.inl ⟨ha, ?_⟩
  intro b hb
  rcases h with h | h
  · exact h.2 b (hstrict h.1 b hb)
  · exact h.2.2 b (hlenient b hb)

/-! ### On a list of what passes -/

theorem eq_nil_iff_of_mem (hl : ∀ b, b ∈ l ↔ P b) : l = [] ↔ ∀ b, ¬ P b := by
  rw [List.eq_nil_iff_forall_not_mem]
  exact forall_congr' fun b => not_congr (hl b)

theorem eq_singleton_iff_of_mem (hnodup : l.Nodup) (hl : ∀ b, b ∈ l ↔ P b) :
    l = [a] ↔ Only P a := by
  constructor
  · rintro rfl
    exact ⟨(hl a).mp (List.mem_singleton_self a), fun b hb => List.mem_singleton.mp ((hl b).mpr hb)⟩
  · rintro ⟨ha, hother⟩
    apply List.perm_singleton.mp
    refine (List.perm_ext_iff_of_nodup hnodup (List.nodup_singleton a)).mpr ?_
    intro b
    rw [List.mem_singleton, hl]
    constructor
    · exact hother b
    · rintro rfl
      exact ha

theorem exists_cons_cons_of_mem (ha : a ∈ l) (hb : b ∈ l) (hne : a ≠ b) :
    ∃ c c' rest, l = c :: c' :: rest := by
  match l with
  | [] => cases ha
  | [c] => exact absurd ((List.mem_singleton.mp ha).trans (List.mem_singleton.mp hb).symm) hne
  | c :: c' :: rest => exact ⟨c, c', rest, rfl⟩

end Mum.Library
