import Mathlib.Data.List.Infix

/-!
# Names joined by a separator

`[x].intercalate names` has one `x` between two names, and no name has an `x`.  Such
a list ends with another one exactly if the names of the one end with those of the
other, but for the first name of the shorter list: it need only be the end of a name.
-/

namespace Mum.Library

universe u

variable {A : Type u} {x : A}

/-- Two joined lists one after the other join at a name. -/
theorem intercalate_append_intercalate (names names' : List (List A)) (last first : List A) :
    [x].intercalate (names ++ [last]) ++ [x].intercalate (first :: names') =
      [x].intercalate (names ++ (last ++ first) :: names') := by
  induction names with
  | nil =>
      cases names' with
      | nil => simp
      | cons name names' => simp
  | cons name names ih =>
      have hne : names ++ [last] ≠ [] := by simp
      have hne' : names ++ (last ++ first) :: names' ≠ [] := by simp
      rw [List.cons_append, List.cons_append, List.intercalate_cons_of_ne_nil hne,
        List.intercalate_cons_of_ne_nil hne', List.append_assoc, ih]

variable [DecidableEq A]

theorem notMem_of_mem_splitOn {l name : List A} (hname : name ∈ l.splitOn x) : x ∉ name := by
  induction l generalizing name with
  | nil =>
      rw [List.splitOn_nil, List.mem_singleton] at hname
      simp [hname]
  | cons a l ih =>
      rw [List.splitOn_cons_eq_if_modifyHead] at hname
      split at hname
      · rcases List.mem_cons.mp hname with rfl | hname
        · exact List.not_mem_nil
        · exact ih hname
      · next hne =>
          obtain ⟨first, rest, hsplit⟩ := List.exists_cons_of_ne_nil (List.splitOn_ne_nil x l)
          rw [hsplit, List.modifyHead_cons] at hname
          rcases List.mem_cons.mp hname with rfl | hname
          · intro hmem
            rcases List.mem_cons.mp hmem with rfl | hmem
            · exact hne (beq_self_eq_true _)
            · exact ih (hsplit ▸ List.mem_cons_self ..) hmem
          · exact ih (hsplit ▸ List.mem_cons_of_mem _ hname)

/-- The names can be read off the joined list. -/
theorem intercalate_inj {names names' : List (List A)} (hnames : ∀ name ∈ names, x ∉ name)
    (hnames' : ∀ name ∈ names', x ∉ name) (hne : names ≠ []) (hne' : names' ≠ [])
    (h : [x].intercalate names = [x].intercalate names') : names = names' :=
  calc
    names = ([x].intercalate names).splitOn x := (List.splitOn_intercalate x hnames hne).symm
    _ = ([x].intercalate names').splitOn x := congrArg (List.splitOn x) h
    _ = names' := List.splitOn_intercalate x hnames' hne'

theorem intercalate_isSuffix_iff {first : List A} {rest names : List (List A)}
    (hfirst : ∀ name ∈ first :: rest, x ∉ name) (hnames : ∀ name ∈ names, x ∉ name)
    (hne : names ≠ []) :
    [x].intercalate (first :: rest) <:+ [x].intercalate names ↔
      ∃ above name, names = above ++ name :: rest ∧ first <:+ name := by
  constructor
  · rintro ⟨front, hfront⟩
    -- the names of what stands before the suffix
    rcases List.eq_nil_or_concat' (front.splitOn x) with hnil | ⟨above, last, hsplit⟩
    · exact absurd hnil (List.splitOn_ne_nil x front)
    have hsplits : ∀ name ∈ above ++ [last], x ∉ name := by
      intro name hname
      exact notMem_of_mem_splitOn (hsplit ▸ hname)
    have hjoin : [x].intercalate (above ++ [last]) = front := by
      rw [← hsplit, List.intercalate_splitOn]
    rw [← hjoin, intercalate_append_intercalate] at hfront
    refine ⟨above, last ++ first, ?_, List.suffix_append _ _⟩
    refine (intercalate_inj ?_ hnames (by simp) hne hfront).symm
    intro name hname
    rcases List.mem_append.mp hname with hname | hname
    · exact hsplits name (List.mem_append_left _ hname)
    · rcases List.mem_cons.mp hname with rfl | hname
      · rw [List.mem_append, not_or]
        exact ⟨hsplits last (by simp), hfirst first (List.mem_cons_self ..)⟩
      · exact hfirst name (List.mem_cons_of_mem _ hname)
  · rintro ⟨above, _, rfl, ⟨last, rfl⟩⟩
    exact ⟨_, intercalate_append_intercalate above rest last first⟩

end Mum.Library
