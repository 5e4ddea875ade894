import Mathlib.Data.List.Basic
import Mathlib.Data.List.Pairwise

/-!
# The order of the paths of a tree

In a pre-order listing of a tree, a node comes before everything below it, and
everything below one of two siblings comes before everything below the other.
`Before R` is that order of the paths, for siblings that are ordered by `R`.
-/

namespace Mum.Library.PathOrder

universe u v

variable {K : Type u} {R : K → K → Prop} {walk walk' : List K}

/-- A path is above another, or they part at siblings of which the first is
first. -/
inductive Before (R : K → K → Prop) : List K → List K → Prop
  | above {walk below : List K} (h : below ≠ []) : Before R walk (walk ++ below)
  | aside {above below below' : List K} {x y : K} (hne : x ≠ y) (h : R x y) :
      Before R (above ++ x :: below) (above ++ y :: below')

theorem not_before_nil : ¬ Before R walk [] := by
  intro h
  generalize hnil : ([] : List K) = walk' at h
  cases h with
  | above hne => exact hne (List.append_eq_nil_iff.mp hnil.symm).2
  | aside => simp at hnil

/-- Nothing is above a path and comes after it. -/
theorem not_before_of_prefix (h : walk' <+: walk) : ¬ Before R walk walk' := by
  obtain ⟨below, rfl⟩ := h
  intro h
  generalize hwalk : walk' ++ below = longer at h
  cases h with
  | above hne =>
      rw [List.append_assoc] at hwalk
      have hlen := congrArg List.length hwalk
      have hpos := List.length_pos_of_ne_nil hne
      simp only [List.length_append] at hlen
      omega
  | @aside above below' below'' x y hne hR =>
      rw [List.append_assoc, List.append_cancel_left_eq, List.cons_append, List.cons.injEq] at hwalk
      exact hne hwalk.1.symm

theorem Before.irrefl : ¬ Before R walk walk := not_before_of_prefix (List.prefix_refl _)

/-- Paths that part at two siblings are ordered as these are. -/
theorem Before.of_parted {above below below' : List K} {x y : K} (hne : x ≠ y)
    (h : Before R (above ++ x :: below) (above ++ y :: below')) : R x y := by
  induction above with
  | nil =>
      generalize hwalk : [] ++ x :: below = walk at h
      generalize hwalk' : [] ++ y :: below' = walk' at h
      cases h with
      | above =>
          rw [← hwalk, List.nil_append, List.nil_append, List.cons_append,
            List.cons.injEq] at hwalk'
          exact absurd hwalk'.1.symm hne
      | @aside above _ _ x' y' hne' hR =>
          cases above with
          | nil =>
              cases hwalk
              cases hwalk'
              exact hR
          | cons z above =>
              cases hwalk
              cases hwalk'
              exact absurd rfl hne
  | cons z above ih =>
      refine ih ?_
      generalize hwalk : z :: above ++ x :: below = walk at h
      generalize hwalk' : z :: above ++ y :: below' = walk' at h
      cases h with
      | @above _ rest hrest =>
          rw [← hwalk, List.cons_append, List.cons_append, List.cons_append, List.cons.injEq]
            at hwalk'
          rw [hwalk'.2]
          exact .above hrest
      | @aside above' _ _ x' y' hne' hR =>
          cases above' with
          | nil =>
              cases hwalk
              cases hwalk'
              exact absurd rfl hne'
          | cons z' above' =>
              rw [List.cons_append, List.cons_append, List.cons.injEq] at hwalk hwalk'
              rw [hwalk.2, hwalk'.2]
              exact .aside hne' hR

/-- Everything below one sibling comes before everything below the other. -/
theorem before_of_siblings {above : List K} {x y : K} (hne : x ≠ y) (hR : R x y)
    (h : above ++ [x] <+: walk) (h' : above ++ [y] <+: walk') : Before R walk walk' := by
  obtain ⟨below, rfl⟩ := h
  obtain ⟨below', rfl⟩ := h'
  rw [List.append_assoc, List.append_assoc]
  exact .aside hne hR

/-- The listing of a node is the node and the listings of its children. -/
theorem pairwise_node {A : Type v} (node : A) {above : List K}
    {kids : List (K × List (List K × A))}
    (hkids : kids.Pairwise fun kid kid' => kid.1 ≠ kid'.1 ∧ R kid.1 kid'.1)
    (hunder : ∀ kid ∈ kids, ∀ entry ∈ kid.2, above ++ [kid.1] <+: entry.1)
    (hpairwise : ∀ kid ∈ kids, kid.2.Pairwise fun entry entry' => Before R entry.1 entry'.1) :
    ((above, node) :: (kids.map Prod.snd).flatten).Pairwise
      fun entry entry' => Before R entry.1 entry'.1 := by
  refine List.pairwise_cons.mpr ⟨fun entry hentry => ?_, List.pairwise_flatten.mpr ⟨?_, ?_⟩⟩
  · obtain ⟨_, hmap, hentry⟩ := List.mem_flatten.mp hentry
    obtain ⟨kid, hkid, rfl⟩ := List.mem_map.mp hmap
    obtain ⟨below, hbelow⟩ := hunder kid hkid entry hentry
    rw [← hbelow, List.append_assoc]
    exact .above (by simp)
  · intro entries hentries
    obtain ⟨kid, hkid, rfl⟩ := List.mem_map.mp hentries
    exact hpairwise kid hkid
  · rw [List.pairwise_map]
    refine hkids.imp_of_mem fun {kid kid'} hkid hkid' hsorted => ?_
    intro entry hentry entry' hentry'
    exact before_of_siblings hsorted.1 hsorted.2 (hunder kid hkid entry hentry)
      (hunder kid' hkid' entry' hentry')

end Mum.Library.PathOrder
