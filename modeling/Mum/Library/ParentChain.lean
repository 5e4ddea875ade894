import Mathlib.Data.List.Nodup
import Mathlib.Data.List.Perm.Subperm
import Mum.Library.Eval

/-!
# Following parents upwards

A forest is often stored as a map from a key to the key of its parent.  Here
`parent k` is `none` when the map has no `k`, `some none` when `k` has no
parent, and `some (some p)` when its parent is `p`.  Nothing stops such a map
from having a dangling parent or a cycle.

`Leads parent k walk r` says that the chain of `k` is good: it passes the keys
`walk` and stops at the parentless `r`.  The walk stands top down and leaves
`r` out.  `climb` is the loop that follows a chain, and `climb_eq_ok_iff` says
that it returns exactly on the good chains.
-/

namespace Mum.Library.ParentChain

open Eval

universe u

variable {K : Type u} {parent : K → Option (Option K)}

/-- The chain of `k` passes `walk` and stops at `r`. -/
inductive Leads (parent : K → Option (Option K)) : K → List K → K → Prop
  | top {r : K} (h : parent r = some none) : Leads parent r [] r
  | up {k p r : K} {walk : List K} (h : parent k = some (some p)) (hp : Leads parent p walk r) :
      Leads parent k (walk ++ [k]) r

/-! ## Good chains -/

theorem Leads.unique {k r r' : K} {walk walk' : List K} (h : Leads parent k walk r)
    (h' : Leads parent k walk' r') : walk = walk' ∧ r = r' := by
  induction h generalizing walk' r' with
  | top hr =>
      cases h' with
      | top => exact ⟨rfl, rfl⟩
      | up hk => rw [hr] at hk; cases hk
  | up hk _ ih =>
      cases h' with
      | top hr => rw [hr] at hk; cases hk
      | up hk' hp' =>
          have hpp := hk.symm.trans hk'
          cases hpp
          obtain ⟨rfl, rfl⟩ := ih hp'
          exact ⟨rfl, rfl⟩

theorem Leads.parent_isSome {k r : K} {walk : List K} (h : Leads parent k walk r) :
    (parent k).isSome := by
  cases h with
  | top hr => simp [hr]
  | up hk _ => simp [hk]

theorem Leads.parent_top {k r : K} {walk : List K} (h : Leads parent k walk r) :
    parent r = some none := by
  induction h with
  | top hr => exact hr
  | up _ _ ih => exact ih

/-- A walk belongs to one key. -/
theorem Leads.key_eq {k k' r : K} {walk : List K} (h : Leads parent k walk r)
    (h' : Leads parent k' walk r) : k = k' := by
  generalize hw : walk = walk' at h'
  cases h with
  | top =>
      cases h' with
      | top => rfl
      | up => simp at hw
  | up =>
      cases h' with
      | top => simp at hw
      | up => exact (List.cons.inj (List.append_inj' hw rfl).2).1

theorem Leads.eq_top {k r : K} (h : Leads parent k [] r) : k = r :=
  h.key_eq (.top h.parent_top)

/-- The last key of a walk, and the walk of its parent. -/
theorem Leads.of_concat {k a r : K} {walk : List K} (h : Leads parent k (walk ++ [a]) r) :
    k = a ∧ ∃ p, parent a = some (some p) ∧ Leads parent p walk r := by
  generalize hw : walk ++ [a] = walk' at h
  cases h with
  | top => simp at hw
  | up hk hp =>
      obtain ⟨rfl, hlast⟩ := List.append_inj' hw rfl
      cases hlast
      exact ⟨rfl, _, hk, hp⟩

/-- Every key on a walk has the walk's beginning as its own walk. -/
theorem Leads.of_prefix {k r a : K} {above below : List K}
    (h : Leads parent k (above ++ a :: below) r) : Leads parent a (above ++ [a]) r := by
  generalize hw : above ++ a :: below = walk at h
  induction h generalizing below with
  | top _ => simp at hw
  | @up k p r walk hk hp ih =>
      rcases List.eq_nil_or_concat below with rfl | ⟨rest, last, rfl⟩
      · obtain ⟨rfl, hlast⟩ := List.append_inj' hw rfl
        cases hlast
        exact .up hk hp
      · have hsplit : above ++ a :: rest ++ [last] = walk ++ [k] := by simpa using hw
        exact ih (List.append_inj' hsplit rfl).1

/-- No key is passed twice. -/
theorem Leads.nodup {k r : K} {walk : List K} (h : Leads parent k walk r) : walk.Nodup := by
  induction h with
  | top => exact List.nodup_nil
  | @up k p r walk hk hp ih =>
      rw [List.nodup_append_comm, List.singleton_append, List.nodup_cons]
      refine ⟨fun hmem => ?_, ih⟩
      obtain ⟨above, below, rfl⟩ := List.append_of_mem hmem
      -- `k` would have two walks of different lengths
      have hlen := congrArg List.length (hp.of_prefix.unique (.up hk hp)).1
      simp at hlen

theorem Leads.top_notMem {k r : K} {walk : List K} (h : Leads parent k walk r) : r ∉ walk := by
  intro hmem
  obtain ⟨above, below, rfl⟩ := List.append_of_mem hmem
  have hlen := congrArg List.length (h.of_prefix.unique (.top h.parent_top)).1
  simp at hlen

/-- A key that is nobody's parent is on no chain but its own. -/
theorem Leads.of_leaf {parent' : K → Option (Option K)} {k r leaf : K} {walk : List K}
    (h : Leads parent k walk r) (hleaf : ∀ a, parent a ≠ some (some leaf))
    (hsame : ∀ a, a ≠ leaf → parent' a = parent a) (hne : k ≠ leaf) : Leads parent' k walk r := by
  induction h with
  | top hr => exact .top ((hsame _ hne).trans hr)
  | @up k p r walk hk _ ih =>
      refine .up ((hsame _ hne).trans hk) (ih ?_)
      rintro rfl
      exact hleaf k hk

/-- A good chain is shorter than the list of all keys. -/
theorem Leads.length_lt {k r : K} {walk keys : List K} (h : Leads parent k walk r)
    (hkeys : ∀ a, (parent a).isSome → a ∈ keys) : walk.length < keys.length := by
  have hnodup : (r :: walk).Nodup := List.nodup_cons.mpr ⟨h.top_notMem, h.nodup⟩
  have hsub : r :: walk ⊆ keys := by
    intro a ha
    rcases List.mem_cons.mp ha with rfl | hmem
    · exact hkeys _ (by simp [h.parent_top])
    · obtain ⟨above, below, rfl⟩ := List.append_of_mem hmem
      exact hkeys _ h.of_prefix.parent_isSome
  exact (hnodup.subperm hsub).length_le

/-! ## What lies below a key -/

/-- `ids` lists, each once, the keys whose walk begins with `above`. -/
structure ListsBelow (parent : K → Option (Option K)) (top : K) (above ids : List K) : Prop where
  nodup : ids.Nodup
  mem_iff : ∀ z, z ∈ ids ↔ ∃ walk, Leads parent z walk top ∧ above <+: walk

/-- The lists of the children and the key itself make up the list of a key. -/
theorem ListsBelow.node {top id : K} {above : List K} {kids : List (K × List K)}
    (hlead : Leads parent id above top) (hkeys : (kids.map Prod.fst).Nodup)
    (hkids : ∀ kid ∈ kids, ListsBelow parent top (above ++ [kid.1]) kid.2)
    (hcover : ∀ key, Leads parent key (above ++ [key]) top → key ∈ kids.map Prod.fst) :
    ListsBelow parent top above (id :: (kids.map Prod.snd).flatten) where
  nodup := by
    refine List.nodup_cons.mpr ⟨fun hid => ?_, List.nodup_flatten.mpr ⟨?_, ?_⟩⟩
    · -- the walk of `id` would be longer than itself
      obtain ⟨_, hmap, hid⟩ := List.mem_flatten.mp hid
      obtain ⟨kid, hkid, rfl⟩ := List.mem_map.mp hmap
      obtain ⟨walk, hwalk, hpre⟩ := ((hkids kid hkid).mem_iff id).mp hid
      obtain ⟨rfl, -⟩ := hlead.unique hwalk
      exact absurd hpre.length_le (by simp)
    · intro ids hids
      obtain ⟨kid, hkid, rfl⟩ := List.mem_map.mp hids
      exact (hkids kid hkid).nodup
    · rw [List.pairwise_map]
      refine (List.pairwise_map.mp hkeys).imp_of_mem fun {kid kid'} hkid hkid' hne => ?_
      intro z hz hz'
      obtain ⟨walk, hwalk, hpre⟩ := ((hkids kid hkid).mem_iff z).mp hz
      obtain ⟨walk', hwalk', hpre'⟩ := ((hkids kid' hkid').mem_iff z).mp hz'
      obtain ⟨rfl, -⟩ := hwalk.unique hwalk'
      -- two beginnings of one walk that have the same length
      have heq := (List.prefix_of_prefix_length_le hpre hpre' (by simp)).eq_of_length (by simp)
      exact hne (List.cons.inj (List.append_cancel_left heq)).1
  mem_iff := by
    intro z
    rw [List.mem_cons]
    constructor
    · rintro (rfl | hz)
      · exact ⟨above, hlead, List.prefix_refl _⟩
      · obtain ⟨_, hmap, hz⟩ := List.mem_flatten.mp hz
        obtain ⟨kid, hkid, rfl⟩ := List.mem_map.mp hmap
        obtain ⟨walk, hwalk, hpre⟩ := ((hkids kid hkid).mem_iff z).mp hz
        exact ⟨walk, hwalk, (List.prefix_append _ _).trans hpre⟩
    · rintro ⟨walk, hwalk, below, rfl⟩
      cases below with
      | nil =>
          rw [List.append_nil] at hwalk
          exact Or.inl (hwalk.key_eq hlead)
      | cons key below =>
          -- the walk goes on through the child `key`
          obtain ⟨kid, hkid, rfl⟩ := List.mem_map.mp (hcover key hwalk.of_prefix)
          refine Or.inr (List.mem_flatten.mpr ⟨_, List.mem_map_of_mem hkid, ?_⟩)
          exact ((hkids kid hkid).mem_iff z).mpr ⟨_, hwalk, by simp⟩

/-! ## The loop -/

/-- Follows the chain of `k` and pushes every key that has a parent to `walk`. -/
def climb (parent : K → Option (Option K)) : ℕ → List K → K → Eval (List K)
  | 0, _, _ => .error .hang
  | fuel + 1, walk, k => do
      match ← unwrap (parent k) with
      | none => .ok walk
      | some next => climb parent fuel (walk ++ [k]) next

/-- The loop returns on the good chains that its fuel covers. -/
theorem climb_eq_ok_iff {fuel : ℕ} {walk out : List K} {k : K} :
    climb parent fuel walk k = .ok out ↔
      ∃ path r, Leads parent k path r ∧ path.length < fuel ∧ out = walk ++ path.reverse := by
  induction fuel generalizing walk k with
  | zero => simp [climb]
  | succ fuel ih =>
      rw [climb, bind_eq_ok]
      constructor
      · rintro ⟨next, hnext, h⟩
        rw [unwrap_eq_ok] at hnext
        cases next with
        | none => exact ⟨[], k, .top hnext, Nat.succ_pos _, by simpa using (Except.ok.inj h).symm⟩
        | some p =>
            obtain ⟨path, r, hp, hlen, rfl⟩ := ih.mp h
            exact ⟨path ++ [k], r, .up hnext hp, by simpa using hlen, by simp⟩
      · rintro ⟨path, r, hk, hlen, rfl⟩
        cases hk with
        | top hr => exact ⟨none, unwrap_eq_ok.mpr hr, by simp⟩
        | @up _ p _ path hk hp =>
            refine ⟨some p, unwrap_eq_ok.mpr hk, ih.mpr ⟨path, r, hp, ?_, by simp⟩⟩
            simpa using hlen

end Mum.Library.ParentChain
