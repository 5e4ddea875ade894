import Mathlib.Data.Multiset.AddSub
import Mum.Library.HashMap

/-!
# What the entries of a map come to

A tally collects what the entries of a map give, in no order and with repetitions.  It
depends on the lookups alone, and an update at one key changes the share of that key.
-/

namespace Mum.Library.HashMap

variable {K V B : Type} [DecidableEq K] {f : K → V → Option B} {m m' : HashMap K V} {k : K}

/-- What the entries give. -/
def tally (f : K → V → Option B) (m : HashMap K V) : Multiset B :=
  m.iter.filterMap fun entry => f entry.1 entry.2

/-- What the entry of a key gives. -/
def share (f : K → V → Option B) (k : K) (v : Option V) : Multiset B := (v.bind (f k)).toList

/-- What the entries give, each with its key. -/
def shares (f : K → V → Option B) (m : HashMap K V) : List (K × B) :=
  m.iter.filterMap fun entry => (f entry.1 entry.2).map (entry.1, ·)

theorem mem_shares {b : B} : (k, b) ∈ shares f m ↔ (m.lookup k).bind (f k) = some b := by
  rw [shares, List.mem_filterMap, Option.bind_eq_some_iff]
  constructor
  · rintro ⟨⟨k', v⟩, hmem, hb⟩
    obtain ⟨b', hb', heq⟩ := Option.map_eq_some_iff.mp hb
    cases heq
    exact ⟨v, mem_iter.mp hmem, hb'⟩
  · rintro ⟨v, hv, hb⟩
    exact ⟨(k, v), mem_iter.mpr hv, Option.map_eq_some_iff.mpr ⟨b, hb, rfl⟩⟩

omit [DecidableEq K] in
/-- A key gives one thing at most. -/
theorem nodup_shares : (shares f m).Nodup := by
  have hkeys : (m.iter.map Prod.fst).Nodup := by
    rw [iter, List.map_map]
    exact m.nodupKeys
  have hsublist : ∀ entries : List (K × V),
      ((entries.filterMap fun entry => (f entry.1 entry.2).map (entry.1, ·)).map
        Prod.fst).Sublist (entries.map Prod.fst) := by
    intro entries
    induction entries with
    | nil => exact .slnil
    | cons entry rest ih =>
        rw [List.filterMap_cons, List.map_cons]
        cases f entry.1 entry.2 with
        | none => exact ih.cons _
        | some b => exact ih.cons_cons _
  exact ((hsublist m.iter).nodup hkeys).of_map

omit [DecidableEq K] in
theorem tally_eq_shares : tally f m = (shares f m).map Prod.snd := by
  rw [tally, shares, List.map_filterMap]
  refine congrArg _ (congrArg (List.filterMap · m.iter) ?_)
  funext entry
  cases f entry.1 entry.2 <;> rfl

/-- Only what the entries give counts, not what they are or how they are ordered. -/
theorem tally_congr (h : ∀ k, (m'.lookup k).bind (f k) = (m.lookup k).bind (f k)) :
    tally f m' = tally f m := by
  have hperm : (shares f m').Perm (shares f m) := by
    refine (List.perm_ext_iff_of_nodup nodup_shares nodup_shares).mpr ?_
    rintro ⟨k, b⟩
    rw [mem_shares, mem_shares, h]
  rw [tally_eq_shares, tally_eq_shares]
  exact Multiset.coe_eq_coe.mpr (hperm.map _)

/-- One entry and the others. -/
theorem tally_eq_share_add (k : K) : tally f m = share f k (m.lookup k) + tally f (m.erase k) := by
  cases hv : m.lookup k with
  | none =>
      have hsame : ∀ k', m.lookup k' = (m.erase k).lookup k' := by
        intro k'
        by_cases hk : k' = k
        · rw [hk, AList.lookup_erase, hv]
        · rw [AList.lookup_erase_ne hk]
      rw [tally_congr fun k' => congrArg (Option.bind · (f k')) (hsame k')]
      exact (Multiset.zero_add _).symm
  | some v =>
      have hperm : m.iter.Perm ((k, v) :: iter (m.erase k)) := by
        have hnot : (k, v) ∉ iter (m.erase k) := fun hmem =>
          (lookup_erase_eq_some.mp (mem_iter.mp hmem)).1 rfl
        refine (List.perm_ext_iff_of_nodup m.nodup_iter
          (List.nodup_cons.mpr ⟨hnot, nodup_iter (m.erase k)⟩)).mpr ?_
        rintro ⟨k', v'⟩
        rw [List.mem_cons, mem_iter, mem_iter, lookup_erase_eq_some, Prod.mk.injEq]
        by_cases hk : k' = k
        · subst hk
          rw [hv]
          simp [eq_comm]
        · simp [hk]
      have htally : tally f m = ((k, v) :: iter (m.erase k)).filterMap fun entry =>
          f entry.1 entry.2 := Multiset.coe_eq_coe.mpr (hperm.filterMap _)
      rw [htally, List.filterMap_cons, share, Option.bind_some]
      dsimp only
      cases f k v with
      | none => exact (Multiset.zero_add _).symm
      | some b => rfl

/-- An update at one key changes what that key gives. -/
theorem tally_change (h : ∀ k', k' ≠ k → m'.lookup k' = m.lookup k') :
    tally f m' + share f k (m.lookup k) = tally f m + share f k (m'.lookup k) := by
  have hrest : tally f (m'.erase k) = tally f (m.erase k) := by
    refine tally_congr fun k' => congrArg (Option.bind · (f k')) ?_
    by_cases hk : k' = k
    · rw [hk, AList.lookup_erase, AList.lookup_erase]
    · rw [AList.lookup_erase_ne hk, AList.lookup_erase_ne hk, h k' hk]
  rw [tally_eq_share_add (m := m') k, tally_eq_share_add (m := m) k, hrest]
  calc share f k (m'.lookup k) + tally f (m.erase k) + share f k (m.lookup k)
      = tally f (m.erase k) + share f k (m'.lookup k) + share f k (m.lookup k) := by
        rw [Multiset.add_comm (share f k (m'.lookup k))]
    _ = tally f (m.erase k) + (share f k (m.lookup k) + share f k (m'.lookup k)) := by
        rw [Multiset.add_assoc, Multiset.add_comm (share f k (m'.lookup k))]
    _ = share f k (m.lookup k) + tally f (m.erase k) + share f k (m'.lookup k) := by
        rw [← Multiset.add_assoc, Multiset.add_comm (tally f (m.erase k))]

end Mum.Library.HashMap
