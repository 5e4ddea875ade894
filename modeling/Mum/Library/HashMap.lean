import Mathlib.Data.List.AList
import Mathlib.Data.List.Perm.Basic

/-!
# Hash maps with an explicit iteration order

A hash map is an association list with distinct keys.  The order of the list is
the order in which the map is iterated, so a theorem about every map is a
theorem about every iteration order.
-/

namespace Mum.Library

universe u v

/-- A hash map from `K` to `V`; the entries stand in iteration order. -/
abbrev HashMap (K : Type u) (V : Type v) := AList fun _ : K => V

namespace HashMap

variable {K : Type u} {V : Type v}

/-- The entries in iteration order. -/
def iter (m : HashMap K V) : List (K × V) :=
  m.entries.map fun entry => (entry.1, entry.2)

/-- The values in iteration order. -/
def values (m : HashMap K V) : List V := m.iter.map Prod.snd

theorem nodup_iter (m : HashMap K V) : m.iter.Nodup := by
  have hkeys : (m.iter.map Prod.fst).Nodup := by
    rw [iter, List.map_map]
    exact m.nodupKeys
  exact hkeys.of_map

variable [DecidableEq K]

theorem mem_iter {m : HashMap K V} {k : K} {v : V} :
    (k, v) ∈ m.iter ↔ m.lookup k = some v := by
  rw [← Option.mem_def, AList.mem_lookup_iff]
  unfold iter
  constructor
  · intro h
    obtain ⟨⟨k', v'⟩, hmem, heq⟩ := List.mem_map.mp h
    cases heq
    exact hmem
  · intro h
    exact List.mem_map.mpr ⟨⟨k, v⟩, h, rfl⟩

theorem mem_iff_lookup {m : HashMap K V} {k : K} : k ∈ m ↔ ∃ v, m.lookup k = some v := by
  rw [← AList.lookup_isSome, Option.isSome_iff_exists]

theorem lookup_replace (m : HashMap K V) (k k' : K) (v : V) :
    (m.replace k v).lookup k' =
      if k' = k then (m.lookup k).map fun _ => v else m.lookup k' := by
  show (List.kreplace k v m.entries).dlookup k' =
    if k' = k then (m.entries.dlookup k).map fun _ => v else m.entries.dlookup k'
  unfold List.kreplace
  induction m.entries with
  | nil => simp
  | cons entry rest ih =>
      obtain ⟨k₀, v₀⟩ := entry
      by_cases hk : k = k₀
      · subst hk
        rw [List.lookmap_cons_some _ _ (dif_pos rfl)]
        by_cases hk' : k' = k
        · subst hk'
          simp
        · simp [hk']
      · have hdlookup : List.dlookup k (⟨k₀, v₀⟩ :: rest) = rest.dlookup k :=
          List.dlookup_cons_ne _ _ hk
        rw [List.lookmap_cons_none _ _ (dif_neg hk), hdlookup]
        by_cases hk' : k' = k₀
        · subst hk'
          simp [Ne.symm hk]
        · rw [List.dlookup_cons_ne _ _ hk', ih, List.dlookup_cons_ne _ _ hk']

theorem lookup_replace_eq_some {m : HashMap K V} {k k' : K} {v w : V} :
    (m.replace k v).lookup k' = some w ↔
      k' = k ∧ k ∈ m ∧ w = v ∨ k' ≠ k ∧ m.lookup k' = some w := by
  rw [lookup_replace]
  by_cases hk : k' = k
  · rw [if_pos hk, Option.map_eq_some_iff, mem_iff_lookup]
    constructor
    · rintro ⟨v', hv', rfl⟩
      exact .inl ⟨hk, ⟨v', hv'⟩, rfl⟩
    · rintro (⟨-, ⟨v', hv'⟩, rfl⟩ | ⟨hne, -⟩)
      · exact ⟨v', hv', rfl⟩
      · exact absurd hk hne
  · rw [if_neg hk]
    constructor
    · exact fun h => .inr ⟨hk, h⟩
    · rintro (⟨heq, -⟩ | ⟨-, h⟩)
      · exact absurd heq hk
      · exact h

theorem lookup_erase_eq_some {m : HashMap K V} {k k' : K} {v : V} :
    (m.erase k).lookup k' = some v ↔ k' ≠ k ∧ m.lookup k' = some v := by
  by_cases hk : k' = k
  · rw [hk, AList.lookup_erase]
    exact iff_of_false (by simp) fun h => h.1 rfl
  · rw [AList.lookup_erase_ne hk]
    exact (and_iff_right hk).symm

/-- `entry(k)` with a value for a vacant entry and an update for an occupied one. -/
def upsert (m : HashMap K V) (k : K) (vacant : V) (occupied : V → V) : HashMap K V :=
  match m.lookup k with
  | none => m.insert k vacant
  | some v => m.replace k (occupied v)

theorem lookup_upsert (m : HashMap K V) (k k' : K) (vacant : V) (occupied : V → V) :
    (m.upsert k vacant occupied).lookup k' =
      if k' = k then some ((m.lookup k).elim vacant occupied) else m.lookup k' := by
  unfold upsert
  cases hv : m.lookup k with
  | none =>
      by_cases hk : k' = k
      · subst hk
        simp
      · simp [hk]
  | some v => simp [lookup_replace, hv]

theorem lookup_upsert_self (m : HashMap K V) (k : K) (v : V) :
    (m.upsert k v fun _ => v).lookup k = some v := by
  rw [lookup_upsert, if_pos rfl]
  cases m.lookup k <;> rfl

/-! ## A pass over a map that changes its values -/

/-- One pass over the entries with an accumulator. -/
def mapAccumEntries {σ : Type u} (f : σ → K → V → σ × V) :
    σ → List (Σ _ : K, V) → σ × List (Σ _ : K, V)
  | s, [] => (s, [])
  | s, ⟨k, v⟩ :: rest =>
      let (s, v) := f s k v
      let (s, rest) := mapAccumEntries f s rest
      (s, ⟨k, v⟩ :: rest)

omit [DecidableEq K] in
theorem keys_mapAccumEntries {σ : Type u} (f : σ → K → V → σ × V) (s : σ)
    (entries : List (Σ _ : K, V)) :
    (mapAccumEntries f s entries).2.keys = entries.keys := by
  induction entries generalizing s with
  | nil => rfl
  | cons entry rest ih =>
      rw [mapAccumEntries, List.keys_cons, List.keys_cons, ih]

/-- `iter_mut` with an accumulator: visits the entries in iteration order and
replaces every value. -/
def mapAccum {σ : Type u} (f : σ → K → V → σ × V) (s : σ) (m : HashMap K V) :
    σ × HashMap K V :=
  ((mapAccumEntries f s m.entries).1, ⟨(mapAccumEntries f s m.entries).2, by
    have h := m.nodupKeys
    unfold List.NodupKeys at h ⊢
    rw [keys_mapAccumEntries]
    exact h⟩)

/-- A pass that keeps `P` of the accumulator, and whose new values are the same
for all accumulators with `P`. -/
theorem mapAccum_spec {σ : Type u} {f : σ → K → V → σ × V} {P : σ → Prop} {g : K → V → V}
    (hf : ∀ s k v, P s → P (f s k v).1 ∧ (f s k v).2 = g k v) {s : σ} (hs : P s)
    (m : HashMap K V) :
    P (m.mapAccum f s).1 ∧ ∀ k, (m.mapAccum f s).2.lookup k = (m.lookup k).map (g k) := by
  show P (mapAccumEntries f s m.entries).1 ∧ ∀ k,
    (mapAccumEntries f s m.entries).2.dlookup k = (m.entries.dlookup k).map (g k)
  induction m.entries generalizing s with
  | nil => exact ⟨hs, fun k => rfl⟩
  | cons entry rest ih =>
      obtain ⟨k', v⟩ := entry
      obtain ⟨hs', hv⟩ := hf s k' v hs
      refine ⟨(ih hs').1, fun k => ?_⟩
      by_cases hk : k = k'
      · subst hk
        simp [mapAccumEntries, hv]
      · simp only [mapAccumEntries]
        rw [List.dlookup_cons_ne _ _ hk, List.dlookup_cons_ne _ _ hk]
        exact (ih hs').2 k

/-- What a pass says about the accumulator at its end, entry by entry. -/
theorem mapAccum_fst_iff {σ : Type u} {f : σ → K → V → σ × V} {P Q : σ → Prop}
    {R : K → V → Prop} (hP : ∀ s k v, P s → P (f s k v).1)
    (hQ : ∀ s k v, P s → (Q (f s k v).1 ↔ Q s ∧ R k v)) {s : σ} (hs : P s) (m : HashMap K V) :
    Q (m.mapAccum f s).1 ↔ Q s ∧ ∀ k v, m.lookup k = some v → R k v := by
  have hentries : ∀ (entries : List (Σ _ : K, V)) (s : σ), P s →
      (Q (mapAccumEntries f s entries).1 ↔ Q s ∧ ∀ entry ∈ entries, R entry.1 entry.2) := by
    intro entries
    induction entries with
    | nil => simp [mapAccumEntries]
    | cons entry rest ih =>
        intro s hs
        rw [mapAccumEntries, List.forall_mem_cons, ← and_assoc, ← hQ s entry.1 entry.2 hs]
        exact ih _ (hP s entry.1 entry.2 hs)
  refine (hentries m.entries s hs).trans (and_congr_right fun _ => ?_)
  constructor
  · intro h k v hv
    exact h ⟨k, v⟩ (AList.mem_lookup_iff.mp hv)
  · intro h entry hentry
    exact h entry.1 entry.2 (AList.mem_lookup_iff.mpr hentry)

/-! ## Mapping the values -/

variable {W : Type v}

omit [DecidableEq K] in
theorem keys_map_entries (g : V → W) (entries : List (Σ _ : K, V)) :
    (entries.map fun entry => (⟨entry.1, g entry.2⟩ : Σ _ : K, W)).keys = entries.keys := by
  unfold List.keys
  rw [List.map_map]
  rfl

/-- The same keys in the same order with mapped values. -/
def mapValues (g : V → W) (m : HashMap K V) : HashMap K W :=
  ⟨m.entries.map fun entry => ⟨entry.1, g entry.2⟩, by
    have h := m.nodupKeys
    unfold List.NodupKeys at h ⊢
    rw [keys_map_entries]
    exact h⟩

@[simp] theorem lookup_mapValues (g : V → W) (m : HashMap K V) (k : K) :
    (m.mapValues g).lookup k = (m.lookup k).map g := by
  show List.dlookup (β := fun _ : K => W) k (m.entries.map _) = (m.entries.dlookup k).map g
  induction m.entries with
  | nil => rfl
  | cons entry rest ih =>
      obtain ⟨k', v⟩ := entry
      by_cases hk : k = k'
      · subst hk
        simp
      · rw [List.map_cons, List.dlookup_cons_ne _ _ hk, List.dlookup_cons_ne _ _ hk, ih]

theorem mem_mapValues {g : V → W} {m : HashMap K V} {k : K} : k ∈ m.mapValues g ↔ k ∈ m := by
  rw [← AList.lookup_isSome, ← AList.lookup_isSome, lookup_mapValues, Option.isSome_map]

omit [DecidableEq K] in
theorem mapValues_mapValues_eq {f : V → W} {g : W → V} (h : ∀ v, g (f v) = v)
    (m : HashMap K V) : (m.mapValues f).mapValues g = m := by
  refine AList.ext ?_
  show (m.entries.map _).map _ = m.entries
  rw [List.map_map]
  exact (List.map_congr_left fun entry _ => by simp [h]).trans (List.map_id _)

theorem mapValues_insert (g : V → W) (m : HashMap K V) (k : K) (v : V) :
    mapValues g (m.insert k v) = (m.mapValues g).insert k (g v) := by
  refine AList.ext ?_
  unfold mapValues
  simp only [AList.entries_insert, List.map_cons]
  congr 1
  unfold List.kerase
  induction m.entries with
  | nil => rfl
  | cons entry rest ih =>
      by_cases hk : k = entry.1
      · simp [hk]
      · simp [hk, ih]

theorem mapValues_replace (g : V → W) (m : HashMap K V) (k : K) (v : V) :
    mapValues g (m.replace k v) = (m.mapValues g).replace k (g v) := by
  refine AList.ext ?_
  show (List.kreplace k v m.entries).map _ =
    List.kreplace (β := fun _ : K => W) k (g v) (m.entries.map _)
  unfold List.kreplace
  induction m.entries with
  | nil => rfl
  | cons entry rest ih =>
      by_cases hk : k = entry.1
      · rw [List.map_cons, List.lookmap_cons_some _ _ (dif_pos hk),
          List.lookmap_cons_some _ _ (dif_pos hk), List.map_cons]
      · rw [List.map_cons, List.lookmap_cons_none _ _ (dif_neg hk),
          List.lookmap_cons_none _ _ (dif_neg hk), List.map_cons, ih]

theorem mapValues_upsert (g : V → W) (m : HashMap K V) (k : K) (v : V) :
    mapValues g (m.upsert k v fun _ => v) = (m.mapValues g).upsert k (g v) fun _ => g v := by
  unfold upsert
  rw [lookup_mapValues]
  cases m.lookup k with
  | none => exact mapValues_insert g m k v
  | some _ => exact mapValues_replace g m k v

omit [DecidableEq K] in
/-- Passes that agree step by step agree. -/
theorem mapAccum_mapValues {σ τ : Type u} {f : σ → K → V → σ × V} {f' : τ → K → W → τ × W}
    {a : σ → τ} {g : V → W} (hf : ∀ s k v, f' (a s) k (g v) = Prod.map a g (f s k v)) (s : σ)
    (m : HashMap K V) :
    (m.mapValues g).mapAccum f' (a s) = Prod.map a (mapValues g) (m.mapAccum f s) := by
  have hentries : ∀ (entries : List (Σ _ : K, V)) (s : σ),
      mapAccumEntries f' (a s) (entries.map fun entry => ⟨entry.1, g entry.2⟩) =
        Prod.map a (List.map fun entry => ⟨entry.1, g entry.2⟩) (mapAccumEntries f s entries) := by
    intro entries
    induction entries with
    | nil => exact fun s => rfl
    | cons entry rest ih =>
        intro s
        rw [List.map_cons, mapAccumEntries, mapAccumEntries, hf]
        exact congrArg (fun p : τ × List (Σ _ : K, W) =>
          (p.1, (⟨entry.1, g (f s entry.1 entry.2).2⟩ : Σ _ : K, W) :: p.2)) (ih _)
  have hfst := congrArg Prod.fst (hentries m.entries s)
  have hsnd := congrArg Prod.snd (hentries m.entries s)
  exact Prod.ext hfst (AList.ext hsnd)

/-- A reordering of mapped entries is a map of reordered entries. -/
theorem exists_perm_of_perm_map {α : Type u} {β : Type v} {f : α → β} {l : List β} {m : List α}
    (h : l.Perm (m.map f)) : ∃ m' : List α, l = m'.map f ∧ m'.Perm m :=
  (congrFun (congrFun (List.eq_map_comp_perm f) l) m).mpr h

end HashMap

end Mum.Library
