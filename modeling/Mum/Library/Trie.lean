import Mathlib.Data.List.Basic
import Mathlib.Data.List.Nodup

/-!
# Tries

A trie is a tree whose children stand under keys, so that a list of keys names
a node.  `at?` reads the value at a path, `update` changes it and creates the
nodes that are missing on the way with a default value.  `at?_update` is the
one fact about `update` that its users need.

With distinct keys at every node (`Keyed`), a path names one node, and what is at it after a
list of updates can be said without the order of the children (`at?_build_of_some` and the
two lemmas after it).
-/

namespace Mum.Library

universe u v

/-- A node with a value and its children, each under a key. -/
inductive Trie (K : Type u) (A : Type v)
  | node (value : A) (children : List (K × Trie K A))

namespace Trie

variable {K : Type u} {A : Type v}

def value : Trie K A → A
  | node value _ => value

def children : Trie K A → List (K × Trie K A)
  | node _ children => children

@[simp] theorem value_node (a : A) (children : List (K × Trie K A)) :
    (node a children).value = a := rfl

@[simp] theorem children_node (a : A) (children : List (K × Trie K A)) :
    (node a children).children = children := rfl

/-- Induction with a hypothesis for every child. -/
@[elab_as_elim]
theorem induction {P : Trie K A → Prop}
    (hnode : ∀ value children, (∀ child ∈ children, P child.2) → P (node value children)) :
    ∀ tree, P tree := by
  intro tree
  refine @Trie.rec K A P (fun children => ∀ child ∈ children, P child.2) (fun child => P child.2)
    ?_ ?_ ?_ ?_ tree
  · exact fun value children h => hnode value children h
  · intro child h
    simp at h
  · intro head tail hhead htail child h
    rcases List.mem_cons.mp h with rfl | h
    · exact hhead
    · exact htail child h
  · exact fun _ _ h => h

/-- Siblings have distinct keys everywhere in the trie. -/
inductive Keyed : Trie K A → Prop
  | node {value : A} {children : List (K × Trie K A)} (hkeys : (children.map Prod.fst).Nodup)
      (hchildren : ∀ child ∈ children, Keyed child.2) : Keyed (.node value children)

theorem keyed_leaf (a : A) : Keyed (node a ([] : List (K × Trie K A))) :=
  .node (by simp) (by simp)

variable [DecidableEq K]

/-! ## Children -/

/-- Replaces the child under `key`, or adds it when there is none. -/
def setIn (key : K) (child : Trie K A) : List (K × Trie K A) → List (K × Trie K A)
  | [] => [(key, child)]
  | (key', child') :: rest =>
      if key' = key then (key, child) :: rest else (key', child') :: setIn key child rest

theorem mem_setIn {key : K} {child : Trie K A} {entry : K × Trie K A} :
    ∀ {children : List (K × Trie K A)}, entry ∈ setIn key child children →
      entry = (key, child) ∨ entry ∈ children
  | [], h => by simpa [setIn] using h
  | (key', child') :: rest, h => by
      unfold setIn at h
      split at h
      · rcases List.mem_cons.mp h with rfl | h
        · exact Or.inl rfl
        · exact Or.inr (List.mem_cons_of_mem _ h)
      · rcases List.mem_cons.mp h with rfl | h
        · exact Or.inr (List.mem_cons_self ..)
        · exact (mem_setIn h).imp_right (List.mem_cons_of_mem _)

theorem nodup_keys_setIn {key : K} {child : Trie K A} {children : List (K × Trie K A)}
    (h : (children.map Prod.fst).Nodup) : ((setIn key child children).map Prod.fst).Nodup := by
  induction children with
  | nil => simp [setIn]
  | cons head rest ih =>
      obtain ⟨key', child'⟩ := head
      rw [List.map_cons, List.nodup_cons] at h
      unfold setIn
      split
      · rename_i heq
        subst heq
        exact List.nodup_cons.mpr h
      · rename_i hne
        refine List.nodup_cons.mpr ⟨fun hmem => ?_, ih h.2⟩
        obtain ⟨entry, hentry, hkey⟩ := List.mem_map.mp hmem
        rcases mem_setIn hentry with rfl | hold
        · exact hne hkey.symm
        · exact h.1 (List.mem_map.mpr ⟨entry, hold, hkey⟩)

theorem lookup_cons_eq (key key' : K) (child : Trie K A) (rest : List (K × Trie K A)) :
    List.lookup key ((key', child) :: rest) =
      if key = key' then some child else List.lookup key rest := by
  by_cases h : key = key'
  · subst h
    simp
  · rw [List.lookup_cons, if_neg h, beq_false_of_ne h]

theorem lookup_setIn (key key' : K) (child : Trie K A) (children : List (K × Trie K A)) :
    (setIn key child children).lookup key' =
      if key' = key then some child else children.lookup key' := by
  induction children with
  | nil => rw [setIn, lookup_cons_eq]
  | cons head rest ih =>
      obtain ⟨key'', child''⟩ := head
      unfold setIn
      by_cases hhead : key'' = key
      · subst hhead
        rw [if_pos rfl, lookup_cons_eq, lookup_cons_eq]
        split <;> rfl
      · rw [if_neg hhead, lookup_cons_eq, lookup_cons_eq, ih]
        by_cases h : key' = key''
        · subst h
          simp [hhead]
        · simp [h]

theorem mem_iff_lookup {key : K} {child : Trie K A} {children : List (K × Trie K A)}
    (h : (children.map Prod.fst).Nodup) :
    (key, child) ∈ children ↔ children.lookup key = some child := by
  induction children with
  | nil => simp
  | cons head rest ih =>
      obtain ⟨key', child'⟩ := head
      rw [List.map_cons, List.nodup_cons] at h
      rw [List.mem_cons, lookup_cons_eq, ih h.2]
      by_cases hkey : key = key'
      · subst hkey
        have habsent : rest.lookup key ≠ some child := fun hl =>
          h.1 (List.mem_map.mpr ⟨(key, child), (ih h.2).mpr hl, rfl⟩)
        simp [habsent, eq_comm]
      · simp [hkey]

/-! ## Reading and changing the value at a path -/

/-- The value at the end of `path`. -/
def at? : Trie K A → List K → Option A
  | tree, [] => some tree.value
  | tree, key :: path => (tree.children.lookup key).bind fun child => child.at? path

/-- Applies `f` to the value at the end of the path; nodes that are missing on
the way are created with the value `default`. -/
def update (default : A) (f : A → A) : List K → Trie K A → Trie K A
  | [], tree => node (f tree.value) tree.children
  | key :: path, tree =>
      node tree.value (setIn key
        (update default f path ((tree.children.lookup key).getD (node default []))) tree.children)

@[simp] theorem at?_nil (tree : Trie K A) : tree.at? [] = some tree.value := rfl

theorem at?_cons (tree : Trie K A) (key : K) (path : List K) :
    tree.at? (key :: path) = (tree.children.lookup key).bind fun child => child.at? path := rfl

/-- A path through a child goes on in the child. -/
theorem at?_cons_of_mem {children : List (K × Trie K A)} (hkeys : (children.map Prod.fst).Nodup)
    {child : K × Trie K A} (hchild : child ∈ children) (value : A) (path : List K) :
    (node value children).at? (child.1 :: path) = child.2.at? path := by
  have hlookup : children.lookup child.1 = some child.2 := (mem_iff_lookup hkeys).mp hchild
  rw [at?_cons, children_node, hlookup, Option.bind_some]

/-- The first key of a path that leads somewhere is that of a child. -/
theorem mem_keys_of_at?_cons {children : List (K × Trie K A)}
    (hkeys : (children.map Prod.fst).Nodup) {value a : A} {key : K} {path : List K}
    (h : (node value children).at? (key :: path) = some a) : key ∈ children.map Prod.fst := by
  rw [at?_cons, Option.bind_eq_some_iff] at h
  obtain ⟨child, hlookup, -⟩ := h
  exact List.mem_map.mpr ⟨(key, child), (mem_iff_lookup hkeys).mpr hlookup, rfl⟩

theorem at?_leaf (a : A) (path : List K) :
    (node a ([] : List (K × Trie K A))).at? path = if path = [] then some a else none := by
  cases path with
  | nil => rfl
  | cons key path => simp [at?_cons]

theorem at?_update (default : A) (f : A → A) (walk path : List K) (tree : Trie K A) :
    (update default f walk tree).at? path =
      if path = walk then some (f ((tree.at? path).getD default))
      else if path <+: walk then some ((tree.at? path).getD default)
      else tree.at? path := by
  induction walk generalizing path tree with
  | nil =>
      cases path with
      | nil => rfl
      | cons key path => simp [update, at?_cons]
  | cons key walk ih =>
      cases path with
      | nil => simp [update]
      | cons key' path =>
          simp only [update, at?_cons, children_node, lookup_setIn]
          by_cases hkey : key' = key
          · subst hkey
            rw [if_pos rfl, Option.bind_some, ih]
            simp only [List.cons.injEq, true_and, List.cons_prefix_cons]
            cases hchild : tree.children.lookup key' with
            | some child => simp
            | none =>
                -- a fresh child has the default value and nothing below it
                rw [Option.getD_none, at?_leaf]
                by_cases hpath : path = []
                · subst hpath
                  simp
                · simp [hpath]
          · rw [if_neg hkey]
            simp [hkey]

theorem keyed_update {default : A} {f : A → A} {walk : List K} {tree : Trie K A}
    (h : Keyed tree) : Keyed (update default f walk tree) := by
  induction walk generalizing tree with
  | nil =>
      cases h with
      | node hkeys hchildren => exact .node hkeys hchildren
  | cons key walk ih =>
      cases h with
      | @node value children hkeys hchildren =>
          refine .node (nodup_keys_setIn hkeys) fun entry hentry => ?_
          rcases mem_setIn hentry with rfl | hold
          · refine ih ?_
            cases hchild : children.lookup key with
            | none => simpa [hchild] using keyed_leaf default
            | some child =>
                simpa [hchild] using hchildren _ ((mem_iff_lookup hkeys).mpr hchild)
          · exact hchildren entry hold

/-! ## Adding a list of values -/

/-- Stores each value at the end of its path, one after the other. -/
def build (default : A) (added : List (List K × A)) (tree : Trie K A) : Trie K A :=
  added.foldl (fun tree entry => update default (fun _ => entry.2) entry.1 tree) tree

theorem keyed_build {default : A} {added : List (List K × A)} {tree : Trie K A}
    (h : Keyed tree) : Keyed (build default added tree) := by
  induction added generalizing tree with
  | nil => exact h
  | cons entry rest ih => exact ih (keyed_update h)

/-- A value that is there stays unless its own path is written again. -/
theorem at?_build_of_some {default : A} {added : List (List K × A)} {tree : Trie K A}
    {path : List K} {a : A} (ha : tree.at? path = some a)
    (hsame : ∀ b, (path, b) ∈ added → b = a) : (build default added tree).at? path = some a := by
  induction added generalizing tree with
  | nil => exact ha
  | cons entry rest ih =>
      obtain ⟨walk, b⟩ := entry
      refine ih ?_ fun c hc => hsame c (List.mem_cons_of_mem _ hc)
      rw [at?_update, ha]
      by_cases hwalk : path = walk
      · subst hwalk
        simp [hsame b (List.mem_cons_self ..)]
      · simp [hwalk]

theorem at?_build_of_mem {default : A} {added : List (List K × A)} {tree : Trie K A}
    {path : List K} {a : A} (ha : (path, a) ∈ added)
    (hsame : ∀ b, (path, b) ∈ added → b = a) : (build default added tree).at? path = some a := by
  obtain ⟨before, after, rfl⟩ := List.append_of_mem ha
  unfold build
  rw [List.foldl_append, List.foldl_cons]
  refine at?_build_of_some ?_ fun b hb => hsame b (by simp [hb])
  rw [at?_update, if_pos rfl]

/-- Nothing appears off the paths that are added. -/
theorem at?_build_of_not_prefix {default : A} {added : List (List K × A)} {tree : Trie K A}
    {path : List K} (hpath : ∀ entry ∈ added, ¬ path <+: entry.1) :
    (build default added tree).at? path = tree.at? path := by
  induction added generalizing tree with
  | nil => rfl
  | cons entry rest ih =>
      have hentry := hpath entry (List.mem_cons_self ..)
      refine (ih fun e he => hpath e (List.mem_cons_of_mem _ he)).trans ?_
      have hne : path ≠ entry.1 := by
        rintro rfl
        exact hentry (List.prefix_refl _)
      rw [at?_update, if_neg hne, if_neg hentry]

end Trie

end Mum.Library
