import Mathlib.Data.List.Perm.Basic

/-!
# The first element that matches

A list is edited at its first element that matches, or at the place where that
element was found: the two agree, also for a list that is zipped with another.
-/

namespace Mum.Library

universe u v

variable {A : Type u} {B : Type v} {p : A → Bool} {f : A → A}

/-- Changes the first element that matches. -/
def updateFirst (p : A → Bool) (f : A → A) : List A → List A
  | [] => []
  | a :: rest => if p a then f a :: rest else a :: updateFirst p f rest

theorem zip_set_of_findIdx? {l : List A} {i : ℕ} {a : A} (hindex : l.findIdx? p = some i)
    (ha : l[i]? = some a) (l' : List B) :
    (l.set i (f a)).zip l' =
      updateFirst (fun e => p e.1) (fun e => (f e.1, e.2)) (l.zip l') := by
  induction l generalizing i l' with
  | nil => cases hindex
  | cons b rest ih =>
      rcases l' with _ | ⟨b', rest'⟩
      · rw [List.zip_nil_right, List.zip_nil_right]
        rfl
      rw [List.findIdx?_cons] at hindex
      by_cases hp : p b
      · rw [if_pos hp] at hindex
        cases hindex
        cases ha
        simp [updateFirst, hp]
      · rw [if_neg hp] at hindex
        obtain ⟨j, hj, rfl⟩ := Option.map_eq_some_iff.mp hindex
        rw [List.set_cons_succ, List.zip_cons_cons, List.zip_cons_cons, updateFirst, if_neg hp,
          ih hj (by simpa using ha)]

theorem zip_eraseIdx_of_findIdx? {l : List A} {i : ℕ} (hindex : l.findIdx? p = some i)
    (l' : List B) :
    (l.eraseIdx i).zip (l'.eraseIdx i) = (l.zip l').eraseP fun e => p e.1 := by
  induction l generalizing i l' with
  | nil => cases hindex
  | cons b rest ih =>
      rcases l' with _ | ⟨b', rest'⟩
      · rw [List.eraseIdx_nil, List.zip_nil_right, List.zip_nil_right, List.eraseP_nil]
      rw [List.findIdx?_cons] at hindex
      by_cases hp : p b
      · rw [if_pos hp] at hindex
        cases hindex
        simp [hp]
      · rw [if_neg hp] at hindex
        obtain ⟨j, hj, rfl⟩ := Option.map_eq_some_iff.mp hindex
        rw [List.eraseIdx_cons_succ, List.eraseIdx_cons_succ, List.zip_cons_cons,
          List.zip_cons_cons, ih hj]
        simp [hp]

theorem updateFirst_of_eq {l : List A} (h : ∀ a ∈ l, f a = a) : updateFirst p f l = l := by
  induction l with
  | nil => rfl
  | cons a rest ih =>
      rw [updateFirst, h a (List.mem_cons_self ..),
        ih fun b hb => h b (List.mem_cons_of_mem _ hb), ite_self]

/-- The change of what a list is mapped to. -/
theorem map_updateFirst {g : A → B} {q : B → Bool} {f' : B → B} (hp : ∀ a, p a = q (g a))
    (hf : ∀ a, g (f a) = f' (g a)) (l : List A) :
    (updateFirst p f l).map g = updateFirst q f' (l.map g) := by
  induction l with
  | nil => rfl
  | cons a rest ih =>
      rw [updateFirst, List.map_cons, updateFirst, hp]
      split
      · rw [List.map_cons, hf]
      · rw [List.map_cons, ih]

/-- Writing over the first of an element. -/
theorem updateFirst_perm [DecidableEq A] {l : List A} {a : A} (ha : a ∈ l) (b : A) :
    (updateFirst (· = a) (fun _ => b) l).Perm (b :: l.erase a) := by
  induction l with
  | nil => cases ha
  | cons c rest ih =>
      rw [updateFirst]
      by_cases hc : c = a
      · subst hc
        simp
      · have hrest : a ∈ rest := (List.mem_cons.mp ha).resolve_left (Ne.symm hc)
        rw [if_neg (by simpa using hc), List.erase_cons_tail (by simpa using hc)]
        exact ((ih hrest).cons c).trans (List.Perm.swap b c _)

/-- A list without repetitions stays so if the new element is none of the others. -/
theorem nodup_updateFirst_iff [DecidableEq A] {l : List A} (hl : l.Nodup) {a : A} (ha : a ∈ l)
    (b : A) : (updateFirst (· = a) (fun _ => b) l).Nodup ↔ b ∉ l.erase a := by
  rw [(updateFirst_perm ha b).nodup_iff, List.nodup_cons]
  exact and_iff_left (hl.erase a)

end Mum.Library
