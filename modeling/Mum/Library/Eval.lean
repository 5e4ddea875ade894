import Mathlib.Data.List.Forall2

/-!
# Results of code that may panic or run for ever

A call of the program either returns, panics (a failed `unwrap`, an
`unreachable!`, an arithmetic overflow under overflow checks) or never returns.
`Eval α` is the type of such results.  A loop without a measure of its own is
written with a fuel argument and answers `.error .hang` when the fuel runs out;
each such function comes with a lemma that says which fuel is enough.
-/

namespace Mum.Library

/-- The two ways in which a call does not return. -/
inductive Fault
  | panic
  | hang
deriving DecidableEq, Repr

universe u v

/-- The result of a call. -/
abbrev Eval (α : Type u) := Except Fault α

namespace Eval

variable {α β : Type u}

/-- `Option::unwrap`. -/
def unwrap : Option α → Eval α
  | some a => .ok a
  | none => .error .panic

/-- The call returns. -/
def Returns (x : Eval α) : Prop := ∃ a, x = .ok a

@[simp] theorem unwrap_some (a : α) : unwrap (some a) = .ok a := rfl

@[simp] theorem unwrap_none : unwrap (none : Option α) = .error .panic := rfl

@[simp] theorem unwrap_eq_ok {o : Option α} {a : α} : unwrap o = .ok a ↔ o = some a := by
  cases o <;> simp [unwrap]

@[simp] theorem ok_bind (a : α) (f : α → Eval β) : (Except.ok a : Eval α) >>= f = f a := rfl

@[simp] theorem error_bind (e : Fault) (f : α → Eval β) :
    (Except.error e : Eval α) >>= f = .error e := rfl

/-- A sequence of two calls returns when both do. -/
theorem bind_eq_ok {x : Eval α} {f : α → Eval β} {b : β} :
    x >>= f = .ok b ↔ ∃ a, x = .ok a ∧ f a = .ok b := by
  cases x with
  | error e => simp
  | ok a => simp

/-- `Result::ok`. -/
theorem toOption_eq_some {x : Eval α} {a : α} : x.toOption = some a ↔ x = .ok a := by
  cases x with
  | error e => simp [Except.toOption]
  | ok b => simp [Except.toOption]

@[simp] theorem returns_ok (a : α) : Returns (.ok a : Eval α) := ⟨a, rfl⟩

@[simp] theorem not_returns_error (e : Fault) : ¬ Returns (.error e : Eval α) := by
  rintro ⟨a, h⟩
  cases h

/-- A call that is followed by one that returns. -/
theorem returns_bind_iff {x : Eval α} {f : α → Eval β} (hf : ∀ a, x = .ok a → Returns (f a)) :
    Returns (x >>= f) ↔ Returns x := by
  cases x with
  | error fault => exact iff_of_false (not_returns_error _) (not_returns_error _)
  | ok a => exact iff_of_true (hf a rfl) (returns_ok a)

instance : ∀ x : Eval α, Decidable (Returns x)
  | .ok a => .isTrue (returns_ok a)
  | .error fault => .isFalse (not_returns_error fault)

/-- A loop that calls `f` on every element returns when every call does. -/
theorem mapM_eq_ok_iff {α : Type v} {f : α → Eval β} {l : List α} {l' : List β} :
    l.mapM f = .ok l' ↔ List.Forall₂ (fun a b => f a = .ok b) l l' := by
  induction l generalizing l' with
  | nil =>
      rw [List.mapM_nil, List.forall₂_nil_left_iff]
      exact ⟨fun h => (Except.ok.inj h).symm, fun h => by rw [h]; rfl⟩
  | cons a rest ih =>
      rw [List.mapM_cons, List.forall₂_cons_left_iff, bind_eq_ok]
      constructor
      · rintro ⟨b, hb, h⟩
        obtain ⟨bs, hbs, h⟩ := bind_eq_ok.mp h
        exact ⟨b, bs, hb, ih.mp hbs, (Except.ok.inj h).symm⟩
      · rintro ⟨b, bs, hb, hbs, rfl⟩
        exact ⟨b, hb, bind_eq_ok.mpr ⟨bs, ih.mpr hbs, rfl⟩⟩

theorem mem_of_mapM_eq_ok {f : α → Eval β} {l : List α} {l' : List β} (h : l.mapM f = .ok l')
    {b : β} : b ∈ l' ↔ ∃ a ∈ l, f a = .ok b := by
  have hall := mapM_eq_ok_iff.mp h
  clear h
  induction hall with
  | nil => simp
  | cons hab _ ih =>
      rw [List.mem_cons, List.exists_mem_cons_iff, hab, Except.ok.injEq]
      exact or_congr eq_comm ih

theorem map_eq_of_mapM_eq_ok {γ : Type v} {f : α → Eval β} {l : List α} {l' : List β}
    {g : β → γ} {g' : α → γ} (hg : ∀ a b, f a = .ok b → g b = g' a) (h : l.mapM f = .ok l') :
    l'.map g = l.map g' := by
  have hall := mapM_eq_ok_iff.mp h
  clear h
  induction hall with
  | nil => rfl
  | cons hab _ ih => rw [List.map_cons, List.map_cons, hg _ _ hab, ih]

/-- A loop whose every step returns. -/
theorem foldlM_eq_ok {σ : Type u} {f : σ → α → Eval σ} {g : σ → α → σ} {l : List α}
    (h : ∀ a ∈ l, ∀ s, f s a = .ok (g s a)) (s : σ) : l.foldlM f s = .ok (l.foldl g s) := by
  induction l generalizing s with
  | nil => rfl
  | cons a rest ih =>
      rw [List.foldlM_cons, h a (List.mem_cons_self ..), ok_bind, List.foldl_cons]
      exact ih (fun b hb => h b (List.mem_cons_of_mem _ hb)) _

/-- A loop whose steps call `g` returns when every call does. -/
theorem foldlM_returns_iff {σ : Type u} {f : σ → α → Eval σ} {g : α → Eval β}
    {h : σ → α → β → σ} (hf : ∀ s a, f s a = g a >>= fun b => .ok (h s a b)) (l : List α)
    (s : σ) : Returns (l.foldlM f s) ↔ ∀ a ∈ l, Returns (g a) := by
  induction l generalizing s with
  | nil => exact iff_of_true (returns_ok s) (List.forall_mem_nil _)
  | cons a rest ih =>
      rw [List.foldlM_cons, hf, List.forall_mem_cons]
      cases g a with
      | error fault =>
          exact iff_of_false (not_returns_error fault) fun hg => not_returns_error fault hg.1
      | ok b =>
          rw [ok_bind, ok_bind, ih]
          exact ⟨fun hrest => ⟨returns_ok b, hrest⟩, fun hg => hg.2⟩

theorem mapM_returns_iff {f : α → Eval β} {l : List α} :
    Returns (l.mapM f) ↔ ∀ a ∈ l, Returns (f a) := by
  induction l with
  | nil => exact ⟨fun _ a ha => by simp at ha, fun _ => ⟨[], rfl⟩⟩
  | cons a rest ih =>
      rw [List.forall_mem_cons, ← ih]
      constructor
      · rintro ⟨l', h⟩
        obtain ⟨b, bs, hb, hbs, -⟩ := List.forall₂_cons_left_iff.mp (mapM_eq_ok_iff.mp h)
        exact ⟨⟨b, hb⟩, ⟨bs, mapM_eq_ok_iff.mpr hbs⟩⟩
      · rintro ⟨⟨b, hb⟩, ⟨bs, hbs⟩⟩
        exact ⟨b :: bs, mapM_eq_ok_iff.mpr (.cons hb (mapM_eq_ok_iff.mp hbs))⟩

end Eval

end Mum.Library
