/-!
# Runs of a labelled transition system

A trace lists the labels of a run with the states they lead to.  `AllSteps`
states a property of every step of a trace, and `Run.allSteps` is the rule to
prove one from another: an invariant carries over each step that meets the
assumption.  `AllAttempts` is about lists of labels instead, for steps that may
fail.  `observed` adds an observer, for properties of what has happened so far.

An equivalence of two properties of runs is proved step by step (`Run.allSteps_iff`): the
invariant need only be kept by steps at which the properties hold.  `CanReach` is for what
some run may come to; it is composed of pieces (`CanReach.trans`), and refuted by an invariant
(`CanReach.exists_of_inv`).
-/

namespace Mum.Library

universe u v

variable {S : Type u} {L : Type v} {step P Q R : S → L → S → Prop} {s s' : S} {l : L}
  {trace : List (L × S)}

/-- A run from a state. -/
inductive Run (step : S → L → S → Prop) : S → List (L × S) → Prop
  | nil {s : S} : Run step s []
  | cons {s s' : S} {l : L} {trace : List (L × S)} (h : step s l s') (hrest : Run step s' trace) :
      Run step s ((l, s') :: trace)

/-- Every step of the trace has the property. -/
def AllSteps (P : S → L → S → Prop) : S → List (L × S) → Prop
  | _, [] => True
  | s, (l, s') :: trace => P s l s' ∧ AllSteps P s' trace

@[simp] theorem allSteps_nil : AllSteps P s [] := trivial

@[simp] theorem allSteps_cons :
    AllSteps P s ((l, s') :: trace) ↔ P s l s' ∧ AllSteps P s' trace := Iff.rfl

/-- A run whose steps meet `P` keeps the invariant, and so has `Q` at every step. -/
theorem Run.allSteps (hrun : Run step s trace) (Inv : S → Prop) (hinv : Inv s)
    (hkeep : ∀ s l s', Inv s → step s l s' → P s l s' → Inv s' ∧ Q s l s')
    (hP : AllSteps P s trace) : AllSteps Q s trace := by
  induction hrun with
  | nil => exact trivial
  | cons h _ ih =>
      obtain ⟨hinv', hQ⟩ := hkeep _ _ _ hinv h hP.1
      exact ⟨hQ, ih hinv' hP.2⟩

/-- A property of every step that starts in an invariant. -/
theorem Run.allSteps_of_inv (hrun : Run step s trace) (Inv : S → Prop) (hinv : Inv s)
    (hkeep : ∀ s l s', Inv s → step s l s' → Inv s' ∧ Q s l s') : AllSteps Q s trace := by
  induction hrun with
  | nil => exact trivial
  | cons h _ ih =>
      obtain ⟨hinv', hQ⟩ := hkeep _ _ _ hinv h
      exact ⟨hQ, ih hinv'⟩

/-- Two properties that agree on every step that starts in the invariant, which
the steps with the properties keep. -/
theorem Run.allSteps_iff (hrun : Run step s trace) (Inv : S → Prop) (hinv : Inv s)
    (hiff : ∀ s l s', Inv s → step s l s' → (P s l s' ↔ Q s l s'))
    (hkeep : ∀ s l s', Inv s → step s l s' → P s l s' → Inv s') :
    AllSteps P s trace ↔ AllSteps Q s trace := by
  induction hrun with
  | nil => rfl
  | cons h _ ih =>
      rw [allSteps_cons, allSteps_cons]
      constructor
      · rintro ⟨hP, hrest⟩
        exact ⟨(hiff _ _ _ hinv h).mp hP, (ih (hkeep _ _ _ hinv h hP)).mp hrest⟩
      · rintro ⟨hQ, hrest⟩
        have hP := (hiff _ _ _ hinv h).mpr hQ
        exact ⟨hP, (ih (hkeep _ _ _ hinv h hP)).mpr hrest⟩

theorem AllSteps.mono (h : ∀ s l s', P s l s' → Q s l s') (hP : AllSteps P s trace) :
    AllSteps Q s trace := by
  induction trace generalizing s with
  | nil => exact trivial
  | cons entry rest ih => exact ⟨h _ _ _ hP.1, ih hP.2⟩

theorem AllSteps.and (hP : AllSteps P s trace) (hQ : AllSteps Q s trace) :
    AllSteps (fun s l s' => P s l s' ∧ Q s l s') s trace := by
  induction trace generalizing s with
  | nil => exact trivial
  | cons entry rest ih => exact ⟨⟨hP.1, hQ.1⟩, ih hP.2 hQ.2⟩

/-! ## Parts of a run -/

/-- The state that a trace leads to. -/
def final : S → List (L × S) → S
  | s, [] => s
  | _, (_, s') :: trace => final s' trace

/-- What every step keeps holds where a run ends. -/
theorem Run.inv_final (hrun : Run step s trace) (Inv : S → Prop) (hinv : Inv s)
    (hkeep : ∀ s l s', Inv s → step s l s' → Inv s') : Inv (final s trace) := by
  induction hrun with
  | nil => exact hinv
  | cons h _ ih => exact ih (hkeep _ _ _ hinv h)

/-- What the steps with a property keep. -/
theorem Run.inv_final_of_allSteps (hrun : Run step s trace) (Inv : S → Prop) (hinv : Inv s)
    (hkeep : ∀ s l s', Inv s → step s l s' → P s l s' → Inv s') (hP : AllSteps P s trace) :
    Inv (final s trace) := by
  induction hrun with
  | nil => exact hinv
  | cons h _ ih => exact ih (hkeep _ _ _ hinv h hP.1) hP.2

theorem final_append {trace' : List (L × S)} :
    final s (trace ++ trace') = final (final s trace) trace' := by
  induction trace generalizing s with
  | nil => rfl
  | cons entry rest ih => exact ih

theorem Run.append_iff {trace' : List (L × S)} :
    Run step s (trace ++ trace') ↔ Run step s trace ∧ Run step (final s trace) trace' := by
  induction trace generalizing s with
  | nil => exact ⟨fun h => ⟨.nil, h⟩, fun h => h.2⟩
  | cons entry rest ih =>
      constructor
      · intro h
        cases h with
        | cons hstep hrest => exact ⟨.cons hstep (ih.mp hrest).1, (ih.mp hrest).2⟩
      · rintro ⟨h, hrest'⟩
        cases h with
        | cons hstep hrest => exact .cons hstep (ih.mpr ⟨hrest, hrest'⟩)

theorem Run.cons_iff : Run step s ((l, s') :: trace) ↔ step s l s' ∧ Run step s' trace := by
  constructor
  · intro h
    cases h with
    | cons hstep hrest => exact ⟨hstep, hrest⟩
  · exact fun ⟨hstep, hrest⟩ => .cons hstep hrest

/-! ## What can be reached -/

/-- Some run leads to a state with the property. -/
def CanReach (step : S → L → S → Prop) (A : S → Prop) (s : S) : Prop :=
  ∃ trace, Run step s trace ∧ A (final s trace)

section CanReach

variable {A B : S → Prop}

theorem CanReach.here (h : A s) : CanReach step A s := ⟨[], .nil, h⟩

theorem CanReach.cons (h : step s l s') (hrest : CanReach step A s') : CanReach step A s := by
  obtain ⟨trace, hrun, hA⟩ := hrest
  exact ⟨(l, s') :: trace, .cons h hrun, hA⟩

theorem CanReach.trans (h : CanReach step A s) (hA : ∀ s, A s → CanReach step B s) :
    CanReach step B s := by
  obtain ⟨trace, hrun, hfinal⟩ := h
  obtain ⟨more, hmore, hB⟩ := hA _ hfinal
  refine ⟨trace ++ more, Run.append_iff.mpr ⟨hrun, hmore⟩, ?_⟩
  rw [final_append]
  exact hB

/-- What every step keeps holds where the run ends. -/
theorem CanReach.and_inv (h : CanReach step A s) (Inv : S → Prop) (hinv : Inv s)
    (hkeep : ∀ s l s', Inv s → step s l s' → Inv s') :
    CanReach step (fun s' => Inv s' ∧ A s') s := by
  obtain ⟨trace, hrun, hA⟩ := h
  exact ⟨trace, hrun, hrun.inv_final Inv hinv hkeep, hA⟩

/-- Another transition relation that has the steps. -/
theorem CanReach.of_step {step' : S → L → S → Prop} (h : CanReach step A s)
    (hstep : ∀ s l s', step s l s' → step' s l s') : CanReach step' A s := by
  obtain ⟨trace, hrun, hA⟩ := h
  refine ⟨trace, ?_, hA⟩
  clear hA
  induction hrun with
  | nil => exact .nil
  | cons h _ ih => exact .cons (hstep _ _ _ h) ih

/-- What every step keeps is not left. -/
theorem CanReach.exists_of_inv (h : CanReach step A s) (Inv : S → Prop) (hinv : Inv s)
    (hkeep : ∀ s l s', Inv s → step s l s' → Inv s') : ∃ s', Inv s' ∧ A s' := by
  obtain ⟨trace, hrun, hboth⟩ := h.and_inv Inv hinv hkeep
  exact ⟨_, hboth⟩

end CanReach

/-! ## Attempts -/

/-- Every label of the list that is attempted has the property, also one that no
step follows; nothing is attempted after it. -/
def AllAttempts (next : S → L → Option S) (A : S → L → Prop) : S → List L → Prop
  | _, [] => True
  | s, l :: rest => A s l ∧ (next s l).elim True fun s' => AllAttempts next A s' rest

section Attempts

variable {next : S → L → Option S} {A B : S → L → Prop} {labels : List L}

/-- A property of every attempt that starts in an invariant of the steps. -/
theorem allAttempts_of_inv (Inv : S → Prop) (hinv : Inv s) (hA : ∀ s l, Inv s → A s l)
    (hkeep : ∀ s l s', Inv s → next s l = some s' → Inv s') : AllAttempts next A s labels := by
  induction labels generalizing s with
  | nil => exact trivial
  | cons l rest ih =>
      refine ⟨hA s l hinv, ?_⟩
      cases hnext : next s l with
      | none => exact trivial
      | some s' => exact ih (hkeep s l s' hinv hnext)

/-- Two properties that agree on every attempt that starts in an invariant of the
steps. -/
theorem allAttempts_iff (Inv : S → Prop) (hinv : Inv s)
    (hiff : ∀ s l, Inv s → (A s l ↔ B s l))
    (hkeep : ∀ s l s', Inv s → next s l = some s' → Inv s') :
    AllAttempts next A s labels ↔ AllAttempts next B s labels := by
  induction labels generalizing s with
  | nil => rfl
  | cons l rest ih =>
      refine and_congr (hiff s l hinv) ?_
      cases hnext : next s l with
      | none => rfl
      | some s' => exact ih (hkeep s l s' hinv hnext)

/-- A property of every attempt that the other ensures, along with an invariant. -/
theorem AllAttempts.of_inv (Inv : S → Prop) (hA : AllAttempts next A s labels) (hinv : Inv s)
    (h : ∀ s l, Inv s → A s l → B s l)
    (hkeep : ∀ s l s', Inv s → A s l → next s l = some s' → Inv s') :
    AllAttempts next B s labels := by
  induction labels generalizing s with
  | nil => exact trivial
  | cons l rest ih =>
      obtain ⟨hfirst, hrest⟩ := hA
      refine ⟨h s l hinv hfirst, ?_⟩
      cases hnext : next s l with
      | none => exact trivial
      | some s' =>
          rw [hnext] at hrest
          exact ih hrest (hkeep s l s' hinv hfirst hnext)

theorem AllAttempts.mono (h : ∀ s l, A s l → B s l) (hA : AllAttempts next A s labels) :
    AllAttempts next B s labels := by
  induction labels generalizing s with
  | nil => exact trivial
  | cons l rest ih =>
      refine ⟨h s l hA.1, ?_⟩
      have hrest := hA.2
      cases hnext : next s l with
      | none => exact trivial
      | some s' =>
          rw [hnext] at hrest
          exact ih hrest

/-- Every attempt has the property, whatever labels come in whatever order. -/
def Always (next : S → L → Option S) (A : S → L → Prop) (s : S) : Prop :=
  ∀ labels, AllAttempts next A s labels

theorem Always.attempt (h : Always next A s) (l : L) : A s l := (h [l]).1

theorem Always.after (h : Always next A s) (hnext : next s l = some s') : Always next A s' := by
  intro labels
  have hlabels := (h (l :: labels)).2
  rw [hnext] at hlabels
  exact hlabels

instance decidableAllAttempts [∀ s l, Decidable (A s l)] :
    ∀ (s : S) (labels : List L), Decidable (AllAttempts next A s labels)
  | _, [] => .isTrue trivial
  | s, l :: rest =>
      have : Decidable ((next s l).elim True fun s' => AllAttempts next A s' rest) :=
        match next s l with
        | none => .isTrue trivial
        | some s' => decidableAllAttempts s' rest
      inferInstanceAs (Decidable (_ ∧ _))

end Attempts

/-! ## Observers -/

section Observers

variable {O : Type u} {next : S → L → Option S} {note : O → S → L → S → O} {x x' : S × O}

/-- A system together with somebody who takes notes of its steps. -/
def observed (next : S → L → Option S) (note : O → S → L → S → O) (x : S × O) (l : L) :
    Option (S × O) :=
  (next x.1 l).map fun s' => (s', note x.2 x.1 l s')

theorem observed_eq_some :
    observed next note x l = some x' ↔ next x.1 l = some x'.1 ∧ x'.2 = note x.2 x.1 l x'.1 := by
  unfold observed
  rw [Option.map_eq_some_iff]
  constructor
  · rintro ⟨s', hnext, rfl⟩
    exact ⟨hnext, rfl⟩
  · rintro ⟨hnext, hnote⟩
    exact ⟨x'.1, hnext, Prod.ext rfl hnote.symm⟩

/-- An observer changes nothing. -/
theorem allAttempts_observed {A : S → L → Prop} {labels : List L} {s : S} {o : O} :
    AllAttempts (observed next note) (fun x l => A x.1 l) (s, o) labels ↔
      AllAttempts next A s labels := by
  induction labels generalizing s o with
  | nil => rfl
  | cons l rest ih =>
      refine and_congr Iff.rfl ?_
      unfold observed
      cases next s l with
      | none => rfl
      | some s' => exact ih

end Observers

/-! ## Computed runs -/

instance decidableAllSteps [∀ s l s', Decidable (P s l s')] :
    ∀ (s : S) (trace : List (L × S)), Decidable (AllSteps P s trace)
  | _, [] => .isTrue trivial
  | s, (l, s') :: trace =>
      have := decidableAllSteps s' trace
      inferInstanceAs (Decidable (P s l s' ∧ AllSteps P s' trace))

/-- The trace of the labels, if all of them can be followed. -/
def follow (next : S → L → Option S) : S → List L → Option (List (L × S))
  | _, [] => some []
  | s, l :: rest =>
      match next s l with
      | none => none
      | some s' => (follow next s' rest).map ((l, s') :: ·)

theorem run_follow {next : S → L → Option S} (hstep : ∀ s l s', next s l = some s' → step s l s')
    {labels : List L} (h : follow next s labels = some trace) : Run step s trace := by
  induction labels generalizing s trace with
  | nil =>
      cases h
      exact .nil
  | cons l rest ih =>
      rw [follow] at h
      cases hnext : next s l with
      | none => simp [hnext] at h
      | some s' =>
          simp only [hnext] at h
          obtain ⟨trace', htrace', rfl⟩ := Option.map_eq_some_iff.mp h
          exact .cons (hstep _ _ _ hnext) (ih htrace')

end Mum.Library
