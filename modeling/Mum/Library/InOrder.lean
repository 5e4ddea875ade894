import Mathlib.Data.List.Forall2

/-!
# Targets that are resolved in order

A loop resolves a list of targets one after the other and adds what each of them
means to an accumulator; the first target that means an error ends it.  What a
target means is a relation, so that it may be left open: a loop need not know
anything about the targets behind the one that ends it.

`Loop` is what a loop has to show, one equation for each way in which an iteration may go;
`run_of_allMean` and `run_of_firstError` say what it comes to.
-/

namespace Mum.Library.InOrder

universe u v w x y

variable {T : Type u} {A : Type v} {E : Type w} {S : Type x} {R : Type y}
  {means : T → Except E A → Prop}

/-- What all targets mean. -/
def AllMean (means : T → Except E A → Prop) : List T → List A → Prop :=
  List.Forall₂ fun target a => means target (.ok a)

/-- The error of the first target that means one. -/
def FirstError (means : T → Except E A → Prop) (targets : List T) (error : E) : Prop :=
  ∃ before target after, targets = before ++ target :: after ∧
    (∀ earlier ∈ before, ∃ a, means earlier (.ok a)) ∧ means target (.error error)

theorem FirstError.cons {target : T} {a : A} {rest : List T} {error : E}
    (htarget : means target (.ok a)) (hrest : FirstError means rest error) :
    FirstError means (target :: rest) error := by
  obtain ⟨before, last, after, rfl, hbefore, hlast⟩ := hrest
  exact ⟨target :: before, last, after, rfl,
    List.forall_mem_cons.mpr ⟨⟨a, htarget⟩, hbefore⟩, hlast⟩

theorem AllMean.exists_of_mem {targets : List T} {as : List A} (has : AllMean means targets as)
    {target : T} (htarget : target ∈ targets) : ∃ a, means target (.ok a) := by
  induction has with
  | nil => exact absurd htarget List.not_mem_nil
  | cons hfirst _ ih =>
      rcases List.mem_cons.mp htarget with rfl | hrest
      · exact ⟨_, hfirst⟩
      · exact ih hrest

/-- If every target means something, all mean values or there is a first error. -/
theorem allMean_or_firstError {targets : List T}
    (hmeans : ∀ target ∈ targets, ∃ result, means target result) :
    (∃ as, AllMean means targets as) ∨ ∃ error, FirstError means targets error := by
  induction targets with
  | nil => exact Or.inl ⟨[], .nil⟩
  | cons target rest ih =>
      obtain ⟨⟨result, htarget⟩, hrest⟩ := List.forall_mem_cons.mp hmeans
      cases result with
      | error error =>
          exact Or.inr ⟨error, [], target, rest, rfl, List.forall_mem_nil _, htarget⟩
      | ok a =>
          rcases ih hrest with ⟨as, has⟩ | ⟨error, herror⟩
          · exact Or.inl ⟨a :: as, .cons htarget has⟩
          · exact Or.inr ⟨error, herror.cons htarget⟩

/-! ## Loops -/

/-- `run` works through the targets: it adds what a target means with `push`,
answers `failed` at the first error and `done` at the end. -/
structure Loop (means : T → Except E A → Prop) (push : S → T → A → S)
    (run : S → List T → R) (done : S → R) (failed : E → R) : Prop where
  nil : ∀ s, run s [] = done s
  ok : ∀ s target a rest, means target (.ok a) →
    run s (target :: rest) = run (push s target a) rest
  error : ∀ s target error rest, means target (.error error) →
    run s (target :: rest) = failed error

def pushAll (push : S → T → A → S) : S → List T → List A → S
  | s, target :: targets, a :: as => pushAll push (push s target a) targets as
  | s, _, _ => s

namespace Loop

variable {push : S → T → A → S} {run : S → List T → R} {done : S → R} {failed : E → R}

theorem run_of_allMean (hloop : Loop means push run done failed) {targets : List T}
    {as : List A} (has : AllMean means targets as) (s : S) :
    run s targets = done (pushAll push s targets as) := by
  induction has generalizing s with
  | nil => exact hloop.nil s
  | @cons target a rest as htarget _ ih => rw [hloop.ok s target a rest htarget, ih, pushAll]

theorem run_of_firstError (hloop : Loop means push run done failed) {targets : List T}
    {error : E} (herror : FirstError means targets error) (s : S) :
    run s targets = failed error := by
  obtain ⟨before, target, after, rfl, hbefore, htarget⟩ := herror
  induction before generalizing s with
  | nil => exact hloop.error s target error after htarget
  | cons first before ih =>
      obtain ⟨⟨a, hfirst⟩, hbefore⟩ := List.forall_mem_cons.mp hbefore
      rw [List.cons_append, hloop.ok s first a _ hfirst]
      exact ih (push s first a) hbefore

/-- How the loop ends if every target means something. -/
theorem run_cases (hloop : Loop means push run done failed) {targets : List T}
    (hmeans : ∀ target ∈ targets, ∃ result, means target result) (s : S) :
    (∃ error, FirstError means targets error ∧ run s targets = failed error) ∨
      ∃ as, AllMean means targets as ∧ run s targets = done (pushAll push s targets as) := by
  rcases allMean_or_firstError hmeans with ⟨as, has⟩ | ⟨error, herror⟩
  · exact Or.inr ⟨as, has, hloop.run_of_allMean has s⟩
  · exact Or.inl ⟨error, herror, hloop.run_of_firstError herror s⟩

end Loop

/-! ## Values by kind of target -/

/-- The values of the targets that are selected. -/
def valuesWhere (select : T → Bool) (targets : List T) (as : List A) : List A :=
  ((targets.zip as).filter fun pair => select pair.1).map Prod.snd

theorem valuesWhere_cons (select : T → Bool) (target : T) (targets : List T) (a : A)
    (as : List A) :
    valuesWhere select (target :: targets) (a :: as) =
      (if select target then [a] else []) ++ valuesWhere select targets as := by
  unfold valuesWhere
  rw [List.zip_cons_cons, List.filter_cons]
  cases select target with
  | true => rfl
  | false => rfl

end Mum.Library.InOrder
