import Mathlib.Data.List.Induction
import Mum.Library.HashMap

/-!
# Stores that are built from messages

A store keeps a value per key.  A message for a key that is not there creates
its value, a message for one that is there updates it, and keys can be deleted.

What a store holds under a key depends on few of the operations: on the messages
for the key since it was last deleted (`since`), and, if it never was, on what
was there before.  A field that messages carry or leave alone is the one that
was carried last (`lastCarried`).

`lookup_applyAll` is the fact about the whole; from it follow the congruence for stores that
get the same operations on a key (`lookup_applyAll_congr`), and what a field is after a list
of messages (`value_none_field`, `value_some_field`).
-/

namespace Mum.Library.KeyedStore

universe u v w

/-- What can be done to a store. -/
inductive Op (K : Type u) (M : Type w)
  | put (k : K) (m : M)
  | del (k : K)
deriving DecidableEq, Repr

/-- What a message does to a value. -/
structure Policy (M : Type w) (V : Type v) where
  create : M → V
  update : V → M → V

variable {K : Type u} {V : Type v} {M : Type w} [DecidableEq K] (policy : Policy M V)

/-- One operation. -/
def apply (store : HashMap K V) : Op K M → HashMap K V
  | .put k m => store.upsert k (policy.create m) (policy.update · m)
  | .del k => store.erase k

def applyAll (store : HashMap K V) (ops : List (Op K M)) : HashMap K V :=
  ops.foldl (apply policy) store

/-- Packets that are operations, or nothing at all. -/
theorem foldl_eq_applyAll {P : Type*} {step : HashMap K V → P → HashMap K V}
    {op : P → Option (Op K M)}
    (hstep : ∀ store packet, step store packet = (op packet).elim store (apply policy store))
    (store : HashMap K V) (packets : List P) :
    packets.foldl step store = applyAll policy store (packets.filterMap op) := by
  unfold applyAll
  induction packets generalizing store with
  | nil => rfl
  | cons packet rest ih =>
      rw [List.foldl_cons, ih, hstep, List.filterMap_cons]
      cases op packet with
      | none => rfl
      | some _ => rfl

/-! ## The operations that count for a key -/

/-- One of the operations deletes the key. -/
def deleted (k : K) : List (Op K M) → Bool
  | [] => false
  | .put _ _ :: rest => deleted k rest
  | .del k' :: rest => k' = k || deleted k rest

/-- The messages for a key since it was last deleted. -/
def since (k : K) : List (Op K M) → List M
  | [] => []
  | .put k' m :: rest => if k' = k && !deleted k rest then m :: since k rest else since k rest
  | .del _ :: rest => since k rest

omit [DecidableEq K] in
/-- The value that messages leave. -/
def value (policy : Policy M V) : Option V → List M → Option V
  | v, [] => v
  | v, m :: rest => value policy (some (v.elim (policy.create m) (policy.update · m))) rest

/-- What the operations leave under a key. -/
theorem lookup_applyAll (store : HashMap K V) (ops : List (Op K M)) (k : K) :
    (applyAll policy store ops).lookup k =
      value policy (if deleted k ops then none else store.lookup k) (since k ops) := by
  unfold applyAll
  induction ops generalizing store with
  | nil => rfl
  | cons op rest ih =>
      rw [List.foldl_cons, ih]
      cases op with
      | put k' m =>
          show value policy (if deleted k rest then none else
              (store.upsert k' (policy.create m) (policy.update · m)).lookup k) (since k rest) =
            value policy (if deleted k rest then none else store.lookup k)
              (if k' = k && !deleted k rest then m :: since k rest else since k rest)
          rw [HashMap.lookup_upsert]
          by_cases hk : k' = k
          · subst hk
            cases deleted k' rest <;> simp [value]
          · simp [hk, Ne.symm hk]
      | del k' =>
          show value policy (if deleted k rest then none else (store.erase k').lookup k)
              (since k rest) =
            value policy (if k' = k || deleted k rest then none else store.lookup k) (since k rest)
          by_cases hk : k' = k
          · subst hk
            simp
          · have hlookup : AList.lookup k (AList.erase k' store) = store.lookup k :=
              AList.lookup_erase_ne (Ne.symm hk)
            simp [hk, hlookup]

/-- Where the messages for a key since its last deletion stand. -/
theorem mem_since_iff (ops : List (Op K M)) (k : K) (m : M) :
    m ∈ since k ops ↔
      ∃ before after, ops = before ++ .put k m :: after ∧ deleted k after = false := by
  induction ops with
  | nil => simp [since]
  | cons op rest ih =>
      have hlater : (∃ before after, rest = before ++ .put k m :: after ∧
          deleted k after = false) ↔
          ∃ before after, before ≠ [] ∧ op :: rest = before ++ .put k m :: after ∧
            deleted k after = false := by
        constructor
        · rintro ⟨before, after, rfl, hafter⟩
          exact ⟨op :: before, after, List.cons_ne_nil op before, rfl, hafter⟩
        · rintro ⟨before, after, hne, hops, hafter⟩
          obtain ⟨first, before, rfl⟩ := List.exists_cons_of_ne_nil hne
          exact ⟨before, after, (List.cons.inj hops).2, hafter⟩
      have hsplit : (∃ before after, op :: rest = before ++ .put k m :: after ∧
          deleted k after = false) ↔
          (op = .put k m ∧ deleted k rest = false) ∨ m ∈ since k rest := by
        rw [ih, hlater]
        constructor
        · rintro ⟨before, after, hops, hafter⟩
          by_cases hne : before = []
          · subst hne
            obtain ⟨rfl, rfl⟩ := List.cons.inj hops
            exact Or.inl ⟨rfl, hafter⟩
          · exact Or.inr ⟨before, after, hne, hops, hafter⟩
        · rintro (⟨rfl, hafter⟩ | ⟨before, after, -, hops, hafter⟩)
          · exact ⟨[], rest, rfl, hafter⟩
          · exact ⟨before, after, hops, hafter⟩
      rw [hsplit]
      cases op with
      | put k' m' =>
          rw [since]
          cases hrest : deleted k rest with
          | true => simp
          | false =>
              by_cases hk : k' = k
              · simp [hk, eq_comm]
              · simp [hk]
      | del k' => simp [since]

/-! ## Operations on different keys -/

def Op.key : Op K M → K
  | put k _ => k
  | del k => k

omit [DecidableEq K] in
@[simp] theorem Op.key_put (k : K) (m : M) : (put k m).key = k := rfl

omit [DecidableEq K] in
@[simp] theorem Op.key_del (k : K) : (del k : Op K M).key = k := rfl

/-- The operations on a key. -/
def opsOn (k : K) (ops : List (Op K M)) : List (Op K M) :=
  ops.filter fun op => op.key = k

theorem opsOn_cons (k : K) (op : Op K M) (rest : List (Op K M)) :
    opsOn k (op :: rest) = if op.key = k then op :: opsOn k rest else opsOn k rest := by
  simp [opsOn, List.filter_cons]

theorem deleted_opsOn (k : K) (ops : List (Op K M)) : deleted k (opsOn k ops) = deleted k ops := by
  induction ops with
  | nil => rfl
  | cons op rest ih =>
      rw [opsOn_cons]
      cases op with
      | put k' m => by_cases hk : k' = k <;> simp [hk, deleted, ih]
      | del k' => by_cases hk : k' = k <;> simp [hk, deleted, ih]

theorem since_opsOn (k : K) (ops : List (Op K M)) : since k (opsOn k ops) = since k ops := by
  induction ops with
  | nil => rfl
  | cons op rest ih =>
      rw [opsOn_cons]
      cases op with
      | put k' m => by_cases hk : k' = k <;> simp [hk, since, deleted_opsOn, ih]
      | del k' => by_cases hk : k' = k <;> simp [hk, since, ih]

/-- Only the operations on a key count for it. -/
theorem lookup_applyAll_congr {store store' : HashMap K V} {ops ops' : List (Op K M)} {k : K}
    (hstore : store.lookup k = store'.lookup k) (hops : opsOn k ops = opsOn k ops') :
    (applyAll policy store ops).lookup k = (applyAll policy store' ops').lookup k := by
  rw [lookup_applyAll, lookup_applyAll, ← deleted_opsOn k ops, ← deleted_opsOn k ops',
    ← since_opsOn k ops, ← since_opsOn k ops', hstore, hops]

/-! ## Deletions alone -/

def Op.isDel : Op K M → Bool
  | put _ _ => false
  | del _ => true

theorem since_dels (ops : List (Op K M)) (k : K) : since k (ops.filter Op.isDel) = [] := by
  induction ops with
  | nil => rfl
  | cons op rest ih =>
      cases op with
      | put k' m => exact ih
      | del k' => exact ih

theorem deleted_dels (ops : List (Op K M)) (k : K) :
    deleted k (ops.filter Op.isDel) = deleted k ops := by
  induction ops with
  | nil => rfl
  | cons op rest ih =>
      cases op with
      | put k' m => exact ih
      | del k' => exact congrArg (k' = k || ·) ih

/-! ## Values -/

theorem value_none_eq_none {ms : List M} : value policy none ms = none ↔ ms = [] := by
  have hsome : ∀ ms v, value policy (some v) ms ≠ none := by
    intro ms
    induction ms with
    | nil => exact fun v => Option.some_ne_none v
    | cons m rest ih => exact fun v => ih _
  cases ms with
  | nil => simp [value]
  | cons m rest => simpa [value] using hsome rest _

omit [DecidableEq K] in
theorem value_concat (v : Option V) (ms : List M) (m : M) :
    value policy v (ms ++ [m]) =
      some ((value policy v ms).elim (policy.create m) (policy.update · m)) := by
  induction ms generalizing v with
  | nil => rfl
  | cons m' rest ih => exact ih _

omit [DecidableEq K] in
/-- A value that can be read off all messages at once. -/
theorem value_none_of_concat {ofAll : List M → V} (hcreate : ∀ m, ofAll [m] = policy.create m)
    (hupdate : ∀ ms m, ofAll (ms ++ [m]) = policy.update (ofAll ms) m) (ms : List M) :
    value policy none ms = if ms = [] then none else some (ofAll ms) := by
  induction ms using List.reverseRecOn with
  | nil => rfl
  | append_singleton ms m ih =>
      have hne : ms ++ [m] ≠ [] := List.concat_ne_nil m ms
      rw [value_concat, ih, if_neg hne]
      by_cases hms : ms = []
      · subst hms
        rw [if_pos rfl, Option.elim_none, List.nil_append, hcreate]
      · rw [if_neg hms, Option.elim_some, hupdate]

/-! ## Fields that messages carry -/

variable {A : Type v} {field : V → A} {carried : M → Option A} {initial : A} {policy}

/-- The field that was carried last. -/
def lastCarried (carried : M → Option A) : List M → Option A
  | [] => none
  | m :: rest => (lastCarried carried rest).or (carried m)

theorem lastCarried_concat (carried : M → Option A) (ms : List M) (m : M) :
    lastCarried carried (ms ++ [m]) = (carried m).or (lastCarried carried ms) := by
  induction ms with
  | nil => cases h : carried m <;> simp [lastCarried, h]
  | cons m' rest ih => rw [List.cons_append, lastCarried, lastCarried, ih, Option.or_assoc]

theorem lastCarried_map {B : Type v} (g : A → B) (ms : List M) :
    lastCarried (fun m => (carried m).map g) ms = (lastCarried carried ms).map g := by
  induction ms with
  | nil => rfl
  | cons m rest ih =>
      rw [lastCarried, lastCarried, ih]
      cases lastCarried carried rest <;> rfl

omit [DecidableEq K] in
/-- A value that was there keeps the field unless it was carried. -/
theorem value_some_field (hupdate : ∀ v m, field (policy.update v m) = (carried m).getD (field v))
    (v : V) (ms : List M) :
    ∃ v', value policy (some v) ms = some v' ∧
      field v' = (lastCarried carried ms).getD (field v) := by
  induction ms generalizing v with
  | nil => exact ⟨v, rfl, rfl⟩
  | cons m rest ih =>
      obtain ⟨v', hv', hfield⟩ := ih (policy.update v m)
      refine ⟨v', hv', ?_⟩
      rw [hfield, hupdate, lastCarried]
      cases lastCarried carried rest <;> rfl

omit [DecidableEq K] in
/-- A value that was created has the field that was carried, or the initial one. -/
theorem value_none_field (hcreate : ∀ m, field (policy.create m) = (carried m).getD initial)
    (hupdate : ∀ v m, field (policy.update v m) = (carried m).getD (field v)) (ms : List M) :
    (value policy none ms).map field =
      if ms = [] then none else some ((lastCarried carried ms).getD initial) := by
  cases ms with
  | nil => rfl
  | cons m rest =>
      obtain ⟨v, hv, hfield⟩ := value_some_field hupdate (policy.create m) rest
      rw [value, Option.elim_none, hv, Option.map_some, hfield, hcreate, lastCarried]
      cases lastCarried carried rest <;> rfl

end Mum.Library.KeyedStore
