import Mum.Library.Eval
import Mum.Library.HashMap

/-!
# Handlers that wait for events

Handlers are kept by the event they wait for, in the order in which they were
registered.  When an event is resolved, its handlers are called one after the
other, and those that ask for it are kept.

A handler is a value of any type `H` and an effect on a world `W`.  To follow
handlers through a run they are numbered; `Call` is one call of a handler, and
`Lived` says that a handler is called at every event it waits for, until it asks
not to be.
-/

namespace Mum.Library

open Eval

universe u

/-- The handlers of each event. -/
abbrev Handlers (E H : Type) := HashMap E (List H)

namespace Handlers

variable {E H W : Type}

/-- Calls handlers in order and collects those that want to be kept. -/
def callAll (call : H → W → Eval (Bool × W)) : List H → W → Eval (List H × W)
  | [], w => .ok ([], w)
  | h :: rest, w => do
      let (keep, w) ← call h w
      let (kept, w) ← callAll call rest w
      .ok (if keep then h :: kept else kept, w)

/-- What every call keeps is the same after all of them. -/
theorem callAll_keeps {P : W → Prop} {call : H → W → Eval (Bool × W)}
    (hcall : ∀ h w keep w', call h w = .ok (keep, w') → P w → P w') {handlers kept : List H}
    {w w' : W} (h : callAll call handlers w = .ok (kept, w')) (hw : P w) : P w' := by
  induction handlers generalizing kept w with
  | nil =>
      cases h
      exact hw
  | cons handler rest ih =>
      obtain ⟨⟨keep, w₁⟩, hfirst, h₁⟩ := bind_eq_ok.mp h
      obtain ⟨⟨kept', w₂⟩, hrest, h₂⟩ := bind_eq_ok.mp h₁
      cases h₂
      exact ih hrest (hcall _ _ _ _ hfirst hw)

/-- All handlers are called when every call returns. -/
theorem callAll_returns {call : H → W → Eval (Bool × W)} (hcall : ∀ h w, Returns (call h w))
    (handlers : List H) (w : W) : Returns (callAll call handlers w) := by
  induction handlers generalizing w with
  | nil => exact returns_ok _
  | cons handler rest ih =>
      obtain ⟨⟨keep, w₁⟩, hfirst⟩ := hcall handler w
      obtain ⟨⟨kept, w₂⟩, hrest⟩ := ih w₁
      simp only [callAll, hfirst, ok_bind, hrest]
      exact returns_ok _

variable [DecidableEq E]

/-- The handlers of an event, in the order in which they were registered. -/
def of (handlers : Handlers E H) (e : E) : List H := (handlers.lookup e).getD []

def register (handlers : Handlers E H) (e : E) (h : H) : Handlers E H :=
  handlers.upsert e [h] (· ++ [h])

/-- Calls the handlers of an event and drops those that do not want to be kept. -/
def resolve (call : H → W → Eval (Bool × W)) (handlers : Handlers E H) (e : E) (w : W) :
    Eval (Handlers E H × W) := do
  let (kept, w) ← callAll call (handlers.of e) w
  .ok (handlers.replace e kept, w)

@[simp] theorem of_empty (e : E) : (∅ : Handlers E H).of e = [] := rfl

theorem of_register (handlers : Handlers E H) (e e' : E) (h : H) :
    (handlers.register e h).of e' =
      if e' = e then handlers.of e ++ [h] else handlers.of e' := by
  unfold of register
  rw [HashMap.lookup_upsert]
  by_cases he : e' = e
  · rw [if_pos he, if_pos he]
    cases handlers.lookup e <;> rfl
  · rw [if_neg he, if_neg he]

/-- Handlers are replaced by some of them; who has none gets none. -/
theorem of_replace {handlers : Handlers E H} {e : E} {kept : List H}
    (hkept : handlers.of e = [] → kept = []) (e' : E) :
    of (handlers.replace e kept) e' = if e' = e then kept else handlers.of e' := by
  unfold of at *
  rw [HashMap.lookup_replace]
  by_cases he : e' = e
  · rw [if_pos he, if_pos he]
    cases hlookup : handlers.lookup e with
    | none => rw [hlookup] at hkept; simp [hkept]
    | some old => rfl
  · rw [if_neg he, if_neg he]

/-! ## Numbered handlers -/

/-- One call of a handler: when it was, which handler it was, and whether the
handler wants to be kept. -/
structure Call where
  time : ℕ
  handler : ℕ
  keep : Bool
deriving DecidableEq, Repr

/-- The calls of one handler in a log. -/
def callsOf (log : List Call) (handler : ℕ) : List Call :=
  log.filter fun call => call.handler = handler

theorem callsOf_append (log log' : List Call) (handler : ℕ) :
    callsOf (log ++ log') handler = callsOf log handler ++ callsOf log' handler :=
  List.filter_append ..

theorem callsOf_eq_nil {log : List Call} {handler : ℕ} (h : handler ∉ log.map Call.handler) :
    callsOf log handler = [] := by
  refine List.filter_eq_nil_iff.mpr fun call hcall => ?_
  intro heq
  exact h (List.mem_map.mpr ⟨call, hcall, of_decide_eq_true heq⟩)

/-- The one call of a handler, when no handler is called twice. -/
theorem callsOf_eq_singleton {log : List Call} (hnodup : (log.map Call.handler).Nodup)
    {call : Call} (hcall : call ∈ log) : callsOf log call.handler = [call] := by
  induction log with
  | nil => cases hcall
  | cons call' rest ih =>
      obtain ⟨hnotin, hrest⟩ := List.nodup_cons.mp hnodup
      rcases List.mem_cons.mp hcall with rfl | hmem
      · have hnil := callsOf_eq_nil hnotin
        unfold callsOf at hnil ⊢
        rw [List.filter_cons_of_pos (by simp), hnil]
      · have hne : call'.handler ≠ call.handler := by
          intro heq
          exact hnotin (heq ▸ List.mem_map.mpr ⟨call, hmem, rfl⟩)
        unfold callsOf at ih ⊢
        rw [List.filter_cons_of_neg (by simpa using hne)]
        exact ih hrest hmem

/-- Calls a numbered handler and logs it. -/
def logged (time : ℕ) (call : H → W → Eval (Bool × W)) (h : ℕ × H) (w : W × List Call) :
    Eval (Bool × (W × List Call)) := do
  let (keep, w') ← call h.2 w.1
  .ok (keep, (w', w.2 ++ [⟨time, h.1, keep⟩]))

/-- Every handler of the list is called once, in order, and the kept ones are those
that want to be. -/
theorem callAll_logged {time : ℕ} {call : H → W → Eval (Bool × W)} {handlers kept : List (ℕ × H)}
    {w w' : W × List Call} (h : callAll (logged time call) handlers w = .ok (kept, w')) :
    ∃ calls : List Call, w'.2 = w.2 ++ calls ∧ calls.map Call.handler = handlers.map Prod.fst ∧
      (∀ c ∈ calls, c.time = time ∧ ∃ h w w', call h w = .ok (c.keep, w')) ∧
      kept.map Prod.fst = (calls.filter Call.keep).map Call.handler := by
  induction handlers generalizing kept w with
  | nil =>
      cases h
      exact ⟨[], by simp⟩
  | cons handler rest ih =>
      obtain ⟨⟨keep, w₁⟩, hcall, h₁⟩ := bind_eq_ok.mp h
      obtain ⟨⟨kept', w₂⟩, hrest, h₂⟩ := bind_eq_ok.mp h₁
      obtain ⟨⟨keep', w₀⟩, hanswer, hlog⟩ := bind_eq_ok.mp hcall
      cases hlog
      cases h₂
      obtain ⟨calls, hw', hcalls, htime, hkept⟩ := ih hrest
      refine ⟨⟨time, handler.1, keep⟩ :: calls, by simp [hw'], by simp [hcalls], ?_, ?_⟩
      · exact List.forall_mem_cons.mpr ⟨⟨rfl, _, _, _, hanswer⟩, htime⟩
      · cases keep with
        | true => simp [hkept]
        | false => simp [hkept]

/-- The calls of a handler that waits for an event which is resolved at `times`:
it is called each time, up to and including the first time that it does not want
to be kept. -/
structure Lived (times : List ℕ) (calls : List Call) : Prop where
  times_prefix : calls.map Call.time <+: times
  kept : ∀ call ∈ calls.dropLast, call.keep
  all_times : (∀ call ∈ calls, call.keep) → calls.map Call.time = times

namespace Lived

variable {times : List ℕ} {calls : List Call}

theorem nil : Lived [] [] := ⟨List.prefix_rfl, by simp, fun _ => rfl⟩

/-- The event is resolved and calls the handler. -/
theorem called (h : Lived times calls) (hkeep : ∀ call ∈ calls, call.keep) (call : Call) :
    Lived (times ++ [call.time]) (calls ++ [call]) := by
  have htimes : (calls ++ [call]).map Call.time = times ++ [call.time] := by
    rw [List.map_append, h.all_times hkeep, List.map_singleton]
  exact ⟨htimes ▸ List.prefix_rfl, by simpa using hkeep, fun _ => htimes⟩

/-- The event is resolved after the handler was dropped. -/
theorem missed (h : Lived times calls) (hdropped : ¬ ∀ call ∈ calls, call.keep) (time : ℕ) :
    Lived (times ++ [time]) calls :=
  ⟨h.times_prefix.trans (List.prefix_append ..), h.kept, fun hkeep => absurd hkeep hdropped⟩

/-- A handler that never wants to be kept is called once, at the first time. -/
theorem eq_take_one (h : Lived times calls) (hkeep : ∀ call ∈ calls, call.keep = false) :
    calls.map Call.time = times.take 1 := by
  cases calls with
  | nil =>
      have htimes := h.all_times (by simp)
      rw [← htimes]
      rfl
  | cons call rest =>
      cases rest with
      | nil =>
          obtain ⟨after, rfl⟩ := h.times_prefix
          rfl
      | cons call' rest =>
          -- the first of two calls would have been kept
          have hkept := h.kept call (by simp)
          rw [hkeep call (by simp)] at hkept
          cases hkept

end Lived

end Handlers

end Mum.Library
