import Mathlib.Data.Set.Basic
import Mum.Library.Log

/-!
# Requests and their responses

A desk takes requests, numbered as they come in.  A request is answered when it
comes in, or waits and is answered later; some requests may get any number of
responses.  `Move` says what may happen at a desk that keeps to a protocol, and the
two invariants what follows: every response is one of its request's, and a request
that is due one response has got it, or waits.
-/

namespace Mum.Library

open Log

/-- Which responses a request may get, and whether it may get any number of them. -/
structure Protocol (C R : Type) where
  Answers : C → R → Prop
  Listing : C → Prop

/-- The requests so far, what each was sent, and who waits. -/
structure Desk (C R : Type) where
  requests : List C
  responses : ℕ → List R
  waiting : Set ℕ

namespace Desk

variable {C R : Type}

def empty : Desk C R := ⟨[], fun _ => [], ∅⟩

/-- What may happen. -/
inductive Move (protocol : Protocol C R) (d d' : Desk C R) : Prop
  /-- A request comes in and gets its responses. -/
  | handled {request : C} (responses : List R)
      (hrequests : d'.requests = d.requests ++ [request])
      (hresponses : ∀ i, d'.responses i =
        d.responses i ++ if i = d.requests.length then responses else [])
      (hwaiting : d'.waiting = d.waiting)
      (hanswers : ∀ response ∈ responses, protocol.Answers request response)
      (hone : ¬ protocol.Listing request → responses.length = 1)
  /-- A request comes in and waits. -/
  | waits {request : C} (hrequests : d'.requests = d.requests ++ [request])
      (hresponses : d'.responses = d.responses)
      (hwaiting : ∀ i, i ∈ d'.waiting ↔ i ∈ d.waiting ∨ i = d.requests.length)
  /-- Requests that wait get a response. -/
  | answered (requests : List ℕ) (response : R) (hrequests : d'.requests = d.requests)
      (hresponses : ∀ i, d'.responses i =
        d.responses i ++ if i ∈ requests then [response] else [])
      (hwaiting : ∀ i, i ∈ d'.waiting ↔ i ∈ d.waiting ∧ i ∉ requests)
      (hmem : ∀ i ∈ requests, i ∈ d.waiting)
      (hanswers : ∀ i ∈ requests, ∀ request, At d.requests i request →
        protocol.Answers request response)
  /-- Requests that may get any number of responses get one. -/
  | told (requests : List ℕ) (response : R) (hrequests : d'.requests = d.requests)
      (hresponses : ∀ i, d'.responses i =
        d.responses i ++ if i ∈ requests then [response] else [])
      (hwaiting : d'.waiting = d.waiting)
      (hanswers : ∀ i ∈ requests, ∃ request, At d.requests i request ∧
        protocol.Listing request ∧ protocol.Answers request response)

/-- Requests are forgotten. -/
structure Loses (d d' : Desk C R) : Prop where
  requests : d'.requests = d.requests
  responses : d'.responses = d.responses
  waiting : ∀ i, i ∈ d'.waiting → i ∈ d.waiting

/-- Every response is one of its request's. -/
structure Typed (protocol : Protocol C R) (d : Desk C R) : Prop where
  fresh : ∀ i, d.requests.length ≤ i → d.responses i = [] ∧ i ∉ d.waiting
  answers : ∀ i request, At d.requests i request →
    ∀ response ∈ d.responses i, protocol.Answers request response

/-- A request that is due one response has got it, or waits. -/
def Once (protocol : Protocol C R) (d : Desk C R) : Prop :=
  ∀ i request, At d.requests i request → ¬ protocol.Listing request →
    (i ∈ d.waiting → d.responses i = []) ∧ (i ∉ d.waiting → (d.responses i).length = 1)

variable {protocol : Protocol C R} {d d' : Desk C R}

theorem typed_empty : Typed protocol (empty : Desk C R) :=
  ⟨fun _ _ => ⟨rfl, Set.notMem_empty _⟩, fun _ _ h => absurd h at_nil⟩

/-- Requests that wait came in before. -/
theorem Typed.lt_of_waiting (h : Typed protocol d) {i : ℕ} (hwaiting : i ∈ d.waiting) :
    i < d.requests.length := by
  by_contra hle
  exact (h.fresh i (Nat.le_of_not_lt hle)).2 hwaiting

/-- Responses to some of the requests that came in before. -/
theorem Typed.responded (h : Typed protocol d) {requests : List ℕ} {response : R}
    (hrequests : d'.requests = d.requests)
    (hresponses : ∀ i, d'.responses i =
      d.responses i ++ if i ∈ requests then [response] else [])
    (hwaiting : ∀ i, i ∈ d'.waiting → i ∈ d.waiting)
    (hlt : ∀ i ∈ requests, i < d.requests.length)
    (hanswers : ∀ i ∈ requests, ∀ request, At d.requests i request →
      protocol.Answers request response) : Typed protocol d' where
  fresh := by
    intro i hle
    rw [hrequests] at hle
    obtain ⟨hnil, hnot⟩ := h.fresh i hle
    refine ⟨?_, fun hmem => hnot (hwaiting i hmem)⟩
    rw [hresponses, hnil, if_neg fun hmem => Nat.not_lt.mpr hle (hlt i hmem)]
    rfl
  answers := by
    intro i request hrequest response' hresponse'
    rw [hrequests] at hrequest
    rw [hresponses] at hresponse'
    rcases List.mem_append.mp hresponse' with hold | hnew
    · exact h.answers i request hrequest response' hold
    · split at hnew
      next hmem =>
        rw [List.mem_singleton.mp hnew]
        exact hanswers i hmem request hrequest
      · cases hnew

theorem Typed.move (h : Typed protocol d) (hmove : Move protocol d d') : Typed protocol d' := by
  cases hmove with
  | @handled request responses hrequests hresponses hwaiting hanswers hone =>
      refine ⟨fun i hle => ?_, fun i request' hrequest response hresponse => ?_⟩
      · rw [hrequests, List.length_append, List.length_singleton] at hle
        obtain ⟨hnil, hnot⟩ := h.fresh i (by omega)
        refine ⟨?_, hwaiting ▸ hnot⟩
        rw [hresponses, hnil, if_neg (by omega)]
        rfl
      · rw [hrequests] at hrequest
        rw [hresponses] at hresponse
        rcases at_concat.mp hrequest with hold | ⟨rfl, rfl⟩
        · rw [if_neg (Nat.ne_of_lt hold.lt_length), List.append_nil] at hresponse
          exact h.answers i request' hold response hresponse
        · rw [(h.fresh _ le_rfl).1, if_pos rfl, List.nil_append] at hresponse
          exact hanswers response hresponse
  | @waits request hrequests hresponses hwaiting =>
      refine ⟨fun i hle => ?_, fun i request' hrequest response hresponse => ?_⟩
      · rw [hrequests, List.length_append, List.length_singleton] at hle
        obtain ⟨hnil, hnot⟩ := h.fresh i (by omega)
        rw [hresponses]
        refine ⟨hnil, fun hmem => ?_⟩
        rcases (hwaiting i).mp hmem with hmem | hlast
        · exact hnot hmem
        · omega
      · rw [hrequests] at hrequest
        rw [hresponses] at hresponse
        rcases at_concat.mp hrequest with hold | ⟨rfl, rfl⟩
        · exact h.answers i request' hold response hresponse
        · rw [(h.fresh _ le_rfl).1] at hresponse
          cases hresponse
  | answered requests response hrequests hresponses hwaiting hmem hanswers =>
      exact h.responded hrequests hresponses (fun i hi => ((hwaiting i).mp hi).1)
        (fun i hi => h.lt_of_waiting (hmem i hi)) hanswers
  | told requests response hrequests hresponses hwaiting hanswers =>
      refine h.responded hrequests hresponses (fun i hi => hwaiting ▸ hi) ?_ ?_
      · intro i hi
        obtain ⟨request, hrequest, -⟩ := hanswers i hi
        exact hrequest.lt_length
      · intro i hi request hrequest
        obtain ⟨request', hrequest', -, hanswer⟩ := hanswers i hi
        cases hrequest.unique hrequest'
        exact hanswer

theorem Typed.loses (h : Typed protocol d) (hloses : Loses d d') : Typed protocol d' where
  fresh := by
    intro i hle
    rw [hloses.requests] at hle
    obtain ⟨hnil, hnot⟩ := h.fresh i hle
    rw [hloses.responses]
    exact ⟨hnil, fun hmem => hnot (hloses.waiting i hmem)⟩
  answers := by
    rw [hloses.requests, hloses.responses]
    exact h.answers

theorem Once.move (h : Once protocol d) (htyped : Typed protocol d)
    (hmove : Move protocol d d') : Once protocol d' := by
  intro i request hrequest hlisting
  cases hmove with
  | handled responses hrequests hresponses hwaiting hanswers hone =>
      rw [hrequests] at hrequest
      rw [hresponses, hwaiting]
      rcases at_concat.mp hrequest with hold | ⟨rfl, rfl⟩
      · rw [if_neg (Nat.ne_of_lt hold.lt_length), List.append_nil]
        exact h i request hold hlisting
      · obtain ⟨hnil, hnot⟩ := htyped.fresh _ le_rfl
        rw [hnil, if_pos rfl, List.nil_append]
        exact ⟨fun hmem => absurd hmem hnot, fun _ => hone hlisting⟩
  | waits hrequests hresponses hwaiting =>
      rw [hrequests] at hrequest
      rw [hresponses, hwaiting]
      rcases at_concat.mp hrequest with hold | ⟨rfl, rfl⟩
      · obtain ⟨hwaits, hdone⟩ := h i request hold hlisting
        have hne : i ≠ d.requests.length := Nat.ne_of_lt hold.lt_length
        refine ⟨fun hmem => hwaits (hmem.resolve_right hne), fun hnot => hdone ?_⟩
        exact fun hmem => hnot (.inl hmem)
      · exact ⟨fun _ => (htyped.fresh _ le_rfl).1, fun hnot => absurd (.inr rfl) hnot⟩
  | answered requests response hrequests hresponses hwaiting hmem hanswers =>
      rw [hrequests] at hrequest
      obtain ⟨hwaits, hdone⟩ := h i request hrequest hlisting
      rw [hresponses, hwaiting]
      by_cases hanswered : i ∈ requests
      · rw [if_pos hanswered, hwaits (hmem i hanswered)]
        exact ⟨fun hboth => absurd hanswered hboth.2, fun _ => rfl⟩
      · rw [if_neg hanswered, List.append_nil]
        exact ⟨fun hboth => hwaits hboth.1, fun hnot => hdone fun hi => hnot ⟨hi, hanswered⟩⟩
  | told requests response hrequests hresponses hwaiting hanswers =>
      rw [hrequests] at hrequest
      have hnot : i ∉ requests := by
        intro hi
        obtain ⟨request', hrequest', hlisting', -⟩ := hanswers i hi
        cases hrequest.unique hrequest'
        exact hlisting hlisting'
      rw [hresponses, hwaiting, if_neg hnot, List.append_nil]
      exact h i request hrequest hlisting

end Desk

end Mum.Library
