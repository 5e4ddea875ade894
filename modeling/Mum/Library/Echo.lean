/-!
# A client that is told of its own updates

A client keeps a value that a server keeps too.  It changes its own copy at
once, sends an update, and is told the result by the notes that the server
answers with; a second copy, the one it shows, follows the notes only.  Updates
and notes are on their way in order, and further updates may be sent before the
notes of earlier ones arrive.

`InFlight` says what the queues have to hold: all updates on their way bring the
server to the value that the client has chosen, and all notes on their way bring
the copy that is shown to the value of the server.
-/

namespace Mum.Library.Echo

universe u v w

variable {S : Type u} {U : Type v} {E : Type w}

/-- How a value takes an update, and how it takes a note. -/
structure Protocol (S : Type u) (U : Type v) (E : Type w) where
  apply : S → U → S
  merge : S → E → S

variable {p : Protocol S U E} {chosen server shown : S} {updates : List U} {notes : List E}

/-- What is on its way brings the server to the chosen value and the copy that is
shown to that of the server. -/
structure InFlight (p : Protocol S U E) (chosen : S) (updates : List U) (server : S)
    (notes : List E) (shown : S) : Prop where
  updates : updates.foldl p.apply server = chosen
  notes : notes.foldl p.merge shown = server

namespace InFlight

/-- Nothing is on its way and all values are the same. -/
theorem start (s : S) : InFlight p s [] s [] s := ⟨rfl, rfl⟩

/-- The client chooses a value and sends the updates that make it of the old one. -/
theorem choose (h : InFlight p chosen updates server notes shown) {chosen' : S} {sent : List U}
    (hsent : sent.foldl p.apply chosen = chosen') :
    InFlight p chosen' (updates ++ sent) server notes shown where
  updates := by rw [List.foldl_append, h.updates, hsent]
  notes := h.notes

/-- The server takes an update and sends a note that makes the new value of the
old one. -/
theorem serve {update : U} (h : InFlight p chosen (update :: updates) server notes shown)
    {note : E} (hnote : p.merge server note = p.apply server update) :
    InFlight p chosen updates (p.apply server update) (notes ++ [note]) shown where
  updates := h.updates
  notes := by rw [List.foldl_append, h.notes, List.foldl_cons, List.foldl_nil, hnote]

/-- The client takes a note. -/
theorem deliver {note : E} (h : InFlight p chosen updates server (note :: notes) shown) :
    InFlight p chosen updates server notes (p.merge shown note) where
  updates := h.updates
  notes := h.notes

/-- Once nothing is on its way, all values are the same. -/
theorem settled (h : InFlight p chosen [] server [] shown) : server = chosen ∧ shown = server :=
  ⟨h.updates, h.notes⟩

end InFlight

end Mum.Library.Echo
