import Mathlib.Data.List.TakeWhile
import Mum.Library.Framing
import Mum.Mumlib.Command

/-!
# One exchange over the socket

The controller writes a command as a frame, with one `write` for the length and one
for the payload, and each `write` may accept less than it is given.  The daemon
reads frames with a codec, and answers each command with a frame for each response.
The controller skips the length of such a frame and lets `bincode` find its end.

`bincode` is a parameter: what it writes for a value, and the reads with which it
decodes one.

The controller's iterator drops four bytes and decodes, again and again.  Where every
response takes exactly the bytes that were written for it, this reads them all
(`BincodeIter.items_frames`).  The daemon finds the ends of frames by their lengths, so that
its side needs nothing of `bincode` but that a command can be read back
(`receiveCommands_sent`).  Conversely, a command that is read has so many bytes that all of
it was accepted (`accepted_of_receiveCommands`).
-/

namespace Mum.Exchange

open Library.Framing Mumlib

/-- `bincode`, for the values of one type. -/
structure Bincode (A : Type) where
  serialize : A → Bytes
  deserialize : Decoder A

namespace Bincode

variable {A : Type}

/-- What is written for a value is read back, whatever comes after it. -/
def RoundTrips (bincode : Bincode A) (a : A) : Prop :=
  ∀ rest, bincode.deserialize.run (bincode.serialize a ++ rest) = some (a, rest)

/-- A value is only read from as many bytes as are written for it. -/
def Measures (bincode : Bincode A) (a : A) : Prop :=
  ∀ bytes rest, bincode.deserialize.run bytes = some (a, rest) →
    bytes.length = (bincode.serialize a).length + rest.length

end Bincode

/-! ### The controller -/

/-- How many bytes the socket accepts of each of the two writes. -/
structure Accepted where
  header : ℕ
  payload : ℕ
deriving Repr

/-- What `send_command` and `send_command_multi` put into the stream: they do not
look at the number that `write` returns. -/
def sent (accepted : Accepted) (serialized : Bytes) : Bytes :=
  (be32 serialized.length).take accepted.header ++ serialized.take accepted.payload

section Controller

variable {A : Type}

/-- `BincodeIter::next`. -/
def BincodeIter.next (bincode : Bincode A) (reader : List Bytes) : Option (A × List Bytes) :=
  (readExact 4 reader).bind fun header => bincode.deserialize.runFrom header.2

/-- A value comes with the four bytes that are skipped. -/
theorem BincodeIter.length_lt_of_next {bincode : Bincode A} {reader reader' : List Bytes} {a : A}
    (h : next bincode reader = some (a, reader')) :
    reader'.flatten.length < reader.flatten.length := by
  obtain ⟨header, hheader, hrun⟩ := Option.bind_eq_some_iff.mp h
  have hfour : 4 ≤ reader.flatten.length := by
    by_contra hlt
    rw [readExact_eq_none (Nat.lt_of_not_le hlt)] at hheader
    cases hheader
  obtain ⟨rest, hread, hrest⟩ := readExact_eq_some hfour
  cases hheader.symm.trans hread
  have hle := Decoder.length_le_of_run (Decoder.run_of_runFrom hrun)
  rw [hrest, List.length_drop] at hle
  omega

/-- Everything that the iterator yields. -/
def BincodeIter.items (bincode : Bincode A) (reader : List Bytes) : List A :=
  match _h : next bincode reader with
  | none => []
  | some (a, reader') => a :: items bincode reader'
termination_by reader.flatten.length
decreasing_by exact length_lt_of_next ‹_›

/-- What `send_command` returns, `none` where this is a `ConnectionError`. -/
def sendCommand (bincode : Bincode Response) (connection : List Bytes) : Option Response := do
  let (_, connection) ← readExact 4 connection
  let (response, _) ← bincode.deserialize.runFrom connection
  return response

variable {bincode : Bincode A} {reader reader' : List Bytes} {a : A}

theorem BincodeIter.items_of_none (h : next bincode reader = none) : items bincode reader = [] := by
  rw [items]
  split
  · rfl
  · next h' => cases h.symm.trans h'

theorem BincodeIter.items_of_some (h : next bincode reader = some (a, reader')) :
    items bincode reader = a :: items bincode reader' := by
  rw [items]
  split
  · next h' => cases h.symm.trans h'
  · next h' =>
      cases h.symm.trans h'
      rfl

/-- The next value is that of the frame at the front, also if its length is wrong. -/
theorem BincodeIter.next_frame {bytes : Bytes} (htrips : bincode.RoundTrips a)
    (hreader : reader.flatten = frame (bincode.serialize a) ++ bytes) :
    ∃ reader', next bincode reader = some (a, reader') ∧ reader'.flatten = bytes := by
  have hfour : 4 ≤ reader.flatten.length := by
    rw [hreader, List.length_append, length_frame]
    omega
  obtain ⟨rest, hread, hrest⟩ := readExact_eq_some hfour
  have hdrop : rest.flatten = bincode.serialize a ++ bytes := by
    rw [hrest, hreader, frame, List.append_assoc]
    exact List.drop_left' rfl
  have hrun : bincode.deserialize.run rest.flatten = some (a, bytes) := by
    rw [hdrop]
    exact htrips bytes
  obtain ⟨reader', hrunFrom, hreader'⟩ := Decoder.exists_runFrom hrun
  refine ⟨reader', ?_, hreader'⟩
  rw [next, hread]
  exact hrunFrom

theorem BincodeIter.items_frames {values : List A} (htrips : ∀ a ∈ values, bincode.RoundTrips a)
    (hreader : reader.flatten = values.flatMap fun a => frame (bincode.serialize a)) :
    items bincode reader = values := by
  induction values generalizing reader with
  | nil =>
      apply items_of_none
      rw [next, readExact_eq_none (by simp [hreader])]
      rfl
  | cons a values ih =>
      rw [List.flatMap_cons] at hreader
      obtain ⟨reader', hnext, hreader'⟩ := next_frame (htrips a (List.mem_cons_self ..)) hreader
      rw [items_of_some hnext, ih (fun a ha => htrips a (List.mem_cons_of_mem _ ha)) hreader']

/-- `send_command` returns the first of them. -/
theorem sendCommand_eq_head? (bincode : Bincode Response) (connection : List Bytes) :
    sendCommand bincode connection = (BincodeIter.items bincode connection).head? := by
  have hnext : sendCommand bincode connection =
      (BincodeIter.next bincode connection).map Prod.fst := by
    unfold sendCommand BincodeIter.next
    cases readExact 4 connection with
    | none => rfl
    | some header => cases hrun : bincode.deserialize.runFrom header.2 <;> simp [hrun]
  rw [hnext]
  cases h : BincodeIter.next bincode connection with
  | none => rw [BincodeIter.items_of_none h]; rfl
  | some read => rw [BincodeIter.items_of_some h]; rfl

end Controller

/-! ### The daemon -/

/-- The longest frame that `LengthDelimitedCodec::new()` reads or writes. -/
def maxFrameLength : ℕ := 8 * 1024 * 1024

section Daemon

variable {A : Type}

/-- `bincode::deserialize` does not mind bytes after the value. -/
def deserialize (bincode : Bincode A) (buf : Bytes) : Option A :=
  (bincode.deserialize.run buf).map Prod.fst

/-- The commands that `receive_commands` hands to the client. -/
def receiveCommands (bincode : Bincode Command) (reader : List Bytes) : List Command :=
  (receive maxFrameLength [] reader).filterMap (deserialize bincode)

/-- What `receive_commands` writes for the responses to one command: it stops where the
codec refuses one. -/
def written (bincode : Bincode A) (responses : List A) : Bytes :=
  (responses.takeWhile fun response => (bincode.serialize response).length ≤ maxFrameLength).flatMap
    fun response => frame (bincode.serialize response)

/-- What it writes for all that it reads. -/
def replies (commands : Bincode Command) (responses : Bincode Response)
    (answers : Command → List Response) (reader : List Bytes) : Bytes :=
  (receiveCommands commands reader).flatMap fun command => written responses (answers command)

variable {commands : Bincode Command} {responses : Bincode Response} {accepted : Accepted}
  {command : Command} {reader : List Bytes}

/-- A command that was accepted whole is read, unless it is too long for the codec. -/
theorem receiveCommands_sent (htrips : commands.RoundTrips command)
    (hheader : 4 ≤ accepted.header)
    (hpayload : (commands.serialize command).length ≤ accepted.payload)
    (hmax : (commands.serialize command).length ≤ maxFrameLength)
    (hreader : reader.flatten = sent accepted (commands.serialize command)) :
    receiveCommands commands reader = [command] := by
  have hsent : reader.flatten = frame (commands.serialize command) ++ [] := by
    rw [hreader, sent, frame, List.take_of_length_le hheader, List.take_of_length_le hpayload,
      List.append_nil]
  have hread : deserialize commands (commands.serialize command) = some command := by
    have hrun := htrips []
    rw [List.append_nil] at hrun
    rw [deserialize, hrun]
    rfl
  rw [receiveCommands, receive_eq, hsent, drain_frame hmax (by decide), drain_nil,
    List.filterMap_cons_some hread]
  rfl

/-- A command that is read was accepted whole, and is not too long for the codec. -/
theorem accepted_of_receiveCommands (hmeasures : commands.Measures command)
    (hreceived :
      receiveCommands commands [sent accepted (commands.serialize command)] = [command]) :
    4 ≤ accepted.header ∧ (commands.serialize command).length ≤ accepted.payload ∧
      (commands.serialize command).length ≤ maxFrameLength := by
  have hmem : command ∈ receiveCommands commands [sent accepted (commands.serialize command)] := by
    rw [hreceived]
    exact List.mem_singleton_self _
  rw [receiveCommands, receive_eq] at hmem
  obtain ⟨buf, hbuf, hread⟩ := List.mem_filterMap.mp hmem
  obtain ⟨⟨_, rest⟩, hrun, heq⟩ := Option.map_eq_some_iff.mp hread
  -- the frame is at least as long as the command, and the stream has four bytes more
  have hle := length_of_mem_drain hbuf
  have hlen := hmeasures buf rest (by rw [hrun, ← heq])
  simp only [List.flatten_cons, List.flatten_nil, List.append_nil, sent, List.length_append,
    List.length_take, length_be32] at hle
  omega

/-- The controller yields the responses up to the first that is too long. -/
theorem items_replies {answers : Command → List Response} {connection : List Bytes}
    (htrips : ∀ response ∈ answers command, responses.RoundTrips response)
    (hreceived : receiveCommands commands reader = [command])
    (hconnection : connection.flatten = replies commands responses answers reader) :
    BincodeIter.items responses connection = (answers command).takeWhile fun response =>
      (responses.serialize response).length ≤ maxFrameLength := by
  rw [replies, hreceived, List.flatMap_singleton] at hconnection
  apply BincodeIter.items_frames _ hconnection
  intro response hresponse
  exact htrips response (List.takeWhile_subset _ hresponse)

end Daemon

/-- However the bytes of an exchange arrive, the daemon reads the command, and the
controller its answers. -/
structure Exchanged (commands : Bincode Command) (responses : Bincode Response)
    (answers : Command → List Response) (accepted : Accepted) (command : Command) : Prop where
  receives : ∀ reader : List Bytes, reader.flatten = sent accepted (commands.serialize command) →
    receiveCommands commands reader = [command]
  yields : ∀ reader connection : List Bytes,
    reader.flatten = sent accepted (commands.serialize command) →
    connection.flatten = replies commands responses answers reader →
      BincodeIter.items responses connection = answers command
  returns : ∀ reader connection : List Bytes,
    reader.flatten = sent accepted (commands.serialize command) →
    connection.flatten = replies commands responses answers reader →
      sendCommand responses connection = (answers command).head?

/-- An exchange goes through if the socket accepts both writes whole and no frame is too
long for the codec. -/
theorem exchanged_iff (commands : Bincode Command) (responses : Bincode Response)
    (answers : Command → List Response) (accepted : Accepted) (command : Command)
    (htrips : commands.RoundTrips command) (hmeasures : commands.Measures command)
    (hanswers : ∀ response ∈ answers command, responses.RoundTrips response) :
    Exchanged commands responses answers accepted command ↔
      4 ≤ accepted.header ∧ (commands.serialize command).length ≤ accepted.payload ∧
        (commands.serialize command).length ≤ maxFrameLength ∧
        ∀ response ∈ answers command, (responses.serialize response).length ≤ maxFrameLength := by
  have hall : ((answers command).takeWhile fun response =>
      (responses.serialize response).length ≤ maxFrameLength) = answers command ↔
        ∀ response ∈ answers command,
          (responses.serialize response).length ≤ maxFrameLength := by
    rw [List.takeWhile_eq_self_iff]
    simp only [decide_eq_true_eq]
  constructor
  · intro h
    have hreceived := h.receives [sent accepted (commands.serialize command)] (by simp)
    obtain ⟨hheader, hpayload, hmax⟩ := accepted_of_receiveCommands hmeasures hreceived
    refine ⟨hheader, hpayload, hmax, hall.mp ?_⟩
    -- the daemon's bytes in one piece
    have hone : [replies commands responses answers
        [sent accepted (commands.serialize command)]].flatten =
          replies commands responses answers [sent accepted (commands.serialize command)] := by
      simp
    calc
      (answers command).takeWhile _ = BincodeIter.items responses _ :=
        (items_replies hanswers hreceived hone).symm
      _ = answers command := h.yields _ _ (by simp) hone
  · rintro ⟨hheader, hpayload, hmax, hsmall⟩
    have hreceived : ∀ reader : List Bytes,
        reader.flatten = sent accepted (commands.serialize command) →
          receiveCommands commands reader = [command] :=
      fun reader hreader => receiveCommands_sent htrips hheader hpayload hmax hreader
    have hyields : ∀ reader connection : List Bytes,
        reader.flatten = sent accepted (commands.serialize command) →
        connection.flatten = replies commands responses answers reader →
          BincodeIter.items responses connection = answers command := by
      intro reader connection hreader hconnection
      rw [items_replies hanswers (hreceived reader hreader) hconnection, hall.mpr hsmall]
    refine ⟨hreceived, hyields, ?_⟩
    intro reader connection hreader hconnection
    rw [sendCommand_eq_head?, hyields reader connection hreader hconnection]

/-- `bincode` on the command that disconnects, whose variant is number 13. -/
def disconnects : Bincode Command where
  serialize
    | .serverDisconnect => [13, 0, 0, 0]
    | _ => []
  deserialize := .readExact 4 fun bytes =>
    if bytes = [13, 0, 0, 0] then .done .serverDisconnect else .fail

/-- `bincode` on `Ok(None)` and on `Err(Disconnected)`. -/
def outcomes : Bincode Response where
  serialize
    | .ok none => [0, 0, 0, 0, 0]
    | .error .disconnected => [1, 0, 0, 0, 0, 0, 0, 0]
    | _ => []
  deserialize := .readExact 4 fun bytes =>
    if bytes = [0, 0, 0, 0] then
      .readExact 1 fun bytes => if bytes = [0] then .done (.ok none) else .fail
    else if bytes = [1, 0, 0, 0] then
      .readExact 4 fun bytes =>
        if bytes = [0, 0, 0, 0] then .done (.error .disconnected) else .fail
    else .fail

theorem roundTrips_disconnects : disconnects.RoundTrips .serverDisconnect := by
  intro rest
  simp [disconnects, Decoder.run]

theorem measures_disconnects : disconnects.Measures .serverDisconnect := by
  intro bytes rest h
  simp only [disconnects, Decoder.run] at h
  split at h
  · cases h
  · split at h
    · cases h
      simp [disconnects]
      omega
    · cases h

/-- Three responses of two kinds. -/
def threeOutcomes : List Response := [.ok none, .error .disconnected, .ok none]

theorem roundTrips_outcomes : ∀ response ∈ threeOutcomes, outcomes.RoundTrips response := by
  intro response hresponse rest
  simp only [threeOutcomes, List.mem_cons, List.not_mem_nil, or_false] at hresponse
  rcases hresponse with rfl | rfl | rfl <;> simp [outcomes, Decoder.run]

theorem exchanged_iff_disconnect :
    Exchanged disconnects outcomes (fun _ => threeOutcomes) ⟨4, 4⟩ .serverDisconnect :=
  (exchanged_iff disconnects outcomes _ _ _ roundTrips_disconnects measures_disconnects
    roundTrips_outcomes).mpr
      ⟨by decide, by decide, by decide, by simp [threeOutcomes, outcomes, maxFrameLength]⟩

/-- Two bytes of the payload are accepted, and the daemon waits for the other two. -/
theorem not_exchanged_disconnect :
    receiveCommands disconnects [sent ⟨4, 2⟩ (disconnects.serialize .serverDisconnect)] = [] ∧
      ¬ Exchanged disconnects outcomes (fun _ => threeOutcomes) ⟨4, 2⟩ .serverDisconnect := by
  have hnone :
      receiveCommands disconnects [sent ⟨4, 2⟩ (disconnects.serialize .serverDisconnect)] = [] := by
    rw [receiveCommands, receive_eq, drain_of_short (by decide)]
    rfl
  refine ⟨hnone, ?_⟩
  intro h
  have hone := h.receives [sent ⟨4, 2⟩ (disconnects.serialize .serverDisconnect)] (by simp)
  cases hnone.symm.trans hone

end Mum.Exchange
