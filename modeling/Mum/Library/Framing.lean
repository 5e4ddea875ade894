import Mathlib.Data.List.Basic

/-!
# Frames in a stream of bytes

A frame is the length of a payload as four bytes, the most significant first, and
then the payload.  A stream arrives in chunks, which need not be the pieces that
were written.

There are two readers.  `receive` collects bytes until a frame is complete and
trusts the length.  A `Decoder` asks for the bytes it needs, one `readExact` after
the other, and so finds the end of a value by itself.  What either of them reads
depends on the bytes of the stream only, not on its chunks: `receive_eq` and
`Decoder.runFrom_flatten`.
-/

namespace Mum.Library.Framing

universe u

abbrev Bytes := List UInt8

/-! ### The length of a frame -/

/-- The number modulo `0x100000000`, as four bytes. -/
def be32 (n : ℕ) : Bytes :=
  [UInt8.ofNat (n / 0x1000000), UInt8.ofNat (n / 0x10000), UInt8.ofNat (n / 0x100), UInt8.ofNat n]

def ofBe (bytes : Bytes) : ℕ := bytes.foldl (fun n byte => 256 * n + byte.toNat) 0

@[simp] theorem length_be32 (n : ℕ) : (be32 n).length = 4 := rfl

theorem ofBe_be32 (n : ℕ) : ofBe (be32 n) = n % 0x100000000 := by
  simp only [be32, ofBe, List.foldl_cons, List.foldl_nil, UInt8.toNat_ofNat']
  omega

def frame (payload : Bytes) : Bytes := be32 payload.length ++ payload

@[simp] theorem length_frame (payload : Bytes) : (frame payload).length = 4 + payload.length := by
  simp [frame]

/-! ### Collecting frames -/

/-- The frames that are complete, and what is left after them; nothing is left to
read after a frame that is longer than `max`. -/
def drain (max : ℕ) (buffer : Bytes) : List Bytes × Option Bytes :=
  if buffer.length < 4 then ([], some buffer)
  else if max < ofBe (buffer.take 4) then ([], none)
  else if buffer.length < 4 + ofBe (buffer.take 4) then ([], some buffer)
  else
    let rest := drain max (buffer.drop (4 + ofBe (buffer.take 4)))
    ((buffer.drop 4).take (ofBe (buffer.take 4)) :: rest.1, rest.2)
termination_by buffer.length
decreasing_by
  rw [List.length_drop]
  omega

/-- Reads chunk by chunk. -/
def receive (max : ℕ) (buffer : Bytes) : List Bytes → List Bytes
  | [] => []
  | chunk :: chunks =>
      let frames := drain max (buffer ++ chunk)
      match frames.2 with
      | none => frames.1
      | some rest => frames.1 ++ receive max rest chunks

section Drain

variable {max : ℕ} {buffer bytes payload : Bytes}

theorem drain_of_lt_four (hlen : buffer.length < 4) : drain max buffer = ([], some buffer) := by
  rw [drain, if_pos hlen]

/-- A buffer that does not hold the frame it announces. -/
theorem drain_of_short (hlen : buffer.length < 4 + ofBe (buffer.take 4)) :
    (drain max buffer).1 = [] := by
  rw [drain]
  split
  · rfl
  · split
    · rfl
    · rfl

theorem drain_nil : drain max [] = ([], some []) := drain_of_lt_four (by simp)

theorem drain_frame (hmax : payload.length ≤ max) (hlt : max < 0x100000000) :
    drain max (frame payload ++ bytes) =
      (payload :: (drain max bytes).1, (drain max bytes).2) := by
  have htake : (frame payload ++ bytes).take 4 = be32 payload.length := by
    rw [frame, List.append_assoc]
    exact List.take_left' rfl
  have hdrop : (frame payload ++ bytes).drop 4 = payload ++ bytes := by
    rw [frame, List.append_assoc]
    exact List.drop_left' rfl
  have hlength : ofBe (be32 payload.length) = payload.length := by
    rw [ofBe_be32]
    omega
  rw [drain, htake, hlength, hdrop, ← List.drop_drop, hdrop, List.take_left' rfl,
    List.drop_left' rfl, List.length_append, length_frame, if_neg (by omega), if_neg (by omega),
    if_neg (by omega)]

/-- A frame is at most as long as allowed, and came with four bytes more. -/
theorem length_of_mem_drain (hmem : payload ∈ (drain max buffer).1) :
    payload.length ≤ max ∧ payload.length + 4 ≤ buffer.length := by
  fun_induction drain max buffer with
  | case1 => cases hmem
  | case2 => cases hmem
  | case3 => cases hmem
  | case4 buffer hfour hmax hlen rest ih =>
      rcases List.mem_cons.mp hmem with rfl | hmem
      · rw [List.length_take, List.length_drop]
        omega
      · have hrest := ih hmem
        rw [List.length_drop] at hrest
        omega

/-- What has been drained is not changed by the bytes after it. -/
theorem drain_append (max : ℕ) (buffer bytes : Bytes) :
    drain max (buffer ++ bytes) =
      match (drain max buffer).2 with
      | none => ((drain max buffer).1, none)
      | some rest =>
          ((drain max buffer).1 ++ (drain max (rest ++ bytes)).1,
            (drain max (rest ++ bytes)).2) := by
  fun_induction drain max buffer with
  | case1 buffer hfour => rfl
  | case2 buffer hfour hmax =>
      have htake : (buffer ++ bytes).take 4 = buffer.take 4 :=
        List.take_append_of_le_length (by omega)
      rw [drain, htake, List.length_append, if_neg (by omega), if_pos hmax]
  | case3 buffer hfour hmax hlen => rfl
  | case4 buffer hfour hmax hlen rest ih =>
      have htake : (buffer ++ bytes).take 4 = buffer.take 4 :=
        List.take_append_of_le_length (by omega)
      have hpayload : ((buffer ++ bytes).drop 4).take (ofBe (buffer.take 4)) =
          (buffer.drop 4).take (ofBe (buffer.take 4)) := by
        rw [List.drop_append_of_le_length (by omega)]
        exact List.take_append_of_le_length (by rw [List.length_drop]; omega)
      rw [drain, htake, List.length_append, if_neg (by omega), if_neg hmax, if_neg (by omega),
        hpayload, List.drop_append_of_le_length (by omega), ih]
      cases hrest : rest.2 <;> rfl

/-- What is left holds no frame. -/
theorem drain_rest {rest : Bytes} (hrest : (drain max buffer).2 = some rest) :
    drain max rest = ([], some rest) := by
  fun_induction drain max buffer with
  | case1 buffer hfour =>
      cases hrest
      exact drain_of_lt_four hfour
  | case2 => cases hrest
  | case3 buffer hfour hmax hlen =>
      cases hrest
      rw [drain, if_neg hfour, if_neg hmax, if_pos hlen]
  | case4 buffer hfour hmax hlen rest' ih => exact ih hrest

theorem receive_append (chunks : List Bytes) (hbuffer : drain max buffer = ([], some buffer)) :
    receive max buffer chunks = (drain max (buffer ++ chunks.flatten)).1 := by
  induction chunks generalizing buffer with
  | nil =>
      rw [List.flatten_nil, List.append_nil, hbuffer]
      rfl
  | cons chunk chunks ih =>
      rw [receive, List.flatten_cons, ← List.append_assoc,
        drain_append max (buffer ++ chunk) chunks.flatten]
      cases hrest : (drain max (buffer ++ chunk)).2 with
      | none => rfl
      | some rest => exact congrArg _ (ih (drain_rest hrest))

/-- The frames that are read are those of the whole stream. -/
theorem receive_eq (max : ℕ) (chunks : List Bytes) :
    receive max [] chunks = (drain max chunks.flatten).1 := receive_append chunks drain_nil

end Drain

/-! ### Reading what is needed -/

/-- A program that reads bytes and returns a value. -/
inductive Decoder (A : Type u)
  | done (a : A)
  | fail
  | readExact (n : ℕ) (next : Bytes → Decoder A)

variable {A : Type u}

/-- Decodes bytes that are all there, and returns those that it did not read. -/
def Decoder.run : Decoder A → Bytes → Option (A × Bytes)
  | done a, bytes => some (a, bytes)
  | fail, _ => none
  | readExact n next, bytes =>
      if bytes.length < n then none else (next (bytes.take n)).run (bytes.drop n)

/-- Reads until it has so many bytes. -/
def readExact : ℕ → List Bytes → Option (Bytes × List Bytes)
  | n, [] => if n = 0 then some ([], []) else none
  | n, chunk :: chunks =>
      if n ≤ chunk.length then some (chunk.take n, chunk.drop n :: chunks)
      else (readExact (n - chunk.length) chunks).map fun read => (chunk ++ read.1, read.2)

/-- Decodes from a stream. -/
def Decoder.runFrom : Decoder A → List Bytes → Option (A × List Bytes)
  | done a, chunks => some (a, chunks)
  | fail, _ => none
  | readExact n next, chunks =>
      (Framing.readExact n chunks).bind fun read => (next read.1).runFrom read.2

theorem readExact_eq_none {n : ℕ} {chunks : List Bytes} (hlen : chunks.flatten.length < n) :
    readExact n chunks = none := by
  induction chunks generalizing n with
  | nil =>
      rw [List.flatten_nil, List.length_nil] at hlen
      rw [readExact, if_neg (by omega)]
  | cons chunk chunks ih =>
      rw [List.flatten_cons, List.length_append] at hlen
      rw [readExact, if_neg (by omega), ih (by omega)]
      rfl

theorem readExact_eq_some {n : ℕ} {chunks : List Bytes} (hlen : n ≤ chunks.flatten.length) :
    ∃ rest, readExact n chunks = some (chunks.flatten.take n, rest) ∧
      rest.flatten = chunks.flatten.drop n := by
  induction chunks generalizing n with
  | nil =>
      have hzero : n = 0 := by simpa using hlen
      exact ⟨[], by rw [readExact, if_pos hzero, hzero]; rfl, by simp⟩
  | cons chunk chunks ih =>
      rw [List.flatten_cons, List.length_append] at hlen
      rw [readExact, List.flatten_cons]
      by_cases hle : n ≤ chunk.length
      · refine ⟨chunk.drop n :: chunks, ?_, ?_⟩
        · rw [if_pos hle, List.take_append_of_le_length hle]
        · rw [List.flatten_cons, List.drop_append_of_le_length hle]
      · -- the whole chunk, and the rest from the chunks after it
        obtain ⟨rest, hread, hrest⟩ := ih (n := n - chunk.length) (by omega)
        have htake : chunk.take n = chunk := List.take_of_length_le (by omega)
        have hdrop : chunk.drop n = [] := List.drop_of_length_le (by omega)
        refine ⟨rest, ?_, ?_⟩
        · rw [if_neg hle, hread, List.take_append, htake]
          rfl
        · rw [hrest, List.drop_append, hdrop, List.nil_append]

/-- A decoder reads the same from a stream as from its bytes. -/
theorem Decoder.runFrom_flatten (decoder : Decoder A) (chunks : List Bytes) :
    (decoder.runFrom chunks).map (fun read => (read.1, read.2.flatten)) =
      decoder.run chunks.flatten := by
  induction decoder generalizing chunks with
  | done a => rfl
  | fail => rfl
  | readExact n next ih =>
      rw [runFrom, run]
      by_cases hlen : chunks.flatten.length < n
      · rw [if_pos hlen, readExact_eq_none hlen]
        rfl
      · obtain ⟨rest, hread, hrest⟩ := readExact_eq_some (Nat.le_of_not_lt hlen)
        rw [if_neg hlen, hread, Option.bind_some, ih, hrest]

theorem Decoder.run_of_runFrom {decoder : Decoder A} {chunks chunks' : List Bytes} {a : A}
    (h : decoder.runFrom chunks = some (a, chunks')) :
    decoder.run chunks.flatten = some (a, chunks'.flatten) := by
  rw [← runFrom_flatten, h]
  rfl

theorem Decoder.exists_runFrom {decoder : Decoder A} {chunks : List Bytes} {rest : Bytes} {a : A}
    (h : decoder.run chunks.flatten = some (a, rest)) :
    ∃ chunks', decoder.runFrom chunks = some (a, chunks') ∧ chunks'.flatten = rest := by
  rw [← runFrom_flatten] at h
  obtain ⟨⟨b, chunks'⟩, hrun, heq⟩ := Option.map_eq_some_iff.mp h
  cases heq
  exact ⟨chunks', hrun, rfl⟩

/-- A decoder does not return more bytes than it is given. -/
theorem Decoder.length_le_of_run {decoder : Decoder A} {bytes rest : Bytes} {a : A}
    (h : decoder.run bytes = some (a, rest)) : rest.length ≤ bytes.length := by
  induction decoder generalizing bytes with
  | done a =>
      cases h
      exact Nat.le_refl _
  | fail => cases h
  | readExact n next ih =>
      rw [run] at h
      split at h
      · cases h
      · have hle := ih _ h
        rw [List.length_drop] at hle
        omega

end Mum.Library.Framing
