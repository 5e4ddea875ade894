import Mum.Audio.Transformers
import Mum.State

/-!
# Audio input

`mum/src/audio/input.rs`: the callback of the input device collects samples until
more than a frame of them is there, and encodes frame by frame.

The loop compares strictly, so a full buffer may wait for the next callback.
`Framed` is the invariant of the loop and of the callbacks: the frames that were
encoded, the buffer and what is left of the data are the samples in order.

`Framed.iterate` is the loop body and `Framed.fill` the loop, by induction on its fuel.  That
there is fuel enough is a matter of its own (`Framed.fill_ends`): each round takes a sample
of the data or a frame of the buffer.
-/

namespace Mum

open Library Library.Eval Msgs

variable {σ T V : Type}

/-- What the callback of the input device is made with. -/
structure InputHost (σ T V : Type) where
  toF32 : T → V
  mul : V → F32 → V
  transform : σ → Buffer V → Eval (σ × Option (Buffer V))
  /-- `encode_vec_float`: a frame after those that were encoded before, and the
  largest size of the packet. -/
  encodeVecFloat : List (List V) → List V → ℕ → Option Bytes
  bufferSize : ℕ

/-- What the callback keeps. -/
structure InputCallback (σ V : Type) where
  buffer : List V
  transformers : List σ
  /-- The frames that were encoded, and the packets that were sent for them. -/
  encoded : List (List V)
  sent : List Bytes
deriving DecidableEq, Repr

/-- One call of the callback: the phase and the volume at that time, and the
data of the device. -/
structure InputCall (T : Type) where
  phase : StatePhase
  inputVolume : F32
  data : List T

/-- `usize` subtraction. -/
def checkedSub (a b : ℕ) : Eval ℕ := if b ≤ a then .ok (a - b) else .error .panic

def StatePhase.isConnected : StatePhase → Bool
  | .connected _ => true
  | _ => false

namespace InputCallback

def new (transformers : List σ) : InputCallback σ V := ⟨[], transformers, [], []⟩

/-- Transforms, encodes and sends what is in the buffer.  The channel to the
network may be full; that is only warned about. -/
def encodeBuffer (host : InputHost σ T V) (input : InputCallback σ V) :
    Eval (InputCallback σ V) := do
  let (transformers, out) ← tryFold host.transform input.transformers (.mono, input.buffer)
  let input := { input with transformers := transformers }
  match out with
  | none => .ok input
  | some (_, buf) => do
      let bytes ← unwrap (host.encodeVecFloat input.encoded buf host.bufferSize)
      .ok { input with encoded := input.encoded ++ [buf], sent := input.sent ++ [bytes] }

/-- Encodes as long as there is more than the buffer takes. -/
def fill (host : InputHost σ T V) : ℕ → InputCallback σ V → List V → Eval (InputCallback σ V)
  | 0, _, _ => .error .hang
  | fuel + 1, input, data =>
      if host.bufferSize < input.buffer.length + data.length then do
        let room ← checkedSub host.bufferSize input.buffer.length
        let input ← encodeBuffer host { input with buffer := input.buffer ++ data.take room }
        fill host fuel { input with buffer := [] } (data.drop room)
      else .ok { input with buffer := input.buffer ++ data }

/-- The data of a call as floats of the input volume. -/
def samples (host : InputHost σ T V) (call : InputCall T) : List V :=
  call.data.map fun e => host.mul (host.toF32 e) call.inputVolume

/-- The callback; `Framed.fill_ends` says that the fuel is enough. -/
def callback (host : InputHost σ T V) (input : InputCallback σ V) (call : InputCall T) :
    Eval (InputCallback σ V) :=
  if call.phase.isConnected then
    fill host (input.buffer.length + call.data.length + 1) input (samples host call)
  else .ok input

/-- All samples that are received while connected, at the volume of their call. -/
def received (host : InputHost σ T V) (calls : List (InputCall T)) : List V :=
  (calls.filter (·.phase.isConnected)).flatMap (samples host)

/-! ## The loop -/

/-- Frames of the right size, and no sample lost, repeated or reordered. -/
structure Framed (bufferSize : ℕ) (input : InputCallback σ V) (received : List V) : Prop where
  transformers_eq : input.transformers = []
  length_eq : ∀ frame ∈ input.encoded, frame.length = bufferSize
  length_le : input.buffer.length ≤ bufferSize
  flatten_eq : input.encoded.flatten ++ input.buffer = received

/-- The encoder takes every frame of the right size. -/
def EncodesFrames (host : InputHost σ T V) : Prop :=
  ∀ encoded frame, frame.length = host.bufferSize →
    (host.encodeVecFloat encoded frame host.bufferSize).isSome

variable {host : InputHost σ T V} {input input' : InputCallback σ V} {before : List V}

/-- Without transformers, a buffer is encoded as it is. -/
theorem encodeBuffer_eq (hnone : input.transformers = []) (buffer : List V) :
    encodeBuffer host { input with buffer := buffer } =
      unwrap (host.encodeVecFloat input.encoded buffer host.bufferSize) >>= fun bytes =>
        .ok { input with
          buffer := buffer
          encoded := input.encoded ++ [buffer]
          sent := input.sent ++ [bytes] } := by
  rw [encodeBuffer, hnone, tryFold, ok_bind]

/-- One iteration fills the buffer, encodes it and clears it. -/
theorem Framed.iterate (h : Framed host.bufferSize input before) {data : List V}
    (hmore : host.bufferSize < input.buffer.length + data.length) (bytes : Bytes) :
    Framed host.bufferSize { input with
        buffer := []
        encoded := input.encoded ++
          [input.buffer ++ data.take (host.bufferSize - input.buffer.length)]
        sent := input.sent ++ [bytes] }
      (before ++ data.take (host.bufferSize - input.buffer.length)) where
  transformers_eq := h.transformers_eq
  length_eq frame hframe := by
    have hle := h.length_le
    rcases List.mem_append.mp hframe with hold | hnew
    · exact h.length_eq frame hold
    · rw [List.mem_singleton.mp hnew, List.length_append, List.length_take]
      omega
  length_le := Nat.zero_le _
  flatten_eq := by
    rw [← h.flatten_eq, List.flatten_append, List.flatten_singleton, List.append_nil,
      List.append_assoc]

theorem Framed.fill (h : Framed host.bufferSize input before) {fuel : ℕ} {data : List V}
    (hfill : fill host fuel input data = .ok input') :
    Framed host.bufferSize input' (before ++ data) := by
  induction fuel generalizing input before data with
  | zero => cases hfill
  | succ fuel ih =>
      rw [InputCallback.fill] at hfill
      split at hfill
      · next hmore =>
          rw [checkedSub, if_pos h.length_le, ok_bind, encodeBuffer_eq h.transformers_eq,
            bind_assoc] at hfill
          obtain ⟨bytes, -, hfill⟩ := bind_eq_ok.mp hfill
          have hframed := ih (h.iterate hmore bytes) hfill
          rw [List.append_assoc, List.take_append_drop] at hframed
          exact hframed
      · next hless =>
          cases hfill
          refine ⟨h.transformers_eq, h.length_eq, ?_, ?_⟩
          · rw [List.length_append]
            omega
          · rw [← h.flatten_eq, List.append_assoc]

/-- The loop ends: every iteration encodes a whole frame of what is left. -/
theorem Framed.fill_ends (h : Framed host.bufferSize input before)
    (hpos : 0 < host.bufferSize) {fuel : ℕ} {data : List V}
    (hfuel : input.buffer.length + data.length < fuel) :
    InputCallback.fill host fuel input data ≠ .error .hang ∧
      (EncodesFrames host → Returns (InputCallback.fill host fuel input data)) := by
  induction fuel generalizing input before data with
  | zero => exact absurd hfuel (Nat.not_lt_zero _)
  | succ fuel ih =>
      rw [InputCallback.fill]
      split
      · next hmore =>
          have hle := h.length_le
          have hlen : (input.buffer ++
              data.take (host.bufferSize - input.buffer.length)).length = host.bufferSize := by
            rw [List.length_append, List.length_take]
            omega
          rw [checkedSub, if_pos hle, ok_bind, encodeBuffer_eq h.transformers_eq, bind_assoc]
          cases hbytes : host.encodeVecFloat input.encoded
              (input.buffer ++ data.take (host.bufferSize - input.buffer.length))
              host.bufferSize with
          | none =>
              refine ⟨(by intro hhang; cases hhang), fun hencodes => ?_⟩
              have hsome := hencodes input.encoded _ hlen
              rw [hbytes] at hsome
              cases hsome
          | some bytes =>
              refine ih (h.iterate hmore bytes) ?_
              rw [List.length_nil, List.length_drop]
              omega
      · next hless => exact ⟨(by intro hhang; cases hhang), fun _ => returns_ok _⟩

/-! ## The callbacks -/

theorem length_samples (call : InputCall T) : (samples host call).length = call.data.length :=
  List.length_map _

theorem received_cons (call : InputCall T) (rest : List (InputCall T)) :
    received host (call :: rest) =
      (if call.phase.isConnected then samples host call else []) ++ received host rest := by
  unfold received
  cases hphase : call.phase.isConnected <;> simp [hphase]

theorem Framed.callback (h : Framed host.bufferSize input before) {call : InputCall T}
    (hcall : callback host input call = .ok input') :
    Framed host.bufferSize input'
      (before ++ if call.phase.isConnected then samples host call else []) := by
  unfold InputCallback.callback at hcall
  split at hcall
  · next hphase =>
      rw [if_pos hphase]
      exact h.fill hcall
  · next hphase =>
      cases hcall
      rw [if_neg hphase, List.append_nil]
      exact h

theorem Framed.callback_ends (h : Framed host.bufferSize input before)
    (hpos : 0 < host.bufferSize) (call : InputCall T) :
    InputCallback.callback host input call ≠ .error .hang ∧
      (EncodesFrames host → Returns (InputCallback.callback host input call)) := by
  unfold InputCallback.callback
  split
  · refine h.fill_ends hpos ?_
    rw [length_samples]
    exact Nat.lt_succ_self _
  · exact ⟨(by intro hhang; cases hhang), fun _ => returns_ok _⟩

/-- Several callbacks, one after the other. -/
theorem Framed.calls (h : Framed host.bufferSize input before) (hpos : 0 < host.bufferSize)
    (calls : List (InputCall T)) :
    calls.foldlM (InputCallback.callback host) input ≠ .error .hang ∧
      (EncodesFrames host → Returns (calls.foldlM (InputCallback.callback host) input)) ∧
      ∀ input', calls.foldlM (InputCallback.callback host) input = .ok input' →
        Framed host.bufferSize input' (before ++ received host calls) := by
  induction calls generalizing input before with
  | nil =>
      refine ⟨(by intro hhang; cases hhang), fun _ => returns_ok _, fun input' hrun => ?_⟩
      cases hrun
      rw [received, List.filter_nil, List.flatMap_nil, List.append_nil]
      exact h
  | cons call rest ih =>
      obtain ⟨hhang, hreturns⟩ := h.callback_ends hpos call
      rw [List.foldlM_cons]
      cases hcall : InputCallback.callback host input call with
      | error fault =>
          rw [hcall] at hhang hreturns
          refine ⟨fun herror => hhang ?_, fun hencodes => ?_, fun input' hrun => ?_⟩
          · cases herror
            rfl
          · exact absurd (hreturns hencodes) (not_returns_error fault)
          · cases hrun
      | ok next =>
          have hrest := ih (h.callback hcall)
          rw [List.append_assoc, ← received_cons] at hrest
          exact hrest

/-- **The microphone is cut into frames.**  Without transformers, whatever the
callbacks bring, every frame that is encoded has the size of the buffer, the
frames and the buffer are what was received, and no callback runs for ever. -/
theorem encodes_received (host : InputHost σ T V) (hpos : 0 < host.bufferSize)
    (calls : List (InputCall T)) :
    calls.foldlM (InputCallback.callback host) (new []) ≠ .error .hang ∧
      (EncodesFrames host → Returns (calls.foldlM (InputCallback.callback host) (new []))) ∧
      ∀ input, calls.foldlM (InputCallback.callback host) (new []) = .ok input →
        (∀ frame ∈ input.encoded, frame.length = host.bufferSize) ∧
        input.buffer.length ≤ host.bufferSize ∧
        input.encoded.flatten ++ input.buffer = received host calls := by
  have hnew : Framed host.bufferSize (new [] : InputCallback σ V) [] :=
    ⟨rfl, (fun frame hframe => by cases hframe), Nat.zero_le _, rfl⟩
  obtain ⟨hhang, hreturns, hframed⟩ := hnew.calls hpos calls
  refine ⟨hhang, hreturns, fun input hrun => ?_⟩
  have h := hframed input hrun
  exact ⟨h.length_eq, h.length_le, h.flatten_eq⟩

/-- A microphone of floats at full volume, in frames of two samples. -/
def twoSamples : InputHost Unit F32 F32 where
  toF32 := id
  mul := fun v _ => v
  transform := fun e acc => .ok (e, some acc)
  encodeVecFloat := fun _ _ _ => some [0xe0]
  bufferSize := 2

/-- A full buffer waits for the next sample. -/
example : callback twoSamples (new []) ⟨.connected .udp, F32.one, [0, 0]⟩ =
    .ok ⟨[0, 0], [], [], []⟩ := by decide

theorem encodes_received_twoSamples :
    [⟨.connected .udp, F32.one, [0, 0, 0]⟩].foldlM (callback twoSamples) (new []) ≠
        .error .hang ∧
      (EncodesFrames twoSamples →
        Returns ([⟨.connected .udp, F32.one, [0, 0, 0]⟩].foldlM (callback twoSamples) (new []))) ∧
      ∀ input, [⟨.connected .udp, F32.one, [0, 0, 0]⟩].foldlM (callback twoSamples) (new []) =
          .ok input →
        (∀ frame ∈ input.encoded, frame.length = 2) ∧ input.buffer.length ≤ 2 ∧
        input.encoded.flatten ++ input.buffer =
          received twoSamples [⟨.connected .udp, F32.one, [0, 0, 0]⟩] :=
  encodes_received twoSamples (by decide) _

end InputCallback

end Mum
