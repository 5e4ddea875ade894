import Mum.Audio.Input

/-!
# The microphone behind its gate

`mum/src/audio/input.rs`: the input device gives its callback a noise gate, unless
the configuration disables it.  The gate sees a frame only once the callback has
filled it, whatever the lengths of the data were, and the encoder sees only the
frames that the gate lets through.

Samples and volumes are floats here: `GateFloats` is what the gate does with them,
rounding and NaN included.  A comparison that has no answer is a failed `unwrap`.

## Strategy

`Selection` is the shape of such transformers: they let frames through as they are,
or not at all, and may fail on a frame that is not fit for them.  `Cut` is the
invariant of the loop under them.  It adds to `Framed` the frames that were filled,
of which the encoder only saw some.  The gate is a selection since its counter is a
`Window` over the loud frames; which frames are loud is said with the comparisons
that the gate makes, and so needs nothing of the floats.
-/

namespace Mum

open Library Library.Eval Msgs

/-! ## Transformers that select frames -/

section Selecting

variable {σ T V : Type}

/-- What a list of transformers is after some frames, and which frames it lets
through. -/
structure Selection (transform : σ → Buffer V → Eval (σ × Option (Buffer V))) (bufferSize : ℕ) where
  After : List σ → List (List V) → Prop
  passed : List (List V) → List (List V)
  passed_nil : passed [] = []
  /-- The frames that can be transformed. -/
  Fit : List V → Prop
  returns : ∀ {transformers : List σ} {frames : List (List V)} {frame : List V},
    After transformers frames → frame.length = bufferSize →
    tryFold transform transformers (.mono, frame) ≠ .error .hang ∧
      (Fit frame → Returns (tryFold transform transformers (.mono, frame)))
  transforms : ∀ {transformers transformers' : List σ} {frames : List (List V)} {frame : List V}
    {out : Option (Buffer V)}, After transformers frames →
    tryFold transform transformers (.mono, frame) = .ok (transformers', out) →
    After transformers' (frames ++ [frame]) ∧
      (out = some (.mono, frame) ∧ passed (frames ++ [frame]) = passed frames ++ [frame] ∨
        out = none ∧ passed (frames ++ [frame]) = passed frames)

/-- Whatever frame is made of the samples can be transformed. -/
def Selection.Fits {transform : σ → Buffer V → Eval (σ × Option (Buffer V))} {bufferSize : ℕ}
    (sel : Selection transform bufferSize) (samples : List V) : Prop :=
  ∀ frame, frame.length = bufferSize → frame ⊆ samples → sel.Fit frame

/-- Without transformers every frame passes. -/
def Selection.ofNil (transform : σ → Buffer V → Eval (σ × Option (Buffer V))) (bufferSize : ℕ) :
    Selection transform bufferSize where
  After transformers _ := transformers = []
  passed frames := frames
  passed_nil := rfl
  Fit _ := True
  returns := by
    rintro transformers frames frame rfl -
    exact ⟨(by intro hhang; cases hhang), fun _ => returns_ok _⟩
  transforms := by
    rintro transformers transformers' frames frame out rfl hfold
    cases hfold
    exact ⟨rfl, .inl ⟨rfl, rfl⟩⟩

namespace InputCallback

/-- The packets are what the encoder makes of the frames, one after the other. -/
def Packets (host : InputHost σ T V) (input : InputCallback σ V) : Prop :=
  input.sent.length = input.encoded.length ∧
  ∀ k frame, input.encoded[k]? = some frame →
    host.encodeVecFloat (input.encoded.take k) frame host.bufferSize = input.sent[k]?

/-- Frames of the right size, of which the selected ones were encoded, and no
sample lost, repeated or reordered. -/
structure Cut (host : InputHost σ T V) (sel : Selection host.transform host.bufferSize)
    (input : InputCallback σ V) (frames : List (List V)) (received : List V) : Prop where
  after : sel.After input.transformers frames
  length_eq : ∀ frame ∈ frames, frame.length = host.bufferSize
  length_le : input.buffer.length ≤ host.bufferSize
  flatten_eq : frames.flatten ++ input.buffer = received
  encoded_eq : input.encoded = sel.passed frames
  packets : input.Packets host

variable {host : InputHost σ T V} {sel : Selection host.transform host.bufferSize}
  {input input' : InputCallback σ V} {frames : List (List V)} {before : List V}

theorem Cut.new {transformers : List σ} (h : sel.After transformers []) :
    Cut host sel (new transformers) [] [] where
  after := h
  length_eq frame hframe := by cases hframe
  length_le := Nat.zero_le _
  flatten_eq := rfl
  encoded_eq := sel.passed_nil.symm
  packets := ⟨rfl, fun k frame hframe => by cases hframe⟩

/-- One more frame is encoded into one more packet. -/
theorem Packets.concat (h : input.Packets host) {frame : List V} {bytes : Bytes}
    (hbytes : host.encodeVecFloat input.encoded frame host.bufferSize = some bytes)
    (transformers : List σ) (buffer : List V) :
    Packets host ⟨buffer, transformers, input.encoded ++ [frame], input.sent ++ [bytes]⟩ := by
  obtain ⟨hlen, hall⟩ := h
  refine ⟨by rw [List.length_append, List.length_append, hlen]; rfl, fun k frame' hframe' => ?_⟩
  dsimp only at hframe' ⊢
  rcases Nat.lt_trichotomy k input.encoded.length with hlt | rfl | hgt
  · rw [List.getElem?_append_left hlt] at hframe'
    rw [List.take_append_of_le_length (Nat.le_of_lt hlt),
      List.getElem?_append_left (hlen ▸ hlt)]
    exact hall k frame' hframe'
  · rw [List.getElem?_concat_length] at hframe'
    cases hframe'
    rw [List.take_left, hbytes, ← hlen, List.getElem?_concat_length]
  · rw [List.getElem?_eq_none (by rw [List.length_append, List.length_singleton]; omega)]
      at hframe'
    cases hframe'

/-- What is in the buffer was received. -/
theorem Cut.buffer_subset (h : Cut host sel input frames before) : input.buffer ⊆ before := by
  rw [← h.flatten_eq]
  exact List.subset_append_right ..

/-- A frame that was filled is encoded if it is selected, and the buffer is
cleared. -/
theorem Cut.encodeBuffer (h : Cut host sel input frames before) {taken : List V}
    (hlen : (input.buffer ++ taken).length = host.bufferSize) :
    InputCallback.encodeBuffer host { input with buffer := input.buffer ++ taken } ≠
        .error .hang ∧
      (EncodesFrames host → sel.Fits (before ++ taken) → Returns
        (InputCallback.encodeBuffer host { input with buffer := input.buffer ++ taken })) ∧
      ∀ input', InputCallback.encodeBuffer host { input with buffer := input.buffer ++ taken } =
          .ok input' →
        Cut host sel { input' with buffer := [] } (frames ++ [input.buffer ++ taken])
          (before ++ taken) := by
  obtain ⟨hhang, hreturns⟩ := sel.returns h.after hlen
  have hsubset : input.buffer ++ taken ⊆ before ++ taken :=
    List.append_subset.mpr ⟨List.Subset.trans h.buffer_subset (List.subset_append_left ..),
      List.subset_append_right ..⟩
  have hlength : ∀ frame ∈ frames ++ [input.buffer ++ taken],
      frame.length = host.bufferSize := by
    intro frame hframe
    rcases List.mem_append.mp hframe with hold | hnew
    · exact h.length_eq frame hold
    · rw [List.mem_singleton.mp hnew, hlen]
  have hflatten : (frames ++ [input.buffer ++ taken]).flatten ++ [] = before ++ taken := by
    rw [← h.flatten_eq, List.flatten_append, List.flatten_singleton, List.append_nil,
      List.append_assoc]
  unfold InputCallback.encodeBuffer
  dsimp only
  cases hfold : tryFold host.transform input.transformers (.mono, input.buffer ++ taken) with
  | error fault =>
      rw [hfold] at hhang hreturns
      refine ⟨fun herror => hhang ?_, fun _ hfits => ?_, fun input' hrun => ?_⟩
      · cases herror
        rfl
      · exact absurd (hreturns (hfits _ hlen hsubset)) (not_returns_error fault)
      · cases hrun
  | ok result =>
      obtain ⟨transformers', out⟩ := result
      obtain ⟨hafter, hout⟩ := sel.transforms h.after hfold
      rw [ok_bind]
      dsimp only
      rcases hout with ⟨rfl, hpassed⟩ | ⟨rfl, hpassed⟩
      · dsimp only
        cases hbytes : host.encodeVecFloat input.encoded (input.buffer ++ taken)
            host.bufferSize with
        | none =>
            refine ⟨(by intro hhang; cases hhang), fun hencodes _ => ?_, fun input' hrun => ?_⟩
            · have hsome := hencodes input.encoded _ hlen
              rw [hbytes] at hsome
              cases hsome
            · cases hrun
        | some bytes =>
            refine ⟨(by intro hhang; cases hhang), fun _ _ => returns_ok _, fun input' hrun => ?_⟩
            cases hrun
            exact ⟨hafter, hlength, Nat.zero_le _, hflatten, by rw [hpassed, ← h.encoded_eq],
              h.packets.concat hbytes _ _⟩
      · refine ⟨(by intro hhang; cases hhang), fun _ _ => returns_ok _, fun input' hrun => ?_⟩
        cases hrun
        exact ⟨hafter, hlength, Nat.zero_le _, hflatten, by rw [hpassed, ← h.encoded_eq],
          h.packets⟩

/-- The loop: it ends, returns if the encoder does, and keeps the invariant. -/
theorem Cut.fill (h : Cut host sel input frames before) (hpos : 0 < host.bufferSize)
    {fuel : ℕ} {data : List V} (hfuel : input.buffer.length + data.length < fuel) :
    InputCallback.fill host fuel input data ≠ .error .hang ∧
      (EncodesFrames host → sel.Fits (before ++ data) →
        Returns (InputCallback.fill host fuel input data)) ∧
      ∀ input', InputCallback.fill host fuel input data = .ok input' →
        ∃ frames', Cut host sel input' frames' (before ++ data) := by
  induction fuel generalizing input frames before data with
  | zero => exact absurd hfuel (Nat.not_lt_zero _)
  | succ fuel ih =>
      have hle := h.length_le
      rw [InputCallback.fill]
      split
      · next hmore =>
          have hlen : (input.buffer ++
              data.take (host.bufferSize - input.buffer.length)).length = host.bufferSize := by
            rw [List.length_append, List.length_take]
            omega
          obtain ⟨hhang, hreturns, hcut⟩ := h.encodeBuffer hlen
          rw [checkedSub, if_pos hle, ok_bind]
          cases hbuffer : InputCallback.encodeBuffer host { input with
              buffer := input.buffer ++ data.take (host.bufferSize - input.buffer.length) } with
          | error fault =>
              rw [hbuffer] at hhang hreturns
              refine ⟨fun herror => hhang ?_, fun hencodes hfits => ?_, fun input' hrun => ?_⟩
              · cases herror
                rfl
              · refine absurd (hreturns hencodes fun frame hframe hsubset => ?_)
                  (not_returns_error fault)
                refine hfits frame hframe (List.Subset.trans hsubset ?_)
                exact List.append_subset.mpr ⟨List.subset_append_left ..,
                  List.Subset.trans (List.take_subset ..) (List.subset_append_right ..)⟩
              · cases hrun
          | ok next =>
              have hless : ([] : List V).length +
                  (data.drop (host.bufferSize - input.buffer.length)).length < fuel := by
                rw [List.length_nil, List.length_drop]
                omega
              have hnext := ih (hcut next hbuffer) hless
              rw [List.append_assoc, List.take_append_drop] at hnext
              exact hnext
      · next hless =>
          refine ⟨(by intro hhang; cases hhang), fun _ _ => returns_ok _, fun input' hrun => ?_⟩
          cases hrun
          refine ⟨frames, h.after, h.length_eq, ?_, ?_, h.encoded_eq, h.packets⟩
          · rw [List.length_append]
            omega
          · rw [← h.flatten_eq, List.append_assoc]

theorem Cut.callback (h : Cut host sel input frames before) (hpos : 0 < host.bufferSize)
    (call : InputCall T) :
    InputCallback.callback host input call ≠ .error .hang ∧
      (EncodesFrames host →
        sel.Fits (before ++ if call.phase.isConnected then samples host call else []) →
        Returns (InputCallback.callback host input call)) ∧
      ∀ input', InputCallback.callback host input call = .ok input' →
        ∃ frames', Cut host sel input' frames'
          (before ++ if call.phase.isConnected then samples host call else []) := by
  unfold InputCallback.callback
  split
  · refine h.fill hpos ?_
    rw [length_samples]
    exact Nat.lt_succ_self _
  · refine ⟨(by intro hhang; cases hhang), fun _ _ => returns_ok _, fun input' hrun => ?_⟩
    cases hrun
    rw [List.append_nil]
    exact ⟨frames, h⟩

/-- Several callbacks, one after the other. -/
theorem Cut.calls (h : Cut host sel input frames before) (hpos : 0 < host.bufferSize)
    (calls : List (InputCall T)) :
    calls.foldlM (InputCallback.callback host) input ≠ .error .hang ∧
      (EncodesFrames host → sel.Fits (before ++ received host calls) →
        Returns (calls.foldlM (InputCallback.callback host) input)) ∧
      ∀ input', calls.foldlM (InputCallback.callback host) input = .ok input' →
        ∃ frames', Cut host sel input' frames' (before ++ received host calls) := by
  induction calls generalizing input frames before with
  | nil =>
      refine ⟨(by intro hhang; cases hhang), fun _ _ => returns_ok _, fun input' hrun => ?_⟩
      cases hrun
      rw [received, List.filter_nil, List.flatMap_nil, List.append_nil]
      exact ⟨frames, h⟩
  | cons call rest ih =>
      obtain ⟨hhang, hreturns, hcut⟩ := h.callback hpos call
      rw [List.foldlM_cons]
      cases hcall : InputCallback.callback host input call with
      | error fault =>
          rw [hcall] at hhang hreturns
          refine ⟨fun herror => hhang ?_, fun hencodes hfits => ?_, fun input' hrun => ?_⟩
          · cases herror
            rfl
          · refine absurd (hreturns hencodes fun frame hframe hsubset => ?_)
              (not_returns_error fault)
            refine hfits frame hframe (List.Subset.trans hsubset ?_)
            rw [received_cons, ← List.append_assoc]
            exact List.subset_append_left ..
          · cases hrun
      | ok next =>
          obtain ⟨frames', hnext⟩ := hcut next hcall
          have hrest := ih hnext
          rw [List.append_assoc, ← received_cons] at hrest
          exact hrest

end InputCallback

end Selecting

/-! ## The gate on floats -/

/-- What the gate does with `f32`. -/
structure GateFloats (V : Type) where
  zero : V
  abs : V → V
  mul : V → V → V
  /-- `MUTE_PERCENTAGE`. -/
  mutePercentage : V
  /-- There is no answer if one of the two is NaN. -/
  partialCmp : V → V → Option Ordering

section Gate

variable {T V : Type}

namespace GateFloats

/-- `a > b`. -/
def gt (floats : GateFloats V) (a b : V) : Bool := floats.partialCmp a b = some .gt

/-- The comparison of `max_by`. -/
def greater (floats : GateFloats V) (a b : V) : Eval V := do
  let ordering ← unwrap (floats.partialCmp a b)
  .ok (if ordering = .gt then a else b)

/-- The highest amplitude in a buffer. -/
def peak (floats : GateFloats V) (buf : List V) : Eval V :=
  match buf.map floats.abs with
  | [] => .error .panic
  | first :: rest => rest.foldlM floats.greater first

/-- `NoiseGate::transform`. -/
def transform (floats : GateFloats V) (gate : NoiseGate V) :
    Buffer V → Eval (NoiseGate V × Option (Buffer V))
  | (channels, buf) => do
      let max ← floats.peak buf
      let alltimeHigh := if floats.gt max gate.alltimeHigh then max else gate.alltimeHigh
      let openFrames :=
        if floats.gt max (floats.mul alltimeHigh floats.mutePercentage) then
          gate.deactivationDelay
        else if 0 < gate.openFrames then gate.openFrames - 1
        else gate.openFrames
      let gate := { gate with alltimeHigh := alltimeHigh, openFrames := openFrames }
      .ok (gate, if openFrames = 0 then none else some (channels, buf))

/-! ### Loud frames -/

/-- The all-time high after one more frame. -/
def raise (floats : GateFloats V) (high : V) (frame : List V) : V :=
  match floats.peak frame with
  | .error _ => high
  | .ok max => if floats.gt max high then max else high

/-- The all-time high after some frames. -/
def high (floats : GateFloats V) (frames : List (List V)) : V :=
  frames.foldl floats.raise floats.zero

/-- The peak of frame `j` exceeds the given part of the all-time high up to it. -/
def Loud (floats : GateFloats V) (frames : List (List V)) (j : ℕ) : Prop :=
  ∃ max ∈ frames[j]?.bind fun frame => (floats.peak frame).toOption,
    floats.gt max (floats.mul (floats.high (frames.take (j + 1))) floats.mutePercentage)

/-- One of the last `delay` frames up to frame `k` is loud. -/
def Passes (floats : GateFloats V) (delay : ℕ) (frames : List (List V)) (k : ℕ) : Prop :=
  ∃ j ≤ k, k < j + delay ∧ floats.Loud frames j

instance (floats : GateFloats V) (frames : List (List V)) (j : ℕ) :
    Decidable (floats.Loud frames j) :=
  inferInstanceAs (Decidable (∃ max, max ∈ _ ∧ _))

instance (floats : GateFloats V) (delay : ℕ) (frames : List (List V)) (k : ℕ) :
    Decidable (floats.Passes delay frames k) :=
  inferInstanceAs (Decidable (∃ j, j ≤ k ∧ (k < j + delay ∧ floats.Loud frames j)))

/-- The frames of a microphone that pass the gate, in order. -/
def passed (floats : GateFloats V) (delay : ℕ) (frames : List (List V)) : List (List V) :=
  (frames.zipIdx.filter fun entry => floats.Passes delay frames entry.2).map Prod.fst

variable {floats : GateFloats V}

theorem loud_append {frames : List (List V)} {j : ℕ} (hj : j < frames.length)
    (more : List (List V)) : floats.Loud (frames ++ more) j ↔ floats.Loud frames j := by
  unfold Loud
  rw [List.getElem?_append_left hj, List.take_append_of_le_length hj]

theorem passes_append {delay k : ℕ} {frames : List (List V)} (hk : k < frames.length)
    (more : List (List V)) :
    floats.Passes delay (frames ++ more) k ↔ floats.Passes delay frames k := by
  unfold Passes
  refine exists_congr fun j => and_congr_right fun hj => and_congr_right fun _ => ?_
  exact loud_append (by omega) more

theorem high_concat (frames : List (List V)) (frame : List V) :
    floats.high (frames ++ [frame]) = floats.raise (floats.high frames) frame :=
  List.foldl_concat ..

theorem loud_concat {frames : List (List V)} {frame : List V} {max : V}
    (hmax : floats.peak frame = .ok max) :
    floats.Loud (frames ++ [frame]) frames.length ↔
      floats.gt max (floats.mul (floats.high (frames ++ [frame])) floats.mutePercentage) := by
  have htake : (frames ++ [frame]).take (frames.length + 1) = frames ++ [frame] :=
    List.take_of_length_le (by rw [List.length_append, List.length_singleton])
  unfold Loud
  rw [List.getElem?_concat_length, htake, Option.bind_some, hmax]
  constructor
  · rintro ⟨max', hmax', hloud⟩
    cases hmax'
    exact hloud
  · exact fun hloud => ⟨max, rfl, hloud⟩

theorem passed_concat (delay : ℕ) (frames : List (List V)) (frame : List V) :
    floats.passed delay (frames ++ [frame]) = floats.passed delay frames ++
      if floats.Passes delay (frames ++ [frame]) frames.length then [frame] else [] := by
  have hold : frames.zipIdx.filter (fun entry =>
        decide (floats.Passes delay (frames ++ [frame]) entry.2)) =
      frames.zipIdx.filter (fun entry => decide (floats.Passes delay frames entry.2)) := by
    refine List.filter_congr fun entry hentry => ?_
    have hlt := List.snd_lt_of_mem_zipIdx hentry
    rw [decide_eq_decide]
    exact passes_append (by omega) _
  unfold passed
  rw [List.zipIdx_append, List.filter_append, List.map_append, hold]
  congr 1
  rw [Nat.zero_add, List.zipIdx_singleton, List.filter_singleton]
  split <;> simp_all

/-! ### The gate selects frames -/

/-- What a gate remembers of the frames that it was fed. -/
structure Tracks (floats : GateFloats V) (gate : NoiseGate V) (frames : List (List V)) : Prop where
  alltimeHigh_eq : gate.alltimeHigh = floats.high frames
  window : Window gate.deactivationDelay gate.openFrames (floats.Loud frames) frames.length

theorem tracks_new (delay : ℕ) : floats.Tracks ⟨floats.zero, 0, delay⟩ [] :=
  ⟨rfl, .start delay (floats.Loud [])⟩

/-- One frame is tracked, and passes if the gate is still open after it. -/
theorem Tracks.transform {gate gate' : NoiseGate V} {frames : List (List V)} {frame : List V}
    {out : Option (Buffer V)} (h : floats.Tracks gate frames)
    (htransform : floats.transform gate (.mono, frame) = .ok (gate', out)) :
    floats.Tracks gate' (frames ++ [frame]) ∧ gate'.deactivationDelay = gate.deactivationDelay ∧
      out = if floats.Passes gate.deactivationDelay (frames ++ [frame]) frames.length
        then some (.mono, frame) else none := by
  obtain ⟨max, hmax, htransform⟩ := bind_eq_ok.mp htransform
  cases htransform
  have hhigh : (if floats.gt max gate.alltimeHigh then max else gate.alltimeHigh) =
      floats.high (frames ++ [frame]) := by
    rw [high_concat, raise, hmax, h.alltimeHigh_eq]
  have hquiet : (if 0 < gate.openFrames then gate.openFrames - 1 else gate.openFrames) =
      gate.openFrames - 1 := by
    split <;> omega
  have hwindow : Window gate.deactivationDelay gate.openFrames (floats.Loud (frames ++ [frame]))
      frames.length := h.window.congr fun j hj => (loud_append hj _).symm
  rw [hhigh, hquiet]
  have hwindow' : Window gate.deactivationDelay
      (if floats.gt max (floats.mul (floats.high (frames ++ [frame])) floats.mutePercentage) then
        gate.deactivationDelay else gate.openFrames - 1)
      (floats.Loud (frames ++ [frame])) (frames.length + 1) := by
    split
    · next hgt => exact .set ((loud_concat hmax).mpr hgt)
    · next hgt => exact hwindow.down fun hloud => hgt ((loud_concat hmax).mp hloud)
  refine ⟨⟨rfl, ?_⟩, rfl, ?_⟩
  · rw [List.length_append, List.length_singleton]
    exact hwindow'
  · have hpasses : _ ↔ floats.Passes gate.deactivationDelay (frames ++ [frame]) frames.length :=
      hwindow'.ne_zero_iff
    rw [← ite_not]
    exact if_congr hpasses rfl rfl

/-- All amplitudes can be compared. -/
def Comparable (floats : GateFloats V) (samples : List V) : Prop :=
  ∀ v ∈ samples, ∀ w ∈ samples, (floats.partialCmp (floats.abs v) (floats.abs w)).isSome

theorem foldlM_greater_returns {amplitudes : List V} {first : V}
    (h : ∀ v ∈ first :: amplitudes, ∀ w ∈ first :: amplitudes, (floats.partialCmp v w).isSome) :
    Returns (amplitudes.foldlM floats.greater first) := by
  induction amplitudes generalizing first with
  | nil => exact returns_ok first
  | cons next rest ih =>
      obtain ⟨ordering, hordering⟩ :=
        Option.isSome_iff_exists.mp (h first (by simp) next (by simp))
      rw [List.foldlM_cons, greater, hordering, unwrap_some, ok_bind, ok_bind]
      refine ih fun v hv w hw => ?_
      have hmem : ∀ v ∈ (if ordering = .gt then first else next) :: rest,
          v ∈ first :: next :: rest := by
        intro v hv
        split at hv <;> simp_all
        tauto
      exact h v (hmem v hv) w (hmem w hw)

/-- A frame of samples that can be compared has a peak. -/
theorem peak_returns {frame : List V} (hframe : frame ≠ []) (h : floats.Comparable frame) :
    Returns (floats.peak frame) := by
  unfold peak
  cases frame with
  | nil => exact absurd rfl hframe
  | cons first rest =>
      refine foldlM_greater_returns fun high hhigh high' hhigh' => ?_
      rw [← List.map_cons] at hhigh hhigh'
      obtain ⟨v, hv, rfl⟩ := List.mem_map.mp hhigh
      obtain ⟨w, hw, rfl⟩ := List.mem_map.mp hhigh'
      exact h v hv w hw

theorem foldlM_greater_ne_hang (amplitudes : List V) (first : V) :
    amplitudes.foldlM floats.greater first ≠ .error .hang := by
  induction amplitudes generalizing first with
  | nil =>
      intro h
      cases h
  | cons next rest ih =>
      rw [List.foldlM_cons, greater]
      cases floats.partialCmp first next with
      | none =>
          intro h
          cases h
      | some ordering => exact ih _

theorem peak_ne_hang (floats : GateFloats V) (frame : List V) :
    floats.peak frame ≠ .error .hang := by
  unfold peak
  cases frame.map floats.abs with
  | nil =>
      intro h
      cases h
  | cons first rest => exact foldlM_greater_ne_hang rest first

/-- `NoiseGate::new`. -/
def new (floats : GateFloats V) (deactivationDelay : ℕ) : NoiseGate V :=
  ⟨floats.zero, 0, deactivationDelay⟩

/-- A new gate selects the frames with a loud one among the last `delay`. -/
def selection (floats : GateFloats V) (delay : ℕ) {bufferSize : ℕ} (hpos : 0 < bufferSize) :
    Selection floats.transform bufferSize where
  After transformers frames := ∃ gate, transformers = [gate] ∧ floats.Tracks gate frames ∧
    gate.deactivationDelay = delay
  passed := floats.passed delay
  passed_nil := rfl
  Fit := floats.Comparable
  returns := by
    rintro transformers frames frame ⟨gate, rfl, htracks, rfl⟩ hlen
    have hframe : frame ≠ [] := by
      rintro rfl
      rw [← hlen] at hpos
      exact absurd hpos (Nat.lt_irrefl 0)
    cases hpeak : floats.peak frame with
    | error fault =>
        have hfold : tryFold floats.transform [gate] (.mono, frame) = .error fault := by
          rw [tryFold, transform, hpeak]
          rfl
        rw [hfold]
        refine ⟨fun hhang => ?_, fun hfit => ?_⟩
        · cases hhang
          exact peak_ne_hang floats frame hpeak
        · obtain ⟨max, hmax⟩ := peak_returns hframe hfit
          cases hpeak.symm.trans hmax
    | ok max =>
        obtain ⟨⟨gate', out⟩, htransform⟩ : Returns (floats.transform gate (.mono, frame)) := by
          rw [transform, hpeak, ok_bind]
          exact returns_ok _
        rw [tryFold_singleton htransform]
        exact ⟨(by intro hhang; cases hhang), fun _ => returns_ok _⟩
  transforms := by
    rintro transformers transformers' frames frame out ⟨gate, rfl, htracks, rfl⟩ hfold
    cases htransform : floats.transform gate (.mono, frame) with
    | error fault =>
        rw [tryFold, htransform] at hfold
        cases hfold
    | ok result =>
        obtain ⟨gate', out'⟩ := result
        rw [tryFold_singleton htransform] at hfold
        cases hfold
        obtain ⟨htracks', hdelay, hout⟩ := htracks.transform htransform
        refine ⟨⟨gate', rfl, htracks', hdelay⟩, ?_⟩
        rw [passed_concat]
        by_cases hpasses :
            floats.Passes gate.deactivationDelay (frames ++ [frame]) frames.length
        · exact .inl ⟨by rw [hout, if_pos hpasses], by rw [if_pos hpasses]⟩
        · exact .inr ⟨by rw [hout, if_neg hpasses], by rw [if_neg hpasses, List.append_nil]⟩

/-! ### Exact numbers -/

section Exact

variable [Field V] [LinearOrder V]

/-- Numbers without NaN and without rounding. -/
def exact (V : Type) [Field V] [LinearOrder V] : GateFloats V where
  zero := 0
  abs := fun v => |v|
  mul := (· * ·)
  mutePercentage := NoiseGate.mutePercentage
  partialCmp a b := some (compare a b)

theorem exact_gt (a b : V) : (exact V).gt a b = decide (b < a) := by
  rw [gt, exact, decide_eq_decide, Option.some.injEq, compare_gt_iff_gt]

theorem exact_foldlM_greater (amplitudes : List V) (first : V) :
    amplitudes.foldlM (exact V).greater first = .ok (amplitudes.foldl max first) := by
  induction amplitudes generalizing first with
  | nil => rfl
  | cons next rest ih =>
      have hgreater : (exact V).greater first next = .ok (max first next) := by
        rw [greater, exact, unwrap_some, ok_bind]
        by_cases hlt : next < first
        · rw [if_pos (compare_gt_iff_gt.mpr hlt), max_eq_left_of_lt hlt]
        · rw [if_neg fun h => hlt (compare_gt_iff_gt.mp h), max_eq_right (not_lt.mp hlt)]
      rw [List.foldlM_cons, hgreater, ok_bind, ih, List.foldl_cons]

theorem exact_peak (buf : List V) : (exact V).peak buf = unwrap (buf.map fun v => |v|).max? := by
  unfold peak
  cases buf with
  | nil => rfl
  | cons first rest =>
      rw [List.map_cons]
      exact exact_foldlM_greater _ _

/-- On exact numbers this is the gate of `NoiseGate`. -/
theorem exact_transform (gate : NoiseGate V) : (exact V).transform gate = gate.transform := by
  funext frame
  obtain ⟨channels, buf⟩ := frame
  rw [transform, NoiseGate.transform, exact_peak]
  simp only [exact_gt, decide_eq_true_eq]
  rfl

end Exact

end GateFloats

/-! ## The gate of the input device -/

namespace DefaultAudioInputDevice

/-- The transformers that `new` makes. -/
def transformers (floats : GateFloats V) (disableNoiseGate : Bool) : List (NoiseGate V) :=
  if disableNoiseGate then [] else [floats.new 50]

/-- The frames that are encoded. -/
def kept (floats : GateFloats V) (disableNoiseGate : Bool) (frames : List (List V)) :
    List (List V) :=
  if disableNoiseGate then frames else floats.passed 50 frames

/-- The callback of the device transforms with noise gates. -/
def gated (floats : GateFloats V) (host : InputHost (NoiseGate V) T V) :
    InputHost (NoiseGate V) T V :=
  { host with transform := floats.transform }

/-- What the callback of a new device keeps after some calls. -/
def run (floats : GateFloats V) (host : InputHost (NoiseGate V) T V) (disableNoiseGate : Bool)
    (calls : List (InputCall T)) : Eval (InputCallback (NoiseGate V) V) :=
  calls.foldlM (InputCallback.callback (gated floats host))
    (.new (transformers floats disableNoiseGate))

/-- The device selects frames, with its gate or without. -/
theorem exists_selection (floats : GateFloats V) {bufferSize : ℕ} (hpos : 0 < bufferSize)
    (disableNoiseGate : Bool) :
    ∃ sel : Selection floats.transform bufferSize,
      sel.After (transformers floats disableNoiseGate) [] ∧
      sel.passed = kept floats disableNoiseGate ∧
      ∀ samples, disableNoiseGate ∨ floats.Comparable samples → sel.Fits samples := by
  cases disableNoiseGate with
  | true => exact ⟨.ofNil _ _, rfl, rfl, fun _ _ _ _ _ => trivial⟩
  | false =>
      refine ⟨floats.selection 50 hpos, ⟨floats.new 50, rfl, GateFloats.tracks_new 50, rfl⟩, rfl,
        fun samples hsamples frame _ hsubset => ?_⟩
      have hcomparable := hsamples.resolve_left Bool.false_ne_true
      exact fun v hv w hw => hcomparable v (hsubset hv) w (hsubset hw)

open InputCallback (EncodesFrames Cut received) in
/-- **The microphone behind its gate.**  Whatever the callbacks bring, what is
received is cut into frames of the size of the buffer and a rest.  With the gate
disabled all frames are encoded, and otherwise those with a loud one among the
last fifty, in order and as they are.  The gate stops the callback at most where
samples cannot be compared. -/
theorem encodes_kept (floats : GateFloats V) (host : InputHost (NoiseGate V) T V)
    (hpos : 0 < host.bufferSize) (disableNoiseGate : Bool) (calls : List (InputCall T)) :
    run floats host disableNoiseGate calls ≠ .error .hang ∧
      (EncodesFrames host → disableNoiseGate ∨ floats.Comparable (received host calls) →
        Returns (run floats host disableNoiseGate calls)) ∧
      ∀ input, run floats host disableNoiseGate calls = .ok input →
        ∃ frames, (∀ frame ∈ frames, frame.length = host.bufferSize) ∧
          input.buffer.length ≤ host.bufferSize ∧
          frames.flatten ++ input.buffer = received host calls ∧
          input.encoded = kept floats disableNoiseGate frames ∧ input.Packets host := by
  obtain ⟨sel, hafter, hpassed, hfits⟩ := exists_selection floats hpos disableNoiseGate
  have hnew : Cut (gated floats host) sel (.new (transformers floats disableNoiseGate)) [] [] :=
    .new hafter
  obtain ⟨hhang, hreturns, hcut⟩ := hnew.calls hpos calls
  refine ⟨hhang, fun hencodes hsamples => hreturns hencodes (hfits _ hsamples),
    fun input hrun => ?_⟩
  obtain ⟨frames, h⟩ := hcut input hrun
  exact ⟨frames, h.length_eq, h.length_le, h.flatten_eq, hpassed ▸ h.encoded_eq, h.packets⟩

/-- A microphone of rational samples, in frames of two, on exact numbers. -/
def rationalSamples : InputHost (NoiseGate ℚ) ℚ ℚ where
  toF32 := id
  mul := fun v _ => v
  transform := NoiseGate.transform
  encodeVecFloat := fun encoded _ _ => some [UInt8.ofNat encoded.length]
  bufferSize := 2

/-- Silence, a sound, and silence after it. -/
def oneSound : List (InputCall ℚ) :=
  [⟨.connected .udp, F32.one, [0, 0, 1]⟩, ⟨.disconnected, F32.one, [1 / 2]⟩,
    ⟨.connected .tcp, F32.one, [-1, 0, 0, 0]⟩]

/-- The gate keeps the first silence away from the encoder. -/
example : (run (.exact ℚ) rationalSamples false oneSound).map
    (fun input => (input.encoded, input.buffer)) = .ok ([[1, -1], [0, 0]], [0]) := by
  decide +kernel

open InputCallback (received) in
theorem encodes_kept_oneSound :
    Returns (run (.exact ℚ) rationalSamples false oneSound) ∧
      ∀ input, run (.exact ℚ) rationalSamples false oneSound = .ok input →
        ∃ frames, (∀ frame ∈ frames, frame.length = 2) ∧ input.buffer.length ≤ 2 ∧
          frames.flatten ++ input.buffer = received rationalSamples oneSound ∧
          input.encoded = kept (.exact ℚ) false frames ∧ input.Packets rationalSamples := by
  obtain ⟨-, hreturns, hinput⟩ :=
    encodes_kept (.exact ℚ) rationalSamples (by decide) false oneSound
  exact ⟨hreturns (fun _ _ _ => rfl) (.inr fun _ _ _ _ => rfl), hinput⟩

end DefaultAudioInputDevice

end Gate

end Mum
