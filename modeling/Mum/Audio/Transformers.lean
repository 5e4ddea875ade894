import Mathlib.Algebra.Field.Rat
import Mathlib.Algebra.Order.Field.Basic
import Mathlib.Algebra.Order.Ring.Rat
import Mum.Audio.Output
import Mum.Library.Window

/-!
# Transformers

`mum/src/audio/transformers.rs`: what is done to a frame of the microphone before
it is encoded.  A transformer may change the frame, or say that it is unwanted.

The noise gate lets loud frames through, and some frames after each.  A frame is
loud when it exceeds a tenth of the loudest one so far.  `Tracks` says what the
gate remembers of the frames before: the highest peak, and how many more quiet
frames it lets through.

The counter of the gate is the one of `Mum.Library.Window`, set at loud frames.  Whether a
frame is loud depends on those before it only (`loud_append`), so that `Tracks.transform` can
look at one frame and `Tracks.feed` goes along the frames.
-/

namespace Mum

open Library Library.Eval

/-- A buffer of samples and the channels they are for. -/
abbrev Buffer (V : Type) := Opus.Channels × List V

section

variable {σ V : Type} (transform : σ → Buffer V → Eval (σ × Option (Buffer V)))

/-- Transforms with one transformer after the other, up to one that does not
want the buffer. -/
def tryFold : List σ → Buffer V → Eval (List σ × Option (Buffer V))
  | [], acc => .ok ([], some acc)
  | e :: rest, acc => do
      let (e, out) ← transform e acc
      match out with
      | none => .ok (e :: rest, none)
      | some acc => do
          let (rest, out) ← tryFold rest acc
          .ok (e :: rest, out)

/-- What becomes of frames that are transformed one after the other. -/
def feed : List σ → List (Buffer V) → Eval (List (Option (Buffer V)))
  | _, [] => .ok []
  | transformers, frame :: rest => do
      let (transformers, out) ← tryFold transform transformers frame
      let outs ← feed transformers rest
      .ok (out :: outs)

variable {transform}

/-- A single transformer has the last word. -/
theorem tryFold_singleton {e e' : σ} {acc : Buffer V} {out : Option (Buffer V)}
    (h : transform e acc = .ok (e', out)) : tryFold transform [e] acc = .ok ([e'], out) := by
  rw [tryFold, h, ok_bind]
  cases out <;> rfl

end

/-- A noise gate transform. -/
structure NoiseGate (V : Type) where
  alltimeHigh : V
  /-- `open`: for how many quiet frames the gate stays open. -/
  openFrames : ℕ
  deactivationDelay : ℕ
deriving DecidableEq, Repr

variable {V : Type} [Field V] [LinearOrder V]

namespace NoiseGate

def mutePercentage : V := 1 / 10

def new (deactivationDelay : ℕ) : NoiseGate V := ⟨0, 0, deactivationDelay⟩

def transform (gate : NoiseGate V) : Buffer V → Eval (NoiseGate V × Option (Buffer V))
  | (channels, buf) => do
      let max ← unwrap (buf.map abs).max?
      let alltimeHigh := if gate.alltimeHigh < max then max else gate.alltimeHigh
      let openFrames :=
        if alltimeHigh * mutePercentage < max then gate.deactivationDelay
        else if 0 < gate.openFrames then gate.openFrames - 1
        else gate.openFrames
      let gate := { gate with alltimeHigh := alltimeHigh, openFrames := openFrames }
      .ok (gate, if openFrames = 0 then none else some (channels, buf))

/-! ## Loud frames -/

/-- The highest amplitude in a frame. -/
def peak (frame : Buffer V) : V := (frame.2.map abs).max?.getD 0

/-- The highest peak of some frames. -/
def highest (frames : List (Buffer V)) : V := (frames.map peak).max?.getD 0

/-- The peak of frame `j` exceeds a tenth of the highest peak so far. -/
def Loud (frames : List (Buffer V)) (j : ℕ) : Prop :=
  ∃ frame, frames[j]? = some frame ∧ highest (frames.take (j + 1)) * mutePercentage < peak frame

/-- One of the last `delay` frames up to frame `k` is loud. -/
def Passes (delay : ℕ) (frames : List (Buffer V)) (k : ℕ) : Prop :=
  ∃ j ≤ k, k < j + delay ∧ Loud frames j

section

variable [IsStrictOrderedRing V]

theorem peak_nonneg (frame : Buffer V) : 0 ≤ peak frame := by
  unfold peak
  cases hmax : (frame.2.map abs).max? with
  | none => exact le_refl 0
  | some high =>
      obtain ⟨sample, -, hsample⟩ := List.mem_map.mp (List.max?_mem hmax)
      rw [Option.getD_some, ← hsample]
      exact abs_nonneg sample

/-- The gate starts from no amplitude at all. -/
theorem highest_eq_foldl (frames : List (Buffer V)) :
    highest frames = (frames.map peak).foldl max 0 := by
  cases frames with
  | nil => rfl
  | cons frame rest =>
      rw [highest, List.map_cons, List.max?_cons', Option.getD_some, List.foldl_cons,
        max_eq_right (peak_nonneg frame)]

theorem highest_concat (frames : List (Buffer V)) (frame : Buffer V) :
    highest (frames ++ [frame]) = max (highest frames) (peak frame) := by
  rw [highest_eq_foldl, highest_eq_foldl, List.map_append, List.foldl_append]
  rfl

end

theorem loud_append {frames : List (Buffer V)} {j : ℕ} (hj : j < frames.length)
    (more : List (Buffer V)) : Loud (frames ++ more) j ↔ Loud frames j := by
  unfold Loud
  rw [List.getElem?_append_left hj, List.take_append_of_le_length hj]

theorem loud_concat [IsStrictOrderedRing V] (frames : List (Buffer V)) (frame : Buffer V) :
    Loud (frames ++ [frame]) frames.length ↔
      max (highest frames) (peak frame) * mutePercentage < peak frame := by
  have hget : (frames ++ [frame])[frames.length]? = some frame := List.getElem?_concat_length
  have htake : (frames ++ [frame]).take (frames.length + 1) = frames ++ [frame] :=
    List.take_of_length_le (by rw [List.length_append, List.length_singleton])
  unfold Loud
  rw [hget, htake, highest_concat]
  constructor
  · rintro ⟨frame', hframe, hloud⟩
    cases hframe
    exact hloud
  · intro hloud
    exact ⟨frame, rfl, hloud⟩

/-! ## The gate -/

/-- What a gate remembers of the frames it was fed: `m` more quiet frames pass
exactly if a loud one is recent enough. -/
structure Tracks (gate : NoiseGate V) (frames : List (Buffer V)) : Prop where
  alltimeHigh_eq : gate.alltimeHigh = highest frames
  lt_openFrames_iff : ∀ m, m < gate.openFrames ↔
    ∃ j < frames.length, frames.length + m < j + 1 + gate.deactivationDelay ∧ Loud frames j

theorem tracks_new (delay : ℕ) : Tracks (new delay : NoiseGate V) [] :=
  ⟨rfl, Window.start delay (Loud [])⟩

/-- What one frame does to a gate. -/
theorem transform_eq_ok (gate : NoiseGate V) (channels : Opus.Channels) {buf : List V}
    (hbuf : buf ≠ []) :
    ∃ gate', gate.transform (channels, buf) =
        .ok (gate', if gate'.openFrames = 0 then none else some (channels, buf)) ∧
      gate'.deactivationDelay = gate.deactivationDelay ∧
      gate'.alltimeHigh = max gate.alltimeHigh (peak (channels, buf)) ∧
      gate'.openFrames =
        if gate'.alltimeHigh * mutePercentage < peak (channels, buf) then gate.deactivationDelay
        else gate.openFrames - 1 := by
  obtain ⟨high, hhigh⟩ : ∃ high, (buf.map abs).max? = some high := by
    rw [← Option.isSome_iff_exists, List.isSome_max?_iff, Ne, List.map_eq_nil_iff]
    exact hbuf
  have hpeak : peak (channels, buf) = high := by
    rw [peak, hhigh, Option.getD_some]
  have hmax : (if gate.alltimeHigh < high then high else gate.alltimeHigh) =
      max gate.alltimeHigh high := by
    rw [max_def_lt]
  have hquiet : (if 0 < gate.openFrames then gate.openFrames - 1 else gate.openFrames) =
      gate.openFrames - 1 := by
    split <;> omega
  rw [transform, hhigh, unwrap_some, ok_bind, hpeak]
  dsimp only
  rw [hmax, hquiet]
  exact ⟨_, rfl, rfl, rfl, rfl⟩

/-- One frame is tracked, and passes if the gate is still open after it. -/
theorem Tracks.transform [IsStrictOrderedRing V] {gate : NoiseGate V} {frames : List (Buffer V)}
    (h : gate.Tracks frames) {frame : Buffer V} (hframe : frame.2 ≠ []) :
    ∃ gate' out, gate.transform frame = .ok (gate', out) ∧ gate'.Tracks (frames ++ [frame]) ∧
      gate'.deactivationDelay = gate.deactivationDelay ∧
      (out = some frame ↔ Passes gate.deactivationDelay (frames ++ [frame]) frames.length) ∧
      (out = none ↔ ¬ Passes gate.deactivationDelay (frames ++ [frame]) frames.length) := by
  obtain ⟨channels, buf⟩ := frame
  obtain ⟨gate', htransform, hdelay, hhigh, hopen⟩ := gate.transform_eq_ok channels hframe
  have hloud := loud_concat frames (channels, buf)
  rw [← h.alltimeHigh_eq, ← hhigh] at hloud
  have hwindow : Window gate.deactivationDelay gate.openFrames
      (Loud (frames ++ [(channels, buf)])) frames.length :=
    Window.congr h.lt_openFrames_iff fun j hj => (loud_append hj _).symm
  have hwindow' : Window gate.deactivationDelay gate'.openFrames
      (Loud (frames ++ [(channels, buf)])) (frames.length + 1) := by
    rw [hopen]
    split
    · next hlt => exact .set (hloud.mpr hlt)
    · next hnlt => exact hwindow.down fun h => hnlt (hloud.mp h)
  have htracks : gate'.Tracks (frames ++ [(channels, buf)]) := by
    refine ⟨by rw [hhigh, h.alltimeHigh_eq, highest_concat], ?_⟩
    rw [List.length_append, List.length_singleton, hdelay]
    exact hwindow'
  have hpasses : gate'.openFrames ≠ 0 ↔
      Passes gate.deactivationDelay (frames ++ [(channels, buf)]) frames.length :=
    hwindow'.ne_zero_iff
  refine ⟨gate', _, htransform, htracks, hdelay, ?_, ?_⟩
  · rw [← hpasses]
    simp
  · rw [← hpasses]
    simp

theorem passes_append {delay k : ℕ} {frames : List (Buffer V)} (hk : k < frames.length)
    (more : List (Buffer V)) : Passes delay (frames ++ more) k ↔ Passes delay frames k := by
  unfold Passes
  refine exists_congr fun j => and_congr_right fun hj => and_congr_right fun _ => ?_
  exact loud_append (by omega) more

theorem Tracks.feed [IsStrictOrderedRing V] {gate : NoiseGate V} {frames : List (Buffer V)}
    (h : gate.Tracks frames) {rest : List (Buffer V)} (hrest : ∀ frame ∈ rest, frame.2 ≠ []) :
    ∃ outs, feed NoiseGate.transform [gate] rest = .ok outs ∧ outs.length = rest.length ∧
      ∀ k frame, rest[k]? = some frame → ∃ out, outs[k]? = some out ∧
        (out = some frame ↔
          Passes gate.deactivationDelay (frames ++ rest) (frames.length + k)) ∧
        (out = none ↔
          ¬ Passes gate.deactivationDelay (frames ++ rest) (frames.length + k)) := by
  induction rest generalizing gate frames with
  | nil => exact ⟨[], rfl, rfl, fun k frame hframe => by cases hframe⟩
  | cons frame rest ih =>
      obtain ⟨gate', out, htransform, htracks, hdelay, hsome, hnone⟩ :=
        h.transform (hrest frame (List.mem_cons_self ..))
      obtain ⟨outs, houts, hlen, hall⟩ :=
        ih htracks fun frame hframe => hrest frame (List.mem_cons_of_mem _ hframe)
      have hsplit : frames ++ frame :: rest = (frames ++ [frame]) ++ rest := by
        rw [List.append_assoc, List.singleton_append]
      refine ⟨out :: outs, ?_, by rw [List.length_cons, List.length_cons, hlen], ?_⟩
      · rw [Mum.feed, tryFold_singleton htransform, ok_bind]
        dsimp only
        rw [houts, ok_bind]
      · intro k frame' hframe'
        cases k with
        | zero =>
            cases hframe'
            have hk : frames.length < (frames ++ [frame]).length := by
              rw [List.length_append, List.length_singleton]
              omega
            rw [Nat.add_zero, hsplit, passes_append hk]
            exact ⟨out, rfl, hsome, hnone⟩
        | succ k =>
            have hlater := hall k frame' hframe'
            rw [hdelay, List.length_append, List.length_singleton, ← hsplit,
              Nat.add_assoc, Nat.add_comm 1 k] at hlater
            exact hlater

/-- **The gate is a window over the loud frames.**  A frame passes, as it is, if
and only if one of the last `delay` frames up to it is loud. -/
theorem feed_new_passes_iff [IsStrictOrderedRing V] (delay : ℕ) (frames : List (Buffer V))
    (hframes : ∀ frame ∈ frames, frame.2 ≠ []) :
    ∃ outs, feed transform [(new delay : NoiseGate V)] frames = .ok outs ∧
      outs.length = frames.length ∧
      ∀ k frame, frames[k]? = some frame → ∃ out, outs[k]? = some out ∧
        (out = some frame ↔ Passes delay frames k) ∧ (out = none ↔ ¬ Passes delay frames k) := by
  obtain ⟨outs, houts, hlen, hall⟩ := (tracks_new delay).feed hframes
  refine ⟨outs, houts, hlen, fun k frame hframe => ?_⟩
  have hpasses := hall k frame hframe
  rw [List.nil_append, List.length_nil, Nat.zero_add] at hpasses
  exact hpasses

/-- One loud frame and two quiet ones. -/
def fading : List (Buffer ℚ) := [(.mono, [1, -2]), (.mono, [1 / 10]), (.mono, [-1 / 5])]

example : feed transform [(new 2 : NoiseGate ℚ)] fading =
    .ok [some (.mono, [1, -2]), some (.mono, [1 / 10]), none] := by decide +kernel

theorem feed_new_passes_iff_fading :
    ∃ outs, feed transform [(new 2 : NoiseGate ℚ)] fading = .ok outs ∧
      outs.length = fading.length ∧
      ∀ k frame, fading[k]? = some frame → ∃ out, outs[k]? = some out ∧
        (out = some frame ↔ Passes 2 fading k) ∧ (out = none ↔ ¬ Passes 2 fading k) :=
  feed_new_passes_iff 2 fading (by decide)

end NoiseGate

end Mum
