import Mum.Library.Toml
import Mum.Mumlib.Config

/-!
# Reading the configuration file

How `Config` is read from a document.  The structures of `mumlib::config` derive
`Deserialize`: a key that is missing is `None`, or an error when the field is not
optional, unknown keys are ignored, and a value has to have the type of its field.
A structure may also be written as a sequence that has all its fields in order.
-/

namespace Mum

open Library Library.Toml

/-- An `f64`, given by its bits. -/
structure F64 where
  bits : UInt64
deriving DecidableEq, Repr

/-- The arithmetic of floats that the configuration depends on. -/
structure Floats where
  /-- `str::parse::<f64>`. -/
  parse : String → Option F64
  /-- `as f32`. -/
  ofF64 : F64 → F32
  ofInt : Int → F32

namespace Mumlib

abbrev Document := Toml.Document F64

/-- The integer as a `u16`, if it is in the range. -/
def tryU16 (i : Int) : Option UInt16 :=
  if 0 ≤ i ∧ i < 65536 then some (UInt16.ofNat i.toNat) else none

theorem tryU16_isSome {i : Int} : (tryU16 i).isSome ↔ 0 ≤ i ∧ i < 65536 := by
  rw [tryU16]
  split
  next h => exact iff_of_true rfl h
  next h => exact iff_of_false (by simp) h

@[simp] theorem tryU16_toNat (port : UInt16) : tryU16 port.toNat = some port := by
  have hrange : (0 : Int) ≤ port.toNat ∧ (port.toNat : Int) < 65536 := by
    have := port.toNat_lt
    omega
  rw [tryU16, if_pos hrange, Int.toNat_natCast, UInt16.ofNat_toNat]

/-- A `u16`; other integers are refused. -/
def readU16 : Reader F64 UInt16 := fun item =>
  match item.content with
  | .integer i => tryU16 i
  | _ => none

/-- An `f32`; integers are converted. -/
def readF32 (floats : Floats) : Reader F64 F32 := fun item =>
  match item.content with
  | .float f => some (floats.ofF64 f)
  | .integer i => some (floats.ofInt i)
  | _ => none

def SoundEffect.read : Reader F64 SoundEffect := fun item =>
  match item.content with
  | .map entries => do
      let event ← Reader.string.required entries "event"
      let file ← Reader.string.required entries "file"
      return ⟨event, file⟩
  | .seq (event :: file :: _) => return ⟨← Reader.string event, ← Reader.string file⟩
  | _ => none

def AudioConfig.readEntries (floats : Floats) (entries : Toml.Table F64) :
    Option AudioConfig := do
  let inputVolume ← (readF32 floats).optional entries "input_volume"
  let outputVolume ← (readF32 floats).optional entries "output_volume"
  let soundEffects ← (Reader.seq SoundEffect.read).optional entries "sound_effects"
  let disableNoiseGate ← Reader.boolean.optional entries "disable_noise_gate"
  return ⟨inputVolume, outputVolume, soundEffects, disableNoiseGate⟩

def AudioConfig.read (floats : Floats) : Reader F64 AudioConfig := fun item =>
  match item.content with
  | .map entries => AudioConfig.readEntries floats entries
  | .seq (input :: output :: effects :: gate :: _) =>
      return ⟨← readF32 floats input, ← readF32 floats output,
        ← Reader.seq SoundEffect.read effects, ← Reader.boolean gate⟩
  | _ => none

def ServerConfig.readEntries (entries : Toml.Table F64) : Option ServerConfig := do
  let name ← Reader.string.required entries "name"
  let host ← Reader.string.required entries "host"
  let port ← readU16.optional entries "port"
  let username ← Reader.string.optional entries "username"
  let password ← Reader.string.optional entries "password"
  let acceptInvalidCert ← Reader.boolean.optional entries "accept_invalid_cert"
  return ⟨name, host, port, username, password, acceptInvalidCert⟩

def ServerConfig.read : Reader F64 ServerConfig := fun item =>
  match item.content with
  | .map entries => ServerConfig.readEntries entries
  | .seq (name :: host :: port :: username :: password :: accept :: _) =>
      return ⟨← Reader.string name, ← Reader.string host, ← readU16 port,
        ← Reader.string username, ← Reader.string password, ← Reader.boolean accept⟩
  | _ => none

/-- `from_document`. -/
def fromDocument (floats : Floats) (document : Document) : Option Config := do
  let allowInvalidServerCert ←
    Reader.boolean.optional document "allow_invalid_server_cert"
  let audio ← (Reader.optional (AudioConfig.read floats)) document "audio"
  let servers ← (Reader.seq ServerConfig.read).optional document "servers"
  return ⟨allowInvalidServerCert, audio, servers⟩

/-- The saved servers, `config.servers.iter().flatten()`. -/
def Config.saved (config : Config) : List ServerConfig := config.servers.getD []

end Mumlib

end Mum
