/-!
# The configuration file

`mumlib::config`: the typed contents of the `mumdrc` file.
-/

namespace Mum

/-- An `f32`, given by its bits.  The daemon stores and copies volumes; where it
computes with samples the arithmetic is a parameter. -/
structure F32 where
  bits : UInt32
deriving DecidableEq, Repr

namespace F32

def zero : F32 := ⟨0⟩

def one : F32 := ⟨0x3f800000⟩

end F32

namespace Mumlib

/-- A file that is played instead of the sound effect of an event. -/
structure SoundEffect where
  event : String
  file : String
deriving DecidableEq, Repr

structure AudioConfig where
  inputVolume : Option F32 := none
  outputVolume : Option F32 := none
  soundEffects : Option (List SoundEffect) := none
  disableNoiseGate : Option Bool := none
deriving DecidableEq, Repr

/-- A saved server. -/
structure ServerConfig where
  name : String
  host : String
  port : Option UInt16
  username : Option String
  password : Option String
  acceptInvalidCert : Option Bool
deriving DecidableEq, Repr

structure Config where
  allowInvalidServerCert : Option Bool := none
  audio : Option AudioConfig := none
  servers : Option (List ServerConfig) := none
deriving DecidableEq, Repr

/-- `read_cfg`: the parsed file, the default when it cannot be read, and `none`
when it does not parse. -/
def readCfg (fromStr : String → Option Config) (file : Option String) : Option Config :=
  match file with
  | some text => fromStr text
  | none => some {}

end Mumlib

end Mum
