import OpcodeAtlas.OrderedSet

/-!
CPU modes. The modes fall into four groups, independent axes of which each mode is on exactly one.
-/

namespace OpcodeAtlas

/-- A CPU operating mode. -/
inductive CpuMode where
  | ring0 | ring1 | ring2 | ring3 | real | virtual8086 | protectedMode | compat | long | smm
  | smmOff | sgx | sgxOff | tsx | tsxOff | vmxRoot | vmxNonRoot | vmxRootSeam | vmxNonRootSeam
  | vmxOff
  deriving DecidableEq, Repr

instance : Vocabulary CpuMode where
  kind := .cpuMode
  all := [.ring0, .ring1, .ring2, .ring3, .real, .virtual8086, .protectedMode, .compat, .long, .smm,
    .smmOff, .sgx, .sgxOff, .tsx, .tsxOff, .vmxRoot, .vmxNonRoot, .vmxRootSeam, .vmxNonRootSeam,
    .vmxOff]
  spelling
    | .ring0 => "r0"
    | .ring1 => "r1"
    | .ring2 => "r2"
    | .ring3 => "r3"
    | .real => "real"
    | .virtual8086 => "v8086"
    | .protectedMode => "prot"
    | .compat => "compat"
    | .long => "long"
    | .smm => "smm"
    | .smmOff => "smm_off"
    | .sgx => "sgx"
    | .sgxOff => "sgx_off"
    | .tsx => "tsx"
    | .tsxOff => "tsx_off"
    | .vmxRoot => "vmxr"
    | .vmxNonRoot => "vmxn"
    | .vmxRootSeam => "vmxr_seam"
    | .vmxNonRootSeam => "vmxn_seam"
    | .vmxOff => "vmx_off"

/-- An axis of CPU operating modes. -/
inductive ModeGroup where
  | ring | mode | vmx | other
  deriving DecidableEq, Repr

instance : Vocabulary ModeGroup where
  kind := .modeGroup
  all := [.ring, .mode, .vmx, .other]
  spelling
    | .ring => "ring"
    | .mode => "mode"
    | .vmx => "vmx"
    | .other => "other"

def ModeGroup.modes : ModeGroup → List CpuMode
  | ring => [.ring0, .ring1, .ring2, .ring3]
  | mode => [.real, .virtual8086, .protectedMode, .compat, .long]
  | vmx => [.vmxRoot, .vmxNonRoot, .vmxRootSeam, .vmxNonRootSeam, .vmxOff]
  | other => [.smm, .smmOff, .sgx, .sgxOff, .tsx, .tsxOff]

abbrev CpuModes := OrderedSet CpuMode

namespace CpuModes

def all : CpuModes := OrderedSet.ofList Vocabulary.all

def containsAll (s : CpuModes) : Bool := (Vocabulary.all : List CpuMode).all s.contains

end CpuModes

end OpcodeAtlas
