import OpcodeAtlas.Attribute
import OpcodeAtlas.CpuMode.Specifier
import OpcodeAtlas.Evex
import OpcodeAtlas.ExceptionType
import OpcodeAtlas.Flag
import OpcodeAtlas.FpuFlag
import OpcodeAtlas.LegacyPrefix
import OpcodeAtlas.Metadata.Entry
import OpcodeAtlas.OperandAccess
import OpcodeAtlas.SimdException

/-!
The metadata of an instruction. Entries are recorded one after the other: attributes, prefixes,
operand accesses and SIMD exceptions accumulate, everything else is replaced. The instruction set is
also the feature identifier.
-/

namespace OpcodeAtlas

structure Metadata where
  instructionClass : Text
  category : Text
  instructionSet : Text
  featureId : Text
  attributes : Attributes
  prefixes : LegacyPrefixes
  access : AccessMap
  tuple : Option Tuple
  evexMode : Option EvexMode
  exception : Option ExceptionType
  flags : FlagsAccess
  fpuFlags : FpuFlagsAccess
  simdExceptions : SimdExceptions
  modes : CpuModes

namespace Metadata

def unknownName : Text := "UNKNOWN"

/-- The metadata of an instruction without entries: its class is its mnemonic, and it is valid in
every mode. -/
def initial (mnemonic : Text) : Metadata where
  instructionClass := mnemonic
  category := unknownName
  instructionSet := unknownName
  featureId := unknownName
  attributes := ∅
  prefixes := ∅
  access := .empty
  tuple := none
  evexMode := none
  exception := none
  flags := .empty
  fpuFlags := .absent
  simdExceptions := ∅
  modes := CpuModes.all

def record (templates : Templates) (m : Metadata) (entry : MetaEntry) : Except SpecError Metadata :=
  let value := entry.value
  match entry.key with
  | .instructionClass => .ok { m with instructionClass := value }
  | .category => .ok { m with category := value }
  | .instructionSet => .ok { m with instructionSet := value, featureId := value }
  | .featureId => .ok { m with featureId := value }
  | .attributes => return { m with attributes := ← (OrderedSet.add value).state? m.attributes }
  | .prefixes => return { m with prefixes := ← (OrderedSet.add value).state? m.prefixes }
  | .access => return { m with access := ← (AccessMap.add value).state? m.access }
  | .tuple => return { m with tuple := some (← Vocabulary.parse value) }
  | .evexMode => return { m with evexMode := some (← Vocabulary.parse value) }
  | .exception => return { m with exception := some (← Vocabulary.parse value) }
  | .flags => return { m with flags := ← (FlagsAccess.add value templates).state? m.flags }
  | .fpuFlags => return { m with fpuFlags := ← (FpuFlagsAccess.add value).state? m.fpuFlags }
  | .modes => return { m with modes := ← CpuModes.parse value templates }
  | .simdExceptions =>
    return { m with simdExceptions := ← (OrderedSet.add value).state? m.simdExceptions }

def recordAll (templates : Templates) (m : Metadata) (entries : List Text) :
    Except SpecError Metadata :=
  entries.foldlM (fun m entry => do m.record templates (← MetaEntry.parse entry)) m

/-- Reads the metadata entries of an instruction. -/
def read (templates : Templates) (mnemonic : Text) (entries : List Text) :
    Except SpecError Metadata :=
  (initial mnemonic).recordAll templates entries

end Metadata

end OpcodeAtlas
