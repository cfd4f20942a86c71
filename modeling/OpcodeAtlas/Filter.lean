import OpcodeAtlas.Attribute
import OpcodeAtlas.Operand.Type

/-!
Filters: the checks for an invalid opcode that remain once a decision tree has reached a leaf.
-/

namespace OpcodeAtlas

/-- A check on a decoded instruction. -/
inductive Filter where
  | notIn64 | only64 | noRipRelative | noAddress16 | no66 | no67 | noRep | noRex2 | noLength0
  | noV | noVPrime | noVAndVPrime | regGeneralBelow16 | vvvvGeneralBelow16 | segmentWritable
  | segmentReadable | controlRegister | debugBelow8 | testBelow8 | regBoundBelow4 | rmBoundBelow4
  | regMaskBelow8 | vvvvMaskBelow8 | regTileBelow8 | rmTileBelow8 | vvvvTileBelow8
  | gatherDistinct | gatherIndexDistinct | tilesDistinct | destinationDistinct | noStackPointer
  | pairDistinct
  deriving DecidableEq, Repr

instance : Vocabulary Filter where
  kind := .filter
  all := [.notIn64, .only64, .noRipRelative, .noAddress16, .no66, .no67, .noRep, .noRex2,
    .noLength0, .noV, .noVPrime, .noVAndVPrime, .regGeneralBelow16, .vvvvGeneralBelow16,
    .segmentWritable, .segmentReadable, .controlRegister, .debugBelow8, .testBelow8,
    .regBoundBelow4, .rmBoundBelow4, .regMaskBelow8, .vvvvMaskBelow8, .regTileBelow8,
    .rmTileBelow8, .vvvvTileBelow8, .gatherDistinct, .gatherIndexDistinct, .tilesDistinct,
    .destinationDistinct, .noStackPointer, .pairDistinct]
  spelling
    | .notIn64 => "no64"
    | .only64 => "no1632"
    | .noRipRelative => "noriprel"
    | .noAddress16 => "noa16"
    | .no66 => "no66"
    | .no67 => "no67"
    | .noRep => "norep"
    | .noRex2 => "norex2"
    | .noLength0 => "nol0"
    | .noV => "nov"
    | .noVPrime => "novp"
    | .noVAndVPrime => "novvp"
    | .regGeneralBelow16 => "rrlt16"
    | .vvvvGeneralBelow16 => "rvlt16"
    | .segmentWritable => "srin02345"
    | .segmentReadable => "srin012345"
    | .controlRegister => "crin02348"
    | .debugBelow8 => "drlt8"
    | .testBelow8 => "qrlt8"
    | .regBoundBelow4 => "brlt4"
    | .rmBoundBelow4 => "bmlt4"
    | .regMaskBelow8 => "krlt8"
    | .vvvvMaskBelow8 => "kvlt8"
    | .regTileBelow8 => "trlt8"
    | .rmTileBelow8 => "tmlt8"
    | .vvvvTileBelow8 => "tvlt8"
    | .gatherDistinct => "vxnevr_vxnevv_vrnevv"
    | .gatherIndexDistinct => "vxnevr"
    | .tilesDistinct => "trnetm_trnetv_tvnetm"
    | .destinationDistinct => "vrnevv_vrnevm"
    | .noStackPointer => "rvne4_rmne4"
    | .pairDistinct => "rvnerm"

namespace Filter

def ofAttribute? : Attribute → Option Filter
  | .invalidInLongMode => some notIn64
  | .onlyInLongMode => some only64
  | .noRipRelative => some noRipRelative
  | .noAddress16 => some noAddress16
  | .no66 => some no66
  | .no67 => some no67
  | .noRep => some noRep
  | .noRex2 => some noRex2
  | .noLength0 => some noLength0
  | .noV => some noV
  | .noVPrime => some noVPrime
  | _ => none

/-- The registers an operand type admits. General purpose registers of EVEX depend on more than the
type. -/
def ofOperand? (type : OperandType) (write : Bool) : Option Filter :=
  match type with
  | .S => some (if write then segmentWritable else segmentReadable)
  | .C => some controlRegister
  | .D => some debugBelow8
  | .T => some testBelow8
  | .rB => some regBoundBelow4
  | .mB => some rmBoundBelow4
  | .rK => some regMaskBelow8
  | .vK => some vvvvMaskBelow8
  | .rT => some regTileBelow8
  | .mT => some rmTileBelow8
  | .vT => some vvvvTileBelow8
  | _ => none

end Filter

end OpcodeAtlas
