import OpcodeAtlas.Vocabulary

/-!
Encoding fields and encoding families.
-/

namespace OpcodeAtlas

/-- A field of an encoding. Decision trees dispatch on the values of a field. -/
inductive Field where
  | opcode | opcodeLast | vendor | feature | mandatoryPrefix | modrmReg | modrmMod | modrmRm
  | mode | dataSize | addressSize | auxiliary | opcodeMap | pp | length | width
  | widthOutside64Ignored | newDataDestination | noFlags | standardCondition | lpdf
  deriving DecidableEq, Repr

instance : Vocabulary Field where
  kind := .encodingField
  all := [.opcode, .opcodeLast, .vendor, .feature, .mandatoryPrefix, .modrmReg, .modrmMod,
    .modrmRm, .mode, .dataSize, .addressSize, .auxiliary, .opcodeMap, .pp, .length, .width,
    .widthOutside64Ignored, .newDataDestination, .noFlags, .standardCondition, .lpdf]
  spelling
    | .opcode => "opcode"
    | .opcodeLast => "opcode_last"
    | .vendor => "vendor"
    | .feature => "feature"
    | .mandatoryPrefix => "prefix"
    | .modrmReg => "modrmreg"
    | .modrmMod => "modrmmod"
    | .modrmRm => "modrmrm"
    | .mode => "mode"
    | .dataSize => "dsize"
    | .addressSize => "asize"
    | .auxiliary => "auxiliary"
    | .opcodeMap => "mmmmm"
    | .pp => "pp"
    | .length => "l"
    | .width => "w"
    | .widthOutside64Ignored => "wi"
    | .newDataDestination => "nd"
    | .noFlags => "nf"
    | .standardCondition => "sc"
    | .lpdf => "lpdf"

inductive Family where
  | legacy | xop | vex | evex
  deriving DecidableEq, Repr

namespace Family

def all : List Family := [legacy, xop, vex, evex]

def isVector (f : Family) : Bool := f ≠ legacy

def name : Family → Text
  | legacy => "legacy"
  | xop => "xop"
  | vex => "vex"
  | evex => "evex"

end Family

end OpcodeAtlas
