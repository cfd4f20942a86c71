import OpcodeAtlas.Vocabulary

/-!
EVEX tuple types, which scale a compressed displacement, and the extensions an EVEX instruction can
belong to.
-/

namespace OpcodeAtlas

/-- An EVEX tuple type. -/
inductive Tuple where
  | fullVector | halfVector | quarterVector | fullVectorMemory | halfVectorMemory
  | quarterVectorMemory | eighthVectorMemory | duplicate | memory128 | scalar8 | scalar16 | scalar
  | fixed | pair | quad | octet | scalarTimes4
  deriving DecidableEq, Repr

instance : Vocabulary Tuple where
  kind := .tuple
  all := [.fullVector, .halfVector, .quarterVector, .fullVectorMemory, .halfVectorMemory,
    .quarterVectorMemory, .eighthVectorMemory, .duplicate, .memory128, .scalar8, .scalar16,
    .scalar, .fixed, .pair, .quad, .octet, .scalarTimes4]
  spelling
    | .fullVector => "fv"
    | .halfVector => "hv"
    | .quarterVector => "qv"
    | .fullVectorMemory => "fvm"
    | .halfVectorMemory => "hvm"
    | .quarterVectorMemory => "qvm"
    | .eighthVectorMemory => "ovm"
    | .duplicate => "dup"
    | .memory128 => "m128"
    | .scalar8 => "t1s8"
    | .scalar16 => "t1s16"
    | .scalar => "t1s"
    | .fixed => "t1f"
    | .pair => "t2"
    | .quad => "t4"
    | .octet => "t8"
    | .scalarTimes4 => "t1_4x"

/-- The extension an EVEX instruction belongs to. -/
inductive EvexMode where
  | native | promotedVex | promotedLegacy | conditionalCompare
  deriving DecidableEq, Repr

instance : Vocabulary EvexMode where
  kind := .evexMode
  all := [.native, .promotedVex, .promotedLegacy, .conditionalCompare]
  spelling
    | .native => "none"
    | .promotedVex => "vex"
    | .promotedLegacy => "legacy"
    | .conditionalCompare => "cond"

end OpcodeAtlas
