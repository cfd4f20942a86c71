import OpcodeAtlas.Vocabulary

/-!
Operand sizes. What a size means depends on the operand and vector sizes in force.
-/

namespace OpcodeAtlas

/-- The size code of an operand. -/
inductive OperandSize where
  | a | b | w | d | q | z | v | y | yf | s | p | l | fa | fw | fd | fq | ft | fe | fs | dq | qq
  | oq | ev | qv | hv | x | uv | fv | pd | ps | ph | sd | ss | sh | vm32x | vm32y | vm32z | vm32h
  | vm32n | vm64x | vm64y | vm64z | vm64h | vm64n | mib | v2 | v3 | v4 | v5 | v8 | unspecified
  | zero | asz | ssz | rx | cl | b12 | tile | b384 | b512 | b4096
  deriving DecidableEq, Repr

instance : Vocabulary OperandSize where
  kind := .operandSize
  all := [.a, .b, .w, .d, .q, .z, .v, .y, .yf, .s, .p, .l, .fa, .fw, .fd, .fq, .ft, .fe, .fs, .dq,
    .qq, .oq, .ev, .qv, .hv, .x, .uv, .fv, .pd, .ps, .ph, .sd, .ss, .sh, .vm32x, .vm32y, .vm32z,
    .vm32h, .vm32n, .vm64x, .vm64y, .vm64z, .vm64h, .vm64n, .mib, .v2, .v3, .v4, .v5, .v8,
    .unspecified, .zero, .asz, .ssz, .rx, .cl, .b12, .tile, .b384, .b512, .b4096]
  spelling
    | .a => "a"
    | .b => "b"
    | .w => "w"
    | .d => "d"
    | .q => "q"
    | .z => "z"
    | .v => "v"
    | .y => "y"
    | .yf => "yf"
    | .s => "s"
    | .p => "p"
    | .l => "l"
    | .fa => "fa"
    | .fw => "fw"
    | .fd => "fd"
    | .fq => "fq"
    | .ft => "ft"
    | .fe => "fe"
    | .fs => "fs"
    | .dq => "dq"
    | .qq => "qq"
    | .oq => "oq"
    | .ev => "ev"
    | .qv => "qv"
    | .hv => "hv"
    | .x => "x"
    | .uv => "uv"
    | .fv => "fv"
    | .pd => "pd"
    | .ps => "ps"
    | .ph => "ph"
    | .sd => "sd"
    | .ss => "ss"
    | .sh => "sh"
    | .vm32x => "vm32x"
    | .vm32y => "vm32y"
    | .vm32z => "vm32z"
    | .vm32h => "vm32h"
    | .vm32n => "vm32n"
    | .vm64x => "vm64x"
    | .vm64y => "vm64y"
    | .vm64z => "vm64z"
    | .vm64h => "vm64h"
    | .vm64n => "vm64n"
    | .mib => "mib"
    | .v2 => "v2"
    | .v3 => "v3"
    | .v4 => "v4"
    | .v5 => "v5"
    | .v8 => "v8"
    | .unspecified => "?"
    | .zero => "0"
    | .asz => "asz"
    | .ssz => "ssz"
    | .rx => "rx"
    | .cl => "cl"
    | .b12 => "12"
    | .tile => "t"
    | .b384 => "384"
    | .b512 => "512"
    | .b4096 => "4096"

/-- The number of words a stack operand of this size pushes or pops. -/
def OperandSize.stackWords? : OperandSize → Option Nat
  | .v => some 1
  | .v2 => some 2
  | .v3 => some 3
  | .v4 => some 4
  | .v5 => some 5
  | .v8 => some 8
  | _ => none

end OpcodeAtlas
