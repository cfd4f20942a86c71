import OpcodeAtlas.Vocabulary

/-!
Explicit operand types, the addressing forms of the opcode map, and where an instruction encodes an
operand.
-/

namespace OpcodeAtlas

/-! A token is matched against the first type it starts with, so `I1` stands before `I`. -/

/-- The addressing form of an operand that an instruction encodes. -/
inductive OperandType where
  | A | B | C | D | E | F | G | H | I1 | I2 | I | J | K | L | M | N | O | P | Q | R | S | T | U
  | V | W | X | Y | Z | rB | mB | rK | vK | mK | aK | rM | mM | rT | mT | vT | m2zI | dfv
  deriving DecidableEq, Repr

instance : Vocabulary OperandType where
  kind := .operandType
  all := [.A, .B, .C, .D, .E, .F, .G, .H, .I1, .I2, .I, .J, .K, .L, .M, .N, .O, .P, .Q, .R, .S, .T,
    .U, .V, .W, .X, .Y, .Z, .rB, .mB, .rK, .vK, .mK, .aK, .rM, .mM, .rT, .mT, .vT, .m2zI, .dfv]
  spelling
    | .A => "A"
    | .B => "B"
    | .C => "C"
    | .D => "D"
    | .E => "E"
    | .F => "F"
    | .G => "G"
    | .H => "H"
    | .I1 => "I1"
    | .I2 => "I2"
    | .I => "I"
    | .J => "J"
    | .K => "K"
    | .L => "L"
    | .M => "M"
    | .N => "N"
    | .O => "O"
    | .P => "P"
    | .Q => "Q"
    | .R => "R"
    | .S => "S"
    | .T => "T"
    | .U => "U"
    | .V => "V"
    | .W => "W"
    | .X => "X"
    | .Y => "Y"
    | .Z => "Z"
    | .rB => "rB"
    | .mB => "mB"
    | .rK => "rK"
    | .vK => "vK"
    | .mK => "mK"
    | .aK => "aK"
    | .rM => "rM"
    | .mM => "mM"
    | .rT => "rT"
    | .mT => "mT"
    | .vT => "vT"
    | .m2zI => "m2zI"
    | .dfv => "dfv"

/-- What selects the register or memory of an operand. -/
inductive OperandEncoding where
  | implicit | modrmReg | modrmRm | vvvv | aaa | immediate | direct | opcode | is4 | constantOne
  | cl
  deriving DecidableEq, Repr

namespace OperandEncoding

def letter : OperandEncoding → Text
  | implicit => "S"
  | modrmReg => "R"
  | modrmRm => "M"
  | vvvv => "V"
  | aaa => "A"
  | immediate => "I"
  | direct => "D"
  | opcode => "O"
  | is4 => "L"
  | constantOne => "1"
  | cl => "C"

def ofType? : OperandType → Option OperandEncoding
  | .A | .J | .O => some direct
  | .B | .H | .vK | .dfv => some vvvv
  | .C | .D | .G | .P | .S | .T | .V | .rB | .rK => some modrmReg
  | .E | .M | .N | .Q | .R | .U | .W | .mB | .mK | .mM => some modrmRm
  | .I => some immediate
  | .L | .m2zI => some is4
  | .Z => some opcode
  | .aK => some aaa
  | .F | .I1 | .I2 | .K | .X | .Y | .rM | .rT | .mT | .vT => none

/-- Two fixed operands are encoded after all. -/
def ofRaw? (raw : Text) : Option OperandEncoding :=
  if raw = ("CL" : Text) then some cl else if raw = ("ST(i)" : Text) then some modrmRm else none

end OperandEncoding

end OpcodeAtlas
