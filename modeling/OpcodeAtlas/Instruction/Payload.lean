import OpcodeAtlas.Operand.Basic

/-!
Payloads: what follows the opcode and ModR/M in the instruction bytes.
-/

namespace OpcodeAtlas

inductive PayloadKind where
  | immediate | relative | absolute | offset | register
  deriving DecidableEq, Repr

def PayloadKind.letter : PayloadKind → Text
  | immediate => "I"
  | relative => "J"
  | absolute => "A"
  | offset => "O"
  | register => "L"

structure Payload where
  kind : PayloadKind
  sizes : List OperandSize
  deriving DecidableEq, Repr

namespace Payload

def render (p : Payload) : Text := p.kind.letter ++ "_" ++ p.sizes.flatMap Vocabulary.token

/-- What one operand adds to the payload. -/
def part? (o : Operand) : Option (PayloadKind × OperandSize) :=
  match o.type? with
  | some .I | some .I1 | some .I2 => some (.immediate, o.size)
  | some .J => some (.relative, o.size)
  | some .A => some (.absolute, o.size)
  | some .O => some (.offset, .a)
  | some .L => some (.register, .b)
  | _ => none

/-- The sizes of all parts, under the kind of the last one. -/
def ofOperands? (os : List Operand) : Option Payload :=
  let parts := os.filterMap part?
  parts.getLast?.map fun last => ⟨last.1, parts.map (·.2)⟩

end Payload

end OpcodeAtlas
