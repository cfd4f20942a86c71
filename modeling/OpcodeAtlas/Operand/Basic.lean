import OpcodeAtlas.Attribute
import OpcodeAtlas.Decorator
import OpcodeAtlas.Operand.Fixed
import OpcodeAtlas.Operand.Type
import OpcodeAtlas.OperandAccess

/-!
Operands of an instruction and what can be asked about them.
-/

namespace OpcodeAtlas

inductive OperandKind where
  | encoded (type : OperandType)
  | fixed (operand : FixedOperand)
  deriving DecidableEq, Repr

namespace OperandKind

def name : OperandKind → Text
  | encoded type => Vocabulary.token type
  | fixed operand => Vocabulary.token operand

def type? : OperandKind → Option OperandType
  | encoded type => some type
  | fixed _ => none

end OperandKind

structure Operand where
  raw : Text
  kind : OperandKind
  size : OperandSize
  flags : List OperandFlag
  decorators : Decorators
  access : OperandAccess
  /-- The number of registers of a block, zero for a single one. -/
  block : Nat
  encoding : OperandEncoding
  implicit : Bool
  deriving DecidableEq

namespace Operand

def type? (o : Operand) : Option OperandType := o.kind.type?

def decoratorFlags (o : Operand) : OrderedSet OperandDecorator := o.decorators.operandFlags

/-- Memory through ModR/M, unless ModR/M.mod selects a register. -/
def isModrmMemory (o : Operand) : Bool :=
  match o.kind with
  | .encoded t => t ∈ [.M, .E, .Q, .W, .mB, .mK]
  | .fixed _ => false

/-- Memory whatever ModR/M holds. -/
def isPlainMemory (o : Operand) : Bool :=
  match o.kind with
  | .encoded t => t ∈ [.O, .X, .Y, .K, .rM, .mM]
  | .fixed _ => false

/-- Memory at a fixed place. -/
def isFixedMemory (o : Operand) : Bool :=
  match o.kind with
  | .encoded _ => false
  | .fixed f =>
    f ∈ [.pDI, .pBXAL, .pAX, .pCX, .pBP, .shadowStack, .shadowStack0, .shadowStackPushPop, .smt,
      .dmt]

def isCodeSegment (o : Operand) : Bool := o.kind = .fixed .cs

def isInstructionPointer (o : Operand) : Bool := o.kind = .fixed .rIP

def isFlags (o : Operand) : Bool := o.kind = .encoded .F

def isStack (o : Operand) : Bool := o.kind = .encoded .K

end Operand

end OpcodeAtlas
