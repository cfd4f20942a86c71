import OpcodeAtlas.Operand.Basic

/-!
A summary of the accesses to special operands. The last operand of a kind counts, and memory
accesses are listed once each.
-/

namespace OpcodeAtlas

structure AccessSummary where
  codeSegment : Option OperandAccess := none
  instructionPointer : Option OperandAccess := none
  flags : Option OperandAccess := none
  stack : Option OperandAccess := none
  /-- The number of words pushed or popped. -/
  stackWords : Nat := 0
  modrmMemory : Option OperandAccess := none
  /-- Accesses to memory that does not depend on ModR/M.mod. -/
  memory : List OperandAccess := []
  deriving DecidableEq, Repr

namespace AccessSummary

def withMemory (s : AccessSummary) (a : OperandAccess) : AccessSummary :=
  if a ∈ s.memory then s else { s with memory := s.memory ++ [a] }

def record (s : AccessSummary) (o : Operand) : Except SpecError AccessSummary :=
  if o.isCodeSegment then .ok { s with codeSegment := some o.access }
  else if o.isInstructionPointer then .ok { s with instructionPointer := some o.access }
  else if o.isFlags then .ok { s with flags := some o.access }
  else if o.isStack then
    match o.size.stackWords? with
    | some words =>
      .ok ({ s with stack := some o.access, stackWords := words }.withMemory o.access)
    | none => .error (.invalidStackSize (Vocabulary.token o.size))
  else if o.isModrmMemory then .ok { s with modrmMemory := some o.access }
  else if o.isPlainMemory || o.isFixedMemory then .ok (s.withMemory o.access)
  else .ok s

def ofOperands (os : List Operand) : Except SpecError AccessSummary := os.foldlM record {}

end AccessSummary

end OpcodeAtlas
