import OpcodeAtlas.Encoding.Basic
import OpcodeAtlas.Filter
import OpcodeAtlas.Instruction.Payload
import OpcodeAtlas.Instruction.Summary
import OpcodeAtlas.Metadata.Basic

/-!
Instructions: one encoding with everything known about it. `metadata` is what was written;
`attributes` and `modes` are what holds once operands and encoding are taken into account.
-/

namespace OpcodeAtlas

structure Instruction where
  mnemonic : Text
  metadata : Metadata
  rawEncoding : Text
  encoding : Encoding
  operands : List Operand
  implicitOperands : List Operand
  attributes : Attributes
  modes : CpuModes
  decorators : OrderedSet DecoratorFlag
  filters : List Filter
  payload : Option Payload
  summary : AccessSummary
  feature : Option CpuidFeature

namespace Instruction

/-- The mnemonic and the explicit operands. -/
def display (i : Instruction) : Text :=
  if i.operands.isEmpty then i.mnemonic
  else i.mnemonic ++ " " ++ List.intercalate [','] (i.operands.map (·.raw))

/-- The instruction as a conflict names it. -/
def describe (i : Instruction) : Text := i.display ++ " with encoding: " ++ i.rawEncoding

end Instruction

end OpcodeAtlas
