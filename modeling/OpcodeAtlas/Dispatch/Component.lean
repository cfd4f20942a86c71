import OpcodeAtlas.Encoding.Field
import OpcodeAtlas.Filter

/-!
What the nodes of a decision tree dispatch on: a field of the encoding, by priority, or a filter of
the one instruction that is left.
-/

namespace OpcodeAtlas.Dispatch

/-- A field to dispatch on, with its number of values. -/
structure Axis where
  field : Field
  size : Nat
  /-- Every instruction of a node must have the field. Where that is not required, instructions
  without it belong to the first child. -/
  mandatory : Bool
  deriving DecidableEq, Repr

inductive Component where
  | axis (axis : Axis)
  | filter (filter : Filter)
  deriving DecidableEq, Repr

namespace Component

def name : Component → Text
  | axis a => Vocabulary.token a.field
  | filter f => Vocabulary.token f

/-- The number of children of a node. -/
def size : Component → Nat
  | axis a => a.size
  | filter _ => 1

def isMandatory : Component → Bool
  | axis a => a.mandatory
  | filter _ => true

def isFilter : Component → Bool
  | axis _ => false
  | filter _ => true

end Component

/-! ### Priorities -/

def legacyAxes : List Axis :=
  [⟨.opcode, 256, true⟩, ⟨.opcodeLast, 256, true⟩, ⟨.vendor, 16, false⟩,
   ⟨.mandatoryPrefix, 4, true⟩, ⟨.modrmReg, 8, true⟩, ⟨.modrmMod, 2, true⟩, ⟨.modrmRm, 8, true⟩,
   ⟨.mode, 4, false⟩, ⟨.addressSize, 4, false⟩, ⟨.dataSize, 6, false⟩, ⟨.feature, 8, false⟩,
   ⟨.auxiliary, 10, false⟩, ⟨.width, 2, true⟩]

def vectorAxes : List Axis :=
  [⟨.opcodeMap, 32, true⟩, ⟨.opcode, 256, true⟩, ⟨.pp, 4, true⟩, ⟨.length, 4, true⟩,
   ⟨.width, 2, true⟩, ⟨.widthOutside64Ignored, 2, true⟩, ⟨.newDataDestination, 2, true⟩,
   ⟨.noFlags, 2, true⟩, ⟨.standardCondition, 16, true⟩, ⟨.lpdf, 64, true⟩, ⟨.modrmReg, 8, true⟩,
   ⟨.modrmMod, 2, true⟩, ⟨.modrmRm, 8, true⟩]

def axesOf (family : Family) : List Axis :=
  if family.isVector then vectorAxes else legacyAxes

end OpcodeAtlas.Dispatch
