import OpcodeAtlas.Update
import OpcodeAtlas.Vocabulary

/-!
How instructions access their operands. An access map lists the explicit operands first; its updates
append.
-/

namespace OpcodeAtlas

/-- How an instruction accesses an operand. -/
inductive OperandAccess where
  | untouched | prefetch | read | write | conditionalRead | conditionalWrite | readWrite
  | conditionalReadWrite | readConditionalWrite | conditionalReadConditionalWrite
  deriving DecidableEq, Repr

instance : Vocabulary OperandAccess where
  kind := .operandAccess
  all := [.untouched, .prefetch, .read, .write, .conditionalRead, .conditionalWrite, .readWrite,
    .conditionalReadWrite, .readConditionalWrite, .conditionalReadConditionalWrite]
  spelling
    | .untouched => "N"
    | .prefetch => "P"
    | .read => "R"
    | .write => "W"
    | .conditionalRead => "CR"
    | .conditionalWrite => "CW"
    | .readWrite => "RW"
    | .conditionalReadWrite => "CRW"
    | .readConditionalWrite => "RCW"
    | .conditionalReadConditionalWrite => "CRCW"

namespace OperandAccess

/-! The letters of the spelling say what the access does. -/

def isRead (a : OperandAccess) : Bool := 'R' ∈ Vocabulary.token a

def isWrite (a : OperandAccess) : Bool := 'W' ∈ Vocabulary.token a

def isConditional (a : OperandAccess) : Bool := 'C' ∈ Vocabulary.token a

end OperandAccess

structure AccessMap where
  entries : List OperandAccess
  deriving DecidableEq, Repr

namespace AccessMap

def empty : AccessMap := ⟨[]⟩

def size (m : AccessMap) : Nat := m.entries.length

def get? (m : AccessMap) (i : Nat) : Option OperandAccess := m.entries[i]?

/-- Appends entries separated by bars, all of them or none. -/
def add (value : Text) : Update AccessMap Unit :=
  .validated (Vocabulary.parseList value) fun as m => ⟨m.entries ++ as⟩

/-- Fails unless each of `operands` operands has an entry. -/
def check (m : AccessMap) (operands : Nat) : Except SpecError Unit :=
  if m.size < operands then .error (.accessMapTooShort m.size operands) else .ok ()

end AccessMap

end OpcodeAtlas
