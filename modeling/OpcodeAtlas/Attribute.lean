import OpcodeAtlas.OrderedSet

/-!
Attributes of an instruction. Five of them belong to one operand: taking the flags of an operand
removes its attributes and leaves all others.
-/

namespace OpcodeAtlas

/-- A structural or validity property of an instruction. -/
inductive Attribute where
  | modrm | threeDNow | conditionInOpcode | lockSpecial | vector | opcode66 | shadowStack
  | modForcedToRegister | trackedBranch | serializing | scalable | invalidInLongMode
  | onlyInLongMode | forcedTo64 | defaultsTo64 | op1Default | op2Default | op2SignExtendOp1
  | op3SignExtendOp1 | op1SignExtendDword | addressGeneration | bitBase | vsib | mib | sibMem
  | lengthIgnored | widthIgnored | addressSizeIgnored | roundingIgnored | widthIgnoredOutside64
  | mandatoryMask | noMemoryZeroing | noLength0 | noAddress16 | noRipRelative | no66 | no67
  | noRep | noRex2 | noV | noVPrime
  deriving DecidableEq, Repr

instance : Vocabulary Attribute where
  kind := .instructionAttribute
  all := [.modrm, .threeDNow, .conditionInOpcode, .lockSpecial, .vector, .opcode66, .shadowStack,
    .modForcedToRegister, .trackedBranch, .serializing, .scalable, .invalidInLongMode,
    .onlyInLongMode, .forcedTo64, .defaultsTo64, .op1Default, .op2Default, .op2SignExtendOp1,
    .op3SignExtendOp1, .op1SignExtendDword, .addressGeneration, .bitBase, .vsib, .mib, .sibMem,
    .lengthIgnored, .widthIgnored, .addressSizeIgnored, .roundingIgnored, .widthIgnoredOutside64,
    .mandatoryMask, .noMemoryZeroing, .noLength0, .noAddress16, .noRipRelative, .no66, .no67,
    .noRep, .noRex2, .noV, .noVPrime]
  spelling
    | .modrm => "MODRM"
    | .threeDNow => "3DNOW"
    | .conditionInOpcode => "COND"
    | .lockSpecial => "LOCKSP"
    | .vector => "VECTOR"
    | .opcode66 => "S66"
    | .shadowStack => "SHS"
    | .modForcedToRegister => "MFR"
    | .trackedBranch => "CETT"
    | .serializing => "SERIAL"
    | .scalable => "SCALABLE"
    | .invalidInLongMode => "I64"
    | .onlyInLongMode => "O64"
    | .forcedTo64 => "F64"
    | .defaultsTo64 => "D64"
    | .op1Default => "OP1DEF"
    | .op2Default => "OP2DEF"
    | .op2SignExtendOp1 => "OP2SIGNEXO1"
    | .op3SignExtendOp1 => "OP3SIGNEXO1"
    | .op1SignExtendDword => "OP1SIGNEXDW"
    | .addressGeneration => "AG"
    | .bitBase => "BITBASE"
    | .vsib => "VSIB"
    | .mib => "MIB"
    | .sibMem => "SIBMEM"
    | .lengthIgnored => "LIG"
    | .widthIgnored => "WIG"
    | .addressSizeIgnored => "I67"
    | .roundingIgnored => "IER"
    | .widthIgnoredOutside64 => "IWO64"
    | .mandatoryMask => "MMASK"
    | .noMemoryZeroing => "NOMZ"
    | .noLength0 => "NOL0"
    | .noAddress16 => "NOA16"
    | .noRipRelative => "NORIPREL"
    | .no66 => "NO66"
    | .no67 => "NO67"
    | .noRep => "NOREP"
    | .noRex2 => "NOREX2"
    | .noV => "NOV"
    | .noVPrime => "NOVP"

/-- A property of one operand. -/
inductive OperandFlag where
  | isDefault | signExtendOp1 | signExtendDword
  deriving DecidableEq, Repr

instance : Vocabulary OperandFlag where
  kind := .instructionAttribute
  all := [.isDefault, .signExtendOp1, .signExtendDword]
  spelling
    | .isDefault => "OPDEF"
    | .signExtendOp1 => "OPSIGNEXO1"
    | .signExtendDword => "OPSIGNEXDW"

/-- The operand, counted from one, and the flag of an attribute that belongs to an operand. -/
def Attribute.operandFlag? : Attribute → Option (Nat × OperandFlag)
  | .op1Default => some (1, .isDefault)
  | .op2Default => some (2, .isDefault)
  | .op2SignExtendOp1 => some (2, .signExtendOp1)
  | .op3SignExtendOp1 => some (3, .signExtendOp1)
  | .op1SignExtendDword => some (1, .signExtendDword)
  | _ => none

/-- The flag an attribute gives to operand `number`. -/
def Attribute.flagOf? (number : Nat) (a : Attribute) : Option OperandFlag :=
  match a.operandFlag? with
  | some (n, flag) => if n = number then some flag else none
  | none => none

theorem Attribute.flagOf?_eq_some_iff {a : Attribute} {number : Nat} {flag : OperandFlag} :
    a.flagOf? number = some flag ↔ a.operandFlag? = some (number, flag) := by
  unfold flagOf?
  split
  · next n f found =>
    rw [found]
    by_cases same : n = number
    · simp [same]
    · simp [same]
  · next absent => simp [absent]

abbrev Attributes := OrderedSet Attribute

namespace Attributes

def operandFlags (number : Nat) (s : Attributes) : List OperandFlag :=
  s.elements.filterMap (Attribute.flagOf? number)

def withoutOperand (number : Nat) (s : Attributes) : Attributes :=
  OrderedSet.filter (fun a => (a.flagOf? number).isNone) s

/-- Removes the attributes of operand `number` and answers their flags. -/
def takeOperandFlags (number : Nat) : StateM Attributes (List OperandFlag) := fun s =>
  (operandFlags number s, withoutOperand number s)

/-- The attributes that belong to no operand. -/
def instructionAttributes (s : Attributes) : List Attribute :=
  s.elements.filter (·.operandFlag?.isNone)

theorem mem_operandFlags {number : Nat} {s : Attributes} {flag : OperandFlag} :
    flag ∈ s.operandFlags number ↔ ∃ a ∈ s, a.operandFlag? = some (number, flag) := by
  simp only [operandFlags, List.mem_filterMap, Attribute.flagOf?_eq_some_iff]
  rfl

theorem mem_withoutOperand {number : Nat} {s : Attributes} {a : Attribute} :
    a ∈ s.withoutOperand number ↔ a ∈ s ∧ ∀ flag, a.operandFlag? ≠ some (number, flag) := by
  rw [withoutOperand, OrderedSet.mem_filter, Option.isNone_iff_eq_none,
    Option.eq_none_iff_forall_ne_some]
  simp only [ne_eq, Attribute.flagOf?_eq_some_iff]

end Attributes

end OpcodeAtlas
