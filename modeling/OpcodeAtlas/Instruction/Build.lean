import OpcodeAtlas.Encoding.Parse
import OpcodeAtlas.Instruction.Basic
import OpcodeAtlas.Instruction.Mnemonic
import OpcodeAtlas.Operand.Parse

/-!
Building an instruction from its parts. The parts are read first, metadata, encoding and operands in
this order; then attributes, modes, mnemonic and filters are completed from what has been read.
-/

namespace OpcodeAtlas.Instruction

open Decorators (maskStart)

/-! ### Operands -/

/-- Written where an operand list is empty. -/
def absentMarkers : List Text := ["n/a", ""]

/-- A mask decorator on the first operand gives the mask register an operand of its own. -/
def withMaskOperand : List Text → List Text
  | first :: rest =>
    if Text.occursInside maskStart first then first :: "aKq" :: rest else first :: rest
  | [] => []

/-- Reads tokens up to an absent marker. The access of an operand stands at its place in the access
map, `offset` places in. -/
def parseOperands (access : AccessMap) (offset : Nat) (flags : Nat → List OperandFlag)
    (implicit : Bool) (tokens : List Text) : Except SpecError (List Operand) :=
  ((tokens.takeWhile (!absentMarkers.contains ·)).zipIdx).mapM fun token => do
    let place := offset + token.2
    let a ← (access.get? place).elim (.error (.accessMapTooShort access.size (place + 1))) .ok
    Operand.parse token.1 a (flags (token.2 + 1)) implicit

/-- Takes away the attributes that belong to one of the first `count` operands. -/
def withoutOperands (count : Nat) (attributes : Attributes) : Attributes :=
  (List.range count).foldl (fun s i => Attributes.withoutOperand (i + 1) s) attributes

/-! ### Attributes and modes -/

def hasType (types : List OperandType) (o : Operand) : Bool := o.type?.any (· ∈ types)

def usesVector (os : List Operand) : Bool := os.any (hasType [.U, .V, .W, .H, .L])

/-- Whether an operand is encoded in vvvv. -/
def usesV (os : List Operand) : Bool := os.any (hasType [.B, .H, .vK, .vT, .dfv])

/-- Whether the extra bit of vvvv is put to use, by an operand in vvvv or for another purpose. -/
def usesVPrime (e : Encoding) (attributes : Attributes) (os : List Operand) : Bool :=
  os.any fun o => o.type?.isSome &&
    (hasType [.B, .H] o || attributes.contains .vsib || e.has .standardCondition)

def completeModes (e : Encoding) (modes : CpuModes) : CpuModes :=
  if e.isVector then (modes.erase .real).erase .virtual8086 else modes

/-- Adds the attributes that operands, encoding and modes imply. -/
def completeAttributes (e : Encoding) (os : List Operand) (modes : CpuModes) (s : Attributes) :
    Attributes :=
  let long := modes.contains .long
  let implied : List (Bool × Attribute) :=
    [(usesVector os, .vector),
     (e.isVector && !usesV os, .noV),
     (e.isEvex && !usesVPrime e s os, .noVPrime),
     (!long, .invalidInLongMode),
     (long && !modes.contains .protectedMode, .onlyInLongMode)]
  s.insertAll ((implied.filter (·.1)).map (·.2))

/-! ### Filters -/

/-- Only the XSAVE and XRSTOR families refuse REX2 where their opcode group accepts it. -/
def refusesRex2 (mnemonic : Text) : Bool :=
  "XSAVE".toList.isPrefixOf mnemonic || "XRSTOR".toList.isPrefixOf mnemonic

/-- Two filters that come together are one. -/
def joinV (filters : List Filter) : List Filter :=
  if .noV ∈ filters ∧ .noVPrime ∈ filters then
    filters.filter (fun f => f ≠ .noV ∧ f ≠ .noVPrime) ++ [.noVAndVPrime]
  else filters

def attributeFilters (mnemonic : Text) (attributes : Attributes) : List Filter :=
  joinV ((attributes.elements.filterMap Filter.ofAttribute?).filter fun f =>
    f ≠ .noRex2 || refusesRex2 mnemonic)

/-- General purpose registers are checked in native EVEX instructions only. -/
def operandFilter? (native : Bool) (o : Operand) : Option Filter :=
  match o.type? with
  | none => none
  | some .G => if native then some .regGeneralBelow16 else Filter.ofOperand? .G o.access.isWrite
  | some .B => if native then some .vvvvGeneralBelow16 else Filter.ofOperand? .B o.access.isWrite
  | some type => Filter.ofOperand? type o.access.isWrite

/-- Registers that have to be distinct, by exception type. -/
def exceptionFilters (m : Metadata) (attributes : Attributes) : List Filter :=
  if attributes.contains .vsib && m.category = ("AVX2GATHER" : Text) then
    match m.exception with
    | some .t12 => [.gatherDistinct]
    | some .e12 => [.gatherIndexDistinct]
    | _ => []
  else
    match m.exception with
    | some .amxE4 | some .amxE10 => [.tilesDistinct]
    | some .e4S | some .e10S => [.destinationDistinct]
    | some .apxPp2 =>
      .noStackPointer :: if m.instructionClass = ("POP2" : Text) then [.pairDistinct] else []
    | _ => []

def filtersOf (mnemonic : Text) (m : Metadata) (attributes : Attributes) (e : Encoding)
    (os : List Operand) : List Filter :=
  attributeFilters mnemonic attributes ++
    os.filterMap (operandFilter? (e.isEvex && m.evexMode.isNone)) ++ exceptionFilters m attributes

/-! ### Instructions -/

/-- The parts of a specification line. -/
structure Parts where
  mnemonic : Text
  explicit : List Text
  implicit : List Text
  encoding : Text
  metadata : List Text
  deriving DecidableEq, Repr

def build (templates : Templates) (p : Parts) : Except SpecError Instruction := do
  let (bare, mnemonicDecorators) := Decorators.strip p.mnemonic
  let explicit := withMaskOperand p.explicit
  let metadata ← Metadata.read templates bare p.metadata
  metadata.access.check (explicit.length + p.implicit.length)
  let (encoding, attributes) ← (Encoding.parse p.encoding).outcome? metadata.attributes
  let operands ← parseOperands metadata.access 0 attributes.operandFlags false explicit
  let implicitOperands ←
    parseOperands metadata.access operands.length (fun _ => []) true p.implicit
  let decorators := mnemonicDecorators.instructionFlags.insertAll
    (operands.flatMap fun o => o.decorators.instructionFlags.elements)
  let modes := completeModes encoding metadata.modes
  let attributes :=
    completeAttributes encoding operands modes (withoutOperands operands.length attributes)
  let mnemonic ← Mnemonic.complete bare decorators encoding
  let summary ← AccessSummary.ofOperands (operands ++ implicitOperands)
  return {
    mnemonic, metadata, encoding, operands, implicitOperands, attributes, modes, decorators, summary
    rawEncoding := p.encoding
    filters := filtersOf mnemonic metadata attributes encoding operands
    payload := Payload.ofOperands? operands
    feature := templates.feature? metadata.featureId }

end OpcodeAtlas.Instruction
