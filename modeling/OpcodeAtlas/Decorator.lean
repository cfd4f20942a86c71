import OpcodeAtlas.OrderedSet

/-!
Decorators: optional vector behaviour written inside a mnemonic or an operand token.
-/

namespace OpcodeAtlas

/-- A decorator as it is written. -/
inductive Decorator where
  | mask | zero | suppressAll | embeddedRounding | broadcast32 | broadcast64 | broadcast16
  | newDataDestination | noFlags | zeroUpper
  deriving DecidableEq, Repr

instance : Vocabulary Decorator where
  kind := .decorator
  all := [.mask, .zero, .suppressAll, .embeddedRounding, .broadcast32, .broadcast64, .broadcast16,
    .newDataDestination, .noFlags, .zeroUpper]
  spelling
    | .mask => "{K}"
    | .zero => "{z}"
    | .suppressAll => "{sae}"
    | .embeddedRounding => "{er}"
    | .broadcast32 => "|B32"
    | .broadcast64 => "|B64"
    | .broadcast16 => "|B16"
    | .newDataDestination => "{ND}"
    | .noFlags => "{NF}"
    | .zeroUpper => "{ZU}"

/-- A decorator an instruction supports. -/
inductive DecoratorFlag where
  | mask | zero | suppressAll | embeddedRounding | broadcast | newDataDestination | zeroUpper
  | noFlags
  deriving DecidableEq, Repr

instance : Vocabulary DecoratorFlag where
  kind := .decorator
  all := [.mask, .zero, .suppressAll, .embeddedRounding, .broadcast, .newDataDestination,
    .zeroUpper, .noFlags]
  spelling
    | .mask => "MASK"
    | .zero => "ZERO"
    | .suppressAll => "SAE"
    | .embeddedRounding => "ER"
    | .broadcast => "BROADCAST"
    | .newDataDestination => "ND"
    | .zeroUpper => "ZU"
    | .noFlags => "NF"

/-- A decorator an operand supports. -/
inductive OperandDecorator where
  | mask | zero | suppressAll | embeddedRounding | broadcast32 | broadcast64 | broadcast16
  deriving DecidableEq, Repr

instance : Vocabulary OperandDecorator where
  kind := .decorator
  all := [.mask, .zero, .suppressAll, .embeddedRounding, .broadcast32, .broadcast64, .broadcast16]
  spelling
    | .mask => "MASK"
    | .zero => "ZERO"
    | .suppressAll => "SAE"
    | .embeddedRounding => "ER"
    | .broadcast32 => "B32"
    | .broadcast64 => "B64"
    | .broadcast16 => "B16"

namespace Decorator

def instructionFlag : Decorator → DecoratorFlag
  | mask => .mask
  | zero => .zero
  | suppressAll => .suppressAll
  | embeddedRounding => .embeddedRounding
  | broadcast32 | broadcast64 | broadcast16 => .broadcast
  | newDataDestination => .newDataDestination
  | noFlags => .noFlags
  | zeroUpper => .zeroUpper

def operandFlag? : Decorator → Option OperandDecorator
  | mask => some .mask
  | zero => some .zero
  | suppressAll => some .suppressAll
  | embeddedRounding => some .embeddedRounding
  | broadcast32 => some .broadcast32
  | broadcast64 => some .broadcast64
  | broadcast16 => some .broadcast16
  | newDataDestination | noFlags | zeroUpper => none

end Decorator

abbrev Decorators := OrderedSet Decorator

namespace Decorators

/-- How a mask decorator starts; no other one starts so. -/
def maskStart : Text := ['{', 'K']

/-- Takes every occurrence of one decorator out of what is left of a token. -/
def stripOne (state : Text × Decorators) (d : Decorator) : Text × Decorators :=
  if Text.occurs (Vocabulary.token d) state.1 then
    (Text.replace (Vocabulary.token d) [] state.1, state.2.insert d)
  else state

/-- A token without its decorators, and the decorators found. They are taken out one after the other
in vocabulary order, each in a single pass. -/
def strip (t : Text) : Text × Decorators := Vocabulary.all.foldl stripOne (t, ∅)

def instructionFlags (s : Decorators) : OrderedSet DecoratorFlag :=
  OrderedSet.image Decorator.instructionFlag s

def operandFlags (s : Decorators) : OrderedSet OperandDecorator :=
  OrderedSet.filterImage Decorator.operandFlag? s

end Decorators

end OpcodeAtlas
