import OpcodeAtlas.Decorator
import OpcodeAtlas.Encoding.Basic

/-!
Complete mnemonics. A condition placeholder inside a mnemonic stands for a condition read off the
encoding; suffixes of decorators come before the condition, or at the end.
-/

namespace OpcodeAtlas.Mnemonic

/-- Conditions of the low opcode nibble. -/
def opcodeConditions : List String :=
  ["O", "NO", "C", "NC", "Z", "NZ", "BE", "NBE", "S", "NS", "P", "NP", "L", "NL", "LE", "NLE"]

/-- Conditions of EVEX.SC. -/
def standardConditions : List String :=
  ["O", "NO", "C", "NC", "Z", "NZ", "BE", "NBE", "S", "NS", "T", "F", "L", "NL", "LE", "NLE"]

/-- The condition in the last digit of the last opcode. -/
def opcodeCondition? (e : Encoding) : Option Text := do
  let digit ← (← (e.values .opcode).getLast?).getLast?
  let n ← Text.digit? 16 digit
  return (← opcodeConditions[n]?).toList

def standardCondition? (e : Encoding) : Option Text := do
  let n ← Text.numberBelow? 16 (Nat.pow 2 64) (← (e.values .standardCondition).head?)
  return (← standardConditions[n]?).toList

def suffix (decorators : OrderedSet DecoratorFlag) : Text :=
  (if decorators.contains .noFlags then "NF" else "") ++
    (if decorators.contains .zeroUpper then "ZU" else "")

/-- Puts a condition, after the suffix, in the place of every placeholder. -/
def withCondition (mnemonic placeholder suffix : Text) (field : Field) (condition : Option Text) :
    Except SpecError Text :=
  match condition with
  | some c => .ok (Text.replace placeholder (suffix ++ c) mnemonic)
  | none => .error (.missingCondition mnemonic (Vocabulary.token field))

def complete (mnemonic : Text) (decorators : OrderedSet DecoratorFlag) (e : Encoding) :
    Except SpecError Text :=
  if Text.occursInside "cc" mnemonic then
    withCondition mnemonic "cc" (suffix decorators) .opcode (opcodeCondition? e)
  else if Text.occursInside "sc" mnemonic then
    withCondition mnemonic "sc" (suffix decorators) .standardCondition (standardCondition? e)
  else .ok (mnemonic ++ suffix decorators)

end OpcodeAtlas.Mnemonic
