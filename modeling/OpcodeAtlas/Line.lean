import OpcodeAtlas.Instruction.Build

/-!
Specification lines: mnemonic, explicit operands, implicit operands, encoding and metadata,
separated by semicolons. Everything from a hash on is a comment; lines of fewer than four bytes hold
nothing.
-/

namespace OpcodeAtlas.Line

def isSkipped (line : Text) : Bool :=
  line.head? = some '#' || (String.ofList line).utf8ByteSize < 4

/-- The line without line ends and without its comment. -/
def content (line : Text) : Text :=
  (line.filter fun c => c ≠ '\r' ∧ c ≠ '\n').takeWhile (· ≠ '#')

/-- The operands of a component, none if it holds just an absent marker. -/
def operandTokens (component : Text) : List Text :=
  match component.trim.trimmedPieces ',' with
  | [token] => if Instruction.absentMarkers.contains token then [] else [token]
  | tokens => tokens

def parts (content : Text) : Except SpecError Instruction.Parts :=
  if content.head? = some ' ' then .error .leadingSpace
  else
    match content.splitOn ';' with
    | [mnemonic, explicit, implicit, encoding, metadata] =>
      if (Text.trim mnemonic).isEmpty then .error .emptyMnemonic
      else
        .ok {
          mnemonic := Text.trim mnemonic
          explicit := operandTokens explicit
          implicit := operandTokens implicit
          encoding := Text.trim encoding
          metadata := (Text.trim metadata).splitOn ',' }
    | components => .error (.componentCount components.length)

/-- The instruction of a line, if it holds one. -/
def parse (templates : Templates) (line : Text) : Except SpecError (Option Instruction) :=
  if isSkipped line then .ok none
  else do
    let instruction ← Instruction.build templates (← parts (content line))
    return some instruction

end OpcodeAtlas.Line
