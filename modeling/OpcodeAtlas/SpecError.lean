import OpcodeAtlas.Text.Number

/-!
What can be wrong with a specification. `SpecError` lists the causes; `SpecError.message` is the
only place that words them.
-/

namespace OpcodeAtlas

/-- The closed vocabularies, as an error names them. -/
inductive VocabularyKind where
  | instructionAttribute | legacyPrefix | cpuMode | modeGroup | decorator | flag | flagAccess
  | fpuFlag | fpuAccess | operandAccess | operandType | operandSize | tuple | evexMode
  | exceptionType | simdException | metaKey | cpuidRegister | encodingField | filter
  deriving DecidableEq, Repr

def VocabularyKind.description : VocabularyKind → Text
  | instructionAttribute => "attribute"
  | legacyPrefix => "prefix"
  | cpuMode => "CPU mode"
  | modeGroup => "CPU mode group"
  | decorator => "decorator"
  | flag => "flag"
  | flagAccess => "flag access"
  | fpuFlag => "FPU flag"
  | fpuAccess => "FPU flag access"
  | operandAccess => "operand access"
  | operandType => "operand type"
  | operandSize => "operand size"
  | tuple => "tuple"
  | evexMode => "EVEX mode"
  | exceptionType => "exception type"
  | simdException => "SIMD exception"
  | metaKey => "metadata key"
  | cpuidRegister => "CPUID register"
  | encodingField => "encoding field"
  | filter => "filter"

/-- The entries that have to follow a fixed shape. -/
inductive EntryShape where
  | modesClause | flagAccess | fpuFlagAccess | metadataEntry | cpuidFeature
  deriving DecidableEq, Repr

def EntryShape.description : EntryShape → Text
  | modesClause => "CPU modes clause"
  | flagAccess => "flag access"
  | fpuFlagAccess => "FPU flag access"
  | metadataEntry => "metadata entry"
  | cpuidFeature => "CPUID feature"

inductive SpecError where
  /-- A token outside its vocabulary. -/
  | unknown (vocabulary : VocabularyKind) (token : Text) (expected : List Text)
  /-- A CPU mode that is not in the group it was given for. -/
  | modeNotInGroup (group mode : Text) (expected : List Text)
  | malformed (shape : EntryShape) (entry : Text)
  | accessMapTooShort (provided expected : Nat)
  /-- An operand token without a type and a size. -/
  | invalidOperand (raw : Text)
  /-- A stack operand whose size is no number of words. -/
  | invalidStackSize (size : Text)
  | invalidEncoding (token : Text)
  | invalidModrm (token : Text)
  | leadingSpace
  | componentCount (count : Nat)
  | emptyMnemonic
  /-- A condition placeholder without the encoding field it is taken from. -/
  | missingCondition (mnemonic field : Text)
  /-- An encoding value that is no child of the node it dispatches on. -/
  | invalidGroupValue (component value : Text) (size : Nat)
  /-- Instructions that no component tells apart. -/
  | conflict (instructions : List Text)
  deriving DecidableEq, Repr

namespace SpecError

def conflictHeading : Text := "cannot properly group the following instructions:"

def conflictItem (instruction : Text) : Text := "    -> " ++ instruction

def message : SpecError → Text
  | unknown vocabulary token expected =>
    "unknown " ++ vocabulary.description ++ " specifier '" ++ token ++ "', expecting one of [" ++
      List.intercalate [','] expected ++ "]"
  | modeNotInGroup group mode expected =>
    "mode " ++ mode ++ " is not valid for mode group " ++ group ++ "; it can be one of [" ++
      List.intercalate [','] expected ++ "]"
  | malformed shape entry => "malformed " ++ shape.description ++ " '" ++ entry ++ "'"
  | accessMapTooShort provided expected =>
    "invalid number of operand access specifiers: provided " ++ Text.decimal provided ++
      ", expecting " ++ Text.decimal expected
  | invalidOperand raw => "invalid operand size specified: " ++ raw
  | invalidStackSize size => "unknown stack size specified: " ++ size
  | invalidEncoding token => "invalid encoding: unknown token: " ++ token
  | invalidModrm token => "invalid encoding: modrm specification is invalid: '" ++ token ++ "'"
  | leadingSpace => "space cannot be the first character"
  | componentCount count =>
    "expected 5 components per line, but found " ++ Text.decimal count ++ " (missing semicolon?)"
  | emptyMnemonic => "mnemonic cannot be empty"
  | missingCondition mnemonic field =>
    "mnemonic " ++ mnemonic ++ " needs a condition, but the " ++ field ++ " field is empty"
  | invalidGroupValue component value size =>
    "value '" ++ value ++ "' cannot index component " ++ component ++ " of size " ++
      Text.decimal size
  | conflict instructions =>
    conflictHeading ++ instructions.flatMap fun i => '\n' :: conflictItem i

end SpecError

end OpcodeAtlas
