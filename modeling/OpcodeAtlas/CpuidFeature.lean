import OpcodeAtlas.Vocabulary

/-!
CPUID feature flags, one per line as `NAME : 0xleaf, 0xsubleaf, REGISTER, bit`. A sub-leaf with all
32 bits set is written for a feature without a sub-leaf.
-/

namespace OpcodeAtlas

/-- A CPUID output register. -/
inductive CpuidRegister where
  | eax | ebx | ecx | edx
  deriving DecidableEq, Repr

instance : Vocabulary CpuidRegister where
  kind := .cpuidRegister
  all := [.eax, .ebx, .ecx, .edx]
  spelling
    | .eax => "EAX"
    | .ebx => "EBX"
    | .ecx => "ECX"
    | .edx => "EDX"

structure CpuidFeature where
  name : Text
  leaf : Nat
  subleaf : Option Nat
  register : CpuidRegister
  bit : Nat
  deriving DecidableEq, Repr

namespace CpuidFeature

/-- Written for the sub-leaf of a feature without one. -/
def noSubleaf : Nat := 0xffffffff

/-- A hexadecimal number of at most 32 bits with its marker. -/
def hexField? (t : Text) : Option Nat :=
  ("0x".toList.isPrefixOf? t.trim).bind (Text.numberBelow? 16 (Nat.pow 2 32))

def parse (line : Text) : Except SpecError CpuidFeature :=
  let malformed := SpecError.malformed .cpuidFeature line.trim
  match line.cut ':' with
  | none => .error malformed
  | some (name, value) =>
    let name := name.trim
    let fields := value.trimmedPieces ','
    if name.isEmpty || name.any Text.isBlank then .error malformed
    else do
      let leaf ← (fields[0]?.bind hexField?).elim (.error malformed) .ok
      let subleaf ← (fields[1]?.bind hexField?).elim (.error malformed) .ok
      let register ← fields[2]?.elim (.error malformed) Vocabulary.parse
      let bit ← (fields[3]?.bind (Text.numberBelow? 10 32)).elim (.error malformed) .ok
      if fields.length = 4 then
        return { name, leaf, subleaf := if subleaf = noSubleaf then none else some subleaf,
                 register, bit }
      else .error malformed

def render (f : CpuidFeature) : Text :=
  f.name ++ ": 0x" ++ Text.hex f.leaf ++ ", 0x" ++ Text.hex (f.subleaf.getD noSubleaf) ++ ", " ++
    Vocabulary.token f.register ++ ", " ++ Text.decimal f.bit

end CpuidFeature

end OpcodeAtlas
