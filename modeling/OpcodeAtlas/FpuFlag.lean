import OpcodeAtlas.Update
import OpcodeAtlas.Vocabulary

/-!
Access to the x87 condition code flags, written as `Cn=access` entries separated by bars. Of several
entries for a flag the last counts, and a flag without one is undefined.
-/

namespace OpcodeAtlas

/-- An x87 condition code flag. -/
inductive FpuFlag where
  | c0 | c1 | c2 | c3
  deriving DecidableEq, Repr

instance : Vocabulary FpuFlag where
  kind := .fpuFlag
  all := [.c0, .c1, .c2, .c3]
  spelling
    | .c0 => "C0"
    | .c1 => "C1"
    | .c2 => "C2"
    | .c3 => "C3"

/-- How an instruction accesses an x87 flag. -/
inductive FpuAccess where
  | cleared | set | modified | undefined
  deriving DecidableEq, Repr

instance : Vocabulary FpuAccess where
  kind := .fpuAccess
  all := [.cleared, .set, .modified, .undefined]
  spelling
    | .cleared => "0"
    | .set => "1"
    | .modified => "m"
    | .undefined => "u"

/-- The access to every x87 flag; instructions that are not of the x87 have none. -/
structure FpuFlagsAccess where
  access? : Option (FpuFlag → FpuAccess)

namespace FpuFlagsAccess

def absent : FpuFlagsAccess := ⟨none⟩

def isPresent (f : FpuFlagsAccess) : Bool := f.access?.isSome

def get? (f : FpuFlagsAccess) (flag : FpuFlag) : Option FpuAccess := f.access?.map (· flag)

def parseEntry (entry : Text) : Except SpecError (FpuFlag × FpuAccess) :=
  match entry.cut '=' with
  | none => .error (.malformed .fpuFlagAccess entry)
  | some (flag, access) => do
    let flag ← Vocabulary.parse flag.trim
    let access ← Vocabulary.parse access.trim
    return (flag, access)

def ofEntries (entries : List (FpuFlag × FpuAccess)) : FpuFlagsAccess :=
  ⟨some fun flag => (entries.reverse.lookup flag).getD .undefined⟩

def parse (value : Text) : Except SpecError FpuFlagsAccess :=
  ((value.splitOn '|').mapM parseEntry).map ofEntries

/-- Replaces the access to all flags. -/
def add (value : Text) : Update FpuFlagsAccess Unit := .validated (parse value) fun f _ => f

def renderEntry (entry : FpuFlag × FpuAccess) : Text :=
  Vocabulary.token entry.1 ++ "=" ++ Vocabulary.token entry.2

def render (f : FpuFlagsAccess) : Text :=
  match f.access? with
  | none => []
  | some access =>
    List.intercalate ['|'] (Vocabulary.all.map fun flag => renderEntry (flag, access flag))

end FpuFlagsAccess

end OpcodeAtlas
