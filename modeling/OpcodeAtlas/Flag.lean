import OpcodeAtlas.Templates.Basic
import OpcodeAtlas.Update

/-!
Access to the RFLAGS bits, written as `FLAG=access` entries separated by bars. An entry may be the
name of a template. The flags are kept by kind of access, each in the order given.
-/

namespace OpcodeAtlas

/-- An RFLAGS bit. -/
inductive Flag where
  | carry | parity | adjust | zero | sign | trap | interrupt | direction | overflow
  | privilegeLevel | nestedTask | resume | virtual8086 | alignmentCheck | virtualInterrupt
  | virtualInterruptPending | identification
  deriving DecidableEq, Repr

instance : Vocabulary Flag where
  kind := .flag
  all := [.carry, .parity, .adjust, .zero, .sign, .trap, .interrupt, .direction, .overflow,
    .privilegeLevel, .nestedTask, .resume, .virtual8086, .alignmentCheck, .virtualInterrupt,
    .virtualInterruptPending, .identification]
  spelling
    | .carry => "CF"
    | .parity => "PF"
    | .adjust => "AF"
    | .zero => "ZF"
    | .sign => "SF"
    | .trap => "TF"
    | .interrupt => "IF"
    | .direction => "DF"
    | .overflow => "OF"
    | .privilegeLevel => "IOPL"
    | .nestedTask => "NT"
    | .resume => "RF"
    | .virtual8086 => "VM"
    | .alignmentCheck => "AC"
    | .virtualInterrupt => "VIF"
    | .virtualInterruptPending => "VIP"
    | .identification => "ID"

/-- How an instruction accesses a flag. -/
inductive FlagAccess where
  | modified | tested | cleared | set | undefined | notAccessed
  deriving DecidableEq, Repr

instance : Vocabulary FlagAccess where
  kind := .flagAccess
  all := [.modified, .tested, .cleared, .set, .undefined, .notAccessed]
  spelling
    | .modified => "m"
    | .tested => "t"
    | .cleared => "0"
    | .set => "1"
    | .undefined => "u"
    | .notAccessed => "n"

structure FlagsAccess where
  flags : FlagAccess → List Flag

namespace FlagsAccess

def empty : FlagsAccess := ⟨fun _ => []⟩

def parseEntry (entry : Text) : Except SpecError (FlagAccess × Flag) :=
  match entry.cut '=' with
  | none => .error (.malformed .flagAccess entry)
  | some (flag, access) => do
    let access ← Vocabulary.parse access.trim
    let flag ← Vocabulary.parse flag.trim
    return (access, flag)

def ofEntries (entries : List (FlagAccess × Flag)) : FlagsAccess :=
  ⟨fun access => (entries.filter (·.1 = access)).map (·.2)⟩

def parse (value : Text) (templates : Templates) : Except SpecError FlagsAccess :=
  ((Templates.expand templates.flags.find? value).mapM parseEntry).map ofEntries

/-- Replaces the whole access. -/
def add (value : Text) (templates : Templates) : Update FlagsAccess Unit :=
  .validated (parse value templates) fun f _ => f

/-- Every kind of access to a flag. -/
def access (f : FlagsAccess) (flag : Flag) : List FlagAccess :=
  Vocabulary.all.filter fun a => flag ∈ f.flags a

def isTested (f : FlagsAccess) : Bool := !(f.flags .tested).isEmpty

def isModified (f : FlagsAccess) : Bool :=
  (Vocabulary.all.filter fun a => a ≠ .tested ∧ a ≠ .notAccessed).any fun a => !(f.flags a).isEmpty

def isEmpty (f : FlagsAccess) : Bool := Vocabulary.all.all fun a => (f.flags a).isEmpty

/-- The entries, grouped by kind of access. -/
def entries (f : FlagsAccess) : List (FlagAccess × Flag) :=
  Vocabulary.all.flatMap fun a => (f.flags a).map (a, ·)

def renderEntry (entry : FlagAccess × Flag) : Text :=
  Vocabulary.token entry.2 ++ "=" ++ Vocabulary.token entry.1

def render (f : FlagsAccess) : Text := List.intercalate ['|'] (f.entries.map renderEntry)

end FlagsAccess

end OpcodeAtlas
