import OpcodeAtlas.Attribute
import OpcodeAtlas.Encoding.Basic

/-!
The words of an encoding. What a word means is settled here without looking at the words around it,
but for two cases left to the reader of the whole encoding: `NP` and mandatory prefix bytes, which
count as prefixes only before the opcode, and the width, whose field depends on an attribute.
-/

namespace OpcodeAtlas.Encoding

inductive ModrmMod where
  | register | memory
  deriving DecidableEq, Repr

def ModrmMod.token : ModrmMod → Text
  | register => "reg"
  | memory => "mem"

/-- What a word after a slash says about the ModR/M byte. -/
inductive Modrm where
  /-- The whole byte. -/
  | byte (value : Nat)
  | parts (reg : Option Nat) (mod : Option ModrmMod)
  deriving DecidableEq, Repr

inductive Token where
  | family (family : Family)
  /-- No mandatory prefix. -/
  | noPrefix
  | byte (word : Text)
  | value (field : Field) (value : Text)
  | property (p : Attribute)
  /-- A scaled index byte is required, with a property that says why. -/
  | scaledIndex (p : Attribute)
  | width (value : Text)
  | modrm (modrm : Modrm)
  /-- Words that only inform the reader: immediates and ignored lengths and widths. -/
  | silent
  deriving DecidableEq, Repr

/-! ### Digits -/

/-- A single digit up to `max`; hexadecimal digits are in upper case. -/
def digitUpTo? (max : Nat) : Text → Option Nat
  | [c] => if 'a' ≤ c ∧ c ≤ 'f' then none else (Text.digit? 16 c).filter (· ≤ max)
  | _ => none

/-- The byte written by a marker and two more characters that form a numeral. -/
def hexByte? (t : Text) : Option Nat :=
  match "0x".toList.isPrefixOf? t with
  | some [a, b] => Text.numberBelow? 16 256 [a, b]
  | _ => none

/-! ### ModR/M -/

namespace Modrm

def mod? (t : Text) : Option ModrmMod :=
  if t = ModrmMod.token .register then some .register
  else if t = ModrmMod.token .memory then some .memory
  else none

/-- `r` leaves ModR/M.reg to an operand, a digit fixes it. -/
def reg? (t : Text) : Option (Option Nat) :=
  if t = ['r'] then some none else (digitUpTo? 7 t).map some

def parse? (body : Text) : Option Modrm :=
  match hexByte? body with
  | some value => some (byte value)
  | none =>
    match body.cut ':' with
    | none => (reg? body).map (parts · none)
    | some (reg, mod) => do
      let mod ← mod? mod
      let reg ← reg? reg
      return parts reg (some mod)

/-- The values a ModR/M word contributes, in order. -/
def contributions : Modrm → List (Field × Text)
  | byte value =>
    [(.modrmMod, ModrmMod.token (if value / 64 = 3 then .register else .memory)),
      (.modrmRm, Text.decimal (value % 8)), (.modrmReg, Text.decimal (value / 8 % 8))]
  | parts reg mod =>
    (reg.map fun n => (.modrmReg, Text.decimal n)).toList ++
      (mod.map fun m => (.modrmMod, m.token)).toList

end Modrm

namespace Token

/-! ### Keywords -/

/-- Keywords that are values of a field, by field. -/
def fieldKeywords : List (Field × List String) :=
  [(.auxiliary, ["repz", "mo64", "rexw", "rexb", "rep", "riprel", "rex2", "rex2w"]),
   (.dataSize, ["ds16", "ds32", "ds64", "dd64", "df64"]),
   (.addressSize, ["as16", "as32", "as64"]),
   (.mode, ["m16", "m32", "m64"]),
   (.vendor, ["intel", "amd"]),
   (.feature, ["mpx", "cet", "cldm", "piti", "movrs", "bhi"])]

/-- All other keywords. -/
def keywords : List (String × Token) :=
  [("xop", family .xop), ("vex", family .vex), ("evex", family .evex), ("NP", noPrefix),
   ("vsib", scaledIndex .vsib), ("sibmem", scaledIndex .sibMem), ("mib", property .mib),
   ("bitbase", property .bitBase), ("ib", silent), ("iw", silent), ("iz", silent), ("iv", silent),
   ("id", silent), ("cb", silent), ("cz", silent), ("cv", silent), ("cp", silent), ("cq", silent),
   ("is4", silent)]

def keyword? (word : Text) : Option Token :=
  match fieldKeywords.find? fun row => row.2.any fun k => k.toList == word with
  | some (field, _) => some (.value field word)
  | none => (keywords.find? fun row => row.1.toList == word).map (·.2)

/-! ### Keys with a value -/

/-- Keys whose value is one digit: the field and the largest digit. -/
def digitKeys : List (String × Field × Nat) :=
  [("rm", .modrmRm, 7), ("m", .opcodeMap, 0xc), ("p", .pp, 3), ("l", .length, 3),
   ("nd", .newDataDestination, 1), ("nf", .noFlags, 1), ("sc", .standardCondition, 0xf)]

/-- Values that are not digits. -/
def namedValues : List (String × String × Token) :=
  [("l", "x", silent), ("w", "x", silent), ("l", "i", property .lengthIgnored),
   ("l", "n", property .noLength0), ("w", "i", property .widthIgnored)]

def keyed? (key v : Text) : Option Token :=
  match namedValues.find? fun row => row.1.toList == key && row.2.1.toList == v with
  | some row => some row.2.2
  | none =>
    if key = ['w'] then (digitUpTo? 1 v).map fun _ => width v
    else
      match digitKeys.find? fun row => row.1.toList == key with
      | some (_, field, max) => (digitUpTo? max v).map fun _ => value field v
      | none => none

/-! ### Words -/

def isSlashed : Text → Bool
  | '/' :: _ => true
  | _ => false

/-- The meaning of a word, or what is wrong with it. -/
def parse (word : Text) : Except SpecError Token :=
  match keyword? word with
  | some token => .ok token
  | none =>
    match word with
    | '/' :: body =>
      match Modrm.parse? body with
      | some m => .ok (.modrm m)
      | none => .error (.invalidModrm word)
    | _ =>
      match word.cut ':' with
      | some (key, v) => (keyed? key v).elim (.error (.invalidEncoding word)) .ok
      | none =>
        if (hexByte? word).isSome then .ok (.byte word) else .error (.invalidEncoding word)

end Token

end OpcodeAtlas.Encoding
