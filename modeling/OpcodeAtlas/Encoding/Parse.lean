import OpcodeAtlas.Encoding.Token
import OpcodeAtlas.Update

/-!
Reading a whole encoding, word by word. Words can add attributes; those added before a failure stay,
and a word after a slash adds ModR/M even when the rest of it is wrong.
-/

namespace OpcodeAtlas.Encoding

structure Reading where
  family : Family
  /-- The values read, the last one first. -/
  values : List (Field × Text)
  attributes : Attributes
  /-- Bytes that follow ModR/M are opcodes after the operands. -/
  sawModrm : Bool

namespace Reading

def start (attributes : Attributes) : Reading := ⟨.legacy, [], attributes, false⟩

def encoding (s : Reading) : Encoding := .ofValues s.family s.values.reverse

def push (s : Reading) (field : Field) (value : Text) : Reading :=
  { s with values := (field, value) :: s.values }

/-- Pushes values in order. -/
def pushAll (s : Reading) (vs : List (Field × Text)) : Reading :=
  { s with values := vs.reverse ++ s.values }

def withProperty (s : Reading) (p : Attribute) : Reading :=
  { s with attributes := s.attributes.insert p }

/-- Mandatory prefixes come before the opcode of an encoding that is not a vector one so far. -/
def acceptsPrefix (s : Reading) : Bool :=
  !s.family.isVector && !s.values.any (·.1 = .opcode)

def prefixBytes : List Text := ["0x66", "0xF3", "0xF2"]

/-- Takes in a token; only a misplaced `NP` has no meaning. -/
def take? (s : Reading) : Token → Option Reading
  | .family f => some { s with family := f }
  | .noPrefix => if s.acceptsPrefix then some (s.push .mandatoryPrefix "PNP") else none
  | .byte word =>
    if prefixBytes.contains word && s.acceptsPrefix then
      some (s.push .mandatoryPrefix ('P' :: word))
    else some (s.push (if s.sawModrm then .opcodeLast else .opcode) word)
  | .value field value => some (s.push field value)
  | .property p => some (s.withProperty p)
  | .scaledIndex p => some ((s.withProperty p).push .modrmRm "4")
  | .width value =>
    some (s.push
      (if s.attributes.contains .widthIgnoredOutside64 then .widthOutside64Ignored else .width)
      value)
  | .modrm m => some (s.pushAll m.contributions)
  | .silent => some s

/-- What a word does before its meaning is known. -/
def mark (s : Reading) (word : Text) : Reading :=
  if Token.isSlashed word then { s.withProperty .modrm with sawModrm := true } else s

def read (s : Reading) (word : Text) : Except SpecError Reading := do
  let token ← Token.parse word
  (s.take? token).elim (.error (.invalidEncoding word)) .ok

/-- Reads words up to the first wrong one, and leaves what has been read. -/
def readAll (s : Reading) : List Text → Except SpecError Unit × Reading
  | [] => (.ok (), s)
  | word :: rest =>
    match (s.mark word).read word with
    | .ok t => t.readAll rest
    | .error e => (.error e, s.mark word)

/-! ### Values -/

theorem values_push (s : Reading) (field f : Field) (value : Text) :
    (s.push field value).encoding.values f =
      s.encoding.values f ++ if field = f then [value] else [] := by
  by_cases h : field = f <;> simp [push, encoding, ofValues, h]

theorem values_pushAll (s : Reading) (vs : List (Field × Text)) (f : Field) :
    (s.pushAll vs).encoding.values f =
      s.encoding.values f ++ (ofValues s.family vs).values f := by
  simp [pushAll, encoding, ofValues]

/-- A prefix is accepted as long as the encoding so far has no opcode and no vector family. -/
theorem acceptsPrefix_eq (s : Reading) :
    s.acceptsPrefix = (!s.encoding.isVector && !s.encoding.has .opcode) := by
  have any : s.values.any (·.1 = .opcode) = s.encoding.has .opcode := by
    rw [Bool.eq_iff_iff]
    simp [encoding, has, ofValues]
  simp [acceptsPrefix, any, isVector, encoding, ofValues]

end Reading

/-- Reads an encoding without merging any fields. -/
def parsePlain (raw : Text) : Update Attributes Encoding := fun attributes =>
  let (result, s) := (Reading.start attributes).readAll raw.words
  (result.map fun _ => s.encoding, s.attributes)

def parse (raw : Text) : Update Attributes Encoding := merge <$> parsePlain raw

end OpcodeAtlas.Encoding
