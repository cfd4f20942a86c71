import OpcodeAtlas.Text.Number

/-!
Golden files: specifications with the outputs expected of them. Markers cut a file into blocks, and
a block holds at most one test. The lines of a specification keep the numbers they have in the file,
so a failure at one of its lines points into the file.
-/

namespace OpcodeAtlas.Golden

/-- An expected output. -/
structure Section where
  name : Text
  /-- The line after the header. -/
  line : Nat
  text : Text
  deriving DecidableEq, Repr

structure Test where
  /-- The first line of the specification. -/
  line : Nat
  specification : Text
  sections : List Section
  deriving DecidableEq, Repr

/-! ### Errors -/

inductive Fault where
  | noSpecification
  | noExpectation
  | unknownSection (name : Text)
  deriving DecidableEq, Repr

def Fault.message : Fault → Text
  | noSpecification => "expected output without specification"
  | noExpectation => "no expected output"
  | unknownSection name => "unknown section \"" ++ name ++ "\""

/-- What is wrong with a golden file, and at which line. -/
structure FileError where
  fault : Fault
  line : Nat
  deriving DecidableEq, Repr

def FileError.message (file : Text) (e : FileError) : Text :=
  "error: " ++ e.fault.message ++ ", " ++ file ++ ":" ++ Text.decimal e.line

/-! ### Lines -/

/-- Ends a test. -/
def isMarker (line : Text) : Bool := line.trimEnd = "---"

def headerMark : Text := "== "

def isHeader (line : Text) : Bool := headerMark.isPrefixOf line

def sectionName (header : Text) : Text := Text.trim (header.drop headerMark.length)

/-! ### Blocks -/

/-- The lines between two markers. -/
structure Block where
  /-- The number of the first line. -/
  start : Nat
  lines : List Text
  /-- The number of the line that ends the block, the marker or the last line of the file. -/
  stop : Nat
  deriving DecidableEq, Repr

/-- Numbers pieces of a file that a marker line follows, except for the last. -/
def Block.number (start : Nat) : List (List Text) → List Block
  | [] => []
  | [lines] => [⟨start, lines, start + lines.length - 1⟩]
  | lines :: rest =>
    ⟨start, lines, start + lines.length⟩ :: Block.number (start + lines.length + 1) rest

def blocks (file : Text) : List Block := Block.number 1 (file.lines.splitOnP isMarker)

/-! ### Tests -/

/-- Drops empty lines from the end, but never the first line. -/
def dropEmptyEnd : List Text → List Text
  | [] => []
  | first :: rest => first :: (rest.reverse.dropWhile (·.isEmpty)).reverse

/-- The sections of lines that start at a number: every header opens one. -/
def sectionsFrom (number : Nat) : List Text → List Section
  | [] => []
  | line :: rest =>
    if isHeader line then
      ⟨sectionName line, number + 1, Text.unlines (dropEmptyEnd (rest.takeWhile (!isHeader ·)))⟩ ::
        sectionsFrom (number + 1) rest
    else sectionsFrom (number + 1) rest

namespace Block

/-- The number of the first line below blank lines and comments. -/
def testLine (b : Block) : Nat := b.start + (b.lines.takeWhile Text.isComment).length

/-- The lines below blank lines and comments. -/
def testLines (b : Block) : List Text := b.lines.dropWhile Text.isComment

/-- The specification lines below empty lines that stand for the lines of the file above them. -/
def specification (b : Block) : Text :=
  Text.unlines (List.replicate (b.testLine - 1) [] ++ b.testLines.takeWhile (!isHeader ·))

/-- The test of a block, if it holds more than blank lines and comments. -/
def test (b : Block) : Except FileError (Option Test) :=
  match b.testLines with
  | [] => .ok none
  | first :: _ =>
    if isHeader first then .error ⟨.noSpecification, b.testLine⟩
    else
      match sectionsFrom b.testLine b.testLines with
      | [] => .error ⟨.noExpectation, b.stop⟩
      | sections => .ok (some ⟨b.testLine, b.specification, sections⟩)

end Block

/-- The tests in front of the first error, and that error. -/
def parse (file : Text) : List Test × Option FileError :=
  collect (blocks file)
where
  collect : List Block → List Test × Option FileError
    | [] => ([], none)
    | b :: bs =>
      match b.test with
      | .error e => ([], some e)
      | .ok found =>
        let (tests, error?) := collect bs
        (found.toList ++ tests, error?)

end OpcodeAtlas.Golden
