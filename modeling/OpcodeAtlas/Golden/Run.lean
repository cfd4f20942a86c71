import OpcodeAtlas.Golden.Parse
import OpcodeAtlas.LineDiff.Report
import OpcodeAtlas.Specification.Trees

/-!
Running golden files. A specification that fails has to give its failure message in every section;
one that succeeds has to give the dump of a family in the section of that name, has to leave error
sections empty, and needs a section for every tree it has.
-/

namespace OpcodeAtlas.Golden

/-- The name of sections that expect a failure. -/
def errorSection : Text := "error"

/-- What a specification gives: the dumps of its trees, or a failure. -/
abbrev Outcome := Except Specification.Failure (List (Family × Text))

def outcome (file specification : Text) : Outcome := do
  let spec ← (Specification.load { tables := [⟨file, .memory specification⟩] }).result
  let trees ← spec.build.result
  return trees.map fun t => (t.1, t.2.render)

/-- The output that belongs into a section. -/
def output (o : Outcome) (s : Section) : Except FileError Text :=
  match o with
  | .error failure => .ok (failure.message ++ "\n")
  | .ok dumps =>
    if s.name = errorSection then .ok []
    else
      match Family.all.find? fun f => f.name = s.name with
      | some f => .ok ((dumps.lookup f).getD [])
      | none => .error ⟨.unknownSection s.name, s.line - 1⟩

/-- The comparison of a section with what the specification gives for it. -/
def compare (file : Text) (o : Outcome) (s : Section) : Except FileError LineDiff.Comparison :=
  return ⟨file, s.line, s.text, ← output o s⟩

/-- The families with a tree that no section is about. -/
def unexpected (sections : List Section) : Outcome → List Family
  | .error _ => []
  | .ok dumps => (dumps.map (·.1)).filter fun f => !sections.any fun s => s.name = f.name

/-- How often a test fails: once for every section that differs and every tree without a section. -/
def Test.failures (file : Text) (t : Test) : Except FileError Nat := do
  let o := outcome file t.specification
  let comparisons ← t.sections.mapM (compare file o)
  return comparisons.countP (·.failure?.isSome) + (unexpected t.sections o).length

inductive RunError where
  | file (error : FileError)
  | failed (count : Nat)
  deriving DecidableEq, Repr

def RunError.message (file : Text) : RunError → Text
  | .file e => e.message file
  | .failed count => "failed " ++ Text.decimal count ++ " tests"

/-- The failures of all tests. A test runs before the next one is read. -/
def failures (file text : Text) : Except FileError Nat := do
  let (tests, error?) := parse text
  let counts ← tests.mapM (Test.failures file)
  match error? with
  | some e => throw e
  | none => return counts.foldl (· + ·) 0

def run (file text : Text) : Except RunError Unit :=
  match failures file text with
  | .error e => .error (.file e)
  | .ok 0 => .ok ()
  | .ok count => .error (.failed count)

end OpcodeAtlas.Golden
