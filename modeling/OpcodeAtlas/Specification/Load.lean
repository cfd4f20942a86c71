import OpcodeAtlas.Line
import OpcodeAtlas.Specification.Failure
import OpcodeAtlas.Templates.Load

/-!
Loading a specification. All templates are read before any table, so every table line is read under
the same templates; loading stops at the first failure.
-/

namespace OpcodeAtlas

/-- The instructions of a specification, in source order, and the templates they were read under. -/
structure Specification where
  templates : Templates
  instructions : List Instruction

namespace Specification

/-- What to load, each kind in its order. -/
structure Sources where
  templates : Templates := .standard
  flags : List Source := []
  modes : List Source := []
  features : List Source := []
  tables : List Source := []

namespace Source

def read (s : Source) : Except Failure Text := s.content.read.mapError (.unreadable s.name)

/-- The record of a source that has been loaded. -/
def record (s : Source) (count : Nat) (what : Text) : LogRecord :=
  ⟨.debug, s.name ++ ": " ++ Text.decimal count ++ " " ++ what⟩

/-- Adds the definitions of a source to the templates. -/
def loadTemplates (load : Templates → Text → Templates.Loaded) (what : Text) (t : Templates)
    (s : Source) : Logged Failure Templates := do
  let loaded := load t (← s.read)
  Logged.write (loaded.warnings ++ [s.record loaded.count what])
  return loaded.templates

end Source

/-- The lines that are not blank, with their numbers. -/
def tableRows (text : Text) : List (Text × Nat) :=
  (text.lines.zipIdx 1).filter fun row => !Text.isBlankText row.1

/-- The instructions of a table text, or the first line that cannot be read. -/
def readTable (t : Templates) (name text : Text) : Except Failure (List Instruction) := do
  let found ← (tableRows text).mapM fun row => (Line.parse t row.1).mapError (.line name row.2)
  return found.filterMap id

def Source.loadTable (t : Templates) (s : Source) : Logged Failure (List Instruction) := do
  let instructions ← readTable t s.name (← s.read)
  Logged.write [s.record instructions.length "instructions"]
  return instructions

/-- The templates of the sources: flags accesses, then CPU modes, then CPUID features. -/
def Sources.loadTemplates (s : Sources) : Logged Failure Templates := do
  let t := s.templates
  let t ← s.flags.foldlM (Source.loadTemplates Templates.loadFlags "flags access templates") t
  let t ← s.modes.foldlM (Source.loadTemplates Templates.loadModes "CPU modes templates") t
  s.features.foldlM (Source.loadTemplates Templates.loadFeatures "CPUID features") t

def load (s : Sources) : Logged Failure Specification := do
  let t ← s.loadTemplates
  let tables ← s.tables.mapM (Source.loadTable t)
  return ⟨t, tables.flatten⟩

end Specification

end OpcodeAtlas
