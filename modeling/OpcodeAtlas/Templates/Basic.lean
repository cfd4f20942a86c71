import OpcodeAtlas.CpuidFeature
import OpcodeAtlas.Templates.Standard
import OpcodeAtlas.Templates.Table

/-!
Templates: named flags accesses, named CPU modes, and the CPUID features a specification refers to.
-/

namespace OpcodeAtlas

structure Templates where
  flags : TextTable
  modes : TextTable
  /-- Features have distinct names and stay where their name was first defined. -/
  features : List CpuidFeature
  deriving DecidableEq, Repr

namespace Templates

def empty : Templates := ⟨.empty, .empty, []⟩

def standard : Templates := ⟨.ofStrings standardFlags, .ofStrings standardModes, []⟩

def feature? (t : Templates) (name : Text) : Option CpuidFeature :=
  t.features.find? (·.name = name)

def insertFlags (t : Templates) (name value : Text) : Templates :=
  { t with flags := t.flags.insert name value }

def insertModes (t : Templates) (name value : Text) : Templates :=
  { t with modes := t.modes.insert name value }

/-- Puts a feature in the place of the one with its name, or at the end. -/
def placeFeature (f : CpuidFeature) : List CpuidFeature → List CpuidFeature
  | [] => [f]
  | g :: r => if g.name = f.name then f :: r else g :: placeFeature f r

def insertFeature (t : Templates) (f : CpuidFeature) : Templates :=
  { t with features := placeFeature f t.features }

/-- The entries of a value: its pieces between bars, trimmed, where a piece that names a template
stands for the pieces of that template. Template texts are not expanded again. -/
def expand (lookup : Text → Option Text) (value : Text) : List Text :=
  (value.trimmedPieces '|').flatMap fun piece =>
    match lookup piece with
    | some text => text.trimmedPieces '|'
    | none => [piece]

end Templates

end OpcodeAtlas
