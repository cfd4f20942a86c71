import OpcodeAtlas.Log
import OpcodeAtlas.Templates.Basic

/-!
Loading definitions, one per line. Blank lines and lines that start with a hash, after blanks, are
comments; a line that defines nothing is skipped with a warning and changes nothing.
-/

namespace OpcodeAtlas.Templates

/-- What a text of definitions holds. -/
structure Definitions (α : Type) where
  defined : List α
  warnings : List LogRecord

/-- Reads every line that is no comment; `warning` words a failure at a line counted from one. -/
def readLines {ε α : Type} (read : Text → Except ε α) (warning : ε → Text → Nat → Text)
    (text : Text) : Definitions α :=
  let rows := (text.lines.zipIdx 1).filter fun row => !Text.isComment row.1
  { defined := rows.filterMap fun row => (read row.1).toOption
    warnings := rows.filterMap fun row =>
      match read row.1 with
      | .ok _ => none
      | .error e => some ⟨.warn, warning e row.1 row.2⟩ }

/-- A template line is a name without blanks, a colon and a text. -/
def templateLine? (line : Text) : Option (Text × Text) :=
  match line.cut ':' with
  | none => none
  | some (name, value) =>
    let name := name.trim
    let value := value.trim
    if name.isEmpty || value.isEmpty || name.any Text.isBlank then none else some (name, value)

def templateLines (what text : Text) : Definitions (Text × Text) :=
  readLines (fun line => (templateLine? line).elim (.error ()) .ok)
    (fun _ line number =>
      "skip malformed " ++ what ++ " template at line " ++ Text.decimal number ++ ": " ++ line)
    text

def featureLines (text : Text) : Definitions CpuidFeature :=
  readLines CpuidFeature.parse
    (fun e _ number =>
      "skip CPUID feature at line " ++ Text.decimal number ++ ": " ++ e.message)
    text

/-- Templates after a load, the number of definitions loaded and the warnings. -/
structure Loaded where
  templates : Templates
  count : Nat
  warnings : List LogRecord

def loadFlags (t : Templates) (text : Text) : Loaded :=
  let ds := templateLines "flags access" text
  ⟨{ t with flags := t.flags.insertAll ds.defined }, ds.defined.length, ds.warnings⟩

def loadModes (t : Templates) (text : Text) : Loaded :=
  let ds := templateLines "CPU modes" text
  ⟨{ t with modes := t.modes.insertAll ds.defined }, ds.defined.length, ds.warnings⟩

def loadFeatures (t : Templates) (text : Text) : Loaded :=
  let ds := featureLines text
  ⟨ds.defined.foldl insertFeature t, ds.defined.length, ds.warnings⟩

end OpcodeAtlas.Templates
