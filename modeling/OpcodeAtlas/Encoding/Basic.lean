import OpcodeAtlas.Encoding.Field

/-!
Encodings: a family, and for every field the values written for it in their order. When vector
length, compressed prefix, ND and NF are all given, they are merged into one field.
-/

namespace OpcodeAtlas

structure Encoding where
  family : Family
  values : Field → List Text

namespace Encoding

/-- The encoding with values for its fields, in order. -/
def ofValues (family : Family) (vs : List (Field × Text)) : Encoding :=
  ⟨family, fun f => (vs.filter (·.1 = f)).map (·.2)⟩

def isVector (e : Encoding) : Bool := e.family.isVector

def isEvex (e : Encoding) : Bool := e.family = .evex

def has (e : Encoding) (f : Field) : Bool := !(e.values f).isEmpty

/-- Appends a value to a field. -/
def push (e : Encoding) (f : Field) (value : Text) : Encoding :=
  { e with values := fun g => if g = f then e.values f ++ [value] else e.values g }

/-! ### Merging -/

def mergedFields : List Field := [.length, .pp, .newDataDestination, .noFlags]

/-- The number that the first value of a field writes. -/
def firstNumber? (e : Encoding) (f : Field) : Option Nat :=
  (e.values f).head?.bind (Text.numberBelow? 16 256)

/-- The merged value: two bits of length, two of prefix, then ND and NF. -/
def lpdf? (e : Encoding) : Option Nat := do
  let l ← e.firstNumber? .length
  let p ← e.firstNumber? .pp
  let d ← e.firstNumber? .newDataDestination
  let f ← e.firstNumber? .noFlags
  return 16 * l + 4 * p + 2 * d + f

def without (e : Encoding) (fs : List Field) : Encoding :=
  { e with values := fun g => if g ∈ fs then [] else e.values g }

/-- Replaces the four fields by the merged one if all of them have a value. -/
def merge (e : Encoding) : Encoding :=
  match e.lpdf? with
  | some n => (e.without mergedFields).push .lpdf (Text.hex n)
  | none => e

/-! ### Printing -/

def renderField (e : Encoding) (f : Field) : Text :=
  if e.has f then " " ++ Vocabulary.token f ++ ":" ++ List.intercalate ['+'] (e.values f) else []

def render (e : Encoding) : Text := e.family.name ++ Vocabulary.all.flatMap e.renderField

end Encoding

end OpcodeAtlas
