import OpcodeAtlas.Dispatch.Group
import OpcodeAtlas.Specification.Load

/-!
The decision trees of a specification, one for every encoding family that has instructions.
-/

namespace OpcodeAtlas

/-- Decision trees with their families, in the order of the families. -/
abbrev DecisionTrees := List (Family × Dispatch.Tree)

def DecisionTrees.tree? (trees : DecisionTrees) (f : Family) : Option Dispatch.Tree :=
  trees.lookup f

namespace Specification

/-- The instructions, each identified by its place in the specification. -/
def entries (s : Specification) : List Dispatch.Entry := Dispatch.Entry.number s.instructions

def familyEntries (s : Specification) (f : Family) : List Dispatch.Entry :=
  s.entries.filter fun e => e.instruction.encoding.family = f

/-- The decision tree of a family, unless the family is empty. -/
def buildFamily (s : Specification) (f : Family) :
    Logged Failure (Option (Family × Dispatch.Tree)) :=
  match s.familyEntries f with
  | [] => pure none
  | entries => do
    Logged.write [⟨.debug,
      f.name ++ ": grouping " ++ Text.decimal entries.length ++ " instructions"⟩]
    let tree ← (Dispatch.group (Dispatch.axesOf f) entries).mapError (Failure.tree f)
    return some (f, tree)

/-- The decision trees, or the failure of the first family that cannot be grouped. -/
def build (s : Specification) : Logged Failure DecisionTrees := do
  let trees ← Family.all.mapM s.buildFamily
  return trees.filterMap id

end Specification

end OpcodeAtlas
