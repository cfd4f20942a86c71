import OpcodeAtlas.CpuMode.Basic
import OpcodeAtlas.Templates.Basic

/-!
CPU modes specifiers: clauses `group=mode+mode` separated by bars. A group without a term keeps all
its modes, a group with terms keeps the modes they list, and one negated term turns the whole group
into all its modes but those listed.
-/

namespace OpcodeAtlas.CpuModes

/-- One mode listed for a group. -/
structure Term where
  group : ModeGroup
  negated : Bool
  mode : CpuMode
  deriving DecidableEq, Repr

def parseMode (group : ModeGroup) (t : Text) : Except SpecError CpuMode :=
  match group.modes.find? fun m => Vocabulary.token m == t with
  | some m => .ok m
  | none =>
    .error (.modeNotInGroup (Vocabulary.token group) t (group.modes.map Vocabulary.token))

def parseTerm (group : ModeGroup) (t : Text) : Except SpecError Term :=
  match t.trim with
  | '!' :: r => (parseMode group r).map (⟨group, true, ·⟩)
  | r => (parseMode group r).map (⟨group, false, ·⟩)

def parseClause (clause : Text) : Except SpecError (List Term) :=
  match clause.cut '=' with
  | none => .error (.malformed .modesClause clause)
  | some (group, modes) => do
    let group ← Vocabulary.parse group.trim
    (modes.splitOn '+').mapM (parseTerm group)

/-- The modes of a group that terms select. -/
def selected (terms : List Term) (group : ModeGroup) : List CpuMode :=
  let own := terms.filter (·.group = group)
  let listed := own.map (·.mode)
  if own.isEmpty then group.modes
  else if own.any (·.negated) then group.modes.filter (· ∉ listed)
  else listed

def ofTerms (terms : List Term) : CpuModes :=
  OrderedSet.ofList ((Vocabulary.all : List ModeGroup).flatMap (selected terms))

def parse (value : Text) (templates : Templates) : Except SpecError CpuModes := do
  let terms ← (Templates.expand templates.modes.find? value).mapM parseClause
  return ofTerms terms.flatten

end OpcodeAtlas.CpuModes
