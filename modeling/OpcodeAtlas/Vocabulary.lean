import OpcodeAtlas.SpecError

/-!
Closed vocabularies: finite types whose members are written as fixed tokens. Reading a token looks
it up in declaration order, so where two members shared a spelling the first would win.
-/

namespace OpcodeAtlas

class Vocabulary (α : Type) where
  kind : VocabularyKind
  /-- Every member, in declaration order. -/
  all : List α
  spelling : α → String

namespace Vocabulary

variable {α : Type} [Vocabulary α]

def token (a : α) : Text := (spelling a).toList

variable (α) in
def tokens : List Text := (all : List α).map token

/-- The position of a member in declaration order. -/
def index [DecidableEq α] (a : α) : Nat := all.idxOf a

def find? (t : Text) : Option α := all.find? fun a => token a == t

def parse (t : Text) : Except SpecError α :=
  match find? t with
  | some a => .ok a
  | none => .error (.unknown (kind α) t (tokens α))

/-- Reads tokens separated by bars, each trimmed; one bad token refuses them all. -/
def parseList (t : Text) : Except SpecError (List α) := (t.trimmedPieces '|').mapM parse

/-- Writes tokens separated by bars. -/
def renderList (as : List α) : Text := List.intercalate ['|'] (as.map token)

theorem token_of_find? {t : Text} {a : α} (h : find? t = some a) : token a = t := by
  simpa using List.find?_some h

theorem parse_eq_ok_iff {t : Text} {a : α} : parse t = .ok a ↔ find? t = some a := by
  unfold parse
  split <;> simp_all

end Vocabulary

end OpcodeAtlas
