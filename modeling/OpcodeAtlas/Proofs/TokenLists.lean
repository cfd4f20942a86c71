import OpcodeAtlas.Proofs.Templates.Substitution
import OpcodeAtlas.Proofs.Text.Output
import OpcodeAtlas.Proofs.Traversal
import OpcodeAtlas.Proofs.Vocabulary

/-!
Tokens written side by side. A list of members with bars between their tokens is read back
(`parseList_renderList`), and an entry of two members with an equals sign in between can be taken
apart (`cut_assignment`), as long as no token holds a blank or one of these signs. A token that
starts with a bar makes the list around it unreadable (`parseList_renderList_of_mark`).
-/

namespace OpcodeAtlas

namespace Text

/-- One word that holds no separator of lists or entries. -/
def Atomic (t : Text) : Prop := ∀ c ∈ t, isBlank c = false ∧ c ≠ '|' ∧ c ≠ '='

instance (t : Text) : Decidable t.Atomic :=
  inferInstanceAs (Decidable (∀ c ∈ t, _))

theorem Atomic.solid {t : Text} (atomic : t.Atomic) : t.Solid :=
  fun c member => (atomic c member).1

theorem Atomic.bar_notMem {t : Text} (atomic : t.Atomic) : '|' ∉ t :=
  fun member => (atomic _ member).2.1 rfl

theorem Atomic.equals_notMem {t : Text} (atomic : t.Atomic) : '=' ∉ t :=
  fun member => (atomic _ member).2.2 rfl

theorem trimmedPieces_of_solid {sep : Char} {texts : List Text} (nonempty : texts ≠ [])
    (solid : ∀ t ∈ texts, t.Solid ∧ sep ∉ t) :
    trimmedPieces sep ([sep].intercalate texts) = texts := by
  have kept : texts.map trim = texts.map fun t => t :=
    List.map_congr_left fun t member => trim_of_solid (solid t member).1
  rw [trimmedPieces_intercalate nonempty fun t member => (solid t member).2, kept, List.map_id']

end Text

namespace Vocabulary

variable {α β : Type} [Vocabulary α] [Vocabulary β]

/-! ### Lists -/

section Lists

variable [Lawful α]

theorem parse_token (a : α) : parse (token a) = .ok a := parse_eq_ok_iff.2 (find?_token a)

theorem parseList_renderList {as : List α} (nonempty : as ≠ [])
    (atomic : ∀ a ∈ as, (token a).Atomic) : parseList (renderList as) = .ok as := by
  have solid : ∀ t ∈ as.map token, t.Solid ∧ '|' ∉ t := by
    intro t member
    obtain ⟨a, inside, rfl⟩ := List.mem_map.1 member
    exact ⟨(atomic a inside).solid, (atomic a inside).bar_notMem⟩
  rw [parseList, renderList, Text.trimmedPieces_of_solid (by simpa using nonempty) solid,
    Traversal.mapM_map_eq_ok parse_token]

/-- In front of a token that starts with a bar the text has an empty piece. -/
theorem parseList_renderList_of_mark {front rest : List α} {a : α} {t : Text}
    (atomic : ∀ b ∈ front, (token b).Atomic) (marked : token a = '|' :: t)
    (unnamed : (find? [] : Option α) = none) :
    parseList (renderList (front ++ a :: rest)) =
      (.error (.unknown (kind α) [] (tokens α)) : Except SpecError (List α)) := by
  have before : (front.map token).flatMap (·.splitOn '|') = front.map token := by
    rw [List.flatMap_map, ← List.flatMap_singleton' (front.map token), List.flatMap_map]
    exact List.flatMap_congr fun b inside =>
      List.splitOn_eq_singleton (atomic b inside).bar_notMem
  have here : (token a).splitOn '|' = [] :: t.splitOn '|' := by
    rw [marked, List.splitOn_cons_eq_if_modifyHead, if_pos (by decide)]
  have pieces : (renderList (front ++ a :: rest)).splitOn '|' =
      front.map token ++ [] :: (t.splitOn '|' ++ (rest.map token).flatMap (·.splitOn '|')) := by
    rw [renderList, Text.splitOn_intercalate '|' (by simp), List.map_append, List.flatMap_append,
      before, List.map_cons, List.flatMap_cons, here, List.cons_append]
  rw [parseList, Text.trimmedPieces, pieces, List.map_append, List.map_cons]
  refine Traversal.mapM_eq_error_iff.2 ⟨_, _, _, rfl, ?_, ?_⟩
  · intro piece member
    obtain ⟨text, written, rfl⟩ := List.mem_map.1 member
    obtain ⟨b, inside, rfl⟩ := List.mem_map.1 written
    rw [Text.trim_of_solid (atomic b inside).solid]
    exact ⟨b, parse_token b⟩
  · change parse [] = _
    unfold parse
    rw [unnamed]

end Lists

/-! ### Entries -/

/-- Every token can stand in a list or in an entry. -/
class Atomic (α : Type) [Vocabulary α] : Prop extends Lawful α where
  atomic_listed : ∀ a ∈ (all : List α), (token a).Atomic

theorem atomic_token [Atomic α] (a : α) : (token a).Atomic :=
  Atomic.atomic_listed a (mem_all a)

/-- The entry of two members. -/
def assignment (a : α) (b : β) : Text := token a ++ "=" ++ token b

theorem equals_mem_assignment (a : α) (b : β) : '=' ∈ assignment a b := by
  simp [assignment]

theorem cut_assignment [Atomic α] (a : α) (b : β) :
    (assignment a b).cut '=' = some (token a, token b) := by
  rw [assignment, List.append_assoc]
  exact Text.cut_append_cons (atomic_token a).equals_notMem (token b)

theorem solid_assignment [Atomic α] [Atomic β] (a : α) (b : β) :
    (assignment a b).Solid ∧ '|' ∉ assignment a b := by
  have each : ∀ c ∈ assignment a b, Text.isBlank c = false ∧ c ≠ '|' := by
    intro c member
    rcases List.mem_append.1 member with front | back
    · rcases List.mem_append.1 front with first | sign
      · exact ⟨(atomic_token a c first).1, (atomic_token a c first).2.1⟩
      · rw [List.mem_singleton.1 sign]
        decide
    · exact ⟨(atomic_token b c back).1, (atomic_token b c back).2.1⟩
  exact ⟨fun c member => (each c member).1, fun member => (each _ member).2 rfl⟩

end Vocabulary

end OpcodeAtlas
