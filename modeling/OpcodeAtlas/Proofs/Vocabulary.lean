import OpcodeAtlas.Decorator
import OpcodeAtlas.Operand.Type
import OpcodeAtlas.Operand.Size

/-!
Vocabularies that read what they write. In a lawful vocabulary each member is listed and its token
stands for it alone, so finding a token and writing a member are inverse (`find?_eq_some_iff`).
-/

namespace OpcodeAtlas.Vocabulary

class Lawful (α : Type) [Vocabulary α] : Prop where
  mem_all : ∀ a : α, a ∈ (all : List α)
  find?_listed : ∀ a ∈ (all : List α), find? (token a) = some a

instance : Lawful OperandType where
  mem_all type := by cases type <;> decide
  find?_listed := by decide

instance : Lawful OperandSize where
  mem_all size := by cases size <;> decide
  find?_listed := by decide

instance : Lawful Decorator where
  mem_all decorator := by cases decorator <;> decide
  find?_listed := by decide

variable {α : Type} [Vocabulary α] [Lawful α]

theorem mem_all (a : α) : a ∈ (all : List α) := Lawful.mem_all a

/-- What holds of every listed member holds of all. -/
theorem forall_iff {P : α → Prop} : (∀ a, P a) ↔ ∀ a ∈ (all : List α), P a :=
  ⟨fun h a _ => h a, fun h a => h a (mem_all a)⟩

theorem find?_token (a : α) : find? (token a) = some a := Lawful.find?_listed a (mem_all a)

theorem find?_eq_some_iff {t : Text} {a : α} : find? t = some a ↔ token a = t :=
  ⟨token_of_find?, fun same => same ▸ find?_token a⟩

theorem token_inj {a b : α} : token a = token b ↔ a = b := by
  constructor
  · intro same
    exact Option.some.inj ((find?_token a).symm.trans (find?_eq_some_iff.2 same.symm))
  · rintro rfl
    rfl

theorem find?_eq_none_iff {t : Text} : (find? t : Option α) = none ↔ ∀ a : α, token a ≠ t := by
  rw [Option.eq_none_iff_forall_ne_some]
  simp only [ne_eq, find?_eq_some_iff]

end OpcodeAtlas.Vocabulary
