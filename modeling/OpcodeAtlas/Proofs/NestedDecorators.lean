import OpcodeAtlas.Proofs.Decorators
import OpcodeAtlas.Proofs.Text.Vanishing

/-!
Decorators inside decorators. Taking one out joins what stands around it, and the two sides may be
the pieces of another decorator. That one is taken out as well if its turn is still to come, and
otherwise it is left in the token (`left_iff_reassembled`).
-/

namespace OpcodeAtlas.Decorators

open Decorator (isMark marked_token not_infix_of_ne)
open Text (Patterns Vanishes eraseAll weave)

/-- The decorators as they are written, in the order in which they are taken out. -/
def tokens : List Text := Vocabulary.tokens Decorator

theorem patterns_tokens : Patterns isMark tokens := by
  refine ⟨List.forall_mem_map.2 fun d _ => marked_token d, ?_, by decide⟩
  refine List.forall_mem_map.2 fun d _ => List.forall_mem_map.2 fun e _ starts => ?_
  by_cases same : d = e
  · rw [same]
  · exact absurd starts.isInfix (not_infix_of_ne same)

theorem getElem?_tokens (d : Decorator) :
    tokens[Vocabulary.index d]? = some (Vocabulary.token d) := by
  revert d
  rw [Vocabulary.forall_iff]
  decide

theorem fst_stripOne (state : Text × Decorators) (d : Decorator) :
    (stripOne state d).1 = Text.erase (Vocabulary.token d) state.1 := by
  by_cases present : Vocabulary.token d <:+: state.1
  · rw [stripOne_of_present present]
    rfl
  · rw [stripOne_of_absent present, Text.erase, Text.replace_of_absent present]

theorem fst_strip (t : Text) : (strip t).1 = eraseAll tokens t := by
  have run : ∀ (ds : List Decorator) (state : Text × Decorators),
      (ds.foldl stripOne state).1 = eraseAll (ds.map Vocabulary.token) state.1 := by
    intro ds
    induction ds with
    | nil => exact fun _ => rfl
    | cons d ds ih =>
      intro state
      rw [List.foldl_cons, ih, fst_stripOne]
      rfl
  exact run Vocabulary.all (t, ∅)

/-! ### Tokens without decorators -/

theorem mem_foldl_stripOne_of_mem {d : Decorator} {state : Text × Decorators}
    (found : d ∈ state.2) (ds : List Decorator) : d ∈ (ds.foldl stripOne state).2 := by
  induction ds generalizing state with
  | nil => exact found
  | cons e ds ih =>
    rw [List.foldl_cons]
    apply ih
    by_cases present : Vocabulary.token e <:+: state.1
    · rw [stripOne_of_present present]
      exact OrderedSet.mem_insert.2 (.inl found)
    · rwa [stripOne_of_absent present]

theorem foldl_stripOne_eq_self_iff {t : Text} (ds : List Decorator) :
    ds.foldl stripOne (t, ∅) = (t, ∅) ↔ ∀ d ∈ ds, ¬ Vocabulary.token d <:+: t := by
  induction ds with
  | nil => simp
  | cons d ds ih =>
    rw [List.foldl_cons, List.forall_mem_cons]
    by_cases present : Vocabulary.token d <:+: t
    · -- What has been found once stays found.
      refine iff_of_false (fun kept => ?_) fun absent => absent.1 present
      have found : d ∈ (stripOne (t, ∅) d).2 := by
        rw [stripOne_of_present present]
        exact OrderedSet.mem_insert.2 (.inr rfl)
      have last := mem_foldl_stripOne_of_mem found ds
      rw [kept] at last
      cases last
    · rw [stripOne_of_absent present, ih]
      exact (and_iff_right present).symm

theorem strip_eq_self_iff {t : Text} : strip t = (t, ∅) ↔ Plain t := by
  rw [strip, foldl_stripOne_eq_self_iff]
  exact Vocabulary.forall_iff.symm

/-! ### Decorators that are left -/

/-- The decorator is part of the text but for texts between its characters that go, and not all of
them are gone before its turn. -/
def Reassembled (d : Decorator) (t : Text) : Prop :=
  ∃ gaps, gaps.length < (Vocabulary.token d).length ∧ weave (Vocabulary.token d) gaps <:+: t ∧
    (∀ gap ∈ gaps, Vanishes tokens tokens.length gap) ∧
    ∃ gap ∈ gaps, ¬ Vanishes tokens (Vocabulary.index d) gap

/-- A decorator is left in a token exactly if it is put together too late there, and stripping again
changes nothing exactly if no decorator is. -/
theorem left_iff_reassembled (t : Text) :
    (∀ d : Decorator, Vocabulary.token d <:+: (strip t).1 ↔ Reassembled d t) ∧
      (strip (strip t).1 = ((strip t).1, ∅) ↔ ∀ d, ¬ Reassembled d t) := by
  have left : ∀ d : Decorator, Vocabulary.token d <:+: (strip t).1 ↔ Reassembled d t := by
    intro d
    rw [fst_strip]
    exact Text.infix_eraseAll_iff patterns_tokens (getElem?_tokens d)
  refine ⟨left, strip_eq_self_iff.trans (forall_congr' fun d => not_congr (left d))⟩

-- A decorator that is put together before its turn goes with the others.
example : (strip "{{K}z}").1 = [] := by decide

/-- A mask inside a mask is taken out at the turn of both, and leaves one. -/
theorem not_every_decorator_removed : ¬ ∀ t : Text, Plain (strip t).1 := by
  intro plain
  exact plain "{{K}K}" .mask (by decide)

end OpcodeAtlas.Decorators
