import OpcodeAtlas.Attribute
import OpcodeAtlas.LegacyPrefix
import OpcodeAtlas.Proofs.ModeClauses
import OpcodeAtlas.Proofs.TokenLists
import OpcodeAtlas.SimdException

/-!
Sets that are written and read back. The bars between tokens can be told from the tokens in every
vocabulary but that of the decorators, where the tokens of a broadcast start with a bar; so a set
is restored exactly if it holds no broadcast (`sets_restored`).
-/

namespace OpcodeAtlas

instance : Vocabulary.Atomic Attribute where
  mem_all a := by cases a <;> decide
  find?_listed := by decide
  atomic_listed := by decide

instance : Vocabulary.Atomic LegacyPrefix where
  mem_all a := by cases a <;> decide
  find?_listed := by decide
  atomic_listed := by decide

instance : Vocabulary.Atomic SimdException where
  mem_all a := by cases a <;> decide
  find?_listed := by decide
  atomic_listed := by decide

instance : Vocabulary.Atomic CpuMode where
  atomic_listed := by decide

namespace OrderedSet

variable {α : Type} [DecidableEq α]

theorem elements_insertAll_of_nodup {s : OrderedSet α} {as : List α}
    (distinct : (s.elements ++ as).Nodup) : (s.insertAll as).elements = s.elements ++ as := by
  induction as generalizing s with
  | nil => exact (List.append_nil s.elements).symm
  | cons a as ih =>
    have fresh : a ∉ s.elements := fun member =>
      (List.nodup_append.1 distinct).2.2 a member a List.mem_cons_self rfl
    have longer : (s.insert a).elements = s.elements ++ [a] := by
      rw [elements_insert, if_neg fresh]
    change ((s.insert a).insertAll as).elements = _
    rw [ih (by rw [longer]; simpa using distinct), longer, List.append_assoc, List.singleton_append]

theorem ofList_elements (s : OrderedSet α) : ofList s.elements = s :=
  ext (elements_insertAll_of_nodup (s := ∅) s.nodup)

theorem elements_ne_nil {α : Type} {s : OrderedSet α} (filled : s ≠ ∅) : s.elements ≠ [] :=
  fun none => filled (ext none)

variable [Vocabulary α]

/-- What adding the text of a set to the empty set answers, and the set it leaves. -/
def reread (s : OrderedSet α) : Except SpecError Unit × OrderedSet α := (add s.render).outcome ∅

theorem reread_of_ok {s : OrderedSet α} (read : Vocabulary.parseList s.render = .ok s.elements) :
    s.reread = (.ok (), s) := by
  have same : insertAll ∅ s.elements = s := ofList_elements s
  rw [reread, add, read, Update.outcome_validated]
  exact congrArg _ same

theorem reread_of_error {s : OrderedSet α} {e : SpecError}
    (read : Vocabulary.parseList (α := α) s.render = .error e) : s.reread = (.error e, ∅) := by
  rw [reread, add, read, Update.outcome_validated]

theorem reread_of_atomic [Vocabulary.Atomic α] {s : OrderedSet α} (filled : s ≠ ∅) :
    s.reread = (.ok (), s) :=
  reread_of_ok (Vocabulary.parseList_renderList (elements_ne_nil filled)
    fun a _ => Vocabulary.atomic_token a)

end OrderedSet

/-! ### Decorators -/

namespace Decorators

theorem broadcast_mem_iff {s : Decorators} :
    .broadcast ∈ s.instructionFlags ↔ ∃ d ∈ s, d.instructionFlag = .broadcast := by
  rw [instructionFlags, OrderedSet.image, OrderedSet.mem_ofList, List.mem_map]
  rfl

theorem atomic_token {d : Decorator} (plain : d.instructionFlag ≠ .broadcast) :
    (Vocabulary.token d).Atomic := by
  have each : ∀ d ∈ (Vocabulary.all : List Decorator),
      d.instructionFlag ≠ .broadcast → (Vocabulary.token d).Atomic := by
    decide
  exact each d (Vocabulary.mem_all d) plain

theorem exists_token_eq {d : Decorator} (broadcast : d.instructionFlag = .broadcast) :
    ∃ t, Vocabulary.token d = '|' :: t := by
  have each : ∀ d ∈ (Vocabulary.all : List Decorator),
      d.instructionFlag = .broadcast → (Vocabulary.token d).head? = some '|' := by
    decide
  exact List.head?_eq_some_iff.1 (each d (Vocabulary.mem_all d) broadcast)

theorem reread_of_plain {s : Decorators} (filled : s ≠ ∅) (plain : .broadcast ∉ s.instructionFlags) :
    s.reread = (.ok (), s) := by
  refine OrderedSet.reread_of_ok
    (Vocabulary.parseList_renderList (OrderedSet.elements_ne_nil filled) fun d member => ?_)
  exact atomic_token fun broadcast => plain (broadcast_mem_iff.2 ⟨d, member, broadcast⟩)

theorem reread_of_broadcast {s : Decorators} (broadcast : .broadcast ∈ s.instructionFlags) :
    s.reread = (.error (.unknown .decorator [] (Vocabulary.tokens Decorator)), ∅) := by
  obtain ⟨b, member, broadcast⟩ := broadcast_mem_iff.1 broadcast
  cases found : s.elements.find? (·.instructionFlag = .broadcast) with
  | none =>
    have plain := List.find?_eq_none.1 found b member
    exact absurd broadcast (by simpa using plain)
  | some d =>
    obtain ⟨first, front, rest, elements, before⟩ := List.find?_eq_some_iff_append.1 found
    obtain ⟨t, marked⟩ := exists_token_eq (of_decide_eq_true first)
    have plain : ∀ e ∈ front, (Vocabulary.token e).Atomic := fun e inside =>
      atomic_token (by simpa using before e inside)
    refine OrderedSet.reread_of_error ?_
    rw [OrderedSet.render, elements]
    exact Vocabulary.parseList_renderList_of_mark plain marked (by decide)

end Decorators

/-- Added to the empty set, the text of a set gives the set back. The exception are the decorators
with a broadcast among them, whose text has an empty piece, which is no token. -/
theorem sets_restored :
    (∀ s : Attributes, s ≠ ∅ → s.reread = (.ok (), s)) ∧
    (∀ s : LegacyPrefixes, s ≠ ∅ → s.reread = (.ok (), s)) ∧
    (∀ s : SimdExceptions, s ≠ ∅ → s.reread = (.ok (), s)) ∧
    (∀ s : CpuModes, s ≠ ∅ → s.reread = (.ok (), s)) ∧
    ∀ s : Decorators, s ≠ ∅ → s.reread =
      if .broadcast ∈ s.instructionFlags then
        (.error (.unknown .decorator [] (Vocabulary.tokens Decorator)), ∅)
      else (.ok (), s) := by
  refine ⟨fun s => OrderedSet.reread_of_atomic, fun s => OrderedSet.reread_of_atomic,
    fun s => OrderedSet.reread_of_atomic, fun s => OrderedSet.reread_of_atomic,
    fun s filled => ?_⟩
  split
  · next broadcast => exact Decorators.reread_of_broadcast broadcast
  · next plain => exact Decorators.reread_of_plain filled plain

/-- Two attributes out of their order in the vocabulary, and decorators without and with a
broadcast. -/
theorem sets_restored_maskedRounding :
    (OrderedSet.add "NOVP|MODRM").outcome ∅ =
        (.ok (), OrderedSet.ofList [Attribute.noVPrime, .modrm]) ∧
      (OrderedSet.add "{er}|{K}").outcome ∅ =
        (.ok (), OrderedSet.ofList [Decorator.embeddedRounding, .mask]) ∧
      (OrderedSet.add "{er}||B32").outcome (∅ : Decorators) =
        (.error (.unknown .decorator [] (Vocabulary.tokens Decorator)), ∅) := by
  obtain ⟨attributes, _, _, _, decorators⟩ := sets_restored
  refine ⟨attributes (.ofList [.noVPrime, .modrm]) (by decide), ?_, ?_⟩
  · exact decorators (.ofList [.embeddedRounding, .mask]) (by decide)
  · exact decorators (.ofList [.embeddedRounding, .broadcast32]) (by decide)

/-- The token of a broadcast cannot be added. -/
theorem broadcast_not_restored : ¬ ∀ s : Decorators, s ≠ ∅ → s.reread = (.ok (), s) := by
  intro all
  have one := all (.ofList [.broadcast32]) (by decide)
  have refused : (OrderedSet.reread (.ofList [Decorator.broadcast32])).2 = ∅ := by decide
  rw [one] at refused
  exact absurd refused (by decide)

end OpcodeAtlas
