import OpcodeAtlas.Proofs.Decorators
import OpcodeAtlas.Proofs.Operand.Grammar
import OpcodeAtlas.Proofs.Traversal

/-!
Decorated operands. `parse_decorated`: decorators written behind the name of an operand, in front of
the number of further registers if there is one, change nothing but the decorators, and the encoding
class of the two operands whose class is looked up by the whole token. Behind the number they make
the token invalid (`decorators_not_orthogonal`).
-/

namespace OpcodeAtlas.Operand

open Decorator (isMark)
open Decorators (Plain written written_nil strip_append_written strip_of_plain)
open Text (Unmarked)

/-! ### Block suffixes -/

/-- What can stand behind a name and its decorators. -/
def countSuffixes : List Text := [[], "+1", "+3"]

theorem not_suffix_append_written {suffix t : Text} (counted : suffix ∈ countSuffixes)
    (nonempty : suffix ≠ []) {ds : List Decorator} (decorated : ds ≠ []) :
    ¬ suffix <:+ t ++ written ds := by
  have apart : ∀ suffix ∈ countSuffixes, suffix ≠ [] → ∀ d ∈ (Vocabulary.all : List Decorator),
      suffix.length ≤ (Vocabulary.token d).length ∧ ¬ suffix <:+ Vocabulary.token d := by
    decide
  intro ends
  obtain ⟨front, last, rfl⟩ := (List.eq_nil_or_concat ds).resolve_left decorated
  obtain ⟨short, other⟩ := apart suffix counted nonempty last (Vocabulary.mem_all last)
  apply other
  apply List.suffix_of_suffix_length_le ends _ short
  rw [written, List.concat_eq_append, List.flatMap_append, List.flatMap_singleton,
    ← List.append_assoc]
  exact List.suffix_append _ _

theorem not_counted_append_written {t : Text} (uncounted : ¬ Counted t) (ds : List Decorator) :
    ¬ Counted (t ++ written ds) := by
  by_cases decorated : ds = []
  · subst decorated
    rwa [written_nil, List.append_nil]
  · rw [Counted, not_or]
    constructor
    · exact not_suffix_append_written (by decide) (by decide) decorated
    · exact not_suffix_append_written (by decide) (by decide) decorated

theorem unmarked_of_digit {c : Char} (digit : isDecimalDigit c = true) : isMark c = false := by
  rw [← Bool.not_eq_true]
  intro marked
  have listed : c = '{' ∨ c = '|' := by simpa [isMark] using marked
  revert digit
  rcases listed with rfl | rfl
  · decide
  · decide

theorem unmarked_rangeText {first last : Char} (ordered : IsRange first last) :
    Unmarked isMark (rangeText first last) := by
  have name : Unmarked isMark ['X', 'M', '-'] := by decide
  intro c member
  simp only [rangeText, List.mem_cons, List.not_mem_nil, or_false] at member
  rcases member with rfl | rfl | rfl | rfl | rfl | rfl
  · exact name _ (by decide)
  · exact name _ (by decide)
  · exact name _ (by decide)
  · exact unmarked_of_digit ordered.1
  · exact name _ (by decide)
  · exact unmarked_of_digit ordered.2.1

theorem apart_of_single {t : Text} (single : (stripBlock t).2 = 0) :
    ¬ Counted t ∧ ∀ first last, IsRange first last → ¬ rangeText first last <+: t := by
  obtain ⟨behind, suffixed⟩ := exists_suffixed t
  rw [single] at suffixed
  generalize (stripBlock t).1 = token at suffixed
  generalize none : 0 = block at suffixed
  cases suffixed with
  | single uncounted apart => exact ⟨uncounted, apart⟩
  | _ => cases none

/-- Decorators in front of the number are no part of the block suffix. -/
theorem exists_suffixed_written {base suffix : Text} (counted : suffix ∈ countSuffixes)
    (single : suffix = [] → (stripBlock base).2 = 0) :
    ∃ block, ∀ ds, Suffixed (base ++ written ds ++ suffix) (base ++ written ds) block [] := by
  simp only [countSuffixes, List.mem_cons, List.not_mem_nil, or_false] at counted
  rcases counted with rfl | rfl | rfl
  · obtain ⟨uncounted, apart⟩ := apart_of_single (single rfl)
    refine ⟨0, fun ds => ?_⟩
    rw [List.append_nil]
    apply Suffixed.single (not_counted_append_written uncounted ds)
    intro first last ordered starts
    apply apart first last ordered
    exact Text.prefix_of_unmarked (unmarked_rangeText ordered)
      (Decorators.startsMarked_written ds) starts
  · exact ⟨2, fun ds => .two _⟩
  · exact ⟨4, fun ds => .four _⟩

/-! ### Encoding classes -/

/-- The tokens whose class is looked up as they are written. -/
def literalTokens : List Text := ["CL", "ST(i)"]

theorem ofRaw?_of_not_literal {raw : Text} (other : raw ∉ literalTokens) :
    OperandEncoding.ofRaw? raw = none := by
  simp only [literalTokens, List.mem_cons, List.not_mem_nil, or_false, not_or] at other
  unfold OperandEncoding.ofRaw?
  rw [if_neg other.1, if_neg other.2]

theorem encodingOf_of_not_literal {raw plain : Text} (other : raw ∉ literalTokens)
    (alike : plain ∉ literalTokens) (kind : OperandKind) :
    encodingOf raw kind = encodingOf plain kind := by
  unfold encodingOf
  rw [ofRaw?_of_not_literal other, ofRaw?_of_not_literal alike]

theorem not_literal_append_written (base suffix : Text) {ds : List Decorator}
    (decorated : ds ≠ []) : base ++ written ds ++ suffix ∉ literalTokens := by
  have plain : ∀ raw ∈ literalTokens, Plain raw := by decide
  obtain ⟨d, member⟩ := List.exists_mem_of_ne_nil ds decorated
  intro literal
  apply plain _ literal d
  exact (Decorators.infix_written_iff.2 member).trans (List.infix_append base _ suffix)

theorem encodingOf_of_literal {raw decorated : Text} {kind : OperandKind} {size : OperandSize}
    (literal : raw ∈ literalTokens) (other : decorated ∉ literalTokens)
    (read : kindAndSize? (Decorators.strip (stripBlock raw).1).1 = some (kind, size)) :
    encodingOf decorated kind = .implicit := by
  have named : ∀ raw ∈ literalTokens,
      ∃ fixed ∈ [FixedOperand.rCX, .stI], ∃ size ∈ [OperandSize.b, .ft],
        kindAndSize? (Decorators.strip (stripBlock raw).1).1 = some (.fixed fixed, size) := by
    decide
  obtain ⟨fixed, listed, _, _, found⟩ := named raw literal
  cases found.symm.trans read
  simp only [List.mem_cons, List.not_mem_nil, or_false] at listed
  unfold encodingOf
  rw [ofRaw?_of_not_literal other]
  rcases listed with rfl | rfl
  · rfl
  · rfl

/-- The class that is left to an operand once its token is decorated. -/
theorem encodingOf_written {base suffix : Text} {kind : OperandKind} {size : OperandSize}
    (read : kindAndSize? (Decorators.strip (stripBlock (base ++ suffix)).1).1 = some (kind, size))
    (ds : List Decorator) :
    encodingOf (base ++ written ds ++ suffix) kind =
      if ds ≠ [] ∧ base ++ suffix ∈ literalTokens then .implicit
      else encodingOf (base ++ suffix) kind := by
  by_cases decorated : ds = []
  · subst decorated
    rw [if_neg (by simp), written_nil, List.append_nil]
  · have other := not_literal_append_written base suffix decorated
    by_cases literal : base ++ suffix ∈ literalTokens
    · rw [if_pos ⟨decorated, literal⟩]
      exact encodingOf_of_literal literal other read
    · rw [if_neg fun both => literal both.2]
      exact encodingOf_of_not_literal other literal kind

/-! ### Operands -/

/-- Decorators in front of the number of further registers come back as the decorators of the
operand and leave the rest of it alone, up to the class of a literal token. -/
theorem parse_decorated {base suffix : Text} {access : OperandAccess} {flags : List OperandFlag}
    {implicit : Bool} {o : Operand} (counted : suffix ∈ countSuffixes)
    (plain : Plain (base ++ suffix))
    (accepted : parse (base ++ suffix) access flags implicit = .ok o)
    (single : suffix = [] → o.block = 0) (ds : List Decorator) :
    ∃ decorated, parse (base ++ written ds ++ suffix) access flags implicit = .ok decorated ∧
      (∀ d, d ∈ decorated.decorators ↔ d ∈ ds) ∧
      decorated.encoding =
        (if ds ≠ [] ∧ base ++ suffix ∈ literalTokens then .implicit else o.encoding) ∧
      decorated = { o with
        raw := base ++ written ds ++ suffix
        decorators := decorated.decorators
        encoding := decorated.encoding } := by
  obtain ⟨kind, size, read, rfl⟩ := parse_eq_ok_iff.1 accepted
  have bare : Plain base := fun d holds =>
    plain d (holds.trans (List.prefix_append base suffix).isInfix)
  have uncounted : suffix = [] → (stripBlock base).2 = 0 := by
    rintro rfl
    rw [← List.append_nil base]
    exact single rfl
  obtain ⟨block, suffixed⟩ := exists_suffixed_written counted uncounted
  have cut : stripBlock (base ++ suffix) = (base, block) := by
    simpa using stripBlock_of_suffixed (suffixed [])
  have cutDecorated := stripBlock_of_suffixed (suffixed ds)
  obtain ⟨name, found⟩ := strip_append_written bare ds
  refine ⟨_, parse_eq_ok_iff.2 ⟨kind, size, ?_, rfl⟩, ?_, ?_, ?_⟩
  · rw [cut, strip_of_plain bare] at read
    rw [cutDecorated, name]
    exact read
  · intro d
    rw [cutDecorated]
    dsimp only
    exact found d
  · dsimp only
    exact encodingOf_written read ds
  · dsimp only
    rw [cut, cutDecorated]

def fourVectors : Text := "Vdq+3"

def countRegister : Text := "CL"

theorem parse_decorated_fourVectors :
    ∃ o decorated, parse fourVectors .write [] false = .ok o ∧
      parse "Vdq{z}{K}{z}+3" .write [] false = .ok decorated ∧
      (∀ d, d ∈ decorated.decorators ↔ d ∈ [Decorator.zero, .mask]) ∧ decorated.block = 4 ∧
      decorated.encoding = o.encoding := by
  obtain ⟨o, accepted, four⟩ := Traversal.exists_of_any
    (show (parse fourVectors .write [] false).toOption.any (fun o => o.block = 4) = true by
      decide)
  have plain : Plain fourVectors := by decide
  have counted : "+3".toList ≠ [] := by decide
  obtain ⟨decorated, made, found, kept, same⟩ :=
    @parse_decorated "Vdq".toList "+3".toList _ _ _ _ (by decide) plain accepted
      (fun none => absurd none counted) [.zero, .mask, .zero]
  refine ⟨o, decorated, accepted, made, ?_, ?_, ?_⟩
  · intro d
    rw [found]
    cases d <;> decide
  · rw [same]
    exact of_decide_eq_true four
  · rw [kept]
    exact if_neg (by decide)

/-- Whether decorators behind a token change nothing but the decorators. -/
def Orthogonal (t : Text) (ds : List Decorator) : Prop :=
  ∀ access flags implicit o, parse t access flags implicit = .ok o →
    ∃ decorated, parse (t ++ written ds) access flags implicit = .ok decorated ∧
      (∀ d, d ∈ decorated.decorators ↔ d ∈ ds) ∧ decorated.kind = o.kind ∧
      decorated.size = o.size ∧ decorated.block = o.block ∧ decorated.encoding = o.encoding ∧
      decorated.access = o.access ∧ decorated.flags = o.flags

/-- A number of registers that decorators follow is none, and a literal token is no longer literal
with a decorator behind it. -/
theorem decorators_not_orthogonal :
    (Plain fourVectors ∧ ¬ Orthogonal fourVectors [.mask]) ∧
      Plain countRegister ∧ ¬ Orthogonal countRegister [.mask] := by
  refine ⟨⟨by decide, fun orthogonal => ?_⟩, by decide +kernel, fun orthogonal => ?_⟩
  · obtain ⟨o, accepted, _⟩ := Traversal.exists_of_any
      (show (parse fourVectors .read [] false).toOption.any (fun _ => true) = true by
        decide)
    obtain ⟨decorated, made, _⟩ := orthogonal _ _ _ _ accepted
    have refused : (parse (fourVectors ++ written [.mask]) .read [] false).toOption = none := by
      decide
    rw [made] at refused
    cases refused
  · obtain ⟨o, accepted, own⟩ := Traversal.exists_of_any
      (show (parse countRegister .read [] false).toOption.any (fun o => o.encoding = .cl) = true by
        decide)
    obtain ⟨decorated, made, _, _, _, _, kept, _⟩ := orthogonal _ _ _ _ accepted
    have lost : (parse (countRegister ++ written [.mask]) .read [] false).toOption.all
        (fun o => o.encoding = .implicit) := by
      decide
    rw [made] at lost
    cases (of_decide_eq_true lost).symm.trans (kept.trans (of_decide_eq_true own))

end OpcodeAtlas.Operand
