import OpcodeAtlas.Proofs.Operand.Decorators

/-!
Masks in operand tokens. A token that is accepted holds no start of a mask where it is read, but for
the mask decorators (`not_reads_of_unclosed`), and it does not start with a mask that is left open
(`mask_prefix_iff`).
-/

namespace OpcodeAtlas

open Decorator (isMark)
open Decorators (maskStart)
open Text (Unmarked)

/-! ### Names hold no marks -/

namespace FixedOperand

theorem unmarked_names : ∀ entry ∈ names, Unmarked isMark entry.1.toList := by decide

end FixedOperand

namespace Operand

theorem unmarked_type : ∀ type : OperandType,
    Vocabulary.token type ≠ [] ∧ Unmarked isMark (Vocabulary.token type) := by
  rw [Vocabulary.forall_iff]
  decide

theorem unmarked_size : ∀ size : OperandSize, Unmarked isMark (Vocabulary.token size) := by
  rw [Vocabulary.forall_iff]
  decide

theorem unmarked_of_sized {type : OperandType} {rest unread : Text} {size : OperandSize}
    (h : Sized type rest size unread) (whole : unread = []) : Unmarked isMark rest := by
  cases h with
  | size => exact unmarked_size size
  | mask | flagsValue =>
    subst whole
    exact Text.unmarked_nil

/-- A name that is read to its end holds no mark. -/
theorem unmarked_of_names {t unread : Text} {kind : OperandKind} {size : OperandSize}
    (h : Names t kind size unread) (whole : unread = []) : Unmarked isMark t := by
  cases h with
  | fixed listed => exact FixedOperand.unmarked_names _ listed
  | @typed type rest _ _ _ _ sized =>
    intro c member
    rcases List.mem_append.1 member with inType | inSize
    · exact (unmarked_type type).2 c inType
    · exact unmarked_of_sized sized whole c inSize

theorem not_maskStart_of_unmarked {t : Text} (unmarked : Unmarked isMark t) :
    ¬ maskStart <:+: t := by
  intro opened
  have mark : '{' ∈ t := opened.subset (by decide)
  cases unmarked _ mark

/-- No name starts with a mark, whatever of it is read. -/
theorem not_prefix_of_names {t unread : Text} {kind : OperandKind} {size : OperandSize}
    (h : Names t kind size unread) : ¬ maskStart <+: t := by
  cases h with
  | fixed listed =>
    exact fun starts =>
      not_maskStart_of_unmarked (FixedOperand.unmarked_names _ listed) starts.isInfix
  | @typed type rest =>
    obtain ⟨named, unmarked⟩ := unmarked_type type
    cases spelled : Vocabulary.token type with
    | nil => exact fun _ => named spelled
    | cons c name =>
      intro starts
      have mark : '{' = c := (List.cons_prefix_cons.1 starts).1
      rw [spelled] at unmarked
      subst mark
      cases unmarked _ List.mem_cons_self

/-! ### Masks in front of a block suffix -/

/-- A mask that is opened, and one that is also closed. -/
def maskPieces : List Text := [maskStart, Vocabulary.token Decorator.mask]

variable {raw token behind piece : Text} {block : Nat}

theorem prefix_of_suffixed (h : Suffixed raw token block behind) : token <+: raw := by
  cases h with
  | four => exact List.prefix_append _ _
  | two => exact List.prefix_append _ _
  | range => exact ⟨_, rfl⟩
  | single => exact List.prefix_rfl

theorem maskPiece_prefix_iff (h : Suffixed raw token block behind) (mask : piece ∈ maskPieces) :
    piece <+: raw ↔ piece <+: token := by
  have shape : ∀ piece ∈ maskPieces, piece.head? = some '{' ∧ Unmarked (· == '+') piece := by
    decide
  obtain ⟨first, uncounted⟩ := shape piece mask
  refine ⟨fun starts => ?_, fun starts => starts.trans (prefix_of_suffixed h)⟩
  cases h with
  | four | two => exact Text.prefix_of_unmarked uncounted (by simp [Text.StartsMarked]) starts
  | range =>
    obtain ⟨rest, same⟩ := starts
    cases piece with
    | nil => cases first
    | cons c body =>
      cases first
      simp [rangeText] at same
  | single => exact starts

/-- A block suffix hides no mask, unless what stands behind a range. -/
theorem maskStart_infix_iff (h : Suffixed raw token block behind) (whole : behind = []) :
    maskStart <:+: raw ↔ maskStart <:+: token := by
  have nonempty : maskStart ≠ [] := Decorators.marked_maskStart.ne_nil
  cases h with
  | four | two => exact Text.infix_append_of_disjoint nonempty (by simp [maskStart])
  | @range first last _ ordered =>
    subst whole
    have unmarked := unmarked_rangeText ordered
    have name : Unmarked isMark ['X', 'M', 'M', first] := fun c member =>
      unmarked c (List.subset_append_left ['X', 'M', 'M', first] ['-', last] member)
    rw [List.append_nil]
    exact iff_of_false (not_maskStart_of_unmarked unmarked) (not_maskStart_of_unmarked name)
  | single => rfl

/-! ### Accepted masks -/

variable {access : OperandAccess} {flags : List OperandFlag} {implicit : Bool} {o : Operand}

theorem maskStart_prefix_token : maskStart <+: Vocabulary.token Decorator.mask := by decide

theorem mask_mem_iff (h : parse raw access flags implicit = .ok o) :
    .mask ∈ o.decorators ↔ Vocabulary.token Decorator.mask <:+: (stripBlock raw).1 := by
  obtain ⟨kind, size, _, rfl⟩ := parse_eq_ok_iff.1 h
  dsimp only
  exact Decorators.mask_mem_strip_iff

/-- A mask that starts an accepted token is closed. -/
theorem mask_prefix_iff (h : parse raw access flags implicit = .ok o) :
    maskStart <+: raw ↔ Vocabulary.token Decorator.mask <+: raw := by
  refine ⟨fun opened => ?_, maskStart_prefix_token.trans⟩
  obtain ⟨kind, size, read, _⟩ := parse_eq_ok_iff.1 h
  obtain ⟨behind, suffixed⟩ := exists_suffixed raw
  obtain ⟨unread, names⟩ := kindAndSize?_eq_some_iff.1 read
  rw [maskPiece_prefix_iff suffixed (by decide)] at opened ⊢
  by_contra unclosed
  exact not_prefix_of_names names (Decorators.prefix_strip opened unclosed)

theorem maskStart_infix_of_masked (h : parse raw access flags implicit = .ok o)
    (masked : .mask ∈ o.decorators) : maskStart <:+: raw := by
  obtain ⟨behind, suffixed⟩ := exists_suffixed raw
  rw [mask_mem_iff h] at masked
  exact (maskStart_prefix_token.isInfix.trans masked).trans (prefix_of_suffixed suffixed).isInfix

theorem not_maskStart_prefix_of_unmasked (h : parse raw access flags implicit = .ok o)
    (unmasked : .mask ∉ o.decorators) : ¬ maskStart <+: raw := by
  obtain ⟨behind, suffixed⟩ := exists_suffixed raw
  rw [mask_mem_iff h] at unmasked
  rw [mask_prefix_iff h, maskPiece_prefix_iff suffixed (by decide)]
  exact fun starts => unmasked starts.isInfix

/-- A mask that is found by its start is a decorator, or part of what is not read. -/
theorem not_reads_of_unclosed (opened : maskStart <:+: raw)
    (unclosed : ¬ Vocabulary.token Decorator.mask <:+: (stripBlock raw).1) {kind : OperandKind}
    {size : OperandSize} : ¬ Reads raw kind size block [] := by
  rintro ⟨token, rest, behind, suffixed, names, whole⟩
  obtain ⟨rfl, rfl⟩ := List.append_eq_nil_iff.1 whole.symm
  rw [stripBlock_of_suffixed suffixed] at unclosed
  rw [maskStart_infix_iff suffixed rfl] at opened
  apply not_maskStart_of_unmarked (unmarked_of_names names rfl)
  exact Decorators.infix_strip opened unclosed

end Operand

end OpcodeAtlas
