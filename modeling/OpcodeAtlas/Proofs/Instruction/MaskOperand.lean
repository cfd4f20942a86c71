import OpcodeAtlas.Proofs.Instruction.OperandFlags
import OpcodeAtlas.Proofs.Instruction.Operands
import OpcodeAtlas.Proofs.Operand.Mask

/-!
The mask of a masked instruction, found twice: the operand list looks for the start of a mask inside
the first token, the operand takes whole mask decorators out of it. `maskOperand_of_build`: the two
agree but for a token that starts with the mask (`mask_without_operand`) and for one whose mask is
not closed, which is not read to its end.
-/

namespace OpcodeAtlas.Instruction

open Decorators (maskStart)

theorem withMaskOperand_cons (first : Text) (rest : List Text) :
    withMaskOperand (first :: rest) =
      first :: if Text.occursInside maskStart first then "aKq".toList :: rest else rest := by
  by_cases inside : Text.occursInside maskStart first = true
  · rw [withMaskOperand_of_mask inside, if_pos inside]
  · rw [withMaskOperand_of_not_mask inside, if_neg inside]

theorem exists_first_of_build {templates : Templates} {p : Parts} {i : Instruction} {first : Text}
    {rest : List Text} (built : build templates p = .ok i) (listed : p.explicit = first :: rest)
    (present : ∀ token ∈ p.explicit, token ∉ absentMarkers) :
    ∃ o others access flags, i.operands = o :: others ∧
      Operand.parse first access flags false = .ok o ∧
      others.map Operand.raw =
        if Text.occursInside maskStart first then "aKq".toList :: rest else rest := by
  have raws := (raws_of_build built).1
  rw [Line.takeWhile_isPresent_eq_self_iff.2 present, listed, withMaskOperand_cons] at raws
  obtain ⟨s, steps⟩ := steps_of_build built
  cases operands : i.operands with
  | nil =>
    rw [operands] at raws
    cases raws
  | cons o others =>
    rw [operands, List.map_cons, List.cons.injEq] at raws
    have here : i.operands[0]? = some o := by rw [operands, List.getElem?_cons_zero]
    obtain ⟨token, access, read⟩ := parse_of_parseOperands steps.operands here
    obtain rfl : token = first := (Operand.raw_of_parse read).symm.trans raws.1
    exact ⟨o, others, access, _, rfl, read, raws.2⟩

/-- A masked first operand has a mask operand behind it unless its token starts with the mask, and
one without a mask has none unless its token opens a mask that is not read. -/
theorem maskOperand_of_build {templates : Templates} {p : Parts} {i : Instruction} {first : Text}
    {rest : List Text} (built : build templates p = .ok i) (listed : p.explicit = first :: rest)
    (present : ∀ token ∈ p.explicit, token ∉ absentMarkers) :
    ∃ o others, i.operands = o :: others ∧ o.raw = first ∧
      (.mask ∈ o.decorators → others.map Operand.raw =
        if Vocabulary.token Decorator.mask <+: first then rest else "aKq".toList :: rest) ∧
      (.mask ∉ o.decorators → others.map Operand.raw =
        if maskStart <:+: first then "aKq".toList :: rest else rest) ∧
      (.mask ∉ o.decorators → maskStart <:+: first →
        ¬ Operand.Reads first o.kind o.size o.block []) := by
  obtain ⟨o, others, access, flags, operands, read, raws⟩ :=
    exists_first_of_build built listed present
  refine ⟨o, others, operands, Operand.raw_of_parse read, ?_, ?_, ?_⟩
  · intro masked
    have inFront := Operand.mask_prefix_iff read
    rw [raws]
    by_cases starts : Vocabulary.token Decorator.mask <+: first
    · rw [if_pos starts]
      apply if_neg
      rw [Text.occursInside_iff]
      exact fun inside => inside.2 (inFront.2 starts)
    · rw [if_neg starts]
      apply if_pos
      rw [Text.occursInside_iff]
      exact ⟨Operand.maskStart_infix_of_masked read masked, mt inFront.1 starts⟩
  · intro unmasked
    have inside : Text.occursInside maskStart first = true ↔ maskStart <:+: first := by
      rw [Text.occursInside_iff]
      exact and_iff_left (Operand.not_maskStart_prefix_of_unmasked read unmasked)
    rw [raws]
    simp only [inside]
  · intro unmasked opened
    rw [Operand.mask_mem_iff read] at unmasked
    exact Operand.not_reads_of_unclosed opened unmasked

theorem maskOperand_of_build_maskedMove :
    ∃ i o others, build .standard maskedMove = .ok i ∧ i.operands = o :: others ∧
      .mask ∈ o.decorators ∧ others.map Operand.raw = ["aKq".toList, "Wx".toList] := by
  obtain ⟨i, built, shape⟩ := Traversal.exists_of_any
    (show (build .standard maskedMove).toOption.any (fun i =>
      i.operands.head?.all fun o => o.decorators.contains .mask) = true by decide)
  obtain ⟨o, others, operands, _, masked, _⟩ := maskOperand_of_build built rfl (by decide)
  rw [operands] at shape
  have decorated : .mask ∈ o.decorators := of_decide_eq_true shape
  have behind : ¬ Vocabulary.token Decorator.mask <+: "Vx{K}".toList := by decide
  exact ⟨i, o, others, built, operands, decorated, (masked decorated).trans (if_neg behind)⟩

/-- A move whose mask is written in front of its first operand. -/
def frontMaskedMove : Parts where
  mnemonic := "VMOVAPS"
  explicit := ["{K}Vfv".toList, "Wfv".toList]
  implicit := []
  encoding := "evex m:1 p:0 l:x w:0 0x28 /r"
  metadata := ["s:AVX512F".toList, "w:W|R|R".toList]

/-- The mask in front is a decorator of the operand and no operand. -/
theorem mask_without_operand :
    ¬ ∀ (templates : Templates) (p : Parts) (i : Instruction) (first : Text) (rest : List Text),
      build templates p = .ok i → p.explicit = first :: rest →
      (∀ token ∈ p.explicit, token ∉ absentMarkers) →
      ∃ o others, i.operands = o :: others ∧
        (i.operands.map Operand.raw = first :: "aKq" :: rest ↔ .mask ∈ o.decorators) ∧
        (.mask ∉ o.decorators → i.operands.map Operand.raw = p.explicit) := by
  intro every
  obtain ⟨i, built, shape⟩ := Traversal.exists_of_any
    (show (build .standard frontMaskedMove).toOption.any (fun i =>
      i.operands.length = 2 ∧ i.operands.head?.all fun o => o.decorators.contains .mask) = true by
        decide)
  obtain ⟨two, first⟩ := of_decide_eq_true shape
  obtain ⟨o, others, operands, slot, _⟩ := every _ _ _ _ _ built rfl (by decide)
  rw [operands] at first
  have raws := slot.2 (of_decide_eq_true first)
  have three := congrArg List.length raws
  rw [List.length_map, two] at three
  cases three

end OpcodeAtlas.Instruction
