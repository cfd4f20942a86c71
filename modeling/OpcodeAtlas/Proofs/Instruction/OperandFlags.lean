import OpcodeAtlas.Proofs.Instruction.Attributes

/-!
Attributes that belong to an operand. `operandFlags_of_build`: an explicit operand has the flags
that attributes give to its number and no others, where the mask operand counts as the second one,
and an implicit operand is a default operand and nothing else. An attribute for an operand that the
instruction does not have is not refused: it stays with the instruction
(`not_every_flag_delivered`).
-/

namespace OpcodeAtlas

namespace Instruction

open Metadata (listedAttributes)

theorem parse_of_parseOperands {access : AccessMap} {offset : Nat}
    {flags : Nat → List OperandFlag} {implicit : Bool} {tokens : List Text} {os : List Operand}
    (h : parseOperands access offset flags implicit tokens = .ok os) {k : Nat} {o : Operand}
    (here : os[k]? = some o) :
    ∃ token a, Operand.parse token a (flags (k + 1)) implicit = .ok o := by
  obtain ⟨token, _, read⟩ := Traversal.exists_of_mapM_zipIdx h here
  obtain ⟨a, _, parsed⟩ := Traversal.bind_eq_ok_iff.1 read
  exact ⟨token, a, parsed⟩

/-- Encodings add no attribute that belongs to an operand. -/
theorem operandFlag?_of_wordAttributes {a : Attribute} (h : a ∈ Encoding.wordAttributes) :
    a.operandFlag? = none := by
  have none : ∀ a ∈ Encoding.wordAttributes, a.operandFlag? = none := by decide
  exact none a h

/-- Each explicit operand has the flags given to its number. What is given to a number beyond the
last operand stays among the attributes, and nothing else of the kind does. -/
theorem operandFlags_of_build {templates : Templates} {p : Parts} {i : Instruction}
    (built : build templates p = .ok i) :
    (∀ k o, i.operands[k]? = some o → ∀ flag, flag ∈ o.flags ↔
        ∃ a ∈ listedAttributes p.metadata, a.operandFlag? = some (k + 1, flag)) ∧
      (∀ o ∈ i.implicitOperands, o.flags = [.isDefault]) ∧
      ∀ a number flag, a.operandFlag? = some (number, flag) →
        (a ∈ i.attributes ↔
          a ∈ listedAttributes p.metadata ∧ i.operands.length < number) := by
  obtain ⟨s, steps⟩ := steps_of_build built
  have given : ∀ {a number flag}, a.operandFlag? = some (number, flag) →
      (a ∈ s ↔ a ∈ listedAttributes p.metadata) := by
    intro a number flag belongs
    have other : a ∉ Encoding.wordAttributes := fun member =>
      Option.some_ne_none _ (belongs.symm.trans (operandFlag?_of_wordAttributes member))
    rw [Encoding.mem_attributes_of_parse steps.encoding other,
      Metadata.mem_attributes_of_read steps.metadata]
  refine ⟨?_, ?_, ?_⟩
  · intro k o here flag
    obtain ⟨token, a, parsed⟩ := parse_of_parseOperands steps.operands here
    rw [Operand.flags_of_parse parsed]
    simp only [Bool.false_and, Bool.false_eq_true, if_false, Attributes.mem_operandFlags]
    refine exists_congr fun b => ?_
    exact and_congr_left fun belongs => given belongs
  · intro o member
    obtain ⟨k, here⟩ := List.mem_iff_getElem?.1 member
    obtain ⟨token, a, parsed⟩ := parse_of_parseOperands steps.implicitOperands here
    exact Operand.flags_of_parse parsed
  · intro a number flag belongs
    have unimplied : ¬ Implies i.encoding i.operands i.modes i.attributes a := by
      cases a <;> first | exact id | cases belongs
    rw [mem_attributes_of_steps steps, or_iff_left unimplied, given belongs]
    refine and_congr_right fun _ => ?_
    rw [belongs]
    constructor
    · intro beyond
      exact beyond number flag rfl
    · rintro beyond _ _ ⟨rfl⟩
      exact beyond

/-- A masked instruction whose attributes name the mask operand and the one after it. -/
def maskedMove : Parts where
  mnemonic := "VPMOVSX"
  explicit := ["Vx{K}".toList, "Wx".toList]
  implicit := []
  encoding := "evex m:2 p:1 l:x w:0 0x20 /r"
  metadata := ["s:AVX512BW".toList, "w:W|R|R".toList, "a:OP2DEF|OP3SIGNEXO1".toList]

theorem operandFlags_of_build_maskedMove :
    ∃ i mask, build .standard maskedMove = .ok i ∧ i.operands[1]? = some mask ∧
      mask.raw = "aKq".toList ∧ .isDefault ∈ mask.flags ∧ .signExtendOp1 ∉ mask.flags ∧
      .op2Default ∉ i.attributes ∧ .op3SignExtendOp1 ∉ i.attributes := by
  obtain ⟨i, built, shape⟩ := Traversal.exists_of_any
    (show (build .standard maskedMove).toOption.any (fun i =>
      i.operands.length = 3 ∧ i.operands[1]?.map Operand.raw = some "aKq".toList) = true by
        decide)
  obtain ⟨three, second⟩ := of_decide_eq_true shape
  obtain ⟨mask, here, raw⟩ := Option.map_eq_some_iff.1 second
  obtain ⟨delivered, _, left⟩ := operandFlags_of_build built
  have listed : ∀ a, a ∈ listedAttributes maskedMove.metadata ↔
      a ∈ [Attribute.op2Default, .op3SignExtendOp1] := by
    have written : listedAttributes maskedMove.metadata =
        [Attribute.op2Default, .op3SignExtendOp1] := by
      decide
    exact fun a => iff_of_eq (congrArg (a ∈ ·) written)
  refine ⟨i, mask, built, here, raw, ?_, ?_, ?_, ?_⟩
  · exact (delivered 1 mask here _).2 ⟨.op2Default, (listed _).2 (by decide), rfl⟩
  · intro member
    obtain ⟨a, isListed, belongs⟩ := (delivered 1 mask here _).1 member
    have none : ∀ a ∈ [Attribute.op2Default, .op3SignExtendOp1],
        a.operandFlag? ≠ some (2, .signExtendOp1) := by
      decide
    exact none a ((listed a).1 isListed) belongs
  · intro member
    have beyond := ((left .op2Default 2 .isDefault rfl).1 member).2
    omega
  · intro member
    have beyond := ((left .op3SignExtendOp1 3 .signExtendOp1 rfl).1 member).2
    omega

/-- The form with two operands of an instruction whose third operand would be sign extended. -/
def shortMultiply : Parts where
  mnemonic := "IMUL"
  explicit := ["Gv".toList, "Ev".toList]
  implicit := []
  encoding := "0x0F 0xAF /r"
  metadata := ["s:I386".toList, "w:RW|R".toList, "a:OP3SIGNEXO1".toList]

/-- An attribute for an operand that is not there reaches no operand and stays. -/
theorem not_every_flag_delivered :
    ¬ ∀ (templates : Templates) (p : Parts) (i : Instruction), build templates p = .ok i →
      (∀ a ∈ listedAttributes p.metadata, ∀ number flag,
        a.operandFlag? = some (number, flag) →
          ∃ o, i.operands[number - 1]? = some o ∧ flag ∈ o.flags) ∧
      ∀ a ∈ i.attributes, a.operandFlag? = none := by
  intro every
  obtain ⟨i, built, shape⟩ := Traversal.exists_of_any
    (show (build .standard shortMultiply).toOption.any (fun i =>
      .op3SignExtendOp1 ∈ i.attributes) = true by decide)
  obtain ⟨_, none⟩ := every _ _ _ built
  cases none .op3SignExtendOp1 (of_decide_eq_true shape)

end Instruction

end OpcodeAtlas
