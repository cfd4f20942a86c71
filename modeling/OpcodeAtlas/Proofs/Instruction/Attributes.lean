import OpcodeAtlas.Proofs.Encoding.Attributes
import OpcodeAtlas.Proofs.Instruction.Build
import OpcodeAtlas.Proofs.Metadata.Attributes

/-!
The attributes of an instruction. They are those its metadata and its encoding give, without those
that an operand has taken, and those that operands, encoding and modes imply
(`mem_attributes_of_steps`).
-/

namespace OpcodeAtlas

theorem Attribute.pos_of_operandFlag? {a : Attribute} {number : Nat} {flag : OperandFlag}
    (h : a.operandFlag? = some (number, flag)) : 0 < number := by
  cases a <;> cases h <;> decide

namespace Instruction

open Metadata (listedAttributes)

/-- What remains belongs to no operand, or to one beyond the first `count`. -/
theorem mem_withoutOperands {count : Nat} {s : Attributes} {a : Attribute} :
    a ∈ withoutOperands count s ↔
      a ∈ s ∧ ∀ number flag, a.operandFlag? = some (number, flag) → count < number := by
  induction count with
  | zero =>
    have beyond : ∀ number flag, a.operandFlag? = some (number, flag) → 0 < number :=
      fun _ _ => Attribute.pos_of_operandFlag?
    exact (and_iff_left beyond).symm
  | succ count ih =>
    rw [withoutOperands, List.range_succ, List.foldl_append, List.foldl_cons, List.foldl_nil,
      ← withoutOperands, Attributes.mem_withoutOperand, ih, and_assoc]
    refine and_congr_right fun _ => ⟨?_, ?_⟩
    · rintro ⟨beyond, other⟩ number flag found
      have before := beyond number flag found
      have apart : number ≠ count + 1 := by
        rintro rfl
        exact other flag found
      omega
    · intro beyond
      refine ⟨fun number flag found => Nat.lt_of_succ_lt (beyond number flag found), ?_⟩
      intro flag found
      exact Nat.lt_irrefl _ (beyond (count + 1) flag found)

/-- The attributes that operands, encoding and modes imply. -/
def Implies (e : Encoding) (os : List Operand) (modes : CpuModes) (s : Attributes) :
    Attribute → Prop
  | .vector => usesVector os = true
  | .noV => e.isVector = true ∧ usesV os = false
  | .noVPrime => e.isEvex = true ∧ usesVPrime e s os = false
  | .invalidInLongMode => .long ∉ modes
  | .onlyInLongMode => .long ∈ modes ∧ .protectedMode ∉ modes
  | _ => False

theorem mem_completeAttributes {e : Encoding} {os : List Operand} {modes : CpuModes}
    {s : Attributes} {a : Attribute} :
    a ∈ completeAttributes e os modes s ↔ a ∈ s ∨ Implies e os modes s a := by
  rw [completeAttributes, OrderedSet.mem_insertAll]
  refine or_congr_right ?_
  cases a <;> simp [Implies, OrderedSet.contains]

theorem mem_attributes_of_steps {templates : Templates} {p : Parts} {i : Instruction}
    {s : Attributes} (steps : Steps templates p i s) {a : Attribute} :
    a ∈ i.attributes ↔
      (a ∈ s ∧ ∀ number flag, a.operandFlag? = some (number, flag) → i.operands.length < number) ∨
        Implies i.encoding i.operands i.modes i.attributes a := by
  have unimplied : ∀ modes t, ¬ Implies i.encoding i.operands modes t .vsib := fun _ _ => id
  have vsib : i.attributes.contains .vsib =
      (withoutOperands i.operands.length s).contains .vsib := by
    rw [Bool.eq_iff_iff, OrderedSet.contains_eq_true_iff, OrderedSet.contains_eq_true_iff,
      steps.attributes, mem_completeAttributes, or_iff_left (unimplied _ _)]
  have implied : Implies i.encoding i.operands i.modes i.attributes a ↔
      Implies i.encoding i.operands i.modes (withoutOperands i.operands.length s) a := by
    cases a with
    | noVPrime => simp only [Implies, usesVPrime, vsib]
    | _ => exact Iff.rfl
  rw [implied, ← mem_withoutOperands, steps.attributes, mem_completeAttributes]

/-- An attribute that neither entries nor words can have given is there exactly if it is implied. -/
theorem mem_attributes_of_build {templates : Templates} {p : Parts} {i : Instruction}
    (h : build templates p = .ok i) {a : Attribute} (unlisted : a ∉ listedAttributes p.metadata)
    (other : a ∉ Encoding.wordAttributes) :
    a ∈ i.attributes ↔ Implies i.encoding i.operands i.modes i.attributes a := by
  obtain ⟨s, steps⟩ := steps_of_build h
  have absent : a ∉ s := by
    rw [Encoding.mem_attributes_of_parse steps.encoding other,
      Metadata.mem_attributes_of_read steps.metadata]
    exact unlisted
  rw [mem_attributes_of_steps steps, or_iff_right fun given => absent given.1]

end Instruction

end OpcodeAtlas
