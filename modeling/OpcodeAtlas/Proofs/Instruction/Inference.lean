import OpcodeAtlas.Proofs.Instruction.Attributes
import OpcodeAtlas.Proofs.Instruction.Filters

/-!
Attributes and filters that an instruction has without listing them. `unusedV_of_build` says when
vvvv and its extra bit count as unused, and `longModeFilters_of_build` which modes make an
instruction invalid inside or outside of 64-bit mode. Two uses are overlooked: that of the extra bit
by an instruction without encoded operands (`vPrime_use_overlooked`), and that of a mode other than
protected mode (`only64_beside_compat`).
-/

namespace OpcodeAtlas.Instruction

open Metadata (listedAttributes)

/-! ### Unused bits of vvvv -/

theorem hasType_eq_false_iff {types : List OperandType} {o : Operand} :
    hasType types o = false ↔ ∀ type ∈ types, o.type? ≠ some type := by
  unfold hasType
  cases o.type? with
  | none => simp
  | some type => simp [List.forall_mem_ne]

theorem usesV_eq_false_iff {os : List Operand} :
    usesV os = false ↔
      ∀ o ∈ os, ∀ type ∈ [OperandType.B, .H, .vK, .vT, .dfv], o.type? ≠ some type := by
  simp only [usesV, List.any_eq_false, Bool.not_eq_true, hasType_eq_false_iff]

theorem usesVPrime_eq_false_iff {e : Encoding} {s : Attributes} {os : List Operand} :
    usesVPrime e s os = false ↔
      (∀ o ∈ os, ∀ type ∈ [OperandType.B, .H], o.type? ≠ some type) ∧
        ((∀ o ∈ os, o.type? = none) ∨ (.vsib ∉ s ∧ e.values .standardCondition = [])) := by
  have elsewhere : (s.contains .vsib || e.has .standardCondition) = false ↔
      .vsib ∉ s ∧ e.values .standardCondition = [] := by
    simp [OrderedSet.contains, Encoding.has]
  rw [usesVPrime, List.any_eq_false, ← elsewhere]
  simp only [Bool.or_assoc]
  -- Fixed operands are skipped, so what holds of all operands alike is seen at an encoded one only.
  cases s.contains .vsib || e.has .standardCondition with
  | false =>
    simp only [Bool.or_false, or_true, and_true, ← hasType_eq_false_iff]
    refine forall₂_congr fun o _ => ?_
    cases found : o.type? with
    | none => simp [hasType, found]
    | some type => simp
  | true =>
    have fixed : (∀ o ∈ os, o.type? = none) →
        ∀ o ∈ os, ∀ type ∈ [OperandType.B, .H], o.type? ≠ some type := by
      intro none o member type _ found
      cases (none o member).symm.trans found
    simp only [Bool.or_true, Bool.and_true, Bool.not_eq_true, Option.isSome_eq_false_iff,
      Option.isNone_iff_eq_none, Bool.true_eq_false, or_false, and_iff_right_of_imp fixed]

/-- When nothing is said about vvvv, it counts as unused if no operand is encoded in it. Its extra
bit counts as unused if no operand is encoded in vvvv and neither VSIB nor a standard condition
takes it; these two are seen only in an instruction that has an encoded operand. -/
theorem unusedV_of_build {templates : Templates} {p : Parts} {i : Instruction}
    (built : build templates p = .ok i) (noV : .noV ∉ listedAttributes p.metadata)
    (noVPrime : .noVPrime ∉ listedAttributes p.metadata) :
    (.noV ∈ i.attributes ↔
        i.encoding.isVector = true ∧
          ∀ o ∈ i.operands, ∀ type ∈ [OperandType.B, .H, .vK, .vT, .dfv], o.type? ≠ some type) ∧
      (.noVPrime ∈ i.attributes ↔
        i.encoding.isEvex = true ∧
          (∀ o ∈ i.operands, ∀ type ∈ [OperandType.B, .H], o.type? ≠ some type) ∧
          ((∀ o ∈ i.operands, o.type? = none) ∨
            (.vsib ∉ i.attributes ∧ i.encoding.values .standardCondition = []))) ∧
      (.noVAndVPrime ∈ i.filters ↔ .noV ∈ i.attributes ∧ .noVPrime ∈ i.attributes) ∧
      (.noV ∈ i.filters ↔ .noV ∈ i.attributes ∧ .noVPrime ∉ i.attributes) ∧
      (.noVPrime ∈ i.filters ↔ .noVPrime ∈ i.attributes ∧ .noV ∉ i.attributes) := by
  obtain ⟨_, steps⟩ := steps_of_build built
  refine ⟨?_, ?_, ?_⟩
  · rw [mem_attributes_of_build built noV (by decide), Implies, usesV_eq_false_iff]
  · rw [mem_attributes_of_build built noVPrime (by decide), Implies, usesVPrime_eq_false_iff]
  · rw [steps.filters]
    exact mem_filtersOf_v

/-- A gather: vvvv is unused, and its extra bit extends the index register. -/
def gather : Parts where
  mnemonic := "VPGATHERDD"
  explicit := ["Vx{K}".toList, "Mvm32x".toList]
  implicit := []
  encoding := "evex m:2 p:1 l:x w:0 0x90 /r:mem vsib"
  metadata := ["s:AVX512F".toList, "w:CRCW|RW|CR".toList, "a:MMASK".toList]

theorem unusedV_of_build_gather :
    .noV ∉ listedAttributes gather.metadata ∧ .noVPrime ∉ listedAttributes gather.metadata ∧
      ∃ i, build .standard gather = .ok i ∧ .noV ∈ i.attributes ∧ .noVPrime ∉ i.attributes ∧
        .noV ∈ i.filters ∧ .noVPrime ∉ i.filters ∧ .noVAndVPrime ∉ i.filters := by
  have noV : .noV ∉ listedAttributes gather.metadata := by decide
  have noVPrime : .noVPrime ∉ listedAttributes gather.metadata := by decide
  refine ⟨noV, noVPrime, ?_⟩
  obtain ⟨i, built, shape⟩ := Traversal.exists_of_any
    (show (build .standard gather).toOption.any (fun i =>
      i.encoding.isVector = true ∧
        (∀ o ∈ i.operands, ∀ type ∈ [OperandType.B, .H, .vK, .vT, .dfv], o.type? ≠ some type) ∧
        ¬ (∀ o ∈ i.operands, o.type? = none) ∧ .vsib ∈ i.attributes) = true by decide)
  obtain ⟨vector, unused, encoded, vsib⟩ := of_decide_eq_true shape
  obtain ⟨v, vPrime, both, first, second⟩ := unusedV_of_build built noV noVPrime
  have there : .noV ∈ i.attributes := v.2 ⟨vector, unused⟩
  have absent : .noVPrime ∉ i.attributes := by
    intro member
    rcases (vPrime.1 member).2.2 with fixed | ⟨unscaled, _⟩
    · exact encoded fixed
    · exact unscaled vsib
  exact ⟨i, built, there, absent, first.2 ⟨there, absent⟩, fun member => absent (second.1 member).1,
    fun member => absent (both.1 member).2⟩

/-- A conditional compare without operands of its own. -/
def bareCompare : Parts where
  mnemonic := "CCMPsc"
  explicit := []
  implicit := ["Fv".toList]
  encoding := "evex m:4 p:0 l:0 nd:0 sc:A 0x38 /r"
  metadata := ["s:CCMP".toList, "w:W".toList, "v:cond".toList]

/-- Without an encoded operand, a standard condition is taken for an unused bit. -/
theorem vPrime_use_overlooked :
    ¬ ∀ (templates : Templates) (p : Parts) (i : Instruction), build templates p = .ok i →
      .noV ∉ listedAttributes p.metadata → .noVPrime ∉ listedAttributes p.metadata →
      (.noVPrime ∈ i.attributes ↔
        i.encoding.isEvex = true ∧
          (∀ o ∈ i.operands, ∀ type ∈ [OperandType.B, .H], o.type? ≠ some type) ∧
          .vsib ∉ i.attributes ∧ i.encoding.values .standardCondition = []) := by
  intro every
  obtain ⟨i, built, shape⟩ := Traversal.exists_of_any
    (show (build .standard bareCompare).toOption.any (fun i =>
      .noVPrime ∈ i.attributes ∧ i.encoding.values .standardCondition = [['A']]) = true by
        decide)
  obtain ⟨there, condition⟩ := of_decide_eq_true shape
  obtain ⟨_, _, _, unconditional⟩ := (every _ _ _ built (by decide) (by decide)).1 there
  cases condition.symm.trans unconditional

/-! ### 64-bit mode -/

/-- When nothing is said about 64-bit mode, an instruction is refused in it exactly if long mode is
not among its modes, and outside of it exactly if long mode is and protected mode is not. -/
theorem longModeFilters_of_build {templates : Templates} {p : Parts} {i : Instruction}
    (built : build templates p = .ok i)
    (invalid : .invalidInLongMode ∉ listedAttributes p.metadata)
    (only : .onlyInLongMode ∉ listedAttributes p.metadata) :
    (.notIn64 ∈ i.filters ↔ .long ∉ i.modes) ∧
      (.only64 ∈ i.filters ↔ .long ∈ i.modes ∧ .protectedMode ∉ i.modes) := by
  obtain ⟨_, steps⟩ := steps_of_build built
  have no64 : Filter.ofAttribute? .invalidInLongMode = some .notIn64 := rfl
  have no1632 : Filter.ofAttribute? .onlyInLongMode = some .only64 := rfl
  rw [steps.filters, mem_filtersOf_of_attribute no64 (by decide),
    mem_filtersOf_of_attribute no1632 (by decide),
    mem_attributes_of_build built invalid (by decide),
    mem_attributes_of_build built only (by decide)]
  exact ⟨Iff.rfl, Iff.rfl⟩

def syscall : Parts where
  mnemonic := "SYSCALL"
  explicit := []
  implicit := []
  encoding := "0x0F 0x05"
  metadata := ["s:AMD".toList, "m:O64".toList]

theorem longModeFilters_of_build_syscall :
    .invalidInLongMode ∉ listedAttributes syscall.metadata ∧
      .onlyInLongMode ∉ listedAttributes syscall.metadata ∧
      ∃ i, build .standard syscall = .ok i ∧ .notIn64 ∉ i.filters ∧ .only64 ∈ i.filters := by
  have invalid : .invalidInLongMode ∉ listedAttributes syscall.metadata := by decide
  have only : .onlyInLongMode ∉ listedAttributes syscall.metadata := by decide
  refine ⟨invalid, only, ?_⟩
  obtain ⟨i, built, shape⟩ := Traversal.exists_of_any
    (show (build .standard syscall).toOption.any (fun i =>
      .long ∈ i.modes ∧ .protectedMode ∉ i.modes) = true by decide)
  obtain ⟨long, unprotected⟩ := of_decide_eq_true shape
  obtain ⟨inside, outside⟩ := longModeFilters_of_build built invalid only
  exact ⟨i, built, fun member => inside.1 member long, outside.2 ⟨long, unprotected⟩⟩

/-- An instruction of long mode and compatibility mode. -/
def compatible : Parts := { syscall with metadata := ["s:AMD".toList, "m:mode=compat+long".toList] }

/-- An instruction of compatibility mode is refused there unless it is one of protected mode too. -/
theorem only64_beside_compat :
    ¬ ∀ (templates : Templates) (p : Parts) (i : Instruction), build templates p = .ok i →
      .invalidInLongMode ∉ listedAttributes p.metadata →
      .onlyInLongMode ∉ listedAttributes p.metadata →
      (.notIn64 ∈ i.filters ↔ .long ∉ i.modes) ∧
        (.only64 ∈ i.filters ↔ .long ∈ i.modes ∧
          ∀ mode ∈ [CpuMode.real, .virtual8086, .protectedMode, .compat], mode ∉ i.modes) := by
  intro every
  obtain ⟨i, built, shape⟩ := Traversal.exists_of_any
    (show (build .standard compatible).toOption.any (fun i =>
      .only64 ∈ i.filters ∧ .compat ∈ i.modes) = true by decide)
  obtain ⟨refused, compat⟩ := of_decide_eq_true shape
  obtain ⟨_, outside⟩ := every _ _ _ built (by decide) (by decide)
  exact (outside.1 refused).2 .compat (by decide) compat

end OpcodeAtlas.Instruction
