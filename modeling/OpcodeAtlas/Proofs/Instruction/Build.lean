import OpcodeAtlas.Line
import OpcodeAtlas.Proofs.Traversal

/-!
What an accepted line or instruction went through. `steps_of_build` names every check that building
passed and says where each part of the instruction comes from.
-/

namespace OpcodeAtlas

namespace Instruction

/-- The steps of a successful build; `attributes` is what metadata and encoding give together. -/
structure Steps (templates : Templates) (p : Parts) (i : Instruction) (attributes : Attributes) :
    Prop where
  metadata : Metadata.read templates (Decorators.strip p.mnemonic).1 p.metadata = .ok i.metadata
  access : i.metadata.access.check ((withMaskOperand p.explicit).length + p.implicit.length) =
    .ok ()
  rawEncoding : i.rawEncoding = p.encoding
  encoding : (Encoding.parse i.rawEncoding).outcome? i.metadata.attributes =
    .ok (i.encoding, attributes)
  operands : parseOperands i.metadata.access 0 attributes.operandFlags false
    (withMaskOperand p.explicit) = .ok i.operands
  implicitOperands : parseOperands i.metadata.access i.operands.length (fun _ => []) true
    p.implicit = .ok i.implicitOperands
  decorators : i.decorators = (Decorators.strip p.mnemonic).2.instructionFlags.insertAll
    (i.operands.flatMap fun o => o.decorators.instructionFlags.elements)
  modes : i.modes = completeModes i.encoding i.metadata.modes
  attributes : i.attributes = completeAttributes i.encoding i.operands i.modes
    (withoutOperands i.operands.length attributes)
  mnemonic : Mnemonic.complete (Decorators.strip p.mnemonic).1 i.decorators i.encoding =
    .ok i.mnemonic
  summary : AccessSummary.ofOperands (i.operands ++ i.implicitOperands) = .ok i.summary
  filters : i.filters = filtersOf i.mnemonic i.metadata i.attributes i.encoding i.operands
  payload : i.payload = Payload.ofOperands? i.operands
  feature : i.feature = templates.feature? i.metadata.featureId

theorem steps_of_build {templates : Templates} {p : Parts} {i : Instruction}
    (h : build templates p = .ok i) : ∃ attributes, Steps templates p i attributes := by
  simp only [build, Traversal.bind_eq_ok_iff] at h
  obtain ⟨metadata, read, _, checked, ⟨encoding, attributes⟩, parsed, operands, explicit,
    implicitOperands, implicit, mnemonic, completed, summary, summed, made⟩ := h
  cases made
  exact ⟨attributes, read, checked, rfl, parsed, explicit, implicit, rfl, rfl, rfl, completed,
    summed, rfl, rfl, rfl⟩

/-- Metadata with the same accesses, attributes and modes give instructions that differ only in what
filters and feature take from the rest. -/
theorem agree_build {templates : Templates} {p : Parts} {entries : List Text}
    {V : Metadata → Metadata → Prop} {E : SpecError → SpecError → Prop}
    (reads : Traversal.Agree V E
      (Metadata.read templates (Decorators.strip p.mnemonic).1 p.metadata)
      (Metadata.read templates (Decorators.strip p.mnemonic).1 entries))
    (same : ∀ m n, V m n → m.access = n.access ∧ m.attributes = n.attributes ∧ m.modes = n.modes)
    (reflexive : ∀ error, E error error) :
    Traversal.Agree
      (fun i j => V i.metadata j.metadata ∧
        i.filters = filtersOf i.mnemonic i.metadata i.attributes i.encoding i.operands ∧
        i.feature = templates.feature? i.metadata.featureId ∧
        j = { i with
          metadata := j.metadata
          filters := filtersOf i.mnemonic j.metadata i.attributes i.encoding i.operands
          feature := templates.feature? j.metadata.featureId })
      E (build templates p) (build templates { p with metadata := entries }) := by
  unfold build
  dsimp only
  generalize withMaskOperand p.explicit = explicit
  refine reads.bind ?_
  intro m n related
  obtain ⟨access, given, modes⟩ := same m n related
  rw [← access, ← given, ← modes]
  refine (Traversal.Agree.same reflexive _).bind ?_
  rintro _ _ rfl
  refine (Traversal.Agree.same reflexive _).bind ?_
  rintro ⟨encoding, attributes⟩ _ rfl
  refine (Traversal.Agree.same reflexive _).bind ?_
  rintro operands _ rfl
  refine (Traversal.Agree.same reflexive _).bind ?_
  rintro implicitOperands _ rfl
  refine (Traversal.Agree.same reflexive _).bind ?_
  rintro mnemonic _ rfl
  refine (Traversal.Agree.same reflexive _).bind ?_
  rintro summary _ rfl
  exact .ok ⟨related, rfl, rfl, rfl⟩

end Instruction

namespace Line

theorem components_of_parts {content : Text} {p : Instruction.Parts} (h : parts content = .ok p) :
    ∃ mnemonic explicit implicit encoding metadata : Text,
      content.splitOn ';' = [mnemonic, explicit, implicit, encoding, metadata] ∧
        content.head? ≠ some ' ' ∧ mnemonic.trim ≠ [] ∧
        p = ⟨mnemonic.trim, operandTokens explicit, operandTokens implicit, encoding.trim,
          metadata.trim.splitOn ','⟩ := by
  unfold parts at h
  split at h
  · cases h
  · next started =>
    split at h
    · next mnemonic explicit implicit encoding metadata shape =>
      split at h
      · cases h
      · next named =>
        cases h
        refine ⟨mnemonic, explicit, implicit, encoding, metadata, shape, started, ?_, rfl⟩
        rwa [List.isEmpty_iff] at named
    · cases h

theorem build_of_parse {templates : Templates} {line : Text} {i : Instruction}
    (h : parse templates line = .ok (some i)) :
    ∃ p, parts (content line) = .ok p ∧ Instruction.build templates p = .ok i := by
  unfold parse at h
  split at h
  · cases h
  · simp only [Traversal.bind_eq_ok_iff] at h
    obtain ⟨p, read, made, built, same⟩ := h
    cases same
    exact ⟨p, read, built⟩

theorem exists_parse_of_isSome {templates : Templates} {line : Text}
    (holds : ((parse templates line).toOption.join).isSome = true) :
    ∃ i, parse templates line = .ok (some i) := by
  cases parsed : parse templates line with
  | error e =>
    rw [parsed] at holds
    cases holds
  | ok found =>
    rw [parsed] at holds
    obtain ⟨i, rfl⟩ := Option.isSome_iff_exists.1 holds
    exact ⟨i, rfl⟩

end Line

end OpcodeAtlas
