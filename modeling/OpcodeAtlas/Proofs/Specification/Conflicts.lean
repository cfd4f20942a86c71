import OpcodeAtlas.Proofs.Dispatch.Failure
import OpcodeAtlas.Proofs.Encoding.Values
import OpcodeAtlas.Proofs.Instruction.Build
import OpcodeAtlas.Proofs.Specification.Trees

/-!
How building the decision trees of a specification fails. `build_fails_by_conflict`: as every value
that an encoding can hold has a child, only instructions that cannot be told apart stand in the way,
so any single instruction has a tree.
-/

namespace OpcodeAtlas

open Dispatch

namespace Specification

/-- Every instruction has been built from parts, under whatever templates. -/
def Built (s : Specification) : Prop :=
  ∀ i ∈ s.instructions, ∃ templates p, Instruction.build templates p = .ok i

theorem instruction_mem_of_mem_entries {s : Specification} {e : Entry} (he : e ∈ s.entries) :
    e.instruction ∈ s.instructions := by
  obtain ⟨⟨i, place⟩, member, rfl⟩ := List.mem_map.1 he
  exact List.fst_mem_of_mem_zipIdx member

theorem Built.acceptedBy {s : Specification} (built : s.Built) (f : Family) :
    ∀ r ∈ (s.familyEntries f).map Residual.ofEntry, AcceptedBy (axesOf f) r := by
  intro r member
  obtain ⟨e, he, rfl⟩ := List.mem_map.1 member
  obtain ⟨inside, rfl⟩ := mem_familyEntries.1 he
  obtain ⟨templates, p, made⟩ := built _ (instruction_mem_of_mem_entries inside)
  obtain ⟨_, steps⟩ := Instruction.steps_of_build made
  exact fun a ha v hv => Encoding.accepts_of_parse steps.encoding ha hv

theorem exists_line_of_mem_instructionsOf {lines : List String} {i : Instruction}
    (h : i ∈ instructionsOf lines) : ∃ line, Line.parse .standard line = .ok (some i) := by
  obtain ⟨line, _, read⟩ := List.mem_filterMap.1 h
  cases parsed : Line.parse .standard line.toList with
  | error e =>
    rw [parsed] at read
    cases read
  | ok found =>
    rw [parsed] at read
    obtain rfl : found = some i := read
    exact ⟨line.toList, parsed⟩

theorem built_of_instructionsOf (templates : Templates) (lines : List String) :
    (Specification.mk templates (instructionsOf lines)).Built := by
  intro i member
  obtain ⟨line, parsed⟩ := exists_line_of_mem_instructionsOf member
  obtain ⟨p, _, built⟩ := Line.build_of_parse parsed
  exact ⟨.standard, p, built⟩

/-! ### Failures -/

theorem exists_of_buildFamily_eq_error {s : Specification} {f : Family} {failure : Failure}
    (h : (s.buildFamily f).result = .error failure) :
    s.familyEntries f ≠ [] ∧
      ∃ e, failure = .tree f e ∧ (group (axesOf f) (s.familyEntries f)).result = .error e := by
  unfold buildFamily at h
  split at h
  · cases h
  · next some =>
    simp only [Logged.result_bind, Logged.result_write, Logged.result_pure,
      Traversal.bind_eq_error_iff, reduceCtorEq, and_false, exists_false, or_false,
      false_or] at h
    obtain ⟨_, _, failed⟩ := h
    obtain ⟨e, grouped, rfl⟩ := Traversal.mapError_eq_error_iff.1 failed
    exact ⟨some, e, rfl, grouped⟩

theorem exists_of_build_eq_error {s : Specification} {failure : Failure}
    (h : s.build.result = .error failure) :
    ∃ f e, failure = .tree f e ∧ s.familyEntries f ≠ [] ∧
      (group (axesOf f) (s.familyEntries f)).result = .error e := by
  simp only [build, Logged.result_bind, Logged.result_mapM, Logged.result_pure,
    Traversal.bind_eq_error_iff, reduceCtorEq, and_false, exists_false, or_false] at h
  obtain ⟨f, _, failed⟩ := Traversal.exists_of_mapM_eq_error h
  obtain ⟨some, e, same, failed⟩ := exists_of_buildFamily_eq_error failed
  exact ⟨f, e, same, some, failed⟩

theorem Built.exists_conflict {s : Specification} (built : s.Built) {failure : Failure}
    (h : s.build.result = .error failure) :
    ∃ (f : Family) (part : List Entry), 2 ≤ part.length ∧ part.Sublist (s.familyEntries f) ∧
      failure = .tree f (.invalid (.conflict (part.map fun e => e.instruction.describe))) := by
  obtain ⟨f, e, rfl, some, failed⟩ := exists_of_build_eq_error h
  have occupied : (s.familyEntries f).map Residual.ofEntry ≠ [] := by
    rwa [Ne, List.map_eq_nil_iff]
  obtain ⟨part, several, within, rfl⟩ := conflict_of_stops (positive_sizes f)
    (stops_of_group_eq_error failed) (built.acceptedBy f) occupied
  rw [List.map_map, show (·.entry) ∘ Residual.ofEntry = id from rfl, List.map_id] at within
  exact ⟨f, part, several, within, rfl⟩

theorem length_familyEntries_le (s : Specification) (f : Family) :
    (s.familyEntries f).length ≤ s.instructions.length := by
  have kept : (s.familyEntries f).length ≤ s.entries.length := List.length_filter_le _ _
  rwa [entries, Entry.number, List.length_map, List.length_zipIdx] at kept

/-- Every value that an encoding can hold has a child. So instructions that cannot be told apart are
the only reason why a specification has no decision trees, and a single one always has its tree. -/
theorem build_fails_by_conflict :
    (∀ (raw : Text) (before after : Attributes) (e : Encoding),
      (Encoding.parse raw).outcome? before = .ok (e, after) →
        ∀ a ∈ axesOf e.family, ∀ v ∈ e.values a.field, a.Accepts v) ∧
    ∀ s : Specification, s.Built →
      (∀ failure, s.build.result = .error failure →
        ∃ (f : Family) (part : List Entry), 2 ≤ part.length ∧ part.Sublist (s.familyEntries f) ∧
          failure = .tree f (.invalid (.conflict (part.map fun e => e.instruction.describe)))) ∧
      (s.instructions.length = 1 → ∃ trees, s.build.result = .ok trees) := by
  refine ⟨fun raw before after e parsed a ha v hv => Encoding.accepts_of_parse parsed ha hv, ?_⟩
  intro s built
  refine ⟨fun failure h => built.exists_conflict h, fun single => ?_⟩
  cases result : s.build.result with
  | ok trees => exact ⟨trees, rfl⟩
  | error failure =>
    obtain ⟨f, part, several, within, _⟩ := built.exists_conflict result
    have few := Nat.le_trans within.length_le (s.length_familyEntries_le f)
    omega

/-- Two EVEX instructions of one encoding and a legacy instruction. -/
def sharedEvex : Specification :=
  ⟨.standard, instructionsOf ["NOP ; ; ; 0x90 ; s:I86",
    "ADD ; Bv,Ev,Gv ; ; evex m:4 l:2 p:3 nd:0 nf:1 0x01 /r ; w:W|R|R,v:legacy",
    "SUB ; Bv,Ev,Gv ; ; evex m:4 l:2 p:3 nd:0 nf:1 0x01 /r ; w:W|R|R,v:legacy"]⟩

def onlyNop : Specification := ⟨.standard, instructionsOf ["NOP ; ; ; 0x90 ; s:I86"]⟩

theorem build_fails_by_conflict_sharedEvex :
    (∃ e after, (Encoding.parse "evex m:4 l:2 p:3 nd:0 nf:1 0x01 /r").outcome? ∅ = .ok (e, after) ∧
      e.values .lpdf = [['2', 'd']] ∧ Axis.Accepts ⟨.lpdf, 64, true⟩ ['2', 'd']) ∧
    sharedEvex.Built ∧
    (∃ failure f part, sharedEvex.build.result = .error failure ∧ 2 ≤ List.length part ∧
      part.Sublist (sharedEvex.familyEntries f) ∧
      failure = .tree f (.invalid (.conflict (part.map fun e => e.instruction.describe)))) ∧
    onlyNop.Built ∧ onlyNop.instructions.length = 1 ∧
    ∃ trees, onlyNop.build.result = .ok trees := by
  obtain ⟨accepted, conflicts⟩ := build_fails_by_conflict
  have shared : sharedEvex.Built := built_of_instructionsOf _ _
  have only : onlyNop.Built := built_of_instructionsOf _ _
  have single : onlyNop.instructions.length = 1 := by decide +kernel
  refine ⟨?_, shared, ?_, only, single, (conflicts onlyNop only).2 single⟩
  · have read : ((Encoding.parse "evex m:4 l:2 p:3 nd:0 nf:1 0x01 /r").outcome? ∅).toOption.any
        fun p => p.1.family = .evex ∧ p.1.values .lpdf = [['2', 'd']] := by
      decide +kernel
    cases parsed : (Encoding.parse "evex m:4 l:2 p:3 nd:0 nf:1 0x01 /r").outcome? ∅ with
    | error e =>
      rw [parsed] at read
      cases read
    | ok p =>
      rw [parsed] at read
      obtain ⟨evex, merged⟩ : p.1.family = .evex ∧ p.1.values .lpdf = [['2', 'd']] :=
        of_decide_eq_true read
      refine ⟨p.1, p.2, rfl, merged, accepted _ _ _ _ parsed ⟨.lpdf, 64, true⟩ ?_ _ ?_⟩
      · rw [evex]
        decide
      · rw [merged]
        exact List.mem_singleton_self _
  · have fails : sharedEvex.build.result.isOk = false := by decide +kernel
    cases result : sharedEvex.build.result with
    | ok trees =>
      rw [result] at fails
      cases fails
    | error failure =>
      obtain ⟨f, part, several, within, same⟩ := (conflicts sharedEvex shared).1 failure result
      exact ⟨failure, f, part, rfl, several, within, same⟩

end Specification

end OpcodeAtlas
