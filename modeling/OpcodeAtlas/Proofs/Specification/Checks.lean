import OpcodeAtlas.Proofs.Dispatch.Path
import OpcodeAtlas.Proofs.Specification.Conflicts

/-!
What the decision trees of a specification check. `taken_iff_listed`: the path to an instruction
takes all its filters, and all values of the fields that its family dispatches on.
`not_every_value_taken`: values of other fields can be written, and no node takes them.
-/

namespace OpcodeAtlas.Specification

open Dispatch

theorem exists_reaches {s : Specification} {trees : DecisionTrees}
    (h : s.build.result = .ok trees) {e : Entry} (he : e ∈ s.entries) :
    ∃ t path, trees.tree? e.instruction.encoding.family = some t ∧ t.Reaches path e := by
  have own := mem_familyEntries.2 ⟨he, rfl⟩
  obtain ⟨t, member⟩ := exists_tree h (List.ne_nil_of_mem own)
  have grown := group_eq_ok_iff.1 ((mem_trees_iff h).1 member).2
  obtain ⟨path, _, reached, _⟩ := exists_path grown (List.mem_map_of_mem own)
  exact ⟨t, path, (tree?_eq_some_iff h).2 member, reached⟩

theorem consumes_of_reaches {s : Specification} {trees : DecisionTrees}
    (h : s.build.result = .ok trees) {f : Family} {t : Tree} (ht : trees.tree? f = some t)
    {path : List Step} {e : Entry} (reached : t.Reaches path e) :
    Consumes (axesOf f) (.ofEntry e) path := by
  have grown := group_eq_ok_iff.1 ((mem_trees_iff h).1 ((tree?_eq_some_iff h).1 ht)).2
  obtain ⟨r, member, entry, consumed⟩ := exists_consumes_of_reaches grown reached
  obtain ⟨d, _, rfl⟩ := List.mem_map.1 member
  obtain rfl : d = e := entry
  exact consumed

/-- An instruction becomes a leaf once none of its filters is left and no value of a field that its
family dispatches on. Values of other fields are never asked for. -/
theorem taken_iff_listed {s : Specification} {trees : DecisionTrees}
    (h : s.build.result = .ok trees) {e : Entry} (he : e ∈ s.entries) :
    ∃ t, trees.tree? e.instruction.encoding.family = some t ∧ (∃ path, t.Reaches path e) ∧
      ∀ path, t.Reaches path e →
        (∃ steps, path = steps ++ e.instruction.filters.map Step.ofFilter ∧
          ∀ s ∈ steps, ∃ a ∈ axesOf e.instruction.encoding.family, s.component = .axis a) ∧
        ∀ f, TakesValues (e.instruction.encoding.values f) (stepsOn f path) ↔
          e.instruction.encoding.values f = [] ∨
            f ∈ (axesOf e.instruction.encoding.family).map Axis.field := by
  obtain ⟨t, path, found, reached⟩ := exists_reaches h he
  refine ⟨t, found, ⟨path, reached⟩, ?_⟩
  intro path reached
  have consumed := consumes_of_reaches h found reached
  refine ⟨consumed.filters, fun f => ?_⟩
  by_cases listed : f ∈ (axesOf e.instruction.encoding.family).map Axis.field
  · obtain ⟨a, ha, rfl⟩ := List.mem_map.1 listed
    exact iff_of_true (consumed.values a ha) (.inr listed)
  · rw [stepsOn_eq_nil consumed listed, takesValues_nil_iff]
    exact (or_iff_left listed).symm

example : (Vocabulary.all : List Field).filter (· ∉ legacyAxes.map Axis.field) =
    [.opcodeMap, .pp, .length, .widthOutside64Ignored, .newDataDestination, .noFlags,
      .standardCondition, .lpdf] := by decide

example : (Vocabulary.all : List Field).filter (· ∉ vectorAxes.map Axis.field) =
    [.opcodeLast, .vendor, .feature, .mandatoryPrefix, .mode, .dataSize, .addressSize,
      .auxiliary] := by decide

/-- A VEX instruction with an opcode after ModR/M, and a legacy one. -/
def lateOpcodes : Specification :=
  ⟨.standard, instructionsOf ["FOO ; ; ; vex m:1 p:0 0x0F /r 0x0D ; s:AVX",
    "PI2FD ; Pq,Qq ; ; 0x0F 0x0F /r 0x0D ; s:3DNOW,w:W|R"]⟩

theorem build_lateOpcodes : ∃ trees, lateOpcodes.build.result = .ok trees :=
  Traversal.exists_of_isOk (by decide +kernel)

theorem taken_iff_listed_lateOpcodes :
    ∃ trees e t path, lateOpcodes.build.result = .ok trees ∧ e ∈ lateOpcodes.entries ∧
      e.instruction.encoding.values .opcodeLast = [['0', 'x', '0', 'D']] ∧
      trees.tree? .legacy = some t ∧ t.Reaches path e ∧
      TakesValues [['0', 'x', '0', 'D']] (stepsOn .opcodeLast path) := by
  obtain ⟨trees, built⟩ := build_lateOpcodes
  obtain ⟨e, he, family, late⟩ : ∃ e ∈ lateOpcodes.entries,
      e.instruction.encoding.family = .legacy ∧
        e.instruction.encoding.values .opcodeLast = [['0', 'x', '0', 'D']] := by
    decide +kernel
  obtain ⟨t, found, ⟨path, reached⟩, every⟩ := taken_iff_listed built he
  have taken := ((every path reached).2 .opcodeLast).2 (.inr (by rw [family]; decide))
  rw [family] at found
  rw [late] at taken
  exact ⟨trees, e, t, path, built, he, late, found, reached, taken⟩

/-- No node asks for the opcode after ModR/M of a vector instruction. -/
theorem not_every_value_taken :
    ¬ ∀ (s : Specification) (trees : DecisionTrees),
      (∀ i ∈ s.instructions, ∃ templates line, Line.parse templates line = .ok (some i)) →
      s.build.result = .ok trees → ∀ e ∈ s.entries, ∃ t path,
        trees.tree? e.instruction.encoding.family = some t ∧ t.Reaches path e ∧
          ∀ f, TakesValues (e.instruction.encoding.values f) (stepsOn f path) := by
  intro every
  obtain ⟨trees, built⟩ := build_lateOpcodes
  obtain ⟨e, he, family, late⟩ : ∃ e ∈ lateOpcodes.entries,
      e.instruction.encoding.family = .vex ∧
        e.instruction.encoding.values .opcodeLast ≠ [] := by
    decide +kernel
  have accepted : ∀ i ∈ lateOpcodes.instructions, ∃ templates line,
      Line.parse templates line = .ok (some i) :=
    fun i member => ⟨.standard, exists_line_of_mem_instructionsOf member⟩
  obtain ⟨t, path, found, reached, taken⟩ := every lateOpcodes trees accepted built e he
  have unlisted : Field.opcodeLast ∉
      (axesOf e.instruction.encoding.family).map Axis.field := by
    rw [family]
    decide
  have unasked := stepsOn_eq_nil (consumes_of_reaches built found reached) unlisted
  have all := taken .opcodeLast
  rw [unasked] at all
  exact late (takesValues_nil_iff.1 all)

end OpcodeAtlas.Specification
