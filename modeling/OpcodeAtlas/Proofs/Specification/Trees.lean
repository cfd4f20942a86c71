import Mathlib.Data.List.Nodup
import OpcodeAtlas.Proofs.Dispatch.Leaves
import OpcodeAtlas.Specification.Trees

/-!
The decision trees of a specification. `mem_trees_iff` says which trees there are;
`leaves_exhaustive` that every instruction is a leaf of the tree of its family and of no other.
-/

namespace OpcodeAtlas.Specification

open Dispatch

/-! ### Entries -/

theorem nodup_ids (s : Specification) : (s.entries.map Entry.id).Nodup := by
  have numbers : s.entries.map Entry.id = List.range s.instructions.length := by
    rw [entries, Entry.number, List.map_map]
    exact (List.zipIdx_map_snd 0 s.instructions).trans (List.range_eq_range' ..).symm
  rw [numbers]
  exact List.nodup_range

theorem nodup_familyIds (s : Specification) (f : Family) :
    ((s.familyEntries f).map Entry.id).Nodup :=
  s.nodup_ids.sublist (List.filter_sublist.map Entry.id)

theorem mem_familyEntries {s : Specification} {f : Family} {e : Entry} :
    e ∈ s.familyEntries f ↔ e ∈ s.entries ∧ e.instruction.encoding.family = f := by
  simp [familyEntries]

theorem eq_of_id_eq {s : Specification} {d e : Entry} (hd : d ∈ s.entries) (he : e ∈ s.entries)
    (same : d.id = e.id) : d = e :=
  List.inj_on_of_nodup_map s.nodup_ids hd he same

/-! ### Families -/

theorem mem_all (f : Family) : f ∈ Family.all := by
  cases f <;> decide

theorem buildFamily_eq_ok_iff {s : Specification} {f : Family} {slot : Option (Family × Tree)} :
    (s.buildFamily f).result = .ok slot ↔
      (s.familyEntries f = [] ∧ slot = none) ∨ (s.familyEntries f ≠ [] ∧
        ∃ t, slot = some (f, t) ∧ (group (axesOf f) (s.familyEntries f)).result = .ok t) := by
  unfold buildFamily
  split
  · next none => simp [none, eq_comm]
  · next entries some =>
    have grouped : ∀ t, ((group (axesOf f) (s.familyEntries f)).mapError (Failure.tree f)).result =
        .ok t ↔ (group (axesOf f) (s.familyEntries f)).result = .ok t :=
      fun _ => Traversal.mapError_eq_ok_iff
    simp only [Logged.result_bind, Logged.result_write, Logged.result_pure,
      Traversal.bind_eq_ok_iff, Except.ok.injEq, grouped]
    constructor
    · rintro ⟨_, _, t, made, rfl⟩
      exact .inr ⟨some, t, rfl, made⟩
    · rintro (⟨none, _⟩ | ⟨_, t, rfl, made⟩)
      · exact absurd none some
      · exact ⟨(), trivial, t, made, rfl⟩

/-- The trees there are: one for every family that has an instruction, the one that grouping
gives. -/
theorem mem_trees_iff {s : Specification} {trees : DecisionTrees} (h : s.build.result = .ok trees)
    {f : Family} {t : Tree} :
    (f, t) ∈ trees ↔
      s.familyEntries f ≠ [] ∧ (group (axesOf f) (s.familyEntries f)).result = .ok t := by
  simp only [build, Logged.result_bind, Logged.result_mapM, Logged.result_pure,
    Traversal.bind_eq_ok_iff, Except.ok.injEq] at h
  obtain ⟨slots, made, rfl⟩ := h
  rw [List.mem_filterMap]
  simp only [id_eq, exists_eq_right, Traversal.mem_iff_of_mapM_eq_ok made, buildFamily_eq_ok_iff]
  constructor
  · rintro ⟨g, _, ⟨_, impossible⟩ | ⟨some, u, same, grouped⟩⟩
    · cases impossible
    · cases same
      exact ⟨some, grouped⟩
  · rintro ⟨some, grouped⟩
    exact ⟨f, mem_all f, .inr ⟨some, t, rfl, grouped⟩⟩

theorem exists_tree {s : Specification} {trees : DecisionTrees} (h : s.build.result = .ok trees)
    {f : Family} (some : s.familyEntries f ≠ []) : ∃ t, (f, t) ∈ trees := by
  have built := h
  simp only [build, Logged.result_bind, Logged.result_mapM, Traversal.bind_eq_ok_iff] at built
  obtain ⟨slots, made, _⟩ := built
  obtain ⟨slot, _, here⟩ := Traversal.exists_of_mapM_eq_ok made (mem_all f)
  rcases buildFamily_eq_ok_iff.1 here with ⟨none, _⟩ | ⟨_, t, _, grouped⟩
  · exact absurd none some
  · exact ⟨t, (mem_trees_iff h).2 ⟨some, grouped⟩⟩

theorem eq_of_mem_trees {s : Specification} {trees : DecisionTrees}
    (h : s.build.result = .ok trees) {f : Family} {t u : Tree} (ht : (f, t) ∈ trees)
    (hu : (f, u) ∈ trees) : t = u := by
  have first := ((mem_trees_iff h).1 ht).2
  have second := ((mem_trees_iff h).1 hu).2
  exact Except.ok.inj (first.symm.trans second)

theorem nodup_families {s : Specification} {trees : DecisionTrees}
    (h : s.build.result = .ok trees) : (trees.map Prod.fst).Nodup := by
  simp only [build, Logged.result_bind, Logged.result_mapM, Logged.result_pure,
    Traversal.bind_eq_ok_iff, Traversal.mapM_eq_ok_iff, Except.ok.injEq] at h
  obtain ⟨slots, built, rfl⟩ := h
  have inOrder : ∀ families, List.Forall₂ (fun f slot => (s.buildFamily f).result = .ok slot)
      families slots → ((slots.filterMap id).map Prod.fst).Sublist families := by
    intro families made
    clear built
    induction made with
    | nil => exact List.Sublist.refl []
    | @cons f slot families slots here _ ih =>
      rcases buildFamily_eq_ok_iff.1 here with ⟨_, rfl⟩ | ⟨_, t, rfl, _⟩
      · exact ih.cons f
      · exact ih.cons_cons f
  exact (inOrder Family.all built).nodup (by decide)

theorem tree?_eq_some_iff {s : Specification} {trees : DecisionTrees}
    (h : s.build.result = .ok trees) {f : Family} {t : Tree} :
    trees.tree? f = some t ↔ (f, t) ∈ trees := by
  have found : ∀ u, trees.tree? f = some u → (f, u) ∈ trees := by
    intro u looked
    obtain ⟨before, after, rfl, _⟩ := List.lookup_eq_some_iff.1 looked
    simp
  constructor
  · exact found t
  · intro member
    have present : (trees.tree? f).isSome = true :=
      List.lookup_isSome_iff.2 ⟨(f, t), member, beq_self_eq_true f⟩
    obtain ⟨u, looked⟩ := Option.isSome_iff_exists.1 present
    rw [looked, eq_of_mem_trees h member (found u looked)]

/-! ### Coverage -/

/-- The leaves of a decision tree are the instructions it was made from, each as often as it was
given. So every instruction of a specification is one leaf of one decision tree, that of its own
family. -/
theorem leaves_exhaustive :
    (∀ (axes : List Axis) (entries : List Entry) (tree : Tree),
      (group axes entries).result = .ok tree → tree.leaves.Perm entries) ∧
    ∀ (s : Specification) (trees : DecisionTrees), s.build.result = .ok trees →
      (trees.map Prod.fst).Nodup ∧
      (∀ f t, trees.tree? f = some t → t.leaves.Perm (s.familyEntries f)) ∧
      ∀ e ∈ s.entries, ∃ t, trees.tree? e.instruction.encoding.family = some t ∧
        (t.leaves.map Entry.id).count e.id = 1 ∧
        ∀ p ∈ trees, e.id ∈ p.2.leaves.map Entry.id →
          p = (e.instruction.encoding.family, t) := by
  refine ⟨fun axes entries tree => leaves_perm_of_group, ?_⟩
  intro s trees h
  have covered : ∀ f t, (f, t) ∈ trees → t.leaves.Perm (s.familyEntries f) :=
    fun f t member => leaves_perm_of_group ((mem_trees_iff h).1 member).2
  refine ⟨nodup_families h, fun f t looked => covered f t ((tree?_eq_some_iff h).1 looked), ?_⟩
  intro e he
  have own : e ∈ s.familyEntries e.instruction.encoding.family := mem_familyEntries.2 ⟨he, rfl⟩
  obtain ⟨t, member⟩ := exists_tree h (List.ne_nil_of_mem own)
  have ids := (covered _ t member).map Entry.id
  refine ⟨t, (tree?_eq_some_iff h).2 member, ?_, ?_⟩
  · rw [ids.count_eq]
    exact List.count_eq_one_of_mem (s.nodup_familyIds _) (List.mem_map_of_mem own)
  · rintro ⟨g, u⟩ other leaf
    obtain ⟨d, hd, same⟩ := List.mem_map.1 (((covered g u other).map Entry.id).mem_iff.1 leaf)
    obtain ⟨present, family⟩ := mem_familyEntries.1 hd
    obtain rfl := eq_of_id_eq present he same
    subst family
    rw [eq_of_mem_trees h member other]

/-- Two legacy instructions and one VEX instruction. -/
def threeLines : Specification :=
  ⟨.standard, instructionsOf ["NOP ; ; ; 0x90 ; s:I86", "PAUSE ; ; ; repz 0x90 ; s:PAUSE",
    "VZEROALL ; ; ; vex m:1 p:0 l:1 w:i 0x77 ; s:AVX"]⟩

theorem leaves_exhaustive_threeLines :
    ∃ tree trees e, (group legacyAxes (threeLines.familyEntries .legacy)).result = .ok tree ∧
      tree.leaves.Perm (threeLines.familyEntries .legacy) ∧ tree.leaves.length = 2 ∧
      threeLines.build.result = .ok trees ∧ e ∈ threeLines.entries ∧ e.id = 2 ∧
      ∃ t, trees.tree? .vex = some t ∧ t.leaves.Perm (threeLines.familyEntries .vex) ∧
        (t.leaves.map Entry.id).count 2 = 1 ∧
        ∀ p ∈ trees, 2 ∈ p.2.leaves.map Entry.id → p = (.vex, t) := by
  obtain ⟨grouped, built, size, e, he, identity, family⟩ :
      (group legacyAxes (threeLines.familyEntries .legacy)).result.isOk = true ∧
        threeLines.build.result.isOk = true ∧ (threeLines.familyEntries .legacy).length = 2 ∧
        ∃ e ∈ threeLines.entries, e.id = 2 ∧ e.instruction.encoding.family = .vex := by
    decide +kernel
  obtain ⟨tree, grouped⟩ := Traversal.exists_of_isOk grouped
  obtain ⟨trees, built⟩ := Traversal.exists_of_isOk built
  have leaves := leaves_exhaustive.1 legacyAxes _ tree grouped
  obtain ⟨_, perm, each⟩ := leaves_exhaustive.2 threeLines trees built
  obtain ⟨t, looked, once, only⟩ := each e he
  rw [family] at looked only
  rw [identity] at once only
  exact ⟨tree, trees, e, grouped, leaves, leaves.length_eq.trans size, built, he, identity, t,
    looked, perm _ t looked, once, only⟩

end OpcodeAtlas.Specification
