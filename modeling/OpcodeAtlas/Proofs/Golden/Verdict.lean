import OpcodeAtlas.Golden.Run
import OpcodeAtlas.Proofs.Dispatch.Bounds
import OpcodeAtlas.Proofs.Golden.Reader
import OpcodeAtlas.Proofs.Specification.Conflicts
import OpcodeAtlas.Proofs.Specification.Loading

/-!
The verdict on a golden file: it passes exactly if all of its tests can be read and every section
holds what its specification gives (`run_eq_ok_iff`).
-/

namespace OpcodeAtlas.Golden

open Specification

/-! ### Outcomes -/

/-- The specification of a test as the one table of a specification. -/
def Test.sources (file : Text) (t : Test) : Sources :=
  { tables := [⟨file, .memory t.specification⟩] }

/-- Loading the specification or building its trees fails. -/
def Test.Fails (file : Text) (t : Test) (failure : Failure) : Prop :=
  (load (t.sources file)).result = .error failure ∨
    ∃ spec, (load (t.sources file)).result = .ok spec ∧ spec.build.result = .error failure

def Test.Gives (file : Text) (t : Test) (trees : DecisionTrees) : Prop :=
  ∃ spec, (load (t.sources file)).result = .ok spec ∧ spec.build.result = .ok trees

/-- What is expected of a test is what its specification gives. -/
inductive Test.Passes (file : Text) (t : Test) : Prop where
  | failure (failure : Failure) (e : SpecError) (fails : t.Fails file failure)
      (reason : failure.specError? = some e)
      (texts : ∀ s ∈ t.sections, s.text = failure.message ++ "\n")
  | trees (trees : DecisionTrees) (gives : t.Gives file trees)
      (named : ∀ s ∈ t.sections, s.name = errorSection ∨ ∃ f : Family, s.name = f.name)
      (errors : ∀ s ∈ t.sections, s.name = errorSection → s.text = [])
      (dumps : ∀ s ∈ t.sections, ∀ f : Family, s.name = f.name →
        s.text = ((trees.tree? f).map Dispatch.Tree.render).getD [])
      (covered : ∀ f tree, trees.tree? f = some tree → ∃ s ∈ t.sections, s.name = f.name)

variable {file : Text} {t : Test}

theorem outcome_eq_ok_iff {dumps : List (Family × Text)} :
    outcome file t.specification = .ok dumps ↔
      ∃ trees, t.Gives file trees ∧ dumps = trees.map fun tree => (tree.1, tree.2.render) := by
  simp only [outcome, Test.Gives, Test.sources, Traversal.bind_eq_ok_iff, pure, Except.pure,
    Except.ok.injEq]
  constructor
  · rintro ⟨spec, loaded, trees, built, rfl⟩
    exact ⟨trees, ⟨spec, loaded, built⟩, rfl⟩
  · rintro ⟨trees, ⟨spec, loaded, built⟩, rfl⟩
    exact ⟨spec, loaded, trees, built, rfl⟩

theorem outcome_eq_error_iff {failure : Failure} :
    outcome file t.specification = .error failure ↔ t.Fails file failure := by
  simp only [outcome, Test.Fails, Test.sources, Traversal.bind_eq_error_iff, pure, Except.pure,
    reduceCtorEq, and_false, exists_false, or_false]

/-- The sizes of the axes are positive, so a failure is always about the specification. -/
theorem Test.Fails.exists_reason {failure : Failure} (fails : t.Fails file failure) :
    ∃ e, failure.specError? = some e := by
  rcases fails with failed | ⟨spec, _, failed⟩
  · obtain ⟨_, _, _, e, _, _, rfl⟩ := exists_refused_of_load failed
    exact ⟨e, rfl⟩
  · obtain ⟨f, e, rfl, _, grouping⟩ := exists_of_build_eq_error failed
    cases e with
    | invalid e => exact ⟨e, rfl⟩
    | noChild name =>
      obtain ⟨part, field, _, childless, _⟩ := Dispatch.group_eq_noChild_iff.1 grouping
      exact absurd childless (Dispatch.not_childless_of_positive fun a member _ =>
        Dispatch.positive_sizes f a member)

/-! ### Sections -/

theorem name_ne_errorSection (f : Family) : f.name ≠ errorSection := by
  cases f <;> decide

theorem find?_family (f : Family) : (Family.all.find? fun g => g.name = f.name) = some f := by
  cases f <;> decide

theorem lookup_map {α β γ : Type} [BEq α] (g : β → γ) (ps : List (α × β)) (a : α) :
    (ps.map fun p => (p.1, g p.2)).lookup a = (ps.lookup a).map g := by
  induction ps with
  | nil => rfl
  | cons p ps ih =>
    rw [List.map_cons, List.lookup_cons, List.lookup_cons, ih]
    split <;> rfl

theorem output_family {s : Section} {f : Family} (named : s.name = f.name)
    (dumps : List (Family × Text)) : output (.ok dumps) s = .ok ((dumps.lookup f).getD []) := by
  simp only [output]
  rw [if_neg (named ▸ name_ne_errorSection f), named, find?_family]

theorem output_eq_ok_iff {dumps : List (Family × Text)} {s : Section} {text : Text} :
    output (.ok dumps) s = .ok text ↔
      (s.name = errorSection ∧ text = []) ∨
        ∃ f : Family, s.name = f.name ∧ text = (dumps.lookup f).getD [] := by
  constructor
  · intro given
    simp only [output] at given
    split at given
    · next isError => exact .inl ⟨isError, (Except.ok.inj given).symm⟩
    · split at given
      · next f found =>
        have named : f.name = s.name := by simpa using List.find?_some found
        exact .inr ⟨f, named.symm, (Except.ok.inj given).symm⟩
      · cases given
  · rintro (⟨isError, rfl⟩ | ⟨f, named, rfl⟩)
    · simp [output, isError]
    · exact output_family named dumps

theorem unexpected_eq_nil_iff {sections : List Section} {dumps : List (Family × Text)} :
    unexpected sections (.ok dumps) = [] ↔
      ∀ f ∈ dumps.map (·.1), ∃ s ∈ sections, s.name = f.name := by
  simp only [unexpected, List.filter_eq_nil_iff, Bool.not_eq_true', Bool.not_eq_false,
    List.any_eq_true, decide_eq_true_eq]

theorem compare_eq_ok_iff {o : Outcome} {s : Section} {c : LineDiff.Comparison} :
    compare file o s = .ok c ↔
      ∃ text, output o s = .ok text ∧ c = ⟨file, s.line, s.text, text⟩ := by
  simp only [compare, Traversal.bind_eq_ok_iff, pure, Except.pure, Except.ok.injEq]
  simp only [eq_comm]

theorem failure?_eq_none_iff {c : LineDiff.Comparison} :
    c.failure? = none ↔ c.expected = c.actual := by
  unfold LineDiff.Comparison.failure?
  split
  · next same => exact iff_of_true rfl same
  · next different => exact iff_of_false (by nofun) different

/-! ### Tests -/

/-- No failure is counted exactly if every section holds its output and every tree has a section. -/
theorem failures_eq_zero_iff :
    t.failures file = .ok 0 ↔
      (∀ s ∈ t.sections, output (outcome file t.specification) s = .ok s.text) ∧
        unexpected t.sections (outcome file t.specification) = [] := by
  unfold Test.failures
  generalize outcome file t.specification = o
  simp only [Traversal.bind_eq_ok_iff, pure, Except.pure, Except.ok.injEq, Nat.add_eq_zero_iff,
    List.countP_eq_zero, List.length_eq_zero_iff, Option.not_isSome_iff_eq_none,
    failure?_eq_none_iff]
  constructor
  · rintro ⟨comparisons, made, agree, covered⟩
    refine ⟨fun s member => ?_, covered⟩
    obtain ⟨c, found, compared⟩ := Traversal.exists_of_mapM_eq_ok made member
    obtain ⟨text, given, rfl⟩ := compare_eq_ok_iff.1 compared
    have same : s.text = text := agree _ found
    rw [given, same]
  · rintro ⟨given, covered⟩
    refine ⟨t.sections.map fun s => ⟨file, s.line, s.text, s.text⟩, ?_, ?_, covered⟩
    · rw [Traversal.mapM_eq_ok_iff, List.forall₂_map_right_iff, List.forall₂_same]
      exact fun s member => compare_eq_ok_iff.2 ⟨s.text, given s member, rfl⟩
    · intro c found
      obtain ⟨s, _, rfl⟩ := List.mem_map.1 found
      rfl

theorem outcome_of_gives {trees : DecisionTrees} (gives : t.Gives file trees) :
    outcome file t.specification = .ok (trees.map fun tree => (tree.1, tree.2.render)) :=
  outcome_eq_ok_iff.2 ⟨trees, gives, rfl⟩

theorem lookup_dumps (trees : DecisionTrees) (f : Family) :
    (trees.map fun tree => (tree.1, tree.2.render)).lookup f =
      (trees.tree? f).map Dispatch.Tree.render :=
  lookup_map Dispatch.Tree.render trees f

theorem Test.Gives.covered_iff {trees : DecisionTrees} (gives : t.Gives file trees) :
    unexpected t.sections (.ok (trees.map fun tree => (tree.1, tree.2.render))) = [] ↔
      ∀ f tree, trees.tree? f = some tree → ∃ s ∈ t.sections, s.name = f.name := by
  obtain ⟨spec, _, built⟩ := gives
  simp only [unexpected_eq_nil_iff, List.map_map, List.forall_mem_map, Function.comp_apply,
    tree?_eq_some_iff built]
  exact ⟨fun each f tree member => each (f, tree) member,
    fun each tree member => each tree.1 tree.2 member⟩

theorem passes_iff : t.failures file = .ok 0 ↔ t.Passes file := by
  rw [failures_eq_zero_iff]
  constructor
  · rintro ⟨given, covered⟩
    cases o : outcome file t.specification with
    | error failure =>
      rw [o] at given
      have fails : t.Fails file failure := outcome_eq_error_iff.1 o
      obtain ⟨e, reason⟩ := fails.exists_reason
      exact .failure failure e fails reason fun s member =>
        (Except.ok.inj (given s member)).symm
    | ok dumps =>
      rw [o] at given covered
      obtain ⟨trees, gives, rfl⟩ := outcome_eq_ok_iff.1 o
      refine .trees trees gives ?_ ?_ ?_ (gives.covered_iff.1 covered)
      · intro s member
        rcases output_eq_ok_iff.1 (given s member) with ⟨isError, _⟩ | ⟨f, named, _⟩
        · exact .inl isError
        · exact .inr ⟨f, named⟩
      · intro s member isError
        rcases output_eq_ok_iff.1 (given s member) with ⟨_, empty⟩ | ⟨f, named, _⟩
        · exact empty
        · exact absurd (named.symm.trans isError) (name_ne_errorSection f)
      · intro s member f named
        rw [← lookup_dumps]
        exact Except.ok.inj ((given s member).symm.trans (output_family named _))
  · rintro (⟨failure, e, fails, _, texts⟩ | ⟨trees, gives, named, errors, dumps, covered⟩)
    · rw [outcome_eq_error_iff.2 fails]
      exact ⟨fun s member => congrArg Except.ok (texts s member).symm, rfl⟩
    · rw [outcome_of_gives gives]
      refine ⟨fun s member => output_eq_ok_iff.2 ?_, gives.covered_iff.2 covered⟩
      rcases named s member with isError | ⟨f, isFamily⟩
      · exact .inl ⟨isError, errors s member isError⟩
      · refine .inr ⟨f, isFamily, ?_⟩
        rw [lookup_dumps]
        exact dumps s member f isFamily

/-! ### Files -/

theorem foldl_add_eq_zero_iff {counts : List Nat} :
    counts.foldl (· + ·) 0 = 0 ↔ ∀ count ∈ counts, count = 0 := by
  rw [← List.sum_eq_foldl]
  induction counts with
  | nil => simp
  | cons count counts ih => rw [List.sum_cons, Nat.add_eq_zero_iff, ih, List.forall_mem_cons]

theorem failures_file_eq_zero_iff {text : Text} :
    failures file text = .ok 0 ↔
      (parse text).2 = none ∧ ∀ t ∈ (parse text).1, t.failures file = .ok 0 := by
  unfold failures
  obtain ⟨tests, error?⟩ := parse text
  have counted : (∃ counts, tests.mapM (Test.failures file) = .ok counts ∧
      counts.foldl (· + ·) 0 = 0) ↔ ∀ t ∈ tests, t.failures file = .ok 0 := by
    constructor
    · rintro ⟨counts, made, zero⟩ t member
      obtain ⟨count, found, counted⟩ := Traversal.exists_of_mapM_eq_ok made member
      rw [counted, foldl_add_eq_zero_iff.1 zero count found]
    · intro each
      obtain ⟨counts, made⟩ := Traversal.exists_mapM_iff.2 fun t member => ⟨0, each t member⟩
      refine ⟨counts, made, foldl_add_eq_zero_iff.2 fun count found => ?_⟩
      obtain ⟨t, member, counted⟩ := (Traversal.mem_iff_of_mapM_eq_ok made).1 found
      exact Except.ok.inj (counted.symm.trans (each t member))
  cases error? with
  | none => simpa [Traversal.bind_eq_ok_iff, pure, Except.pure] using counted
  | some e => simp [Traversal.bind_eq_ok_iff, throw, throwThe, MonadExceptOf.throw]

theorem run_eq_ok_iff_failures {text : Text} :
    run file text = .ok () ↔ failures file text = .ok 0 := by
  unfold run
  split
  · next e failed => simp [failed]
  · next passed => simp [passed]
  · next count nonzero failed =>
    rw [failed, Except.ok.injEq]
    exact iff_of_false (by nofun) nonzero

/-- A golden file passes if reading it ends without an error and every test passes. -/
theorem run_eq_ok_iff (file text : Text) :
    run file text = .ok () ↔
      ∃ tests, (Reader.start text).all = (tests, none) ∧ ∀ t ∈ tests, t.Passes file := by
  rw [run_eq_ok_iff_failures, failures_file_eq_zero_iff, Reader.all_start]
  simp only [passes_iff]
  constructor
  · rintro ⟨ended, passed⟩
    exact ⟨(parse text).1, Prod.ext rfl ended, passed⟩
  · rintro ⟨tests, ended, passed⟩
    rw [ended]
    exact ⟨rfl, passed⟩

end OpcodeAtlas.Golden
