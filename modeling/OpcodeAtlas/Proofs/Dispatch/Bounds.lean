import OpcodeAtlas.Proofs.Dispatch.Growth

/-!
Children that do not exist. Values are checked against the number of children of a node, but an
instruction without the field of an optional axis belongs to the first child unchecked. So an
optional axis without children is the one way out of range, and `group_eq_noChild_iff` says when
grouping takes it (`group_inRange`); `build_eq_error_iff` says which node makes grouping fail,
whatever the failure is.
-/

namespace OpcodeAtlas.Dispatch

/-! ### Placing -/

theorem lt_size_of_child {c : Component} {r s : Residual} {i : Nat}
    (chosen : r.child c = .ok (i, s)) : i < c.size := by
  cases c with
  | axis a => exact (axisChild_eq_ok_iff.1 chosen).2.1
  | filter f =>
    obtain ⟨rfl, _⟩ := Prod.mk.inj (Except.ok.inj chosen)
    exact Nat.one_pos

theorem lt_size_of_place {c : Component} {list : List Residual} {placed : List (Nat × Residual)}
    (placing : place c list = .ok placed) : ∀ p ∈ placed, p.1 < c.size := by
  rintro ⟨i, s⟩ member
  obtain ⟨r, _, chosen⟩ := (Traversal.mem_iff_of_mapM_eq_ok placing).1 member
  exact lt_size_of_child chosen

theorem child_eq_noChild_iff {c : Component} {r : Residual} {name : Text} :
    r.child c = .error (.noChild name) ↔
      ∃ a, c = .axis a ∧ r.pending a.field = [] ∧ a.size = 0 ∧
        name = Vocabulary.token a.field := by
  cases c with
  | filter f => simp [Residual.child]
  | axis a =>
    simp only [Component.axis.injEq, exists_eq_left', Residual.child, Residual.axisChild]
    cases pending : r.pending a.field with
    | cons value rest =>
      simp only [reduceCtorEq, false_and, iff_false]
      split <;> simp
    | nil =>
      by_cases positive : 0 < a.size
      · simp [positive, Nat.ne_of_gt positive]
      · simp [Nat.eq_zero_of_not_pos positive, eq_comm]

/-- No instruction gets past an axis without children, so it is the first one that counts. -/
theorem place_eq_noChild_iff {a : Axis} {list : List Residual} {name : Text} :
    place (.axis a) list = .error (.noChild name) ↔
      ∃ r rest, list = r :: rest ∧ r.pending a.field = [] ∧ a.size = 0 ∧
        name = Vocabulary.token a.field := by
  unfold place
  rw [Traversal.mapM_eq_error_iff]
  constructor
  · rintro ⟨before, r, after, rfl, passed, failed⟩
    obtain ⟨_, ⟨⟩, absent, childless, rfl⟩ := child_eq_noChild_iff.1 failed
    cases before with
    | nil => exact ⟨r, after, rfl, absent, childless, rfl⟩
    | cons q before =>
      obtain ⟨⟨i, s⟩, chosen⟩ := passed q List.mem_cons_self
      have bounded : i < a.size := lt_size_of_child chosen
      omega
  · rintro ⟨r, rest, rfl, absent, childless, rfl⟩
    refine ⟨[], r, rest, rfl, by simp, ?_⟩
    exact child_eq_noChild_iff.2 ⟨a, rfl, absent, childless, rfl⟩

/-! ### The node that fails -/

/-- Building the tree of `list` gets to the tree of `part`: the instructions of `part` arrive at a
child, and the children in front of it have their trees. -/
inductive Visits (axes : List Axis) : List Residual → List Residual → Prop where
  | here {list : List Residual} : Visits axes list list
  | child {list part : List Residual} {c : Component} {placed : List (Nat × Residual)} {i : Nat}
      (chosen : choose axes list = .split c) (placing : place c list = .ok placed)
      (bounded : i < c.size) (occupied : bucket i placed ≠ [])
      (earlier : ∀ j < i, bucket j placed ≠ [] → ∃ t, Grows axes (bucket j placed) t)
      (below : Visits axes (bucket i placed) part) : Visits axes list part

/-- The node of these instructions fails before it gets to a child. -/
def FailsAt (axes : List Axis) (list : List Residual) (e : GroupError) : Prop :=
  (choose axes list = .ambiguous ∧ e = .invalid (conflictOf list)) ∨
    ∃ c, choose axes list = .split c ∧ place c list = .error e

theorem visits_iff_of_placed {axes : List Axis} {list part : List Residual} {c : Component}
    {placed : List (Nat × Residual)} (chosen : choose axes list = .split c)
    (placing : place c list = .ok placed) :
    Visits axes list part ↔ part = list ∨ ∃ i < c.size, bucket i placed ≠ [] ∧
      (∀ j < i, bucket j placed ≠ [] → ∃ t, Grows axes (bucket j placed) t) ∧
        Visits axes (bucket i placed) part := by
  constructor
  · intro visited
    cases visited with
    | here => exact .inl rfl
    | child again placing' bounded occupied earlier below =>
      cases chosen.symm.trans again
      cases placing.symm.trans placing'
      exact .inr ⟨_, bounded, occupied, earlier, below⟩
  · rintro (rfl | ⟨i, bounded, occupied, earlier, below⟩)
    · exact .here
    · exact .child chosen placing bounded occupied earlier below

theorem eq_of_visits {axes : List Axis} {list part : List Residual}
    (stuck : ∀ c placed, choose axes list = .split c → place c list ≠ .ok placed)
    (visited : Visits axes list part) : part = list := by
  cases visited with
  | here => rfl
  | child chosen placing _ _ _ _ => exact absurd placing (stuck _ _ chosen)

theorem slotResult_isOk_iff {axes : List Axis} {level : Nat} {list : List Residual} :
    (∃ slot, slotResult axes level list = .ok slot) ↔ (list ≠ [] → ∃ t, Grows axes list t) := by
  simp only [slotResult_eq_ok_iff fun _ _ => build_eq_ok_iff, Fills]
  constructor
  · rintro ⟨slot, ⟨empty, _⟩ | ⟨_, t, _, grown⟩⟩ occupied
    · exact absurd empty occupied
    · exact ⟨t, grown⟩
  · intro grows
    by_cases empty : list = []
    · exact ⟨none, .inl ⟨empty, rfl⟩⟩
    · obtain ⟨t, grown⟩ := grows empty
      exact ⟨some t, .inr ⟨empty, t, rfl, grown⟩⟩

theorem slotResult_eq_error_iff {axes : List Axis} {level : Nat} {list : List Residual}
    {e : GroupError} :
    slotResult axes level list = .error e ↔
      list ≠ [] ∧ (build axes level list).result = .error e := by
  unfold slotResult
  split
  · next empty => simp [empty]
  · next occupied => simp [occupied, Traversal.map_eq_error_iff]

/-- Grouping fails the way the first node fails that does not get to its children. -/
theorem build_eq_error_iff {axes : List Axis} {level : Nat} {list : List Residual}
    {e : GroupError} :
    (build axes level list).result = .error e ↔
      ∃ part, Visits axes list part ∧ FailsAt axes part e := by
  induction level, list using build.induct axes with
  | case1 level list d chosen =>
    rw [result_build_leaf chosen]
    simp only [reduceCtorEq, false_iff]
    rintro ⟨part, visited, failed⟩
    obtain rfl := eq_of_visits (fun c _ again => by cases chosen.symm.trans again) visited
    rcases failed with ⟨again, _⟩ | ⟨c, again, _⟩
    · cases chosen.symm.trans again
    · cases chosen.symm.trans again
  | case2 level list chosen =>
    rw [result_build_ambiguous chosen, Except.error.injEq]
    constructor
    · rintro rfl
      exact ⟨list, .here, .inl ⟨chosen, rfl⟩⟩
    · rintro ⟨part, visited, failed⟩
      obtain rfl := eq_of_visits (fun c _ again => by cases chosen.symm.trans again) visited
      rcases failed with ⟨_, rfl⟩ | ⟨c, again, _⟩
      · rfl
      · cases chosen.symm.trans again
  | case3 level list c chosen d failed =>
    rw [result_build_split chosen, failed]
    change Except.error d = Except.error e ↔ _
    rw [Except.error.injEq]
    constructor
    · rintro rfl
      exact ⟨list, .here, .inr ⟨c, chosen, failed⟩⟩
    · rintro ⟨part, visited, fails⟩
      have stuck : ∀ b placed, choose axes list = .split b → place b list ≠ .ok placed := by
        intro b placed again placing
        cases chosen.symm.trans again
        cases failed.symm.trans placing
      obtain rfl := eq_of_visits stuck visited
      rcases fails with ⟨again, _⟩ | ⟨b, again, placing⟩
      · cases chosen.symm.trans again
      · cases chosen.symm.trans again
        exact Except.error.inj (failed.symm.trans placing)
  | case4 level list c chosen placed placing ih =>
    have slots : (build axes level list).result = .error e ↔
        ∃ i < c.size, (∀ j < i, bucket j placed ≠ [] → ∃ t, Grows axes (bucket j placed) t) ∧
          bucket i placed ≠ [] ∧ (build axes (level + 1) (bucket i placed)).result = .error e := by
      rw [result_build_split chosen, Traversal.bind_eq_error_iff]
      simp only [placing, reduceCtorEq, false_or, Except.ok.injEq, exists_eq_left',
        Traversal.bind_eq_error_iff, Traversal.mapM_range_eq_error_iff, slotResult_isOk_iff,
        slotResult_eq_error_iff, pure, Except.pure, and_false, exists_false, or_false]
    rw [slots]
    constructor
    · rintro ⟨i, bounded, earlier, occupied, failed⟩
      obtain ⟨part, visited, fails⟩ := (ih i occupied).1 failed
      exact ⟨part, .child chosen placing bounded occupied earlier visited, fails⟩
    · rintro ⟨part, visited, fails⟩
      rcases (visits_iff_of_placed chosen placing).1 visited with
        rfl | ⟨i, bounded, occupied, earlier, below⟩
      · rcases fails with ⟨again, _⟩ | ⟨b, again, failed⟩
        · cases chosen.symm.trans again
        · cases chosen.symm.trans again
          cases placing.symm.trans failed
      · exact ⟨i, bounded, earlier, occupied, (ih i occupied).2 ⟨part, below, fails⟩⟩

/-! ### Out of range -/

/-- The axis of the node has no children, and the first instruction asks for one as it has no value
for the axis. -/
def Childless (axes : List Axis) (list : List Residual) (f : Field) : Prop :=
  ∃ a r rest, axes.find? (·.splits list) = some a ∧ list = r :: rest ∧ a.field = f ∧
    a.mandatory = false ∧ a.size = 0 ∧ r.pending f = []

theorem failsAt_noChild_iff {axes : List Axis} {list : List Residual} {name : Text} :
    FailsAt axes list (.noChild name) ↔
      ∃ f, Childless axes list f ∧ name = Vocabulary.token f := by
  unfold FailsAt
  constructor
  · rintro (⟨_, impossible⟩ | ⟨c, chosen, failed⟩)
    · cases impossible
    · cases c with
      | filter f =>
        obtain ⟨_, r, _, rfl, _⟩ := choose_eq_filter_iff.1 chosen
        cases failed
      | axis a =>
        obtain ⟨r, rest, rfl, absent, childless, rfl⟩ := place_eq_noChild_iff.1 failed
        have found := choose_eq_axis_iff.1 chosen
        have optional : a.mandatory = false := by
          by_contra mandatory
          have all := Axis.splits_eq_true_iff.1 (splits_of_find? found)
          rw [if_pos (eq_true_of_ne_false mandatory)] at all
          exact all r List.mem_cons_self absent
        exact ⟨a.field, ⟨a, r, rest, found, rfl, rfl, optional, childless, absent⟩, rfl⟩
  · rintro ⟨_, ⟨a, r, rest, found, rfl, rfl, _, childless, absent⟩, rfl⟩
    refine .inr ⟨.axis a, choose_eq_axis_iff.2 found, ?_⟩
    exact place_eq_noChild_iff.2 ⟨r, rest, rfl, absent, childless, rfl⟩

theorem group_eq_noChild_iff {axes : List Axis} {entries : List Entry} {name : Text} :
    (group axes entries).result = .error (.noChild name) ↔
      ∃ part f, Visits axes (entries.map Residual.ofEntry) part ∧ Childless axes part f ∧
        name = Vocabulary.token f := by
  simp only [result_group, build_eq_error_iff, failsAt_noChild_iff]
  constructor
  · rintro ⟨part, visited, f, childless, rfl⟩
    exact ⟨part, f, visited, childless, rfl⟩
  · rintro ⟨part, f, visited, childless, rfl⟩
    exact ⟨part, visited, f, childless, rfl⟩

theorem not_childless_of_positive {axes : List Axis}
    (positive : ∀ a ∈ axes, a.mandatory = false → 0 < a.size) {list : List Residual} {f : Field} :
    ¬ Childless axes list f := by
  rintro ⟨a, r, rest, found, _, _, optional, childless, _⟩
  have some := positive a (List.mem_of_find?_eq_some found) optional
  omega

/-- What is placed is placed at a child. Grouping gives a tree or says what is wrong with the
instructions, unless it gets to a node without children whose first instruction asks for one; no
such node comes about where every optional axis has children. -/
theorem group_inRange (axes : List Axis) (entries : List Entry) :
    (∀ c list placed, place c list = .ok placed → ∀ p ∈ placed, p.1 < c.size) ∧
      ((∃ tree, (group axes entries).result = .ok tree) ∨
        (∃ e, (group axes entries).result = .error (.invalid e)) ∨
        ∃ name, (group axes entries).result = .error (.noChild name)) ∧
      (∀ name, (group axes entries).result = .error (.noChild name) ↔
        ∃ part f, Visits axes (entries.map Residual.ofEntry) part ∧ Childless axes part f ∧
          name = Vocabulary.token f) ∧
      ((∀ a ∈ axes, a.mandatory = false → 0 < a.size) →
        ∀ name, (group axes entries).result ≠ .error (.noChild name)) := by
  refine ⟨fun _ _ _ => lt_size_of_place, ?_, fun _ => group_eq_noChild_iff, ?_⟩
  · cases (group axes entries).result with
    | ok tree => exact .inl ⟨tree, rfl⟩
    | error failure =>
      cases failure with
      | invalid e => exact .inr (.inl ⟨e, rfl⟩)
      | noChild name => exact .inr (.inr ⟨name, rfl⟩)
  · intro positive name failed
    obtain ⟨part, f, _, childless, _⟩ := group_eq_noChild_iff.1 failed
    exact not_childless_of_positive positive childless

/-- An axis that offers nothing, though an instruction may have a value for it. -/
def noAuxiliary : List Axis := [⟨.auxiliary, 0, false⟩]

theorem childless_noAuxiliary :
    Childless noAuxiliary (threeLegacy.map Residual.ofEntry) .auxiliary := by
  have found : noAuxiliary.find? (·.splits (threeLegacy.map Residual.ofEntry)) =
      some ⟨.auxiliary, 0, false⟩ := by
    decide +kernel
  have absent : (threeLegacy.map Residual.ofEntry).head?.map (·.pending .auxiliary) = some [] := by
    decide +kernel
  obtain ⟨r, first, absent⟩ := Option.map_eq_some_iff.1 absent
  obtain ⟨rest, shape⟩ := List.head?_eq_some_iff.1 first
  exact ⟨_, r, rest, found, shape, rfl, rfl, rfl, absent⟩

theorem group_inRange_threeLegacy :
    (∃ placed, place (.axis ⟨.opcode, 256, true⟩) (threeLegacy.map Residual.ofEntry) = .ok placed ∧
        ∀ p ∈ placed, p.1 < 256) ∧
      (∀ a ∈ legacyAxes, a.mandatory = false → 0 < a.size) ∧
      (∀ name, (group legacyAxes threeLegacy).result ≠ .error (.noChild name)) ∧
      (group noAuxiliary threeLegacy).result =
        .error (.noChild (Vocabulary.token Field.auxiliary)) := by
  obtain ⟨placed, placing⟩ : ∃ placed, place (.axis ⟨.opcode, 256, true⟩)
      (threeLegacy.map Residual.ofEntry) = .ok placed :=
    Traversal.exists_of_isOk (by decide +kernel)
  have positive : ∀ a ∈ legacyAxes, a.mandatory = false → 0 < a.size := by decide
  obtain ⟨inside, _, _, never⟩ := group_inRange legacyAxes threeLegacy
  obtain ⟨_, _, outside, _⟩ := group_inRange noAuxiliary threeLegacy
  exact ⟨⟨placed, placing, inside _ _ _ placing⟩, positive, never positive,
    (outside _).2 ⟨_, _, .here, childless_noAuxiliary, rfl⟩⟩

/-- An instruction without a value belongs to the first child even if there is none. -/
theorem first_child_may_be_missing :
    ¬ ∀ (axes : List Axis) (entries : List Entry),
      (∃ tree, (group axes entries).result = .ok tree) ∨
        ∃ e, (group axes entries).result = .error (.invalid e) := by
  intro answers
  have outside : (group noAuxiliary threeLegacy).result =
      .error (.noChild (Vocabulary.token Field.auxiliary)) :=
    group_eq_noChild_iff.2 ⟨_, _, .here, childless_noAuxiliary, rfl⟩
  rcases answers noAuxiliary threeLegacy with ⟨tree, grouped⟩ | ⟨e, refused⟩
  · cases outside.symm.trans grouped
  · cases outside.symm.trans refused

end OpcodeAtlas.Dispatch
