import OpcodeAtlas.Proofs.Dispatch.Growth

/-!
The order in which instructions are given. `group_perm`: it decides neither whether there is a
decision tree nor which one; a failure in another order can only name another value, or the same
instructions in another order.
-/

namespace OpcodeAtlas.Dispatch

open Traversal (Agree)

/-! ### Nodes -/

theorem Axis.splits_perm {list other : List Residual} (perm : list.Perm other) (a : Axis) :
    a.splits list = a.splits other := by
  unfold Axis.splits
  split
  · exact perm.all_eq
  · exact perm.any_eq

theorem choose_perm {list other : List Residual} (perm : list.Perm other) (axes : List Axis) :
    choose axes list = choose axes other := by
  by_cases single : list.length = 1
  · -- Filters are read off a list of one instruction, and such a list has one order.
    obtain ⟨r, rfl⟩ := List.length_eq_one_iff.1 single
    rw [List.perm_singleton.1 perm.symm]
  · have same : axes.find? (·.splits list) = axes.find? (·.splits other) := by
      congr 1
      funext a
      exact a.splits_perm perm
    cases found : axes.find? (·.splits list) with
    | some a =>
      rw [choose_eq_axis_iff.2 found, choose_eq_axis_iff.2 (same.symm.trans found)]
    | none =>
      have here := choose_eq_ambiguous_iff.2 ⟨find?_splits_eq_none_iff.1 found, single⟩
      have there := choose_eq_ambiguous_iff.2
        ⟨find?_splits_eq_none_iff.1 (same.symm.trans found), perm.length_eq ▸ single⟩
      rw [here, there]

/-- Two failures that differ at most in the value that is named or in the order of instructions. -/
inductive GroupError.Alike : GroupError → GroupError → Prop where
  | conflict {ds es : List Text} (perm : ds.Perm es) :
      Alike (.invalid (.conflict ds)) (.invalid (.conflict es))
  | value (component v w : Text) (size : Nat) :
      Alike (.invalid (.invalidGroupValue component v size))
        (.invalid (.invalidGroupValue component w size))

theorem conflictOf_perm {list other : List Residual} (perm : list.Perm other) :
    GroupError.Alike (.invalid (conflictOf list)) (.invalid (conflictOf other)) :=
  .conflict (perm.map _)

theorem place_perm {c : Component} (positive : ∀ a, c = .axis a → 0 < a.size)
    {list other : List Residual} (perm : list.Perm other) :
    Agree List.Perm GroupError.Alike (place c list) (place c other) := by
  refine Agree.mapM_perm perm fun r s d e first second => ?_
  cases c with
  | axis a =>
    obtain ⟨v, rfl⟩ := exists_value_of_axisChild_eq_error (positive a rfl) first
    obtain ⟨w, rfl⟩ := exists_value_of_axisChild_eq_error (positive a rfl) second
    exact .value _ v w _
  | filter f => cases first

theorem positive_of_split {axes : List Axis} (positive : ∀ a ∈ axes, 0 < a.size)
    {list : List Residual} {c : Component} (chosen : choose axes list = .split c) :
    ∀ a, c = .axis a → 0 < a.size := by
  rintro a rfl
  exact positive a (List.mem_of_find?_eq_some (choose_eq_axis_iff.1 chosen))

theorem bucket_perm {placed others : List (Nat × Residual)} (perm : placed.Perm others) (i : Nat) :
    (bucket i placed).Perm (bucket i others) := (perm.filter _).map _

/-! ### Trees -/

theorem slotResult_perm {axes : List Axis} {level : Nat} {list other : List Residual}
    (perm : list.Perm other)
    (below : list ≠ [] → Agree Eq GroupError.Alike (build axes level list).result
      (build axes level other).result) :
    Agree Eq GroupError.Alike (slotResult axes level list) (slotResult axes level other) := by
  unfold slotResult
  by_cases empty : list = []
  · subst empty
    rw [if_pos rfl, if_pos perm.nil_eq.symm]
    exact .ok rfl
  · have occupied : other ≠ [] := by
      rintro rfl
      exact empty perm.eq_nil
    rw [if_neg empty, if_neg occupied]
    exact (below empty).map fun _ _ same => congrArg some same

/-- In another order, the same tree comes about or the same kind of failure. -/
theorem build_perm {axes : List Axis} (positive : ∀ a ∈ axes, 0 < a.size) {level : Nat}
    {list other : List Residual} (perm : list.Perm other) :
    Agree Eq GroupError.Alike (build axes level list).result (build axes level other).result := by
  induction level, list using build.induct axes generalizing other with
  | case1 level list e chosen =>
    rw [result_build_leaf chosen, result_build_leaf ((choose_perm perm axes).symm.trans chosen)]
    exact .ok rfl
  | case2 level list chosen =>
    have again := (choose_perm perm axes).symm.trans chosen
    rw [result_build_ambiguous chosen, result_build_ambiguous again]
    exact .error (conflictOf_perm perm)
  | case3 level list c chosen e failed =>
    have again := (choose_perm perm axes).symm.trans chosen
    have placing := place_perm (positive_of_split positive chosen) perm
    rw [result_build_split chosen, result_build_split again]
    rw [failed] at placing ⊢
    generalize place c other = moved at placing ⊢
    cases placing with
    | error alike => exact .error alike
  | case4 level list c chosen placed placing ih =>
    have again := (choose_perm perm axes).symm.trans chosen
    have moved := place_perm (positive_of_split positive chosen) perm
    rw [result_build_split chosen, result_build_split again]
    rw [placing] at moved ⊢
    generalize place c other = result at moved ⊢
    cases moved with
    | @ok _ others same =>
      -- Every bucket gets the same instructions, so the first child to fail is the same one.
      have slots : ∀ i ∈ List.range c.size, Agree Eq GroupError.Alike
          (slotResult axes (level + 1) (bucket i placed))
          (slotResult axes (level + 1) (bucket i others)) := by
        intro i _
        exact slotResult_perm (bucket_perm same i) fun occupied =>
          ih i occupied (bucket_perm same i)
      change Agree Eq GroupError.Alike ((List.range c.size).mapM _ >>= _)
        ((List.range c.size).mapM _ >>= _)
      refine Agree.bind (Agree.mapM slots) fun children others filled => ?_
      rw [List.forall₂_eq_eq_eq] at filled
      exact .ok (congrArg (Tree.node c) filled)

mutual

theorem Tree.same_self : ∀ t : Tree, t.same t = true
  | .leaf e => by rw [Tree.same, beq_self_eq_true]
  | .node c cs => by rw [Tree.same, beq_self_eq_true, Tree.sameSlots_self cs]; rfl

theorem Tree.sameSlots_self : ∀ cs : List (Option Tree), Tree.sameSlots cs cs = true
  | [] => by rw [Tree.sameSlots]
  | none :: cs => by rw [Tree.sameSlots, Tree.sameSlots_self cs]
  | some t :: cs => by rw [Tree.sameSlots, Tree.same_self t, Tree.sameSlots_self cs]; rfl

end

/-- Grouping the instructions in another order gives the same tree, or it fails in the same way. -/
theorem group_perm {axes : List Axis} (positive : ∀ a ∈ axes, 0 < a.size)
    {entries others : List Entry} (perm : entries.Perm others) :
    Agree (fun t u => t.same u = true) GroupError.Alike (group axes entries).result
      (group axes others).result := by
  rw [result_group, result_group]
  have built := @build_perm axes positive 0 _ _ (perm.map Residual.ofEntry)
  revert built
  generalize (build axes 0 (entries.map Residual.ofEntry)).result = first
  generalize (build axes 0 (others.map Residual.ofEntry)).result = second
  intro built
  cases built with
  | ok same => exact .ok (same ▸ Tree.same_self _)
  | error alike => exact .error alike

theorem group_perm_reverse :
    (∀ a ∈ legacyAxes, 0 < a.size) ∧ threeLegacy.Perm threeLegacy.reverse ∧
      sharedByte.Perm sharedByte.reverse ∧ Groupable legacyAxes threeLegacy ∧
      Agree (fun t u => t.same u = true) GroupError.Alike (group legacyAxes threeLegacy).result
        (group legacyAxes threeLegacy.reverse).result ∧
      (group legacyAxes sharedByte).result.isOk = false ∧
      Agree (fun t u => t.same u = true) GroupError.Alike (group legacyAxes sharedByte).result
        (group legacyAxes sharedByte.reverse).result := by
  have positive : ∀ a ∈ legacyAxes, 0 < a.size := positive_sizes .legacy
  have three := (List.reverse_perm threeLegacy).symm
  have shared := (List.reverse_perm sharedByte).symm
  have refused : (group legacyAxes sharedByte).result.isOk = false := by decide +kernel
  exact ⟨positive, three, shared, groupable_threeLegacy, group_perm positive three, refused,
    group_perm positive shared⟩

end OpcodeAtlas.Dispatch
