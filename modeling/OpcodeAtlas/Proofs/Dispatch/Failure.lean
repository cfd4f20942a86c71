import OpcodeAtlas.Proofs.Dispatch.Separation

/-!
How grouping fails. `group_fails_of_alike`: it never picks one of two instructions that select the
same children on every axis. `conflict_of_stops`: where every value has a child, instructions that
cannot be told apart are the only failure, and at least two are named.
-/

namespace OpcodeAtlas.Dispatch

theorem invalid_of_stops {axes : List Axis} (positive : ∀ a ∈ axes, 0 < a.size)
    {list : List Residual} {e : GroupError} (stopped : Stops axes list e) :
    ∃ error, e = .invalid error := by
  induction stopped with
  | ambiguous _ _ => exact ⟨_, rfl⟩
  | misplaced found placing =>
    obtain ⟨r, _, failed⟩ := Traversal.exists_of_mapM_eq_error placing
    have children := positive _ (List.mem_of_find?_eq_some found)
    obtain ⟨value, rfl⟩ := exists_value_of_axisChild_eq_error children failed
    exact ⟨_, rfl⟩
  | filter _ _ _ ih => exact ih
  | axis _ _ _ _ _ ih => exact ih

/-! ### Instructions alike on every axis -/

/-- Equally many values are left for every axis, and they select the same children in turn. -/
def AlikeOn (axes : List Axis) (r s : Residual) : Prop :=
  ∀ a ∈ axes, (r.pending a.field).map childIndex? = (s.pending a.field).map childIndex?

instance (axes : List Axis) (r s : Residual) : Decidable (AlikeOn axes r s) :=
  inferInstanceAs (Decidable (∀ a ∈ axes, _ = _))

theorem Axis.select_eq_getD (a : Axis) (r : Residual) (n : Nat) :
    a.select r n = ((r.pending a.field).map childIndex?)[n]?.getD (some 0) := by
  unfold Axis.select
  rw [List.getElem?_map]
  cases (r.pending a.field)[n]? with
  | none => rfl
  | some value => rfl

theorem AlikeOn.consume {axes : List Axis} {r s : Residual} (alike : AlikeOn axes r s) (f : Field) :
    AlikeOn axes (r.consume f) (s.consume f) := by
  intro a ha
  by_cases same : a.field = f
  · rw [same, Residual.pending_consume_self, Residual.pending_consume_self, List.map_tail,
      List.map_tail, ← same, alike a ha]
  · rw [Residual.pending_consume_other same, Residual.pending_consume_other same]
    exact alike a ha

theorem staysTogether_alike (axes : List Axis) :
    StaysTogether axes fun part => ∃ r s, part = [r, s] ∧ AlikeOn axes r s where
  several := by
    rintro _ ⟨r, s, rfl, _⟩
    exact Nat.le_refl 2
  same := by
    rintro a ha _ ⟨r, s, rfl, alike⟩ _
    have first : a.select r 0 = a.select s 0 := by
      rw [Axis.select_eq_getD, Axis.select_eq_getD, alike a ha]
    have both : ∀ q ∈ [r, s], a.select q 0 = a.select s 0 := by
      simp [first]
    intro p hp q hq
    exact (both p hp).trans (both q hq).symm
  below := by
    rintro a _ _ ⟨r, s, rfl, alike⟩ _
    exact ⟨_, _, rfl, alike.consume a.field⟩

theorem pair_subperm {α : Type} {list : List α} {i j : Nat} (different : i ≠ j) {x y : α}
    (hx : list[i]? = some x) (hy : list[j]? = some y) : [x, y].Subperm list := by
  obtain ⟨bounded, rfl⟩ := List.getElem?_eq_some_iff.1 hx
  have rest : y ∈ list.eraseIdx i :=
    List.mem_eraseIdx_iff_getElem?.2 ⟨j, Ne.symm different, hy⟩
  have within := (List.subperm_cons list[i]).2 (List.singleton_subperm_iff.2 rest)
  exact within.trans (List.getElem_cons_eraseIdx_perm bounded).subperm

/-- Where two instructions select the same children on every axis, grouping fails; it never picks
one of them, whatever else tells them apart and whatever the other instructions are. -/
theorem group_fails_of_alike {axes : List Axis} (positive : ∀ a ∈ axes, 0 < a.size)
    {entries : List Entry} {i j : Nat} (different : i ≠ j) {d e : Entry}
    (hd : entries[i]? = some d) (he : entries[j]? = some e)
    (alike : AlikeOn axes (.ofEntry d) (.ofEntry e)) :
    ∃ error, (group axes entries).result = .error (.invalid error) := by
  cases result : (group axes entries).result with
  | error failure =>
    obtain ⟨error, rfl⟩ := invalid_of_stops positive (stops_of_group_eq_error result)
    exact ⟨error, rfl⟩
  | ok tree =>
    have within : [Residual.ofEntry d, .ofEntry e].Subperm (entries.map .ofEntry) :=
      subperm_map Residual.ofEntry (pair_subperm different hd he)
    exact absurd within
      ((staysTogether_alike axes).not_subperm (group_eq_ok_iff.1 result) ⟨_, _, rfl, alike⟩)

theorem group_fails_of_alike_nop :
    ∃ d e error, sharedByte[0]? = some d ∧ sharedByte[1]? = some e ∧
      d.instruction.mnemonic ≠ e.instruction.mnemonic ∧
      d.instruction.filters ≠ e.instruction.filters ∧
      AlikeOn legacyAxes (.ofEntry d) (.ofEntry e) ∧ (∀ a ∈ legacyAxes, 0 < a.size) ∧
      (group legacyAxes sharedByte).result = .error (.invalid error) := by
  obtain ⟨d, e, f, shape⟩ := List.length_eq_three.1 (show sharedByte.length = 3 by decide +kernel)
  have facts : ∀ p ∈ (sharedByte.zip sharedByte.tail).take 1,
      p.1.instruction.mnemonic ≠ p.2.instruction.mnemonic ∧
        p.1.instruction.filters ≠ p.2.instruction.filters ∧
        AlikeOn legacyAxes (.ofEntry p.1) (.ofEntry p.2) := by
    decide +kernel
  rw [shape] at facts
  obtain ⟨mnemonics, filters, alike⟩ := facts (d, e) (List.mem_singleton_self (d, e))
  have hd : sharedByte[0]? = some d := by rw [shape]; rfl
  have he : sharedByte[1]? = some e := by rw [shape]; rfl
  have positive : ∀ a ∈ legacyAxes, 0 < a.size := positive_sizes .legacy
  obtain ⟨error, failed⟩ := group_fails_of_alike positive Nat.zero_ne_one hd he alike
  exact ⟨d, e, error, hd, he, mnemonics, filters, alike, positive, failed⟩

/-! ### Instructions whose values all have a child -/

/-- The values ahead of an instruction that an axis asks for all have a child. -/
def AcceptedBy (axes : List Axis) (r : Residual) : Prop :=
  ∀ a ∈ axes, ∀ value ∈ r.pending a.field, a.Accepts value

theorem AcceptedBy.consume {axes : List Axis} {r : Residual} (accepted : AcceptedBy axes r)
    (f : Field) : AcceptedBy axes (r.consume f) :=
  fun a ha value ahead => accepted a ha value (mem_pending_of_consume ahead)

theorem AcceptedBy.exists_child {axes : List Axis} {r : Residual} (accepted : AcceptedBy axes r)
    {a : Axis} (ha : a ∈ axes) (positive : 0 < a.size) :
    ∃ i, r.child (.axis a) = .ok (i, r.consume a.field) := by
  cases pending : r.pending a.field with
  | nil =>
    have selected := Axis.select_of_pending_eq_nil pending 0
    exact ⟨0, axisChild_eq_ok_iff.2 ⟨selected, positive, rfl⟩⟩
  | cons value rest =>
    obtain ⟨i, bounded, index⟩ := accepted a ha value (pending ▸ List.mem_cons_self)
    have selected := (Axis.select_zero_of_cons pending).trans index
    exact ⟨i, axisChild_eq_ok_iff.2 ⟨selected, bounded, rfl⟩⟩

theorem conflict_of_stops {axes : List Axis} (positive : ∀ a ∈ axes, 0 < a.size)
    {list : List Residual} {e : GroupError} (stopped : Stops axes list e)
    (accepted : ∀ r ∈ list, AcceptedBy axes r) (nonempty : list ≠ []) :
    ∃ part : List Entry, 2 ≤ part.length ∧ part.Sublist (list.map (·.entry)) ∧
      e = .invalid (.conflict (part.map fun e => e.instruction.describe)) := by
  induction stopped with
  | @ambiguous list _ several =>
    refine ⟨list.map (·.entry), ?_, List.Sublist.refl _, ?_⟩
    · have some := List.length_pos_iff.2 nonempty
      rw [List.length_map]
      omega
    · rw [conflictOf, List.map_map]
      rfl
  | misplaced found placing =>
    have ha := List.mem_of_find?_eq_some found
    obtain ⟨r, member, failed⟩ := Traversal.exists_of_mapM_eq_error placing
    obtain ⟨i, chosen⟩ := (accepted r member).exists_child ha (positive _ ha)
    cases failed.symm.trans chosen
  | @filter r _ _ _ _ _ _ ih =>
    refine ih (fun s member => ?_) (List.cons_ne_nil _ _)
    obtain rfl := List.mem_singleton.1 member
    exact accepted r (List.mem_singleton_self r)
  | @axis list a placed i e found placing _ occupied _ ih =>
    rw [bucket_eq_of_place placing] at ih occupied
    have inside : ∀ s ∈ (list.filter fun r => a.select r 0 = some i).map (.consume a.field),
        AcceptedBy axes s := by
      intro s member
      obtain ⟨r, source, rfl⟩ := List.mem_map.1 member
      exact (accepted r (List.mem_of_mem_filter source)).consume a.field
    obtain ⟨part, several, within, named⟩ := ih inside occupied
    rw [List.map_map] at within
    exact ⟨part, several, within.trans (List.filter_sublist.map _), named⟩

/-- Where every value has a child, grouping succeeds if every two or more instructions are separated
by some axis. -/
theorem groupable_iff_separable {axes : List Axis} (distinct : (axes.map Axis.field).Nodup)
    {a : Axis} (ha : a ∈ axes) (mandatory : a.mandatory = true) {entries : List Entry}
    (accepted : ∀ e ∈ entries, AcceptedBy axes (.ofEntry e)) :
    Groupable axes entries ↔
      ∀ part : List Entry, part.Sublist entries →
        ¬ Inseparable axes (part.map Residual.ofEntry) := by
  rw [groupable_iff_not_obstacle distinct]
  constructor
  · intro free part within inseparable
    exact free (.inseparable (within.map Residual.ofEntry).subperm inseparable)
  · intro separable obstacle
    cases obstacle with
    | empty _ optional => exact Bool.false_ne_true ((optional a ha).symm.trans mandatory)
    | value member hb ahead refused =>
      obtain ⟨e, inside, rfl⟩ := List.mem_map.1 member
      exact refused (accepted e inside _ hb _ ahead)
    | inseparable within inseparable =>
      obtain ⟨ordered, perm, sub⟩ := within
      obtain ⟨part, chosen, rfl⟩ := List.sublist_map_iff.1 sub
      exact separable part chosen (inseparable.of_perm perm.symm)

end OpcodeAtlas.Dispatch
