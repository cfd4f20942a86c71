import Mathlib.Data.List.Nodup
import Mathlib.Data.List.Perm.Subperm
import OpcodeAtlas.Proofs.Dispatch.Growth

/-!
Which instructions can be told apart. `groupable_iff_not_obstacle` says what can stand in the way
without a word about trees: no instructions, a value that is no child, or instructions that no axis
separates. None of these depends on the order of the axes, and leaving instructions out adds none.
-/

namespace OpcodeAtlas.Dispatch

/-! ### Instructions that stay together -/

/-- The axis asks all these instructions for the value `n` places ahead, now or further down. A
mandatory axis asks only where all of them have a value. -/
def Axis.Asks (a : Axis) (part : List Residual) (n : Nat) : Prop :=
  a.mandatory = true → ∀ r ∈ part, n < (r.pending a.field).length

/-- No axis ends the property: it sends instructions that have it to one child, where they have it
again. -/
structure StaysTogether (axes : List Axis) (P : List Residual → Prop) : Prop where
  several : ∀ part, P part → 2 ≤ part.length
  same : ∀ a ∈ axes, ∀ part, P part → a.Asks part 0 →
    ∀ r ∈ part, ∀ s ∈ part, a.select r 0 = a.select s 0
  below : ∀ a ∈ axes, ∀ part, P part → a.Asks part 0 → P (part.map (Residual.consume a.field))

theorem asks_of_splits {a : Axis} {list part : List Residual} (splits : a.splits list = true)
    (within : part.Subperm list) : a.Asks part 0 := by
  intro mandatory r member
  have all := Axis.splits_eq_true_iff.1 splits
  rw [if_pos mandatory] at all
  exact List.length_pos_iff.2 (all r (within.subset member))

theorem not_subperm_singleton {part : List Residual} (several : 2 ≤ part.length) {r : Residual} :
    ¬ part.Subperm [r] := by
  intro within
  have few := within.length_le
  rw [List.length_singleton] at few
  omega

theorem subperm_map {α β : Type} (f : α → β) {part list : List α} (within : part.Subperm list) :
    (part.map f).Subperm (list.map f) := by
  obtain ⟨ordered, perm, sub⟩ := within
  exact ⟨ordered.map f, perm.map f, sub.map f⟩

theorem subperm_bucket {a : Axis} {list part : List Residual} {placed : List (Nat × Residual)}
    (placing : place (.axis a) list = .ok placed) (within : part.Subperm list) {i : Nat}
    (chosen : ∀ r ∈ part, a.select r 0 = some i) :
    (part.map (Residual.consume a.field)).Subperm (bucket i placed) := by
  rw [bucket_eq_of_place placing]
  apply subperm_map
  have kept : (part.filter fun r => a.select r 0 = some i) = part := by
    rw [List.filter_eq_self]
    intro r member
    exact decide_eq_true (chosen r member)
  rw [← kept]
  exact within.filter _

/-- Instructions that stay together never become leaves. -/
theorem StaysTogether.not_subperm {axes : List Axis} {P : List Residual → Prop}
    (together : StaysTogether axes P) {list : List Residual} {tree : Tree}
    (grown : Grows axes list tree) {part : List Residual} (h : P part) : ¬ part.Subperm list := by
  intro within
  -- Every node sends them all to one child, so they would have to fit into a single leaf.
  induction grown generalizing part with
  | leaf _ _ => exact not_subperm_singleton (together.several part h) within
  | filter _ _ _ _ => exact not_subperm_singleton (together.several part h) within
  | @axis list a placed children found placing length vacant _ _ ih =>
    have ha := List.mem_of_find?_eq_some found
    have asked := asks_of_splits (splits_of_find? found) within
    obtain ⟨first, member⟩ : ∃ first, first ∈ part :=
      List.exists_mem_of_length_pos (by have := together.several part h; omega)
    obtain ⟨i, t, chosen, here, _⟩ := exists_child placing length vacant (within.subset member)
    obtain ⟨selected, _, _⟩ := axisChild_eq_ok_iff.1 chosen
    have sent := subperm_bucket placing within fun r hr =>
      (together.same a ha part h asked r hr first member).trans selected
    exact ih i t here (together.below a ha part h asked) sent

/-! ### Instructions that no axis separates -/

/-- Wherever an axis asks all these instructions, they choose the same child. -/
def Inseparable (axes : List Axis) (part : List Residual) : Prop :=
  2 ≤ part.length ∧ ∀ a ∈ axes, ∀ n, a.Asks part n →
    ∀ r ∈ part, ∀ s ∈ part, a.select r n = a.select s n

theorem asks_consume_self (a : Axis) (part : List Residual) (n : Nat) :
    a.Asks (part.map (Residual.consume a.field)) n ↔ a.Asks part (n + 1) := by
  simp only [Axis.Asks, List.forall_mem_map, Residual.pending_consume_self, List.length_tail]
  constructor
  · intro asked mandatory r member
    have := asked mandatory r member
    omega
  · intro asked mandatory r member
    have := asked mandatory r member
    omega

theorem asks_consume_other {a b : Axis} (different : b.field ≠ a.field) (part : List Residual)
    (n : Nat) : b.Asks (part.map (Residual.consume a.field)) n ↔ b.Asks part n := by
  simp only [Axis.Asks, List.forall_mem_map, Residual.pending_consume_other different]

theorem eq_of_field_eq {axes : List Axis} (distinct : (axes.map Axis.field).Nodup) {a b : Axis}
    (ha : a ∈ axes) (hb : b ∈ axes) (same : b.field = a.field) : b = a :=
  List.inj_on_of_nodup_map distinct hb ha same

theorem inseparable_iff_consume {axes : List Axis} (distinct : (axes.map Axis.field).Nodup)
    {a : Axis} (ha : a ∈ axes) (part : List Residual) :
    Inseparable axes part ↔
      (a.Asks part 0 → ∀ r ∈ part, ∀ s ∈ part, a.select r 0 = a.select s 0) ∧
        Inseparable axes (part.map (Residual.consume a.field)) := by
  unfold Inseparable
  rw [List.length_map]
  constructor
  · rintro ⟨several, alike⟩
    refine ⟨alike a ha 0, several, ?_⟩
    intro b hb n asked
    rw [List.forall_mem_map]
    intro r hr
    rw [List.forall_mem_map]
    intro s hs
    by_cases same : b.field = a.field
    · obtain rfl := eq_of_field_eq distinct ha hb same
      rw [asks_consume_self] at asked
      rw [Axis.select_consume_self, Axis.select_consume_self]
      exact alike b hb (n + 1) asked r hr s hs
    · rw [asks_consume_other same] at asked
      rw [Axis.select_consume_other same, Axis.select_consume_other same]
      exact alike b hb n asked r hr s hs
  · rintro ⟨now, several, later⟩
    refine ⟨several, ?_⟩
    intro b hb n asked r hr s hs
    have alike := later b hb
    by_cases same : b.field = a.field
    · obtain rfl := eq_of_field_eq distinct ha hb same
      cases n with
      | zero => exact now asked r hr s hs
      | succ n =>
        have next := alike n ((asks_consume_self b part n).2 asked)
          _ (List.mem_map_of_mem hr) _ (List.mem_map_of_mem hs)
        rwa [Axis.select_consume_self, Axis.select_consume_self] at next
    · have next := alike n ((asks_consume_other same part n).2 asked)
        _ (List.mem_map_of_mem hr) _ (List.mem_map_of_mem hs)
      rwa [Axis.select_consume_other same, Axis.select_consume_other same] at next

theorem staysTogether_inseparable {axes : List Axis} (distinct : (axes.map Axis.field).Nodup) :
    StaysTogether axes (Inseparable axes) where
  several := fun _ inseparable => inseparable.1
  same := fun _ ha part inseparable => ((inseparable_iff_consume distinct ha part).1 inseparable).1
  below := fun _ ha part inseparable _ =>
    ((inseparable_iff_consume distinct ha part).1 inseparable).2

theorem Inseparable.of_perm {axes : List Axis} {part other : List Residual}
    (inseparable : Inseparable axes part) (perm : part.Perm other) : Inseparable axes other := by
  refine ⟨perm.length_eq ▸ inseparable.1, ?_⟩
  intro a ha n asked r hr s hs
  refine inseparable.2 a ha n ?_ r (perm.mem_iff.2 hr) s (perm.mem_iff.2 hs)
  intro mandatory q hq
  exact asked mandatory q (perm.mem_iff.1 hq)

/-! ### Values that are no child -/

def Axis.Accepts (a : Axis) (value : Text) : Prop := ∃ i < a.size, childIndex? value = some i

theorem Axis.accepts_iff {a : Axis} {value : Text} :
    a.Accepts value ↔ (childIndex? value).any (· < a.size) = true := by
  unfold Axis.Accepts
  cases childIndex? value with
  | none => simp
  | some i => simp

instance (a : Axis) (value : Text) : Decidable (a.Accepts value) :=
  decidable_of_iff _ Axis.accepts_iff.symm

theorem mem_pending_of_consume {f g : Field} {r : Residual} {value : Text}
    (member : value ∈ (r.consume f).pending g) : value ∈ r.pending g := by
  by_cases same : g = f
  · rw [same, Residual.pending_consume_self] at member
    rw [same]
    exact List.mem_of_mem_tail member
  · rwa [Residual.pending_consume_other same] at member

theorem accepts_of_grows {axes : List Axis} (distinct : (axes.map Axis.field).Nodup)
    {list : List Residual} {tree : Tree} (grown : Grows axes list tree) {r : Residual}
    (member : r ∈ list) {a : Axis} (ha : a ∈ axes) {value : Text}
    (ahead : value ∈ r.pending a.field) : a.Accepts value := by
  induction grown generalizing r with
  | leaf settled _ =>
    obtain rfl := List.mem_singleton.1 member
    rw [pending_eq_nil_of_settled settled ha] at ahead
    cases ahead
  | filter settled _ _ _ =>
    obtain rfl := List.mem_singleton.1 member
    rw [pending_eq_nil_of_settled settled ha] at ahead
    cases ahead
  | @axis list b placed children found placing length vacant _ _ ih =>
    obtain ⟨i, t, chosen, here, arrived⟩ := exists_child placing length vacant member
    obtain ⟨selected, bounded, _⟩ := axisChild_eq_ok_iff.1 chosen
    have later : value ∈ (r.consume b.field).pending a.field → a.Accepts value :=
      fun rest => ih i t here arrived rest
    by_cases same : a.field = b.field
    · obtain rfl := eq_of_field_eq distinct (List.mem_of_find?_eq_some found) ha same
      rw [Residual.pending_consume_self] at later
      cases pending : r.pending a.field with
      | nil =>
        rw [pending] at ahead
        cases ahead
      | cons first rest =>
        rw [pending] at ahead later
        rcases List.mem_cons.1 ahead with rfl | ahead
        · exact ⟨i, bounded, (Axis.select_zero_of_cons pending).symm.trans selected⟩
        · exact later ahead
    · rw [Residual.pending_consume_other same] at later
      exact later ahead

/-! ### Obstacles -/

/-- What can stand in the way of telling instructions apart. -/
inductive Obstacle (axes : List Axis) (list : List Residual) : Prop where
  | empty (none : list = []) (optional : ∀ a ∈ axes, a.mandatory = false)
  | value {r : Residual} {a : Axis} {value : Text} (member : r ∈ list) (ha : a ∈ axes)
      (ahead : value ∈ r.pending a.field) (refused : ¬ a.Accepts value)
  | inseparable {part : List Residual} (within : part.Subperm list)
      (inseparable : Inseparable axes part)

theorem not_obstacle_of_grows {axes : List Axis} (distinct : (axes.map Axis.field).Nodup)
    {list : List Residual} {tree : Tree} (grown : Grows axes list tree) :
    ¬ Obstacle axes list := by
  intro obstacle
  cases obstacle with
  | empty none optional =>
    subst none
    cases grown with
    | @axis _ a _ _ found _ _ _ _ _ =>
      have splits := Axis.splits_eq_true_iff.1 (splits_of_find? found)
      rw [optional a (List.mem_of_find?_eq_some found)] at splits
      simp at splits
  | value member ha ahead refused => exact refused (accepts_of_grows distinct grown member ha ahead)
  | inseparable within inseparable =>
    exact (staysTogether_inseparable distinct).not_subperm grown inseparable within

theorem obstacle_of_misplaced {axes : List Axis} {list : List Residual} {a : Axis} {e : GroupError}
    (found : axes.find? (·.splits list) = some a) (placing : place (.axis a) list = .error e) :
    Obstacle axes list := by
  have ha := List.mem_of_find?_eq_some found
  have splits := Axis.splits_eq_true_iff.1 (splits_of_find? found)
  obtain ⟨r, member, failed⟩ := Traversal.exists_of_mapM_eq_error placing
  cases pending : r.pending a.field with
  | cons value rest =>
    refine .value member ha (pending ▸ List.mem_cons_self) ?_
    rintro ⟨i, bounded, index⟩
    have chosen := axisChild_eq_ok_iff.2
      ⟨(Axis.select_zero_of_cons pending).trans index, bounded, rfl⟩
    cases failed.symm.trans chosen
  | nil =>
    -- An instruction without a value is only refused where there are no children at all.
    have size : a.size = 0 := by
      by_contra positive
      have chosen := axisChild_eq_ok_iff.2
        ⟨Axis.select_of_pending_eq_nil pending 0, Nat.pos_of_ne_zero positive, rfl⟩
      cases failed.symm.trans chosen
    split at splits
    · exact absurd pending (splits r member)
    · obtain ⟨s, other, present⟩ := splits
      obtain ⟨value, ahead⟩ := List.exists_mem_of_ne_nil _ present
      refine .value other ha ahead ?_
      rintro ⟨i, bounded, _⟩
      omega

theorem inseparable_of_settled {axes : List Axis} {list : List Residual}
    (settled : Settled axes list) (several : 2 ≤ list.length) : Inseparable axes list := by
  refine ⟨several, ?_⟩
  intro a ha n asked r hr s hs
  have unsplit : ¬ a.splits list = true := by rw [settled a ha]; exact Bool.false_ne_true
  rw [Axis.splits_eq_true_iff] at unsplit
  split at unsplit
  · next mandatory =>
    -- Some instruction has used its values up, so a mandatory axis asks for none.
    exfalso
    apply unsplit
    intro q hq used
    have ahead := asked mandatory q hq
    rw [used] at ahead
    exact Nat.not_lt_zero n ahead
  · have used : ∀ q ∈ list, q.pending a.field = [] := by
      intro q hq
      by_contra present
      exact unsplit ⟨q, hq, present⟩
    rw [Axis.select_of_pending_eq_nil (used r hr), Axis.select_of_pending_eq_nil (used s hs)]

theorem obstacle_of_bucket {axes : List Axis} (distinct : (axes.map Axis.field).Nodup) {a : Axis}
    (ha : a ∈ axes) {list : List Residual} {placed : List (Nat × Residual)}
    (placing : place (.axis a) list = .ok placed) {i : Nat} (occupied : bucket i placed ≠ [])
    (obstacle : Obstacle axes (bucket i placed)) : Obstacle axes list := by
  cases obstacle with
  | empty none _ => exact absurd none occupied
  | @value s b value member hb ahead refused =>
    obtain ⟨r, source, chosen⟩ := (mem_bucket_iff placing).1 member
    obtain ⟨_, _, rfl⟩ := axisChild_eq_ok_iff.1 chosen
    exact .value source hb (mem_pending_of_consume ahead) refused
  | @inseparable part within inseparable =>
    obtain ⟨ordered, perm, sub⟩ := within
    rw [bucket_eq_of_place placing] at sub
    obtain ⟨sources, chosen, rfl⟩ := List.sublist_map_iff.1 sub
    have selected : ∀ r ∈ sources, a.select r 0 = some i := by
      intro r member
      simpa using (List.mem_filter.1 (chosen.subset member)).2
    refine .inseparable (chosen.trans List.filter_sublist).subperm
      ((inseparable_iff_consume distinct ha sources).2 ⟨?_, inseparable.of_perm perm.symm⟩)
    intro _ r hr s hs
    rw [selected r hr, selected s hs]

theorem obstacle_of_ambiguous {axes : List Axis} {list : List Residual}
    (settled : Settled axes list) (several : list.length ≠ 1) : Obstacle axes list := by
  cases list with
  | nil =>
    refine .empty rfl ?_
    intro a ha
    have unsplit := settled a ha
    unfold Axis.splits at unsplit
    split at unsplit
    · cases unsplit
    · next optional => simpa using optional
  | cons r rest =>
    refine .inseparable (List.Subperm.refl _) (inseparable_of_settled settled ?_)
    rw [List.length_cons] at several ⊢
    omega

theorem obstacle_of_filter {axes : List Axis} {r : Residual}
    (obstacle : Obstacle axes [r.passFilter]) : Obstacle axes [r] := by
  cases obstacle with
  | empty none _ => cases none
  | value member ha ahead refused =>
    obtain rfl := List.mem_singleton.1 member
    exact .value (List.mem_singleton_self r) ha ahead refused
  | inseparable within inseparable => exact absurd within (not_subperm_singleton inseparable.1)

theorem obstacle_of_stops {axes : List Axis} (distinct : (axes.map Axis.field).Nodup)
    {list : List Residual} {e : GroupError} (stopped : Stops axes list e) :
    Obstacle axes list := by
  induction stopped with
  | ambiguous settled several => exact obstacle_of_ambiguous settled several
  | misplaced found placing => exact obstacle_of_misplaced found placing
  | filter _ _ _ ih => exact obstacle_of_filter ih
  | axis found placing _ occupied _ ih =>
    exact obstacle_of_bucket distinct (List.mem_of_find?_eq_some found) placing occupied ih

theorem groupable_iff_not_obstacle {axes : List Axis} (distinct : (axes.map Axis.field).Nodup)
    {entries : List Entry} :
    Groupable axes entries ↔ ¬ Obstacle axes (entries.map Residual.ofEntry) := by
  constructor
  · rintro ⟨tree, grouped⟩
    exact not_obstacle_of_grows distinct (group_eq_ok_iff.1 grouped)
  · intro free
    cases result : (group axes entries).result with
    | ok tree => exact ⟨tree, result⟩
    | error e => exact absurd (obstacle_of_stops distinct (stops_of_group_eq_error result)) free

/-! ### Independence -/

theorem distinct_fields (f : Family) : ((axesOf f).map Axis.field).Nodup := by
  cases f <;> decide

theorem Obstacle.of_perm {axes others : List Axis} {list : List Residual}
    (obstacle : Obstacle axes list) (same : axes.Perm others) : Obstacle others list := by
  cases obstacle with
  | empty none optional => exact .empty none fun a ha => optional a (same.mem_iff.2 ha)
  | value member ha ahead refused => exact .value member (same.mem_iff.1 ha) ahead refused
  | inseparable within inseparable =>
    exact .inseparable within ⟨inseparable.1, fun a ha => inseparable.2 a (same.mem_iff.2 ha)⟩

theorem Obstacle.of_subperm {axes : List Axis} {part list : List Residual}
    (obstacle : Obstacle axes part) (nonempty : part ≠ []) (within : part.Subperm list) :
    Obstacle axes list := by
  cases obstacle with
  | empty none _ => exact absurd none nonempty
  | value member ha ahead refused => exact .value (within.subset member) ha ahead refused
  | inseparable inner inseparable => exact .inseparable (inner.trans within) inseparable

/-- The order of the axes never decides whether instructions can be told apart. -/
theorem groupable_perm {axes others : List Axis} (distinct : (axes.map Axis.field).Nodup)
    (same : axes.Perm others) (entries : List Entry) :
    Groupable axes entries ↔ Groupable others entries := by
  have distinctToo : (others.map Axis.field).Nodup := (same.map Axis.field).nodup_iff.1 distinct
  rw [groupable_iff_not_obstacle distinct, groupable_iff_not_obstacle distinctToo]
  exact not_congr ⟨fun obstacle => obstacle.of_perm same,
    fun obstacle => obstacle.of_perm same.symm⟩

theorem groupable_perm_reverse :
    legacyAxes.Perm legacyAxes.reverse ∧ (legacyAxes.map Axis.field).Nodup ∧
      Groupable legacyAxes.reverse threeLegacy :=
  have reversed := (List.reverse_perm legacyAxes).symm
  have distinct := distinct_fields .legacy
  ⟨reversed, distinct, (groupable_perm distinct reversed threeLegacy).1 groupable_threeLegacy⟩

/-- Leaving instructions out never makes the others hard to tell apart. -/
theorem groupable_of_subperm {axes : List Axis} (distinct : (axes.map Axis.field).Nodup)
    {part entries : List Entry} (h : Groupable axes entries) (within : part.Subperm entries)
    (nonempty : part ≠ []) : Groupable axes part := by
  rw [groupable_iff_not_obstacle distinct] at h ⊢
  intro obstacle
  exact h (obstacle.of_subperm (by simpa using nonempty) (subperm_map Residual.ofEntry within))

theorem groupable_without_pause :
    (legacyAxes.map Axis.field).Nodup ∧ Groupable legacyAxes threeLegacy ∧
      (threeLegacy.eraseIdx 1).Subperm threeLegacy ∧ threeLegacy.eraseIdx 1 ≠ [] ∧
      Groupable legacyAxes (threeLegacy.eraseIdx 1) :=
  have distinct := distinct_fields .legacy
  have within := (List.eraseIdx_sublist threeLegacy 1).subperm
  have nonempty : threeLegacy.eraseIdx 1 ≠ [] :=
    List.ne_nil_of_length_pos (by decide +kernel)
  ⟨distinct, groupable_threeLegacy, within, nonempty,
    groupable_of_subperm distinct groupable_threeLegacy within nonempty⟩

end OpcodeAtlas.Dispatch
