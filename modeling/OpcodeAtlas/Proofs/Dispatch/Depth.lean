import Mathlib.Algebra.Order.BigOperators.Group.List
import Mathlib.Algebra.Order.Ring.Nat
import Mathlib.Data.List.Dedup
import OpcodeAtlas.Proofs.Dispatch.Failure
import OpcodeAtlas.Proofs.Dispatch.Leaves

/-!
How deep grouping goes. An axis that need not be present in every instruction may take nothing from
most of them, so an instruction may get no shorter from one node to the next. But every instruction
that has a value of the axis loses one, and some instruction has one: the largest number of values
that any instruction of the node has for that field goes down (`demand_lt_of_calls`). So the largest
numbers of values, over all fields, and of filters bound the depth (`depth_le_of_group`).
-/

namespace OpcodeAtlas.Dispatch

/-! ### Largest counts -/

section Largest

variable {α β : Type}

/-- The largest count of the members, zero where there are none. -/
def largest (count : α → Nat) (list : List α) : Nat := list.foldr (fun a n => max (count a) n) 0

theorem largest_cons (count : α → Nat) (a : α) (list : List α) :
    largest count (a :: list) = max (count a) (largest count list) := rfl

theorem largest_le_iff {count : α → Nat} {list : List α} {n : Nat} :
    largest count list ≤ n ↔ ∀ a ∈ list, count a ≤ n := by
  induction list with
  | nil => simp [largest]
  | cons a list ih =>
    rw [largest_cons, Nat.max_le, ih, List.forall_mem_cons]

theorem le_largest (count : α → Nat) {list : List α} {a : α} (member : a ∈ list) :
    count a ≤ largest count list :=
  largest_le_iff.1 (Nat.le_refl _) a member

theorem largest_mono {count : α → Nat} {list others : List α} (within : list ⊆ others) :
    largest count list ≤ largest count others :=
  largest_le_iff.2 fun _ member => le_largest count (within member)

theorem largest_map (count : β → Nat) (f : α → β) (list : List α) :
    largest count (list.map f) = largest (fun a => count (f a)) list := by
  rw [largest, List.foldr_map]
  rfl

end Largest

/-! ### Demand -/

/-- The most values of the field that an instruction has left. -/
def valuesLeft (f : Field) (list : List Residual) : Nat :=
  largest (fun r => (r.pending f).length) list

/-- The most filters that an instruction has left. -/
def filtersLeft (list : List Residual) : Nat := largest (fun r => r.filters.length) list

/-- What is left for the axes of a list to ask for, field by field, and for the filters. -/
def demand (axes : List Axis) (list : List Residual) : Nat :=
  ((axes.map Axis.field).dedup.map fun f => valuesLeft f list).sum + filtersLeft list

/-- The same for instructions that nothing has been asked of: for every field of an axis the most
values that an instruction has for it, and the most filters that an instruction has. -/
def depthBound (axes : List Axis) (entries : List Entry) : Nat :=
  ((axes.map Axis.field).dedup.map fun f =>
      largest (fun e => (e.instruction.encoding.values f).length) entries).sum +
    largest (fun e => e.instruction.filters.length) entries

theorem demand_ofEntry (axes : List Axis) (entries : List Entry) :
    demand axes (entries.map Residual.ofEntry) = depthBound axes entries := by
  simp only [demand, depthBound, valuesLeft, filtersLeft, largest_map, Residual.ofEntry]

theorem valuesLeft_consume_self (f : Field) (list : List Residual) :
    valuesLeft f (list.map (Residual.consume f)) ≤ valuesLeft f list - 1 := by
  rw [valuesLeft, largest_map, largest_le_iff]
  intro r member
  have here := le_largest (fun r => (r.pending f).length) member
  rw [Residual.pending_consume_self, List.length_tail]
  exact Nat.sub_le_sub_right here 1

theorem valuesLeft_consume_other {f g : Field} (different : g ≠ f) (list : List Residual) :
    valuesLeft g (list.map (Residual.consume f)) = valuesLeft g list := by
  simp only [valuesLeft, largest_map, Residual.pending_consume_other different]

theorem filtersLeft_consume (f : Field) (list : List Residual) :
    filtersLeft (list.map (Residual.consume f)) = filtersLeft list := by
  simp only [filtersLeft, largest_map, Residual.filters_consume]

/-- Once every instruction has been asked for a value that some instruction had, less is left, also
when other instructions drop out. -/
theorem demand_consume_lt {axes : List Axis} {a : Axis} (ha : a ∈ axes)
    {list sources : List Residual} (within : sources ⊆ list)
    (present : ∃ r ∈ list, r.pending a.field ≠ []) :
    demand axes (sources.map (Residual.consume a.field)) < demand axes list := by
  have filters : filtersLeft (sources.map (Residual.consume a.field)) ≤ filtersLeft list := by
    rw [filtersLeft_consume]
    exact largest_mono within
  have fewer : valuesLeft a.field (sources.map (Residual.consume a.field)) <
      valuesLeft a.field list := by
    obtain ⟨r, member, left⟩ := present
    have counted := le_largest (fun r => (r.pending a.field).length) member
    have positive : 0 < valuesLeft a.field list := (List.length_pos_iff.2 left).trans_le counted
    have asked := valuesLeft_consume_self a.field sources
    have kept : valuesLeft a.field sources ≤ valuesLeft a.field list := largest_mono within
    omega
  have others : ∀ f, valuesLeft f (sources.map (Residual.consume a.field)) ≤ valuesLeft f list := by
    intro f
    by_cases same : f = a.field
    · rw [same]
      exact Nat.le_of_lt fewer
    · rw [valuesLeft_consume_other same]
      exact largest_mono within
  have values := List.sum_lt_sum (fun f => valuesLeft f (sources.map (Residual.consume a.field)))
    (fun f => valuesLeft f list) (fun f _ => others f)
    ⟨a.field, List.mem_dedup.2 (List.mem_map_of_mem ha), fewer⟩
  exact Nat.add_lt_add_of_lt_of_le values filters

theorem demand_passFilter_lt (axes : List Axis) {r : Residual} {f : Filter} {fs : List Filter}
    (next : r.filters = f :: fs) : demand axes [r.passFilter] < demand axes [r] := by
  have filters : filtersLeft [r.passFilter] < filtersLeft [r] := by
    simp [filtersLeft, largest, Residual.passFilter, next]
  exact Nat.add_lt_add_left filters _

/-! ### Calls -/

/-- Building the tree of `list` may call for the tree of `part`, the instructions that arrive at a
child (`result_build_split`). Whether it does also depends on earlier children, which may fail. -/
def Calls (axes : List Axis) (list part : List Residual) : Prop :=
  ∃ c placed i, choose axes list = .split c ∧ place c list = .ok placed ∧ i < c.size ∧
    bucket i placed = part ∧ part ≠ []

/-- The axis of a node finds a value in some instruction. -/
theorem exists_value_of_find? {axes : List Axis} {list : List Residual} {a : Axis}
    (found : axes.find? (·.splits list) = some a) (nonempty : list ≠ []) :
    ∃ r ∈ list, r.pending a.field ≠ [] := by
  have splits := Axis.splits_eq_true_iff.1 (splits_of_find? found)
  split at splits
  · obtain ⟨r, member⟩ := List.exists_mem_of_ne_nil _ nonempty
    exact ⟨r, member, splits r member⟩
  · exact splits

theorem demand_bucket_lt {axes : List Axis} {list : List Residual} {a : Axis}
    {placed : List (Nat × Residual)} (found : axes.find? (·.splits list) = some a)
    (placing : place (.axis a) list = .ok placed) (nonempty : list ≠ []) (i : Nat) :
    demand axes (bucket i placed) < demand axes list := by
  rw [bucket_eq_of_place placing]
  exact demand_consume_lt (List.mem_of_find?_eq_some found) (List.filter_subset_self list)
    (exists_value_of_find? found nonempty)

/-- Every call leaves less to ask for. -/
theorem demand_lt_of_calls {axes : List Axis} {list part : List Residual}
    (called : Calls axes list part) : demand axes part < demand axes list := by
  obtain ⟨c, placed, i, chosen, placing, inside, rfl, occupied⟩ := called
  cases c with
  | axis a =>
    have nonempty := ne_nil_of_bucket placing occupied
    exact demand_bucket_lt (choose_eq_axis_iff.1 chosen) placing nonempty i
  | filter f =>
    obtain ⟨_, r, fs, rfl, next⟩ := choose_eq_filter_iff.1 chosen
    obtain rfl : [(0, r.passFilter)] = placed := Except.ok.inj placing
    obtain rfl : i = 0 := Nat.lt_one_iff.1 inside
    exact demand_passFilter_lt axes next

/-- Calls nest no deeper than there is something to ask for. -/
theorem length_le_of_calls {axes : List Axis} {list : List Residual} {parts : List (List Residual)}
    (nested : List.IsChain (Calls axes) (list :: parts)) : parts.length ≤ demand axes list := by
  induction parts generalizing list with
  | nil => exact Nat.zero_le _
  | cons part parts ih =>
    obtain ⟨called, deeper⟩ := List.isChain_cons_cons.1 nested
    have below := ih deeper
    have less := demand_lt_of_calls called
    rw [List.length_cons]
    omega

/-! ### Depth -/

theorem depthOfSlots_eq (first : Nat) (cs : List (Option Tree)) :
    Tree.depthOfSlots cs = largest (fun child => child.2.depth) (Tree.occupied first cs) := by
  induction cs generalizing first with
  | nil => rfl
  | cons slot cs ih =>
    cases slot with
    | none => rw [Tree.depthOfSlots, Tree.occupied_none, ih (first + 1)]
    | some t => rw [Tree.depthOfSlots, Tree.occupied_some, largest_cons, ih (first + 1)]

theorem depthOfSlots_le_iff {cs : List (Option Tree)} {n : Nat} :
    Tree.depthOfSlots cs ≤ n ↔ ∀ (i : Nat) (t : Tree), cs[i]? = some (some t) → t.depth ≤ n := by
  simp only [depthOfSlots_eq 0, largest_le_iff, Prod.forall, Tree.mem_occupied_iff]

theorem depth_le_of_grows {axes : List Axis} {list : List Residual} {tree : Tree}
    (grown : Grows axes list tree) (nonempty : list ≠ []) : tree.depth ≤ demand axes list := by
  induction grown with
  | leaf _ _ => exact Nat.zero_le _
  | @filter r f fs t _ next _ ih =>
    have below := ih (List.cons_ne_nil _ _)
    have less := demand_passFilter_lt axes next
    simp only [Tree.depth, Tree.depthOfSlots]
    omega
  | @axis list a placed children found placing _ _ occupied _ ih =>
    have less := demand_bucket_lt found placing nonempty
    have slots : Tree.depthOfSlots children ≤ demand axes list - 1 := by
      rw [depthOfSlots_le_iff]
      intro i t here
      have below := ih i t here (occupied i t here)
      have less := less i
      omega
    -- There is something left to ask for, since any bucket has less left.
    have first := less 0
    rw [Tree.depth]
    omega

/-- Grouping ends: calls nest no deeper than the bound, and a tree is no deeper either. -/
theorem depth_le_of_group {axes : List Axis} (positive : ∀ a ∈ axes, 0 < a.size)
    {entries : List Entry} (nonempty : entries ≠ []) :
    (∀ parts, List.IsChain (Calls axes) (entries.map Residual.ofEntry :: parts) →
        parts.length ≤ depthBound axes entries) ∧
      ((∃ tree, (group axes entries).result = .ok tree ∧ tree.depth ≤ depthBound axes entries) ∨
        ∃ error, (group axes entries).result = .error (.invalid error)) := by
  rw [← demand_ofEntry]
  refine ⟨fun parts nested => length_le_of_calls nested, ?_⟩
  cases result : (group axes entries).result with
  | ok tree =>
    have grown := group_eq_ok_iff.1 result
    exact .inl ⟨tree, rfl, depth_le_of_grows grown (by simpa using nonempty)⟩
  | error failure =>
    obtain ⟨error, rfl⟩ := invalid_of_stops positive (stops_of_group_eq_error result)
    exact .inr ⟨error, rfl⟩

theorem depth_le_of_group_threeLegacy :
    (∀ a ∈ legacyAxes, 0 < a.size) ∧ threeLegacy ≠ [] ∧ depthBound legacyAxes threeLegacy = 4 ∧
      (∀ parts, List.IsChain (Calls legacyAxes) (threeLegacy.map Residual.ofEntry :: parts) →
        parts.length ≤ 4) ∧
      ∃ tree, (group legacyAxes threeLegacy).result = .ok tree ∧ tree.depth ≤ 4 := by
  have positive : ∀ a ∈ legacyAxes, 0 < a.size := positive_sizes .legacy
  have nonempty : threeLegacy ≠ [] := List.ne_nil_of_length_pos (by decide +kernel)
  have bound : depthBound legacyAxes threeLegacy = 4 := by decide +kernel
  obtain ⟨tree, grouped⟩ := groupable_threeLegacy
  obtain ⟨calls, ⟨other, again, depth⟩ | ⟨error, failed⟩⟩ := depth_le_of_group positive nonempty
  · rw [bound] at calls depth
    exact ⟨positive, nonempty, bound, calls, other, again, depth⟩
  · cases failed.symm.trans grouped

end OpcodeAtlas.Dispatch
