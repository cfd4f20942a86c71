import OpcodeAtlas.Dispatch.Tree
import OpcodeAtlas.Log

/-!
Grouping instructions into a decision tree. A node dispatches on the first axis that splits its
instructions; when no axis does, a single instruction goes on through its filters and becomes a
leaf, and several cannot be told apart.
-/

namespace OpcodeAtlas.Dispatch

/-- An axis can split instructions that all have its field or, if it is not mandatory, of which one
has it. -/
def Axis.splits (a : Axis) (list : List Residual) : Bool :=
  if a.mandatory then list.all (·.has a.field) else list.any (·.has a.field)

inductive Choice where
  | leaf (entry : Entry)
  | split (component : Component)
  | ambiguous

/-- How to go on with the instructions of a node. -/
def choose (axes : List Axis) (list : List Residual) : Choice :=
  match axes.find? (·.splits list), list with
  | some a, _ => .split (.axis a)
  | none, [r] =>
    match r.filters with
    | [] => .leaf r.entry
    | f :: _ => .split (.filter f)
  | none, _ => .ambiguous

/-! ### Weight -/

theorem weight_child {c : Component} {r s : Residual} {i : Nat} (h : r.child c = .ok (i, s)) :
    s.weight ≤ r.weight := by
  cases c with
  | axis a =>
    simp only [Residual.child, Residual.axisChild] at h
    split at h
    · split at h
      · simp_all
      · simp at h
    · next value rest hp =>
      split at h
      · simp only [Except.ok.injEq, Prod.mk.injEq] at h
        exact h.2 ▸ Nat.le_of_lt (Residual.weight_advance_lt hp)
      · simp at h
  | filter f =>
    simp only [Residual.child, Except.ok.injEq, Prod.mk.injEq] at h
    simp [← h.2, Residual.weight]

theorem weight_child_lt {a : Axis} {r s : Residual} {i : Nat} (has : r.has a.field = true)
    (h : r.child (.axis a) = .ok (i, s)) : s.weight < r.weight := by
  simp only [Residual.child, Residual.axisChild] at h
  split at h
  · simp_all [Residual.has]
  · next value rest hp =>
    split at h
    · simp only [Except.ok.injEq, Prod.mk.injEq] at h
      exact h.2 ▸ Residual.weight_advance_lt hp
    · simp at h

theorem place_cons {c : Component} {r : Residual} {list : List Residual}
    {placed : List (Nat × Residual)} (h : place c (r :: list) = .ok placed) :
    ∃ p rest, r.child c = .ok p ∧ place c list = .ok rest ∧ placed = p :: rest := by
  simp only [place, List.mapM_cons] at h
  cases hp : r.child c with
  | error e => simp [hp, bind, Except.bind] at h
  | ok p =>
    cases hr : list.mapM (Residual.child c) with
    | error e => simp [hp, hr, bind, Except.bind] at h
    | ok rest =>
      simp only [hp, hr, bind, Except.bind, pure, Except.pure, Except.ok.injEq] at h
      exact ⟨p, rest, rfl, hr, h.symm⟩

theorem totalWeight_place {c : Component} {list : List Residual} {placed : List (Nat × Residual)}
    (h : place c list = .ok placed) : totalWeight (placed.map (·.2)) ≤ totalWeight list := by
  induction list generalizing placed with
  | nil =>
    simp only [place, List.mapM_nil, pure, Except.pure, Except.ok.injEq] at h
    simp [← h]
  | cons r list ih =>
    obtain ⟨p, rest, hp, hr, rfl⟩ := place_cons h
    have := ih hr
    have := weight_child hp
    simp only [totalWeight, List.map_cons] at *
    omega

theorem totalWeight_place_lt {a : Axis} {list : List Residual} {placed : List (Nat × Residual)}
    (has : ∃ r ∈ list, r.has a.field = true) (h : place (.axis a) list = .ok placed) :
    totalWeight (placed.map (·.2)) < totalWeight list := by
  induction list generalizing placed with
  | nil => simp at has
  | cons r list ih =>
    obtain ⟨p, rest, hp, hr, rfl⟩ := place_cons h
    obtain ⟨s, hs, hf⟩ := has
    rcases List.mem_cons.1 hs with rfl | hs
    · have := totalWeight_place hr
      have := weight_child_lt hf hp
      simp only [totalWeight, List.map_cons] at *
      omega
    · have := ih ⟨s, hs, hf⟩ hr
      have := weight_child hp
      simp only [totalWeight, List.map_cons] at *
      omega

theorem totalWeight_bucket (i : Nat) (placed : List (Nat × Residual)) :
    totalWeight (bucket i placed) ≤ totalWeight (placed.map (·.2)) := by
  induction placed with
  | nil => simp [bucket]
  | cons p placed ih =>
    simp only [bucket, totalWeight, List.filter_cons, List.map_cons] at *
    split
    · simp only [List.map_cons, totalWeight]
      omega
    · omega

theorem ne_nil_of_bucket {c : Component} {list : List Residual} {placed : List (Nat × Residual)}
    {i : Nat} (h : place c list = .ok placed) (hb : bucket i placed ≠ []) : list ≠ [] := by
  rintro rfl
  simp only [place, List.mapM_nil, pure, Except.pure, Except.ok.injEq] at h
  exact hb (by simp [← h, bucket])

/-- Every child gets less than the node had. -/
theorem totalWeight_bucket_lt {axes : List Axis} {list : List Residual} {c : Component} {i : Nat}
    {placed : List (Nat × Residual)} (hc : choose axes list = .split c)
    (hp : place c list = .ok placed) (hb : bucket i placed ≠ []) :
    totalWeight (bucket i placed) < totalWeight list := by
  have nonempty := ne_nil_of_bucket hp hb
  refine Nat.lt_of_le_of_lt (totalWeight_bucket i placed) ?_
  unfold choose at hc
  split at hc
  · next a found =>
    obtain rfl : Component.axis a = c := by simpa using hc
    have splits := List.find?_some found
    refine totalWeight_place_lt ?_ hp
    unfold Axis.splits at splits
    split at splits
    · obtain ⟨r, hr⟩ := List.exists_mem_of_ne_nil _ nonempty
      exact ⟨r, hr, List.all_eq_true.1 splits r hr⟩
    · simpa using splits
  · next r _ =>
    split at hc
    · simp at hc
    · next f fs hf =>
      obtain rfl : Component.filter f = c := by simpa using hc
      obtain ⟨p, rest, first, others, rfl⟩ := place_cons hp
      simp only [place, List.mapM_nil, pure, Except.pure, Except.ok.injEq] at others
      simp only [Residual.child, Except.ok.injEq] at first
      simp [← first, ← others, totalWeight, Residual.weight, hf]
  · simp at hc

/-! ### Building -/

def conflictOf (list : List Residual) : SpecError :=
  .conflict (list.map fun r => r.entry.instruction.describe)

def conflictLog (list : List Residual) : List LogRecord :=
  ⟨.error, SpecError.conflictHeading⟩ ::
    list.map fun r => ⟨.error, SpecError.conflictItem r.entry.instruction.describe⟩

def splitRecord (level : Nat) (c : Component) (count : Nat) : LogRecord :=
  ⟨.trace, Tree.indent level ++ c.name ++ " for " ++ Text.decimal count ++ " instructions"⟩

/-- The decision tree of residuals. Children are built in order, after all instructions of the node
have been placed. -/
def build (axes : List Axis) (level : Nat) (list : List Residual) : Logged GroupError Tree :=
  match _hc : choose axes list with
  | .leaf e => pure (.leaf e)
  | .ambiguous => .fail (conflictLog list) (.invalid (conflictOf list))
  | .split c =>
    match hp : place c list with
    | .error e => .fail [splitRecord level c list.length] e
    | .ok placed => do
      Logged.write [splitRecord level c list.length]
      let children ← (List.range c.size).mapM fun i =>
        if hb : bucket i placed = [] then pure none
        else some <$> build axes (level + 1) (bucket i placed)
      return .node c children
termination_by totalWeight list
decreasing_by exact totalWeight_bucket_lt _hc hp hb

/-- The decision tree of instructions, by the axes in order of priority. -/
def group (axes : List Axis) (entries : List Entry) : Logged GroupError Tree := do
  let tree ← build axes 0 (entries.map Residual.ofEntry)
  Logged.write [⟨.debug, "grouped " ++ Text.decimal entries.length ++ " instructions, depth " ++
    Text.decimal tree.depth⟩]
  return tree

end OpcodeAtlas.Dispatch
