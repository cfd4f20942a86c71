import OpcodeAtlas.Proofs.Dispatch.Growth

/-!
Paths down a decision tree. `dispatch_faithful`: one path leads to an instruction, it asks for the
instruction's values in their order and then for its filters, and it is the path that these values
choose.
-/

namespace OpcodeAtlas.Dispatch

/-- A step from a node to a child. -/
structure Step where
  component : Component
  slot : Nat
  deriving DecidableEq, Repr

def Step.ofFilter (f : Filter) : Step := ⟨.filter f, 0⟩

namespace Tree

/-- The steps that lead from the root to a leaf. -/
inductive Reaches : Tree → List Step → Entry → Prop where
  | leaf (e : Entry) : Reaches (.leaf e) [] e
  | node {c : Component} {children : List (Option Tree)} {i : Nat} {t : Tree} {path : List Step}
      {e : Entry} (here : children[i]? = some (some t)) (below : Reaches t path e) :
      Reaches (.node c children) (⟨c, i⟩ :: path) e

mutual

/-- The steps that the values of an instruction choose, and the leaf they end at. -/
def walk : Tree → Residual → Option (List Step × Entry)
  | leaf e, _ => some ([], e)
  | node c cs, r =>
    match r.child c with
    | .ok (i, s) => (walkSlots cs i s).map fun found => (⟨c, i⟩ :: found.1, found.2)
    | .error _ => none

def walkSlots : List (Option Tree) → Nat → Residual → Option (List Step × Entry)
  | [], _, _ => none
  | none :: _, 0, _ => none
  | some t :: _, 0, r => t.walk r
  | _ :: cs, i + 1, r => walkSlots cs i r

end

theorem walkSlots_of_getElem? {children : List (Option Tree)} {i : Nat} {t : Tree}
    (here : children[i]? = some (some t)) (r : Residual) : walkSlots children i r = t.walk r := by
  induction children generalizing i with
  | nil => simp at here
  | cons slot children ih =>
    cases i with
    | zero =>
      obtain rfl : slot = some t := by simpa using here
      rw [walkSlots]
    | succ i =>
      rw [walkSlots]
      exact ih (by simpa using here)

theorem walk_node {c : Component} {children : List (Option Tree)} {i : Nat} {t : Tree}
    {r s : Residual} {path : List Step} {e : Entry} (chosen : r.child c = .ok (i, s))
    (here : children[i]? = some (some t)) (below : t.walk s = some (path, e)) :
    (node c children).walk r = some (⟨c, i⟩ :: path, e) := by
  rw [walk, chosen]
  simp only [walkSlots_of_getElem? here, below, Option.map_some]

end Tree

/-! ### What a path asks for -/

/-- The steps that ask for a field: the axis and the child taken. -/
def stepsOn (f : Field) (path : List Step) : List (Axis × Nat) :=
  path.filterMap fun s =>
    match s.component with
    | .axis a => if a.field = f then some (a, s.slot) else none
    | .filter _ => none

theorem stepsOn_cons_self {a : Axis} {f : Field} (same : a.field = f) (i : Nat) (path : List Step) :
    stepsOn f (⟨.axis a, i⟩ :: path) = (a, i) :: stepsOn f path := by
  simp [stepsOn, same]

theorem stepsOn_cons_other {a : Axis} {f : Field} (different : a.field ≠ f) (i : Nat)
    (path : List Step) : stepsOn f (⟨.axis a, i⟩ :: path) = stepsOn f path := by
  simp [stepsOn, different]

theorem stepsOn_filters (f : Field) (filters : List Filter) :
    stepsOn f (filters.map Step.ofFilter) = [] := by
  simp [stepsOn, Step.ofFilter]

/-- The steps take the children that the values select, in turn. After the last value there are only
steps of axes that need none, into the first child. -/
def TakesValues (values : List Text) (steps : List (Axis × Nat)) : Prop :=
  ∃ taken defaults, steps = taken ++ defaults ∧
    taken.map (some ∘ Prod.snd) = values.map childIndex? ∧
    ∀ step ∈ defaults, step.1.mandatory = false ∧ step.2 = 0

theorem takesValues_nil : TakesValues [] [] := ⟨[], [], rfl, rfl, by simp⟩

theorem TakesValues.cons {rest : List Text} {steps : List (Axis × Nat)}
    (below : TakesValues rest steps) (a : Axis) {value : Text} {i : Nat}
    (index : childIndex? value = some i) : TakesValues (value :: rest) ((a, i) :: steps) := by
  obtain ⟨taken, defaults, rfl, matched, optional⟩ := below
  refine ⟨(a, i) :: taken, defaults, rfl, ?_, optional⟩
  rw [List.map_cons, matched, List.map_cons, index]
  rfl

theorem TakesValues.absent {steps : List (Axis × Nat)} (below : TakesValues [] steps) {a : Axis}
    (needless : a.mandatory = false) : TakesValues [] ((a, 0) :: steps) := by
  obtain ⟨taken, defaults, rfl, matched, optional⟩ := below
  obtain rfl : taken = [] := by simpa using matched
  refine ⟨[], (a, 0) :: defaults, rfl, rfl, ?_⟩
  intro step member
  rcases List.mem_cons.1 member with rfl | later
  · exact ⟨needless, rfl⟩
  · exact optional step later

/-- A path uses up what is left of an instruction: the values of every axis, then the filters. -/
structure Consumes (axes : List Axis) (r : Residual) (path : List Step) : Prop where
  filters : ∃ steps, path = steps ++ r.filters.map Step.ofFilter ∧
    ∀ s ∈ steps, ∃ a ∈ axes, s.component = .axis a
  values : ∀ a ∈ axes, TakesValues (r.pending a.field) (stepsOn a.field path)

theorem consumes_filters {axes : List Axis} {r : Residual} (settled : Settled axes [r]) :
    Consumes axes r (r.filters.map Step.ofFilter) where
  filters := ⟨[], rfl, by simp⟩
  values := by
    intro a ha
    rw [pending_eq_nil_of_settled settled ha, stepsOn_filters]
    exact takesValues_nil

theorem consumes_axis {axes : List Axis} {a : Axis} {r s : Residual} {i : Nat} {path : List Step}
    (ha : a ∈ axes) (present : a.mandatory = true → r.pending a.field ≠ [])
    (chosen : r.child (.axis a) = .ok (i, s)) (below : Consumes axes s path) :
    Consumes axes r (⟨.axis a, i⟩ :: path) := by
  obtain ⟨selected, _, rfl⟩ := axisChild_eq_ok_iff.1 chosen
  constructor
  · obtain ⟨steps, rfl, fields⟩ := below.filters
    refine ⟨⟨.axis a, i⟩ :: steps, rfl, ?_⟩
    intro s member
    rcases List.mem_cons.1 member with rfl | later
    · exact ⟨a, ha, rfl⟩
    · exact fields s later
  · intro b hb
    have rest := below.values b hb
    by_cases same : a.field = b.field
    · rw [stepsOn_cons_self same, ← same]
      rw [← same, Residual.pending_consume_self] at rest
      cases pending : r.pending a.field with
      | nil =>
        have needless : a.mandatory = false := by
          cases mandatory : a.mandatory with
          | false => rfl
          | true => exact absurd pending (present mandatory)
        rw [Axis.select_of_pending_eq_nil pending] at selected
        obtain rfl : 0 = i := Option.some.inj selected
        rw [pending] at rest
        exact rest.absent needless
      | cons value later =>
        rw [pending] at rest
        exact rest.cons a ((Axis.select_zero_of_cons pending).symm.trans selected)
    · rw [stepsOn_cons_other same]
      rwa [Residual.pending_consume_other (Ne.symm same)] at rest

/-! ### Paths of grown trees -/

theorem settled_passFilter {axes : List Axis} {r : Residual} (settled : Settled axes [r]) :
    Settled axes [r.passFilter] := settled

theorem walk_of_settled {axes : List Axis} {list : List Residual} {tree : Tree}
    (grown : Grows axes list tree) (settled : Settled axes list) {r : Residual}
    (member : r ∈ list) :
    tree.walk r = some (r.filters.map Step.ofFilter, r.entry) ∧
      tree.Reaches (r.filters.map Step.ofFilter) r.entry := by
  induction grown generalizing r with
  | leaf _ done =>
    obtain rfl := List.mem_singleton.1 member
    rw [done]
    exact ⟨rfl, .leaf r.entry⟩
  | @filter q f fs t _ next _ ih =>
    obtain rfl := List.mem_singleton.1 member
    -- A filter uses up no value, so no axis can split the node below either.
    obtain ⟨walked, reached⟩ := ih (settled_passFilter settled) (List.mem_singleton_self _)
    have rest : r.passFilter.filters = fs := by rw [Residual.passFilter, next, List.tail_cons]
    rw [rest] at walked reached
    rw [next]
    exact ⟨Tree.walk_node rfl rfl walked, .node rfl reached⟩
  | axis found _ _ _ _ _ _ =>
    rw [find?_splits_eq_none_iff.2 settled] at found
    cases found

theorem exists_path {axes : List Axis} {list : List Residual} {tree : Tree}
    (grown : Grows axes list tree) {r : Residual} (member : r ∈ list) :
    ∃ path, tree.walk r = some (path, r.entry) ∧ tree.Reaches path r.entry ∧
      Consumes axes r path := by
  induction grown generalizing r with
  | leaf settled done =>
    have walked := walk_of_settled (.leaf settled done) settled member
    obtain rfl := List.mem_singleton.1 member
    exact ⟨_, walked.1, walked.2, consumes_filters settled⟩
  | filter settled next below _ =>
    have walked := walk_of_settled (.filter settled next below) settled member
    obtain rfl := List.mem_singleton.1 member
    exact ⟨_, walked.1, walked.2, consumes_filters settled⟩
  | @axis list a placed children found placing length vacant _ _ ih =>
    obtain ⟨i, t, chosen, here, arrived⟩ := exists_child placing length vacant member
    obtain ⟨path, walked, reached, consumed⟩ := ih i t here arrived
    have present : a.mandatory = true → r.pending a.field ≠ [] := by
      intro mandatory
      have splits := Axis.splits_eq_true_iff.1 (splits_of_find? found)
      rw [if_pos mandatory] at splits
      exact splits r member
    exact ⟨⟨.axis a, i⟩ :: path, Tree.walk_node chosen here walked, .node here reached,
      consumes_axis (List.mem_of_find?_eq_some found) present chosen consumed⟩

theorem exists_walk_of_reaches {axes : List Axis} {list : List Residual} {tree : Tree}
    (grown : Grows axes list tree) {path : List Step} {e : Entry} (reached : tree.Reaches path e) :
    ∃ r ∈ list, r.entry = e ∧ tree.walk r = some (path, e) := by
  induction grown generalizing path with
  | @leaf r _ _ =>
    cases reached
    exact ⟨r, List.mem_singleton_self r, rfl, rfl⟩
  | @filter r f fs t _ next _ ih =>
    cases reached with
    | @node _ _ i u path _ here below =>
      obtain ⟨inside, same⟩ := List.getElem?_eq_some_iff.1 here
      obtain rfl : i = 0 := by simpa using inside
      obtain rfl : t = u := Option.some.inj same
      obtain ⟨s, member, entry, walked⟩ := ih below
      obtain rfl := List.mem_singleton.1 member
      exact ⟨r, List.mem_singleton_self r, entry, Tree.walk_node rfl rfl walked⟩
  | @axis list a placed children found placing length vacant occupied _ ih =>
    cases reached with
    | @node _ _ i t path _ here below =>
      obtain ⟨s, inside, rfl, walked⟩ := ih i t here below
      obtain ⟨r, member, chosen⟩ := (mem_bucket_iff placing).1 inside
      obtain ⟨_, _, rfl⟩ := axisChild_eq_ok_iff.1 chosen
      exact ⟨r, member, rfl, Tree.walk_node chosen here walked⟩

/-- Whatever path leads to a leaf, it uses up what an instruction of the list had left. -/
theorem exists_consumes_of_reaches {axes : List Axis} {list : List Residual} {tree : Tree}
    (grown : Grows axes list tree) {path : List Step} {e : Entry} (reached : tree.Reaches path e) :
    ∃ r ∈ list, r.entry = e ∧ Consumes axes r path := by
  obtain ⟨r, member, entry, walked⟩ := exists_walk_of_reaches grown reached
  obtain ⟨own, again, _, consumed⟩ := exists_path grown member
  rw [walked] at again
  obtain rfl : path = own := (Prod.mk.inj (Option.some.inj again)).1
  exact ⟨r, member, entry, consumed⟩

theorem stepsOn_eq_nil {axes : List Axis} {r : Residual} {path : List Step}
    (consumed : Consumes axes r path) {f : Field} (unlisted : f ∉ axes.map Axis.field) :
    stepsOn f path = [] := by
  obtain ⟨steps, rfl, fields⟩ := consumed.filters
  have none : stepsOn f steps = [] := by
    rw [stepsOn, List.filterMap_eq_nil_iff]
    intro s member
    obtain ⟨a, ha, component⟩ := fields s member
    have different : a.field ≠ f := by
      rintro rfl
      exact unlisted (List.mem_map_of_mem ha)
    rw [component]
    exact if_neg different
  rw [stepsOn, List.filterMap_append]
  change stepsOn f steps ++ stepsOn f (r.filters.map Step.ofFilter) = []
  rw [none, stepsOn_filters]
  rfl

theorem takesValues_nil_iff {values : List Text} : TakesValues values [] ↔ values = [] := by
  constructor
  · rintro ⟨taken, defaults, split, matched, _⟩
    obtain ⟨rfl, _⟩ := List.append_eq_nil_iff.1 split.symm
    exact List.map_eq_nil_iff.1 matched.symm
  · rintro rfl
    exact takesValues_nil

/-- One path leads to an instruction. It asks for all values of the instruction and then for its
filters, and it is the path that these values choose. -/
theorem dispatch_faithful {axes : List Axis} {entries : List Entry} {tree : Tree}
    (h : (group axes entries).result = .ok tree) {e : Entry} (he : e ∈ entries) :
    ∃ path, (∀ p, tree.Reaches p e ↔ p = path) ∧ Consumes axes (.ofEntry e) path ∧
      tree.walk (.ofEntry e) = some (path, e) := by
  have grown := group_eq_ok_iff.1 h
  obtain ⟨path, walked, reached, consumed⟩ := exists_path grown (List.mem_map_of_mem he)
  refine ⟨path, ?_, consumed, walked⟩
  intro p
  constructor
  · intro other
    obtain ⟨r, member, same, again⟩ := exists_walk_of_reaches grown other
    obtain ⟨d, _, rfl⟩ := List.mem_map.1 member
    obtain rfl : d = e := same
    rw [walked] at again
    exact (Prod.mk.inj (Option.some.inj again)).1.symm
  · rintro rfl
    exact reached

theorem dispatch_faithful_syscall :
    ∃ tree e path, (group legacyAxes threeLegacy).result = .ok tree ∧ e ∈ threeLegacy ∧
      e.instruction.filters = [.only64] ∧ (∀ p, tree.Reaches p e ↔ p = path) ∧
      Consumes legacyAxes (.ofEntry e) path ∧ tree.walk (.ofEntry e) = some (path, e) := by
  obtain ⟨tree, grouped⟩ := groupable_threeLegacy
  obtain ⟨e, he, filters⟩ : ∃ e ∈ threeLegacy, e.instruction.filters = [.only64] := by
    decide +kernel
  obtain ⟨path, only, consumed, walked⟩ := dispatch_faithful grouped he
  exact ⟨tree, e, path, grouped, he, filters, only, consumed, walked⟩

end OpcodeAtlas.Dispatch
