import OpcodeAtlas.Line
import OpcodeAtlas.Proofs.Dispatch.Placement
import OpcodeAtlas.Proofs.Traversal

/-!
How decision trees come about. `Grows` derives the tree of a list of instructions node by node and
`Stops` the failure of a list; `group_eq_ok_iff` and `stops_of_group_eq_error` say that these are
the results of grouping, whatever is logged on the way.
-/

namespace OpcodeAtlas.Dispatch

/-! ### Choices -/

/-- No axis can split the instructions any more. -/
def Settled (axes : List Axis) (list : List Residual) : Prop := ∀ a ∈ axes, a.splits list = false

theorem find?_splits_eq_none_iff {axes : List Axis} {list : List Residual} :
    axes.find? (·.splits list) = none ↔ Settled axes list := by
  simp [Settled]

theorem splits_of_find? {axes : List Axis} {list : List Residual} {a : Axis}
    (found : axes.find? (·.splits list) = some a) : a.splits list = true := by
  have splits := List.find?_some found
  exact splits

theorem Axis.splits_eq_true_iff {a : Axis} {list : List Residual} :
    a.splits list = true ↔
      if a.mandatory then ∀ r ∈ list, r.pending a.field ≠ []
      else ∃ r ∈ list, r.pending a.field ≠ [] := by
  unfold splits
  split
  · simp [Residual.has]
  · simp [Residual.has]

theorem pending_eq_nil_of_settled {axes : List Axis} {r : Residual} (settled : Settled axes [r])
    {a : Axis} (ha : a ∈ axes) : r.pending a.field = [] := by
  have unsplit := settled a ha
  rw [← Residual.has_eq_false_iff]
  unfold Axis.splits at unsplit
  split at unsplit
  · simpa using unsplit
  · simpa using unsplit

theorem choose_eq_leaf_iff {axes : List Axis} {list : List Residual} {e : Entry} :
    choose axes list = .leaf e ↔
      Settled axes list ∧ ∃ r, list = [r] ∧ r.filters = [] ∧ r.entry = e := by
  rw [← find?_splits_eq_none_iff]
  unfold choose
  split
  · next found => simp [found]
  · next r none =>
    split
    · next done => simp [none, done]
    · next next => simp [none, next]
  · next several none =>
    simp only [reduceCtorEq, none, true_and, false_iff]
    rintro ⟨r, rfl, _⟩
    exact several r rfl

theorem choose_eq_axis_iff {axes : List Axis} {list : List Residual} {a : Axis} :
    choose axes list = .split (.axis a) ↔ axes.find? (·.splits list) = some a := by
  unfold choose
  split
  · next found => simp [found]
  · next r none => split <;> simp [none]
  · next none => simp [none]

theorem choose_eq_filter_iff {axes : List Axis} {list : List Residual} {f : Filter} :
    choose axes list = .split (.filter f) ↔
      Settled axes list ∧ ∃ r fs, list = [r] ∧ r.filters = f :: fs := by
  rw [← find?_splits_eq_none_iff]
  unfold choose
  split
  · next found => simp [found]
  · next r none =>
    split
    · next done => simp [done]
    · next next => simp [none, next]
  · next several none =>
    simp only [reduceCtorEq, none, true_and, false_iff]
    rintro ⟨r, fs, rfl, _⟩
    exact several r rfl

theorem choose_eq_ambiguous_iff {axes : List Axis} {list : List Residual} :
    choose axes list = .ambiguous ↔ Settled axes list ∧ list.length ≠ 1 := by
  rw [← find?_splits_eq_none_iff]
  unfold choose
  split
  · next found => simp [found]
  · next r none => split <;> simp
  · next several none =>
    simp only [none, true_and, true_iff]
    intro single
    obtain ⟨r, rfl⟩ := List.length_eq_one_iff.1 single
    exact several r rfl

/-! ### Results -/

theorem result_build_leaf {axes : List Axis} {level : Nat} {list : List Residual} {e : Entry}
    (chosen : choose axes list = .leaf e) : (build axes level list).result = .ok (.leaf e) := by
  rw [build]
  split <;> simp_all

theorem result_build_ambiguous {axes : List Axis} {level : Nat} {list : List Residual}
    (chosen : choose axes list = .ambiguous) :
    (build axes level list).result = .error (.invalid (conflictOf list)) := by
  rw [build]
  split <;> simp_all

/-- What fills the slot of a child. -/
def slotResult (axes : List Axis) (level : Nat) (list : List Residual) :
    Except GroupError (Option Tree) :=
  if list = [] then .ok none else some <$> (build axes level list).result

theorem result_build_split {axes : List Axis} {level : Nat} {list : List Residual} {c : Component}
    (chosen : choose axes list = .split c) :
    (build axes level list).result = do
      let placed ← place c list
      let children ← (List.range c.size).mapM fun i =>
        slotResult axes (level + 1) (bucket i placed)
      return .node c children := by
  have slot : ∀ below : List Residual,
      (if _ : below = [] then pure none else some <$> build axes (level + 1) below :
        Logged GroupError (Option Tree)).result = slotResult axes (level + 1) below := by
    intro below
    unfold slotResult
    split
    · rfl
    · exact Logged.result_map _ _
  rw [build]
  split
  · next here => cases chosen.symm.trans here
  · next here => cases chosen.symm.trans here
  · next d here =>
    obtain rfl : c = d := Choice.split.inj (chosen.symm.trans here)
    split
    · next e failed =>
      rw [failed]
      rfl
    · next placed placing =>
      rw [placing]
      simp only [Logged.result_bind, Logged.result_write, Logged.result_mapM, slot]
      rfl

theorem result_group (axes : List Axis) (entries : List Entry) :
    (group axes entries).result = (build axes 0 (entries.map Residual.ofEntry)).result := by
  simp only [group, Logged.result_bind, Logged.result_write, Logged.result_pure]
  generalize (build axes 0 (entries.map Residual.ofEntry)).result = result
  cases result <;> rfl

/-! ### Derivations -/

/-- What is left of an instruction below the node of its next filter. -/
def Residual.passFilter (r : Residual) : Residual := { r with filters := r.filters.tail }

/-- The decision tree of a list of instructions. -/
inductive Grows (axes : List Axis) : List Residual → Tree → Prop where
  | leaf {r : Residual} (settled : Settled axes [r]) (done : r.filters = []) :
      Grows axes [r] (.leaf r.entry)
  | filter {r : Residual} {f : Filter} {fs : List Filter} {t : Tree} (settled : Settled axes [r])
      (next : r.filters = f :: fs) (below : Grows axes [r.passFilter] t) :
      Grows axes [r] (.node (.filter f) [some t])
  | axis {list : List Residual} {a : Axis} {placed : List (Nat × Residual)}
      {children : List (Option Tree)} (found : axes.find? (·.splits list) = some a)
      (placing : place (.axis a) list = .ok placed) (length : children.length = a.size)
      (vacant : ∀ i, children[i]? = some none → bucket i placed = [])
      (occupied : ∀ i t, children[i]? = some (some t) → bucket i placed ≠ [])
      (below : ∀ i t, children[i]? = some (some t) → Grows axes (bucket i placed) t) :
      Grows axes list (.node (.axis a) children)

/-- A failure of a list of instructions: at its own node, or at the node of a child. -/
inductive Stops (axes : List Axis) : List Residual → GroupError → Prop where
  | ambiguous {list : List Residual} (settled : Settled axes list) (several : list.length ≠ 1) :
      Stops axes list (.invalid (conflictOf list))
  | misplaced {list : List Residual} {a : Axis} {e : GroupError}
      (found : axes.find? (·.splits list) = some a) (placing : place (.axis a) list = .error e) :
      Stops axes list e
  | filter {r : Residual} {f : Filter} {fs : List Filter} {e : GroupError}
      (settled : Settled axes [r]) (next : r.filters = f :: fs)
      (below : Stops axes [r.passFilter] e) : Stops axes [r] e
  | axis {list : List Residual} {a : Axis} {placed : List (Nat × Residual)} {i : Nat}
      {e : GroupError} (found : axes.find? (·.splits list) = some a)
      (placing : place (.axis a) list = .ok placed) (bounded : i < a.size)
      (occupied : bucket i placed ≠ []) (below : Stops axes (bucket i placed) e) :
      Stops axes list e

theorem exists_child {a : Axis} {list : List Residual} {placed : List (Nat × Residual)}
    {children : List (Option Tree)} (placing : place (.axis a) list = .ok placed)
    (length : children.length = a.size)
    (vacant : ∀ i, children[i]? = some none → bucket i placed = []) {r : Residual}
    (member : r ∈ list) :
    ∃ i t, r.child (.axis a) = .ok (i, r.consume a.field) ∧ children[i]? = some (some t) ∧
      r.consume a.field ∈ bucket i placed := by
  obtain ⟨i, selected, bounded⟩ := select_of_place placing member
  have chosen := axisChild_eq_ok_iff.2 ⟨selected, bounded, rfl⟩
  have arrived := (mem_bucket_iff placing).2 ⟨r, member, chosen⟩
  have inside : i < children.length := by omega
  cases slot : children[i] with
  | none =>
    have empty := vacant i (by rw [List.getElem?_eq_getElem inside, slot])
    rw [empty] at arrived
    cases arrived
  | some t => exact ⟨i, t, chosen, by rw [List.getElem?_eq_getElem inside, slot], arrived⟩

/-- What the slot of a child holds: nothing, or the tree of the instructions placed there. -/
def Fills (axes : List Axis) (list : List Residual) (slot : Option Tree) : Prop :=
  (list = [] ∧ slot = none) ∨ (list ≠ [] ∧ ∃ t, slot = some t ∧ Grows axes list t)

theorem grows_leaf_iff {axes : List Axis} {list : List Residual} {e : Entry} :
    Grows axes list (.leaf e) ↔ choose axes list = .leaf e := by
  rw [choose_eq_leaf_iff]
  constructor
  · intro grown
    cases grown with
    | leaf settled done => exact ⟨settled, _, rfl, done, rfl⟩
  · rintro ⟨settled, r, rfl, done, rfl⟩
    exact .leaf settled done

theorem grows_axis_iff {axes : List Axis} {list : List Residual} {a : Axis}
    {children : List (Option Tree)} :
    Grows axes list (.node (.axis a) children) ↔
      choose axes list = .split (.axis a) ∧ ∃ placed, place (.axis a) list = .ok placed ∧
        List.Forall₂ (fun i => Fills axes (bucket i placed)) (List.range a.size) children := by
  rw [choose_eq_axis_iff]
  constructor
  · intro grown
    cases grown with
    | @axis _ _ placed _ found placing length vacant occupied below =>
      refine ⟨found, placed, placing, Traversal.forall₂_range_iff.2 ⟨length, ?_⟩⟩
      intro i slot here
      cases slot with
      | none => exact .inl ⟨vacant i here, rfl⟩
      | some t => exact .inr ⟨occupied i t here, t, rfl, below i t here⟩
  · rintro ⟨found, placed, placing, filled⟩
    obtain ⟨length, filled⟩ := Traversal.forall₂_range_iff.1 filled
    refine .axis found placing length ?_ ?_ ?_
    · intro i here
      rcases filled i none here with ⟨empty, _⟩ | ⟨_, t, impossible, _⟩
      · exact empty
      · cases impossible
    · intro i t here
      rcases filled i (some t) here with ⟨_, impossible⟩ | ⟨occupied, _⟩
      · cases impossible
      · exact occupied
    · intro i t here
      rcases filled i (some t) here with ⟨_, impossible⟩ | ⟨_, u, same, grown⟩
      · cases impossible
      · exact Option.some.inj same ▸ grown

theorem grows_filter_iff {axes : List Axis} {list : List Residual} {f : Filter}
    {children : List (Option Tree)} :
    Grows axes list (.node (.filter f) children) ↔
      choose axes list = .split (.filter f) ∧ ∃ placed, place (.filter f) list = .ok placed ∧
        List.Forall₂ (fun i => Fills axes (bucket i placed)) (List.range 1) children := by
  rw [choose_eq_filter_iff]
  constructor
  · intro grown
    cases grown with
    | filter settled next below =>
      exact ⟨⟨settled, _, _, rfl, next⟩, _, rfl, .cons (.inr ⟨by simp [bucket], _, rfl, below⟩) .nil⟩
  · rintro ⟨⟨settled, r, fs, rfl, next⟩, placed, placing, filled⟩
    obtain rfl : [(0, r.passFilter)] = placed := Except.ok.inj placing
    obtain ⟨slot, others, here, none, rfl⟩ := List.forall₂_cons_left_iff.1 filled
    obtain rfl := List.forall₂_nil_left_iff.1 none
    rcases here with ⟨empty, _⟩ | ⟨_, t, rfl, below⟩
    · simp [bucket] at empty
    · exact .filter settled next below

theorem grows_node_iff {axes : List Axis} {list : List Residual} {c : Component}
    {children : List (Option Tree)} :
    Grows axes list (.node c children) ↔
      choose axes list = .split c ∧ ∃ placed, place c list = .ok placed ∧
        List.Forall₂ (fun i => Fills axes (bucket i placed)) (List.range c.size) children := by
  cases c with
  | axis a => exact grows_axis_iff
  | filter f => exact grows_filter_iff

theorem slotResult_eq_ok_iff {axes : List Axis} {level : Nat} {list : List Residual}
    (grows : list ≠ [] → ∀ t, (build axes level list).result = .ok t ↔ Grows axes list t)
    {slot : Option Tree} : slotResult axes level list = .ok slot ↔ Fills axes list slot := by
  unfold slotResult Fills
  split
  · next empty => simp [empty, eq_comm]
  · next occupied =>
    rw [Traversal.map_eq_ok_iff]
    simp only [occupied, false_and, false_or, grows occupied]
    constructor
    · rintro ⟨t, grown, rfl⟩
      exact ⟨occupied, t, rfl, grown⟩
    · rintro ⟨_, t, rfl, grown⟩
      exact ⟨t, grown, rfl⟩

/-- Grouping succeeds exactly where a tree can be derived. -/
theorem build_eq_ok_iff {axes : List Axis} {level : Nat} {list : List Residual} {tree : Tree} :
    (build axes level list).result = .ok tree ↔ Grows axes list tree := by
  induction level, list using build.induct axes generalizing tree with
  | case1 level list e chosen =>
    rw [result_build_leaf chosen]
    cases tree with
    | leaf d => simp [grows_leaf_iff, chosen]
    | node c children => simp [grows_node_iff, chosen]
  | case2 level list chosen =>
    rw [result_build_ambiguous chosen]
    cases tree with
    | leaf d => simp [grows_leaf_iff, chosen]
    | node c children => simp [grows_node_iff, chosen]
  | case3 level list c chosen e failed =>
    rw [result_build_split chosen, Traversal.bind_eq_ok_iff]
    cases tree with
    | leaf d => simp [grows_leaf_iff, chosen, failed]
    | node d children =>
      simp only [grows_node_iff, chosen, Choice.split.injEq, failed, reduceCtorEq, false_and,
        exists_false, false_iff]
      rintro ⟨rfl, placed, placing, _⟩
      cases failed.symm.trans placing
  | case4 level list c chosen placed placing ih =>
    have slots : ∀ i slot, slotResult axes (level + 1) (bucket i placed) = .ok slot ↔
        Fills axes (bucket i placed) slot :=
      fun i _ => slotResult_eq_ok_iff fun occupied _ => ih i occupied
    rw [result_build_split chosen, Traversal.bind_eq_ok_iff]
    simp only [placing, Except.ok.injEq, exists_eq_left', Traversal.bind_eq_ok_iff,
      Traversal.mapM_eq_ok_iff, slots]
    cases tree with
    | leaf d =>
      simp only [grows_leaf_iff, chosen, reduceCtorEq, iff_false]
      rintro ⟨children, _, impossible⟩
      cases impossible
    | node d children =>
      rw [grows_node_iff, chosen, Choice.split.injEq]
      constructor
      · rintro ⟨_, filled, same⟩
        cases same
        exact ⟨rfl, placed, placing, filled⟩
      · rintro ⟨rfl, others, again, filled⟩
        obtain rfl : placed = others := Except.ok.inj (placing.symm.trans again)
        exact ⟨children, filled, rfl⟩

theorem stops_of_build_eq_error {axes : List Axis} {level : Nat} {list : List Residual}
    {e : GroupError} (h : (build axes level list).result = .error e) : Stops axes list e := by
  induction level, list using build.induct axes with
  | case1 level list d chosen =>
    rw [result_build_leaf chosen] at h
    cases h
  | case2 level list chosen =>
    obtain ⟨settled, several⟩ := choose_eq_ambiguous_iff.1 chosen
    rw [result_build_ambiguous chosen] at h
    cases h
    exact .ambiguous settled several
  | case3 level list c chosen d failed =>
    rw [result_build_split chosen, failed] at h
    cases h
    cases c with
    | axis a => exact .misplaced (choose_eq_axis_iff.1 chosen) failed
    | filter f =>
      obtain ⟨_, r, _, rfl, _⟩ := choose_eq_filter_iff.1 chosen
      cases failed
  | case4 level list c chosen placed placing ih =>
    rw [result_build_split chosen, placing] at h
    obtain impossible | ⟨_, ⟨⟩, h⟩ := Traversal.bind_eq_error_iff.1 h
    · cases impossible
    rcases Traversal.bind_eq_error_iff.1 h with failed | ⟨children, _, impossible⟩
    · obtain ⟨i, inside, failed⟩ := Traversal.exists_of_mapM_eq_error failed
      rw [List.mem_range] at inside
      unfold slotResult at failed
      split at failed
      · cases failed
      · next occupied =>
        have below := ih i occupied (Traversal.map_eq_error_iff.1 failed)
        cases c with
        | axis a => exact .axis (choose_eq_axis_iff.1 chosen) placing inside occupied below
        | filter f =>
          obtain ⟨settled, r, fs, rfl, next⟩ := choose_eq_filter_iff.1 chosen
          obtain rfl : [(0, r.passFilter)] = placed := Except.ok.inj placing
          obtain rfl : i = 0 := Nat.lt_one_iff.1 inside
          exact .filter settled next below
    · cases impossible

/-! ### Grouping -/

/-- The instructions can be told apart. -/
def Groupable (axes : List Axis) (entries : List Entry) : Prop :=
  ∃ tree, (group axes entries).result = .ok tree

theorem group_eq_ok_iff {axes : List Axis} {entries : List Entry} {tree : Tree} :
    (group axes entries).result = .ok tree ↔ Grows axes (entries.map Residual.ofEntry) tree := by
  rw [result_group, build_eq_ok_iff]

theorem stops_of_group_eq_error {axes : List Axis} {entries : List Entry} {e : GroupError}
    (h : (group axes entries).result = .error e) :
    Stops axes (entries.map Residual.ofEntry) e := by
  rw [result_group] at h
  exact stops_of_build_eq_error h

/-! ### Instructions to try -/

/-- The instructions of lines under the standard templates. Lines that hold none drop out. -/
def instructionsOf (lines : List String) : List Instruction :=
  lines.filterMap fun line => (Line.parse .standard line.toList).toOption.join

/-- Two instructions that share an opcode and one that has a filter. -/
def threeLegacy : List Entry :=
  Entry.number (instructionsOf ["NOP ; ; ; 0x90 ; s:I86", "PAUSE ; ; ; repz 0x90 ; s:PAUSE",
    "SYSCALL ; ; ; 0x0F 0x05 ; m:O64"])

/-- Two instructions of one byte and one of another. -/
def sharedByte : List Entry :=
  Entry.number (instructionsOf ["NOP ; ; ; 0x90 ; s:I86", "XCHG ; ; ; 0x90 ; m:O64",
    "INT3 ; ; ; 0xCC ; s:I86"])

theorem groupable_threeLegacy : Groupable legacyAxes threeLegacy :=
  Traversal.exists_of_isOk (by decide +kernel)

end OpcodeAtlas.Dispatch
