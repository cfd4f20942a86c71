import OpcodeAtlas.Proofs.Dispatch.Leaves
import OpcodeAtlas.Proofs.Text.Output

/-!
What a dump tells about its tree. There are no brackets in a dump and a leaf may be displayed like a
slot line, but the lines below a slot line are indented further and there is at least one of them.
So the dump of a tree that was grouped determines its shape (`sameShape_of_render`).
-/

namespace OpcodeAtlas.Dispatch

namespace Tree

theorem dumpSlots_eq (level : Nat) (c : Component) (first : Nat) (cs : List (Option Tree)) :
    dumpSlots level c first cs = (occupied first cs).flatMap fun child =>
      slotLine level c child.1 :: child.2.dump (level + 1) := by
  induction cs generalizing first with
  | nil => rfl
  | cons slot cs ih =>
    cases slot with
    | none => rw [dumpSlots, occupied_none, ih (first + 1)]
    | some t => rw [dumpSlots, occupied_some, List.flatMap_cons, ih (first + 1)]

/-! ### Shape -/

/-- Both trees have the same kind of node everywhere: nodes of components of one name with the same
slots in use, and leaves that are displayed alike. -/
inductive SameShape : Tree → Tree → Prop where
  | leaf {d e : Entry} (display : d.instruction.display = e.instruction.display) :
      SameShape (.leaf d) (.leaf e)
  | node {c d : Component} {cs ds : List (Option Tree)} (name : c.name = d.name)
      (used : ∀ i : Nat, (∃ t, cs[i]? = some (some t)) ↔ ∃ u, ds[i]? = some (some u))
      (below : ∀ (i : Nat) (t u : Tree), cs[i]? = some (some t) → ds[i]? = some (some u) →
        SameShape t u) :
      SameShape (.node c cs) (.node d ds)

/-- Every node has a child. -/
inductive Populated : Tree → Prop where
  | leaf (e : Entry) : Populated (.leaf e)
  | node {c : Component} {cs : List (Option Tree)}
      (used : ∃ (i : Nat) (t : Tree), cs[i]? = some (some t))
      (below : ∀ (i : Nat) (t : Tree), cs[i]? = some (some t) → Populated t) :
      Populated (.node c cs)

theorem Populated.occupied_ne_nil {c : Component} {cs : List (Option Tree)}
    (populated : Populated (.node c cs)) : occupied 0 cs ≠ [] := by
  cases populated with
  | node used _ =>
    obtain ⟨i, t, here⟩ := used
    exact List.ne_nil_of_mem (mem_occupied_iff.2 here)

theorem Populated.of_mem_occupied {c : Component} {cs : List (Option Tree)}
    (populated : Populated (.node c cs)) {child : Nat × Tree} (member : child ∈ occupied 0 cs) :
    child.2.Populated := by
  cases populated with
  | node _ below => exact below child.1 child.2 (mem_occupied_iff.1 member)

end Tree

theorem populated_of_grows {axes : List Axis} {list : List Residual} {tree : Tree}
    (grown : Grows axes list tree) (nonempty : list ≠ []) : tree.Populated := by
  induction grown with
  | leaf _ _ => exact .leaf _
  | @filter r f fs t _ _ _ ih =>
    refine .node ⟨0, t, rfl⟩ fun i u here => ?_
    obtain ⟨_, rfl⟩ : i = 0 ∧ t = u := by simpa [List.getElem?_singleton] using here
    exact ih (List.cons_ne_nil _ _)
  | axis _ placing length vacant occupied _ ih =>
    obtain ⟨r, member⟩ := List.exists_mem_of_ne_nil _ nonempty
    obtain ⟨i, t, _, here, _⟩ := exists_child placing length vacant member
    exact .node ⟨i, t, here⟩ fun j u there => ih j u there (occupied j u there)

namespace Tree

/-! ### Lines -/

theorem indent_succ (level : Nat) : indent (level + 1) = indent level ++ List.replicate 4 ' ' := by
  rw [indent, indent, List.replicate_append_replicate]
  rfl

theorem plain_name (c : Component) : c.name ≠ [] ∧ ' ' ∉ c.name ∧ '\n' ∉ c.name := by
  have fields : ∀ f : Field, Vocabulary.token f ≠ [] ∧ ' ' ∉ Vocabulary.token f ∧
      '\n' ∉ Vocabulary.token f := by
    intro f
    cases f <;> decide
  cases c with
  | axis a => exact fields a.field
  | filter f => cases f <;> decide

theorem slotLine_eq (level : Nat) (c : Component) (i : Nat) :
    slotLine level c i = indent level ++ (c.name ++ ' ' :: Text.padLeft 2 '0' (Text.hex i)) := by
  simp [slotLine]

theorem slotLine_inj {level : Nat} {c d : Component} {i j : Nat}
    (same : slotLine level c i = slotLine level d j) : c.name = d.name ∧ i = j := by
  rw [slotLine_eq, slotLine_eq] at same
  have cuts := congrArg (Text.cut ' ') (List.append_cancel_left same)
  rw [Text.cut_append_cons (plain_name c).2.1, Text.cut_append_cons (plain_name d).2.1] at cuts
  obtain ⟨names, numbers⟩ := Prod.mk.inj (Option.some.inj cuts)
  have read := congrArg (Text.digits? 16) numbers
  rw [Text.digits?_padLeft_hex, Text.digits?_padLeft_hex] at read
  exact ⟨names, Option.some.inj read⟩

theorem indent_prefix_slotLine (level : Nat) (c : Component) (i : Nat) :
    indent level <+: slotLine level c i := by
  rw [slotLine_eq]
  exact List.prefix_append _ _

theorem not_indent_prefix_slotLine (level : Nat) (c : Component) (i : Nat) :
    ¬ indent (level + 1) <+: slotLine level c i := by
  obtain ⟨named, spaceless, _⟩ := plain_name c
  rw [indent_succ, slotLine_eq, List.prefix_append_right_inj]
  cases name : c.name with
  | nil => exact absurd name named
  | cons x rest =>
    rw [name, List.mem_cons, not_or] at spaceless
    intro inside
    exact spaceless.1 (List.cons_prefix_cons.1 inside).1

theorem indent_prefix_of_mem_dump {t : Tree} (populated : t.Populated) {level : Nat} {line : Text}
    (member : line ∈ t.dump level) : indent level <+: line := by
  induction populated generalizing level line with
  | leaf e =>
    obtain rfl := List.mem_singleton.1 member
    exact List.prefix_append _ _
  | @node c cs _ _ ih =>
    rw [dump, dumpSlots_eq, List.mem_flatMap] at member
    obtain ⟨⟨i, t⟩, child, member⟩ := member
    rcases List.mem_cons.1 member with rfl | deeper
    · exact indent_prefix_slotLine level c i
    · have inside := ih i t (mem_occupied_iff.1 child) deeper
      rw [indent_succ] at inside
      exact (List.prefix_append _ _).trans inside

theorem notMem_indent (level : Nat) : '\n' ∉ indent level := by
  intro member
  cases List.eq_of_mem_replicate member

theorem notMem_slotLine (level : Nat) (c : Component) (i : Nat) : '\n' ∉ slotLine level c i := by
  have alien : Text.digit? 16 '\n' = none := by decide
  have digits := Text.notMem_of_digits? alien (Text.digits?_padLeft_hex 2 i)
  simp only [slotLine_eq, List.mem_append, List.mem_cons, not_or]
  exact ⟨notMem_indent level, (plain_name c).2.2, by decide, digits⟩

theorem unbroken_dump {t : Tree} (populated : t.Populated)
    (unbroken : ∀ e ∈ t.leaves, '\n' ∉ e.instruction.display) {level : Nat} {line : Text}
    (member : line ∈ t.dump level) : '\n' ∉ line := by
  induction populated generalizing level line with
  | leaf e =>
    obtain rfl := List.mem_singleton.1 member
    rw [List.mem_append, not_or]
    exact ⟨notMem_indent level, unbroken e (List.mem_singleton_self e)⟩
  | @node c cs _ _ ih =>
    rw [dump, dumpSlots_eq, List.mem_flatMap] at member
    obtain ⟨⟨i, t⟩, child, member⟩ := member
    rcases List.mem_cons.1 member with rfl | deeper
    · exact notMem_slotLine level c i
    · refine ih i t (mem_occupied_iff.1 child) (fun e leaf => unbroken e ?_) deeper
      exact mem_leaves_node_iff.2 ⟨i, t, mem_occupied_iff.1 child, leaf⟩

/-! ### Blocks -/

section Blocks

variable {ι : Type} (deep : Text → Bool) {head head' : ι → Text} {body : ι → List Text}

theorem takeWhile_block (shallow : ∀ i, deep (head i) = false) {lines : List Text}
    (inner : ∀ line ∈ lines, deep line = true) (is : List ι) :
    (lines ++ is.flatMap fun i => head i :: body i).takeWhile deep = lines := by
  rw [List.takeWhile_append_of_pos inner]
  cases is with
  | nil => simp
  | cons i is => simp [shallow]

/-- A sequence of blocks, each a line and deeper lines below it, can be taken apart in one way. -/
theorem forall₂_of_blocks_eq (shallow : ∀ i, deep (head i) = false)
    (shallow' : ∀ i, deep (head' i) = false) {is js : List ι}
    (inner : ∀ i ∈ is, ∀ line ∈ body i, deep line = true)
    (inner' : ∀ j ∈ js, ∀ line ∈ body j, deep line = true)
    (same : (is.flatMap fun i => head i :: body i) = js.flatMap fun j => head' j :: body j) :
    List.Forall₂ (fun i j => head i = head' j ∧ body i = body j) is js := by
  induction is generalizing js with
  | nil =>
    cases js with
    | nil => exact .nil
    | cons j js => simp at same
  | cons i is ih =>
    cases js with
    | nil => simp at same
    | cons j js =>
      rw [List.forall_mem_cons] at inner inner'
      rw [List.flatMap_cons, List.flatMap_cons, List.cons_append, List.cons_append] at same
      obtain ⟨heads, rest⟩ := List.cons.inj same
      -- The first body ends where the next line is not deeper, so both first bodies are the same.
      have bodies : body i = body j := by
        rw [← takeWhile_block deep shallow inner.1 is, rest,
          takeWhile_block deep shallow' inner'.1 js]
      rw [bodies] at rest
      exact .cons ⟨heads, bodies⟩ (ih inner.2 inner'.2 (List.append_cancel_left rest))

end Blocks

/-! ### Dumps -/

theorem dump_ne_nil {t : Tree} (populated : t.Populated) (level : Nat) : t.dump level ≠ [] := by
  cases t with
  | leaf e => exact List.cons_ne_nil _ _
  | node c cs =>
    rw [dump, dumpSlots_eq]
    obtain ⟨child, member⟩ := List.exists_mem_of_ne_nil _ populated.occupied_ne_nil
    exact List.ne_nil_of_mem (List.mem_flatMap.2 ⟨child, member, List.mem_cons_self⟩)

/-- A slot line is never the last one. -/
theorem dump_node_ne_singleton {c : Component} {cs : List (Option Tree)}
    (populated : Populated (.node c cs)) (level : Nat) (line : Text) :
    (node c cs).dump level ≠ [line] := by
  rw [dump, dumpSlots_eq]
  cases children : occupied 0 cs with
  | nil => exact absurd children populated.occupied_ne_nil
  | cons child rest =>
    have member : child ∈ occupied 0 cs := children ▸ List.mem_cons_self
    have deeper := dump_ne_nil (populated.of_mem_occupied member) (level + 1)
    simp [deeper]

/-- The line is indented further than a node's own slot lines. -/
def isDeeper (level : Nat) (line : Text) : Bool := (indent (level + 1)).isPrefixOf line

theorem isDeeper_slotLine (level : Nat) (c : Component) (i : Nat) :
    isDeeper level (slotLine level c i) = false := by
  rw [isDeeper, ← Bool.not_eq_true, List.isPrefixOf_iff_prefix]
  exact not_indent_prefix_slotLine level c i

theorem isDeeper_of_mem_dump {t : Tree} (populated : t.Populated) {level : Nat} {line : Text}
    (member : line ∈ t.dump (level + 1)) : isDeeper level line = true :=
  List.isPrefixOf_iff_prefix.2 (indent_prefix_of_mem_dump populated member)

theorem children_of_dump {c d : Component} {cs ds : List (Option Tree)}
    (populated : Populated (.node c cs)) (populated' : Populated (.node d ds)) {level : Nat}
    (same : (node c cs).dump level = (node d ds).dump level) :
    List.Forall₂ (fun t u => slotLine level c t.1 = slotLine level d u.1 ∧
      t.2.dump (level + 1) = u.2.dump (level + 1)) (occupied 0 cs) (occupied 0 ds) := by
  rw [dump, dump, dumpSlots_eq, dumpSlots_eq] at same
  have shallow : ∀ (c : Component) (t : Nat × Tree),
      isDeeper level (slotLine level c t.1) = false :=
    fun c t => isDeeper_slotLine level c t.1
  refine forall₂_of_blocks_eq (isDeeper level) (shallow c) (shallow d) ?_ ?_ same
  · intro t member line inside
    exact isDeeper_of_mem_dump (populated.of_mem_occupied member) inside
  · intro u member line inside
    exact isDeeper_of_mem_dump (populated'.of_mem_occupied member) inside

theorem SameShape.of_children {c d : Component} {cs ds : List (Option Tree)}
    (name : c.name = d.name)
    (forward : ∀ (i : Nat) (t : Tree), cs[i]? = some (some t) →
      ∃ u, ds[i]? = some (some u) ∧ SameShape t u)
    (backward : ∀ (i : Nat) (u : Tree), ds[i]? = some (some u) → ∃ t, cs[i]? = some (some t)) :
    SameShape (.node c cs) (.node d ds) := by
  refine .node name (fun i => ⟨?_, ?_⟩) ?_
  · rintro ⟨t, here⟩
    obtain ⟨u, there, _⟩ := forward i t here
    exact ⟨u, there⟩
  · rintro ⟨u, there⟩
    exact backward i u there
  · intro i t u here there
    obtain ⟨v, again, same⟩ := forward i t here
    obtain rfl : u = v := Option.some.inj (Option.some.inj (there.symm.trans again))
    exact same

/-- Trees with the same dump have the same shape. -/
theorem sameShape_of_dump {a b : Tree} (populated : a.Populated) (populated' : b.Populated)
    {level : Nat} (same : a.dump level = b.dump level) : SameShape a b := by
  induction populated generalizing b level with
  | leaf d =>
    cases b with
    | leaf e =>
      rw [dump, dump, List.singleton_inj] at same
      exact .leaf (List.append_cancel_left same)
    | node c cs =>
      -- A leaf may look like a slot line, but there is no line below it.
      rw [dump] at same
      exact absurd same.symm (dump_node_ne_singleton populated' level _)
  | @node c cs used below ih =>
    have populated : Populated (.node c cs) := .node used below
    cases b with
    | leaf e =>
      rw [dump] at same
      exact absurd same (dump_node_ne_singleton populated level _)
    | node d ds =>
      have children := children_of_dump populated populated' same
      have name : c.name = d.name := by
        obtain ⟨t, member⟩ := List.exists_mem_of_ne_nil _ populated.occupied_ne_nil
        obtain ⟨u, _, lines, _⟩ := Traversal.exists_right_of_forall₂ children member
        exact (slotLine_inj lines).1
      refine .of_children name ?_ ?_
      · intro i t here
        obtain ⟨⟨j, u⟩, member, lines, dumps⟩ :=
          Traversal.exists_right_of_forall₂ children (mem_occupied_iff.2 here)
        obtain ⟨_, rfl⟩ := slotLine_inj lines
        have alike := ih i t here (populated'.of_mem_occupied member) dumps
        exact ⟨u, mem_occupied_iff.1 member, alike⟩
      · intro j u there
        obtain ⟨⟨i, t⟩, member, lines, _⟩ :=
          Traversal.exists_left_of_forall₂ children (mem_occupied_iff.2 there)
        obtain ⟨_, rfl⟩ := slotLine_inj lines
        exact ⟨t, mem_occupied_iff.1 member⟩

end Tree

/-- Dumps are faithful: two trees that were grouped, of whatever instructions and by whatever axes,
have the same shape if their dumps are the same text. What is displayed at a leaf may look like any
line of a dump, as long as it is one line. -/
theorem sameShape_of_render {axes axes' : List Axis} {entries entries' : List Entry} {a b : Tree}
    (ha : (group axes entries).result = .ok a) (hb : (group axes' entries').result = .ok b)
    (nonempty : entries ≠ []) (nonempty' : entries' ≠ [])
    (unbroken : ∀ e ∈ a.leaves, '\n' ∉ e.instruction.display)
    (unbroken' : ∀ e ∈ b.leaves, '\n' ∉ e.instruction.display) (same : a.render = b.render) :
    a.SameShape b := by
  have populated := populated_of_grows (group_eq_ok_iff.1 ha) (by simpa using nonempty)
  have populated' := populated_of_grows (group_eq_ok_iff.1 hb) (by simpa using nonempty')
  have lines : a.dump 0 = b.dump 0 :=
    Text.unlines_inj (fun _ member => Tree.unbroken_dump populated unbroken member)
      (fun _ member => Tree.unbroken_dump populated' unbroken' member) same
  exact Tree.sameShape_of_dump populated populated' lines

/-- The axes of legacy instructions with room for twice as many values. -/
def wideLegacyAxes : List Axis := legacyAxes.map fun a => ⟨a.field, 2 * a.size, a.mandatory⟩

def dumpOfThreeLegacy : Text :=
  Text.unlines
    ["opcode 0f", "    opcode 05", "        no1632 00", "            SYSCALL",
      "opcode 90", "    auxiliary 00", "        NOP", "    auxiliary 01", "        PAUSE"]

theorem sameShape_of_render_reverse :
    ∃ a b, (group legacyAxes threeLegacy).result = .ok a ∧
      (group wideLegacyAxes threeLegacy.reverse).result = .ok b ∧ threeLegacy ≠ [] ∧
      threeLegacy.reverse ≠ [] ∧ (∀ e ∈ a.leaves, '\n' ∉ e.instruction.display) ∧
      (∀ e ∈ b.leaves, '\n' ∉ e.instruction.display) ∧ a.render = dumpOfThreeLegacy ∧
      b.render = dumpOfThreeLegacy ∧ a.SameShape b := by
  obtain ⟨a, ha, first⟩ := Traversal.exists_of_any (show (group legacyAxes
    threeLegacy).result.toOption.any (·.render = dumpOfThreeLegacy) = true by decide +kernel)
  obtain ⟨b, hb, second⟩ := Traversal.exists_of_any (show (group wideLegacyAxes
    threeLegacy.reverse).result.toOption.any (·.render = dumpOfThreeLegacy) = true by
      decide +kernel)
  rw [decide_eq_true_eq] at first second
  have nonempty : threeLegacy ≠ [] := List.ne_nil_of_length_pos (by decide +kernel)
  have nonempty' : threeLegacy.reverse ≠ [] := by simpa using nonempty
  have all : ∀ e ∈ threeLegacy, '\n' ∉ e.instruction.display := by decide +kernel
  have unbroken : ∀ e ∈ a.leaves, '\n' ∉ e.instruction.display :=
    fun e leaf => all e ((leaves_perm_of_group ha).mem_iff.1 leaf)
  have unbroken' : ∀ e ∈ b.leaves, '\n' ∉ e.instruction.display :=
    fun e leaf => all e (List.mem_reverse.1 ((leaves_perm_of_group hb).mem_iff.1 leaf))
  have same := sameShape_of_render ha hb nonempty nonempty' unbroken unbroken'
    (first.trans second.symm)
  exact ⟨a, b, ha, hb, nonempty, nonempty', unbroken, unbroken', first, second, same⟩

end OpcodeAtlas.Dispatch
