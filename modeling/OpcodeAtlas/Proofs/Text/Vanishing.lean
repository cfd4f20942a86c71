import OpcodeAtlas.Proofs.Text.Deletion

/-!
What deletion leaves. `eraseAll_eq_nil_iff` says which texts are gone after some turns, and
`infix_eraseAll_iff` which patterns are left in the end: those whose pieces are held apart by texts
that go, but not all before the turn of the pattern.
-/

namespace OpcodeAtlas.Text

variable {mark : Char → Bool} {ps : List Text} {p q t u : Text}

/-- Texts that are gone before turn `n`: patterns of earlier turns in a row, each whole or with
texts between its characters that are gone before its own turn. -/
inductive Vanishes (ps : List Text) : Nat → Text → Prop where
  | nil {n : Nat} : Vanishes ps n []
  | cons {n turn : Nat} {p rest : Text} {gaps : List Text} (here : ps[turn]? = some p)
      (earlier : turn < n) (short : gaps.length < p.length)
      (inside : ∀ gap ∈ gaps, Vanishes ps turn gap) (later : Vanishes ps n rest) :
      Vanishes ps n (weave p gaps ++ rest)

theorem Vanishes.append {n : Nat} (first : Vanishes ps n t) (second : Vanishes ps n u) :
    Vanishes ps n (t ++ u) := by
  induction first with
  | nil => exact second
  | cons here earlier short inside _ _ ih =>
    rw [List.append_assoc]
    exact .cons here earlier short inside (ih second)

theorem Vanishes.mono {m n : Nat} (le : m ≤ n) (h : Vanishes ps m t) : Vanishes ps n t := by
  induction h with
  | nil => exact .nil
  | cons here earlier short inside _ _ ih =>
    exact .cons here (Nat.lt_of_lt_of_le earlier le) short inside (ih le)

theorem exists_take_eq {turn n : Nat} (here : ps[turn]? = some p) (earlier : turn < n) :
    ∃ more, ps.take n = ps.take turn ++ p :: more := by
  obtain ⟨inside, rfl⟩ := List.getElem?_eq_some_iff.1 here
  refine ⟨(ps.drop (turn + 1)).take (n - turn - 1), ?_⟩
  obtain ⟨k, rfl⟩ := Nat.exists_eq_add_of_lt earlier
  rw [Nat.add_assoc, List.take_add, List.drop_eq_getElem_cons inside, List.take_succ_cons]
  congr 3
  omega

variable (patterns : Patterns mark ps)

include patterns

theorem exists_split {turn : Nat} (here : ps[turn]? = some q) :
    ∃ back, ps = ps.take turn ++ q :: back ∧ q ∉ ps.take turn ∧ q ∉ back := by
  obtain ⟨inside, rfl⟩ := List.getElem?_eq_some_iff.1 here
  have split : ps = ps.take turn ++ ps[turn] :: ps.drop (turn + 1) := by
    rw [List.cons_getElem_drop_succ, List.take_append_drop]
  have nodup := patterns.nodup
  rw [split, List.nodup_append, List.nodup_cons] at nodup
  exact ⟨_, split, fun member => nodup.2.2 _ member _ List.mem_cons_self rfl, nodup.2.1.1⟩

/-- Once all its gaps are gone, a pattern stands there whole. -/
theorem eraseAll_weave_of_gone {turn : Nat} (here : ps[turn]? = some p) {gaps : List Text}
    (gone : ∀ gap ∈ gaps, eraseAll (ps.take turn) gap = []) :
    eraseAll (ps.take turn) (weave p gaps) = p := by
  obtain ⟨_, _, other, _⟩ := exists_split patterns here
  rw [eraseAll_weave patterns (List.take_subset turn ps) (List.mem_of_getElem? here) other]
  · refine weave_of_empty fun gap member => ?_
    obtain ⟨before, inside, rfl⟩ := List.mem_map.1 member
    exact gone before inside
  · intro gap member
    rw [gone gap member]
    exact startsMarked_nil
  · intro gap member
    rw [gone gap member]
    exact closed_nil ps

theorem eraseAll_eq_nil_of_vanishes {n : Nat} (h : Vanishes ps n t) :
    eraseAll (ps.take n) t = [] := by
  induction h with
  | nil => exact eraseAll_empty _
  | @cons n turn p rest gaps here earlier short inside later gone ih =>
    have starts : StartsMarked mark (eraseAll (ps.take n) rest) := by
      rw [ih]
      exact startsMarked_nil
    obtain ⟨more, split⟩ := exists_take_eq here earlier
    have deleted : erase p p = [] := by
      have alone := erase_self_append (patterns.marked p (List.mem_of_getElem? here)).ne_nil []
      rwa [List.append_nil] at alone
    rw [eraseAll_append_of_startsMarked patterns (List.take_subset n ps) starts, ih,
      List.append_nil, split, eraseAll_append, eraseAll_weave_of_gone patterns here gone,
      eraseAll_cons, deleted, eraseAll_empty]

theorem vanishes_of_erase_eq_nil {turn : Nat} (here : ps[turn]? = some p)
    (earlier : ∀ {u}, eraseAll (ps.take turn) u = [] → Vanishes ps turn u)
    (h : erase p (eraseAll (ps.take turn) t) = []) : Vanishes ps (turn + 1) t := by
  -- On the number of copies of the pattern that are left for its turn.
  generalize before : eraseAll (ps.take turn) t = left at h
  induction size : left.length using Nat.strong_induction_on generalizing left t with
  | _ size ih =>
    have nonempty := (patterns.marked p (List.mem_of_getElem? here)).ne_nil
    rcases exists_of_erase_eq_nil nonempty h with rfl | ⟨rest, rfl, gone⟩
    · exact (earlier before).mono (Nat.le_succ turn)
    · obtain ⟨u, v, rfl, first, second⟩ := exists_append_of_eraseAll_eq before
      obtain ⟨a, gaps, b, rfl, front, back, short, inside⟩ :=
        exists_weave_of_eraseAll_eq nonempty first
      have others : Vanishes ps (turn + 1) v := by
        refine ih rest.length ?_ rest second gone rfl
        rw [← size, List.length_append]
        have := List.length_pos_iff.2 nonempty
        omega
      have piece : Vanishes ps (turn + 1) (weave p gaps ++ b) :=
        .cons here (Nat.lt_succ_self turn) short (fun gap member => earlier (inside gap member))
          ((earlier back).mono (Nat.le_succ turn))
      exact (((earlier front).mono (Nat.le_succ turn)).append piece).append others

theorem eraseAll_eq_nil_iff {n : Nat} : eraseAll (ps.take n) t = [] ↔ Vanishes ps n t := by
  refine ⟨fun h => ?_, eraseAll_eq_nil_of_vanishes patterns⟩
  induction n generalizing t with
  | zero =>
    obtain rfl : t = [] := h
    exact .nil
  | succ n ih =>
    cases here : ps[n]? with
    | none =>
      have done : ps.length ≤ n := List.getElem?_eq_none_iff.1 here
      rw [List.take_of_length_le (Nat.le_succ_of_le done)] at h
      rw [List.take_of_length_le done] at ih
      exact (ih h).mono (Nat.le_succ n)
    | some p =>
      rw [List.take_add_one, here, Option.toList_some, eraseAll_append] at h
      exact vanishes_of_erase_eq_nil patterns here ih h

/-- A pattern whose gaps are not all gone at its turn is there in the end. -/
theorem eraseAll_weave_of_late {turn : Nat} (here : ps[turn]? = some q) {gaps : List Text}
    (short : gaps.length < q.length) (gone : ∀ gap ∈ gaps, eraseAll ps gap = [])
    (late : ∃ gap ∈ gaps, eraseAll (ps.take turn) gap ≠ []) : eraseAll ps (weave q gaps) = q := by
  have member := List.mem_of_getElem? here
  have marked := patterns.marked q member
  obtain ⟨back, split, unlisted, apart⟩ := exists_split patterns here
  generalize front : ps.take turn = early at late split unlisted
  have listed : early ⊆ ps := front ▸ List.take_subset turn ps
  have rest : q :: back ⊆ ps := fun p inside => split ▸ List.mem_append_right early inside
  have ends : ∀ gap ∈ gaps, eraseAll back (erase q (eraseAll early gap)) = [] := by
    intro gap inside
    have gone := gone gap inside
    rw [split, eraseAll_append] at gone
    exact gone
  have starts : ∀ gap ∈ gaps, StartsMarked mark (eraseAll early gap) := fun gap inside =>
    startsMarked_of_eraseAll patterns rest ((ends gap inside).symm ▸ startsMarked_nil)
  have closed : ∀ gap ∈ gaps, Closed ps (eraseAll early gap) := fun gap inside =>
    closed_of_eraseAll patterns rest ((ends gap inside).symm ▸ closed_nil ps)
  have absent : ¬ q <+: weave q (gaps.map (eraseAll early)) := by
    intro front
    have empty := empty_of_prefix_weave marked.unmarked_tail (List.forall_mem_map.2 starts)
      (by rwa [List.length_map]) front
    obtain ⟨gap, inside, left⟩ := late
    exact left (empty _ (List.mem_map_of_mem inside))
  rw [split, eraseAll_append, eraseAll_weave patterns listed member unlisted starts closed,
    eraseAll_cons, erase_weave patterns member marked (List.forall_mem_map.2 closed) absent,
    List.map_map, eraseAll_weave patterns (List.subset_of_cons_subset rest) member apart]
  · refine weave_of_empty ?_
    simpa using ends
  · simpa using fun gap inside => (ends gap inside).symm ▸ startsMarked_nil
  · simpa using fun gap inside => (ends gap inside).symm ▸ closed_nil ps

theorem eraseAll_eq_nil_iff_vanishes : eraseAll ps t = [] ↔ Vanishes ps ps.length t := by
  rw [← eraseAll_eq_nil_iff patterns, List.take_length]

/-- Texts that go around and between the pieces of a pattern leave it, but then one of them is not
gone before its turn. -/
theorem exists_pieces_of_occurs {turn : Nat} (here : ps[turn]? = some q)
    (h : q <:+: eraseAll ps t) :
    ∃ gaps, gaps.length < q.length ∧ weave q gaps <:+: t ∧
      (∀ gap ∈ gaps, Vanishes ps ps.length gap) ∧ ∃ gap ∈ gaps, ¬ Vanishes ps turn gap := by
  have marked := patterns.marked q (List.mem_of_getElem? here)
  obtain ⟨x, y, left⟩ := h
  rw [List.append_assoc] at left
  obtain ⟨a, rest, rfl, _, left⟩ := exists_append_of_eraseAll_eq left.symm
  obtain ⟨w, b, rfl, left, _⟩ := exists_append_of_eraseAll_eq left
  obtain ⟨front, gaps, back, rfl, first, last, short, inside⟩ :=
    exists_weave_of_eraseAll_eq marked.ne_nil left
  refine ⟨gaps, short, ⟨a ++ front, back ++ b, by simp⟩,
    fun gap member => (eraseAll_eq_nil_iff_vanishes patterns).1 (inside gap member), ?_⟩
  by_contra! early
  -- Were all gaps gone in time, the pattern would have been deleted at its turn.
  have piece : eraseAll ps (weave q gaps) = [] := by
    rw [eraseAll_eq_nil_iff_vanishes patterns, ← List.append_nil (weave q gaps)]
    exact .cons here (List.getElem?_eq_some_iff.1 here).1 short early .nil
  have closed : ∀ {u}, eraseAll ps u = [] → Closed ps (eraseAll ps u) := fun gone =>
    gone ▸ closed_nil ps
  rw [eraseAll_append_of_closed patterns (List.Subset.refl ps) (closed first),
    eraseAll_append_of_closed patterns (List.Subset.refl ps) (closed piece), first, piece,
    last] at left
  exact marked.ne_nil left.symm

/-- What stands around a pattern that is left is treated apart from it. -/
theorem infix_eraseAll_of_left {w : Text} (member : q ∈ ps) (left : eraseAll ps w = q)
    (inside : w <:+: t) : q <:+: eraseAll ps t := by
  obtain ⟨x, y, rfl⟩ := inside
  have closed : Closed ps (eraseAll ps w) := left.symm ▸ closed_of_mem patterns member
  have whole : eraseAll ps (w ++ y) = q ++ eraseAll ps y := by
    rw [eraseAll_append_of_closed patterns (List.Subset.refl ps) closed, left]
  have starts : StartsMarked mark (eraseAll ps (w ++ y)) :=
    whole.symm ▸ (patterns.marked q member).startsMarked_append _
  rw [List.append_assoc,
    eraseAll_append_of_startsMarked patterns (List.Subset.refl ps) starts, whole]
  exact ⟨_, _, List.append_assoc _ _ _⟩

/-- A pattern is left where its pieces were held apart by texts that go, at least one of them not
before the turn of the pattern. -/
theorem infix_eraseAll_iff {turn : Nat} (here : ps[turn]? = some q) :
    q <:+: eraseAll ps t ↔
      ∃ gaps, gaps.length < q.length ∧ weave q gaps <:+: t ∧
        (∀ gap ∈ gaps, Vanishes ps ps.length gap) ∧ ∃ gap ∈ gaps, ¬ Vanishes ps turn gap := by
  refine ⟨exists_pieces_of_occurs patterns here, ?_⟩
  rintro ⟨gaps, short, pieces, gone, gap, inside, late⟩
  have left : eraseAll ps (weave q gaps) = q := by
    refine eraseAll_weave_of_late patterns here short
      (fun gap member => (eraseAll_eq_nil_iff_vanishes patterns).2 (gone gap member))
      ⟨gap, inside, ?_⟩
    rwa [Ne, eraseAll_eq_nil_iff patterns]
  exact infix_eraseAll_of_left patterns (List.mem_of_getElem? here) left pieces

end OpcodeAtlas.Text
