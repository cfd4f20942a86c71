import OpcodeAtlas.Proofs.Text.Marks
import OpcodeAtlas.Proofs.Vocabulary

/-!
Taking decorators out of a token. No decorator holds another and each starts with a mark, so what
stands beside a decorator does not matter: those written behind a text that has none are all found,
and the text is what is left (`strip_append_written`). A piece of text that is no decorator and no
part of one survives (`prefix_strip`, `infix_strip`).
-/

namespace OpcodeAtlas

namespace Decorator

/-- The characters that decorators start with. -/
def isMark (c : Char) : Bool := c = '{' || c = '|'

theorem marked_token (d : Decorator) : Text.Marked isMark (Vocabulary.token d) := by
  cases d <;> exact ⟨_, _, rfl, by decide, by decide⟩

theorem not_infix_of_ne {d e : Decorator} (other : d ≠ e) :
    ¬ Vocabulary.token d <:+: Vocabulary.token e := by
  have apart : ∀ d ∈ (Vocabulary.all : List Decorator), ∀ e ∈ (Vocabulary.all : List Decorator),
      d ≠ e → ¬ Vocabulary.token d <:+: Vocabulary.token e := by
    decide
  exact apart d (Vocabulary.mem_all d) e (Vocabulary.mem_all e) other

end Decorator

namespace Decorators

open Decorator (isMark marked_token not_infix_of_ne)

/-! ### Decorators in a row -/

def written (ds : List Decorator) : Text := ds.flatMap Vocabulary.token

@[simp]
theorem written_nil : written [] = [] := rfl

theorem startsMarked_written (ds : List Decorator) : Text.StartsMarked isMark (written ds) := by
  cases ds with
  | nil => simp [Text.StartsMarked]
  | cons d ds => exact (marked_token d).startsMarked_append (written ds)

theorem infix_written_iff {d : Decorator} {ds : List Decorator} :
    Vocabulary.token d <:+: written ds ↔ d ∈ ds := by
  induction ds with
  | nil => simp [(marked_token d).ne_nil]
  | cons e ds ih =>
    have split := Text.infix_append_iff (t := Vocabulary.token e) (marked_token d)
      (startsMarked_written ds)
    rw [List.mem_cons, ← ih]
    refine split.trans (or_congr_left ?_)
    constructor
    · intro holds
      by_contra other
      exact not_infix_of_ne other holds
    · rintro rfl
      exact List.infix_rfl

theorem replace_written (d : Decorator) (ds : List Decorator) :
    Text.replace (Vocabulary.token d) [] (written ds) = written (ds.filter (· ≠ d)) := by
  induction ds with
  | nil => rfl
  | cons e ds ih =>
    have split : Text.replace (Vocabulary.token d) [] (Vocabulary.token e ++ written ds) =
        Text.replace (Vocabulary.token d) [] (Vocabulary.token e) ++
          Text.replace (Vocabulary.token d) [] (written ds) :=
      Text.replace_append (marked_token d) (startsMarked_written ds)
    refine split.trans ?_
    rw [ih]
    by_cases same : e = d
    · subst same
      have alone : Text.replace (Vocabulary.token e) [] (Vocabulary.token e ++ []) = [] :=
        Text.replace_self_append (marked_token e).ne_nil
      rw [List.append_nil] at alone
      rw [alone, List.filter_cons_of_neg (by simp)]
      rfl
    · rw [Text.replace_of_absent (not_infix_of_ne (Ne.symm same)),
        List.filter_cons_of_pos (by simpa using same)]
      rfl

/-! ### One decorator -/

theorem stripOne_of_absent {d : Decorator} {state : Text × Decorators}
    (absent : ¬ Vocabulary.token d <:+: state.1) : stripOne state d = state := by
  rw [← Text.occurs_iff] at absent
  exact if_neg absent

theorem stripOne_of_present {d : Decorator} {state : Text × Decorators}
    (present : Vocabulary.token d <:+: state.1) :
    stripOne state d = (Text.replace (Vocabulary.token d) [] state.1, state.2.insert d) :=
  if_pos (Text.occurs_iff.2 present)

variable {t : Text}

/-- No decorator is part of the text. -/
def Plain (t : Text) : Prop := ∀ d : Decorator, ¬ Vocabulary.token d <:+: t

instance : Decidable (Plain t) :=
  decidable_of_iff (∀ d ∈ (Vocabulary.all : List Decorator), ¬ Vocabulary.token d <:+: t)
    Vocabulary.forall_iff.symm

theorem stripOne_append_written {d : Decorator} (absent : ¬ Vocabulary.token d <:+: t)
    (ds : List Decorator) (s : Decorators) :
    stripOne (t ++ written ds, s) d =
      (t ++ written (ds.filter (· ≠ d)), if d ∈ ds then s.insert d else s) := by
  have occurrence := (Text.infix_append_iff (t := t) (marked_token d)
    (startsMarked_written ds)).trans (or_iff_right absent)
  rw [infix_written_iff] at occurrence
  by_cases member : d ∈ ds
  · rw [stripOne_of_present (occurrence.2 member),
      Text.replace_append (marked_token d) (startsMarked_written ds),
      Text.replace_of_absent absent, replace_written, if_pos member]
  · have kept : ds.filter (· ≠ d) = ds := by
      rw [List.filter_eq_self]
      intro e here
      simpa using fun same : e = d => member (same ▸ here)
    rw [stripOne_of_absent (mt occurrence.1 member), kept, if_neg member]

/-! ### All decorators -/

theorem exists_foldl_stripOne (plain : Plain t) (searched ds : List Decorator) (s : Decorators) :
    ∃ found, searched.foldl stripOne (t ++ written ds, s) =
        (t ++ written (ds.filter (· ∉ searched)), found) ∧
      ∀ d, d ∈ found ↔ d ∈ s ∨ d ∈ searched ∧ d ∈ ds := by
  induction searched generalizing ds s with
  | nil => exact ⟨s, by simp, by simp⟩
  | cons e searched ih =>
    rw [List.foldl_cons, stripOne_append_written (plain e)]
    obtain ⟨found, run, members⟩ := ih (ds.filter (· ≠ e)) (if e ∈ ds then s.insert e else s)
    refine ⟨found, ?_, fun d => ?_⟩
    · rw [run, List.filter_filter]
      simp [Bool.and_comm]
    · rw [members, List.mem_filter, List.mem_cons, decide_eq_true_eq]
      split
      · rw [OrderedSet.mem_insert]
        grind
      · grind

theorem strip_append_written (plain : Plain t) (ds : List Decorator) :
    (strip (t ++ written ds)).1 = t ∧ ∀ d, d ∈ (strip (t ++ written ds)).2 ↔ d ∈ ds := by
  obtain ⟨found, run, members⟩ := exists_foldl_stripOne plain Vocabulary.all ds ∅
  have none_left : ds.filter (· ∉ (Vocabulary.all : List Decorator)) = [] := by
    rw [List.filter_eq_nil_iff]
    intro d _
    simp [Vocabulary.mem_all d]
  rw [strip, run, none_left]
  refine ⟨List.append_nil t, fun d => (members d).trans ?_⟩
  have unfound : d ∉ (∅ : Decorators) := List.not_mem_nil
  simp [unfound, Vocabulary.mem_all d]

theorem strip_of_plain (plain : Plain t) : (strip t).1 = t := by
  simpa using (strip_append_written plain []).1

/-! ### The start of a mask -/

theorem marked_maskStart : Text.Marked isMark maskStart := ⟨_, _, rfl, by decide, by decide⟩

theorem apart_maskStart : ∀ d : Decorator, d ≠ .mask →
    ¬ Vocabulary.token d <+: maskStart ∧ ¬ maskStart <+: Vocabulary.token d := by
  rw [Vocabulary.forall_iff]
  decide

theorem foldl_stripOne_induction {P : Text → Prop} {searched : List Decorator}
    (kept : ∀ d ∈ searched, ∀ u, P u → P (Text.replace (Vocabulary.token d) [] u))
    {state : Text × Decorators} (initial : P state.1) : P (searched.foldl stripOne state).1 := by
  induction searched generalizing state with
  | nil => exact initial
  | cons d searched ih =>
    rw [List.forall_mem_cons] at kept
    rw [List.foldl_cons]
    apply ih kept.2
    by_cases present : Vocabulary.token d <:+: state.1
    · rw [stripOne_of_present present]
      exact kept.1 state.1 initial
    · rwa [stripOne_of_absent present]

theorem mem_foldl_stripOne_iff {d : Decorator} {searched : List Decorator} (other : d ∉ searched)
    {state : Text × Decorators} : d ∈ (searched.foldl stripOne state).2 ↔ d ∈ state.2 := by
  induction searched generalizing state with
  | nil => rfl
  | cons e searched ih =>
    rw [List.mem_cons, not_or] at other
    rw [List.foldl_cons, ih other.2]
    by_cases present : Vocabulary.token e <:+: state.1
    · rw [stripOne_of_present present, OrderedSet.mem_insert, or_iff_left other.1]
    · rw [stripOne_of_absent present]

/-- The decorators that are looked for once the mask is found. -/
def unmasking : List Decorator := Vocabulary.all.tail

theorem strip_eq (t : Text) : strip t = unmasking.foldl stripOne (stripOne (t, ∅) .mask) := by
  have order : (Vocabulary.all : List Decorator) = .mask :: unmasking := rfl
  rw [strip, order, List.foldl_cons]

theorem mask_not_mem_unmasking : .mask ∉ unmasking := by decide

theorem mask_mem_strip_iff : .mask ∈ (strip t).2 ↔ Vocabulary.token Decorator.mask <:+: t := by
  rw [strip_eq, mem_foldl_stripOne_iff mask_not_mem_unmasking]
  have unfound : .mask ∉ (∅ : Decorators) := List.not_mem_nil
  by_cases present : Vocabulary.token Decorator.mask <:+: t
  · rw [stripOne_of_present present, OrderedSet.mem_insert]
    simp [present]
  · rw [stripOne_of_absent present]
    simp [present, unfound]

theorem ne_mask_of_mem {d : Decorator} (member : d ∈ unmasking) : d ≠ .mask := by
  rintro rfl
  exact mask_not_mem_unmasking member

/-- A mask that is opened in front and not closed stays there. -/
theorem prefix_strip (opened : maskStart <+: t)
    (unclosed : ¬ Vocabulary.token Decorator.mask <+: t) : maskStart <+: (strip t).1 := by
  rw [strip_eq]
  apply foldl_stripOne_induction
  · intro d member u
    obtain ⟨apart, other⟩ := apart_maskStart d (ne_mask_of_mem member)
    exact Text.prefix_replace (marked_token d) marked_maskStart apart other
  · by_cases present : Vocabulary.token Decorator.mask <:+: t
    · rw [stripOne_of_present present]
      obtain ⟨rest, rfl⟩ := opened
      rw [Text.replace_marked_append (marked_token .mask) marked_maskStart unclosed]
      exact List.prefix_append _ _
    · rwa [stripOne_of_absent present]

theorem infix_strip (opened : maskStart <:+: t)
    (unclosed : ¬ Vocabulary.token Decorator.mask <:+: t) : maskStart <:+: (strip t).1 := by
  rw [strip_eq]
  apply foldl_stripOne_induction
  · intro d member u
    obtain ⟨apart, other⟩ := apart_maskStart d (ne_mask_of_mem member)
    exact Text.infix_replace (marked_token d) marked_maskStart apart other
  · rwa [stripOne_of_absent unclosed]

end Decorators

end OpcodeAtlas
