import Mathlib.Data.List.Infix
import OpcodeAtlas.Text.Basic

/-!
Replacing patterns that start with a mark. A pattern that holds a mark in front and no other cannot
reach across a mark, so replacement works on the pieces of a text between marks one by one
(`replace_append`).
-/

namespace OpcodeAtlas.Text

variable {mark : Char → Bool} {p q t rest new : Text}

def Unmarked (mark : Char → Bool) (t : Text) : Prop := ∀ c ∈ t, mark c = false

-- Searching the text, and not all characters there are.
instance : Decidable (Unmarked mark t) := List.decidableBAll (mark · = false) t

theorem unmarked_nil : Unmarked mark [] := by simp [Unmarked]

/-- A mark comes first and none after it. -/
def Marked (mark : Char → Bool) (p : Text) : Prop :=
  ∃ c body, p = c :: body ∧ mark c = true ∧ Unmarked mark body

/-- Nothing, or a mark comes first. -/
def StartsMarked (mark : Char → Bool) (t : Text) : Prop := ∀ c ∈ t.head?, mark c = true

theorem startsMarked_nil : StartsMarked mark [] := by simp [StartsMarked]

theorem Marked.ne_nil (marked : Marked mark p) : p ≠ [] := by
  obtain ⟨c, body, rfl, _⟩ := marked
  simp

theorem Marked.startsMarked_append (marked : Marked mark p) (rest : Text) :
    StartsMarked mark (p ++ rest) := by
  obtain ⟨c, body, rfl, first, _⟩ := marked
  simpa [StartsMarked] using first

/-! ### Occurrences -/

theorem prefix_of_unmarked (unmarked : Unmarked mark p) (starts : StartsMarked mark rest)
    (h : p <+: t ++ rest) : p <+: t := by
  rcases List.prefix_or_prefix_of_prefix h (List.prefix_append t rest) with within | beyond
  · exact within
  · obtain ⟨extra, rfl⟩ := beyond
    cases extra with
    | nil => simp
    | cons c extra =>
      rw [List.prefix_append_right_inj] at h
      obtain ⟨tail, rfl⟩ := h
      have first : mark c = true := starts c (by simp)
      have none : mark c = false := unmarked c (by simp)
      simp [first] at none

theorem prefix_append_iff (marked : Marked mark p) (starts : StartsMarked mark rest)
    (nonempty : t ≠ []) : p <+: t ++ rest ↔ p <+: t := by
  constructor
  · intro h
    obtain ⟨c, body, rfl, _, unmarked⟩ := marked
    cases t with
    | nil => exact absurd rfl nonempty
    | cons a t =>
      rw [List.cons_append, List.cons_prefix_cons] at h
      rw [List.cons_prefix_cons]
      exact ⟨h.1, prefix_of_unmarked unmarked starts h.2⟩
  · intro h
    exact h.trans (List.prefix_append t rest)

theorem infix_append_iff (marked : Marked mark p) (starts : StartsMarked mark rest) :
    p <:+: t ++ rest ↔ p <:+: t ∨ p <:+: rest := by
  induction t with
  | nil => simp [marked.ne_nil]
  | cons a t ih =>
    rw [List.cons_append, List.infix_cons_iff, List.infix_cons_iff, ih, ← List.cons_append,
      prefix_append_iff marked starts (List.cons_ne_nil a t), or_assoc]

/-- Characters that the pattern does not hold add no occurrence at the end. -/
theorem infix_append_of_disjoint (nonempty : p ≠ []) (apart : ∀ c ∈ rest, c ∉ p) :
    p <:+: t ++ rest ↔ p <:+: t := by
  induction rest generalizing t with
  | nil => simp
  | cons c rest ih =>
    rw [List.append_cons, ih fun b member => apart b (List.mem_cons_of_mem c member),
      List.infix_concat_iff]
    refine or_iff_right ?_
    intro ends
    obtain ⟨front, same⟩ := ends
    apply apart c List.mem_cons_self
    have last : p.getLast nonempty = c := by
      have joined := congrArg List.getLast? same
      rw [List.getLast?_append_of_ne_nil _ nonempty, List.getLast?_concat,
        List.getLast?_eq_some_getLast nonempty] at joined
      exact Option.some.inj joined
    exact last ▸ List.getLast_mem nonempty

/-! ### Replacement -/

theorem replaceFrom_length_append (u : Text) :
    replaceFrom p new u.length (u ++ rest) = replace p new rest := by
  induction u with
  | nil => rfl
  | cons c u ih => exact ih

theorem replace_self_append (nonempty : p ≠ []) :
    replace p new (p ++ rest) = new ++ replace p new rest := by
  cases p with
  | nil => exact absurd rfl nonempty
  | cons c body =>
    have here : (c :: body).isPrefixOf (c :: (body ++ rest)) = true := by
      rw [List.isPrefixOf_iff_prefix]
      exact List.prefix_append (c :: body) rest
    unfold replace
    rw [List.cons_append, replaceFrom, if_pos here]
    exact congrArg (new ++ ·) (replaceFrom_length_append body)

theorem replace_cons_of_absent {c : Char} (absent : ¬ p <+: c :: t) :
    replace p new (c :: t) = c :: replace p new t := by
  rw [← List.isPrefixOf_iff_prefix] at absent
  exact if_neg absent

theorem replace_of_absent (absent : ¬ p <:+: t) : replace p new t = t := by
  induction t with
  | nil => rfl
  | cons c t ih =>
    rw [List.infix_cons_iff, not_or] at absent
    rw [replace_cons_of_absent absent.1, ih absent.2]

/-- Where no occurrence reaches from `t` into what follows, each is replaced by itself; skipped
characters stay within `t`. -/
theorem replaceFrom_append_of_whole (whole : ∀ s, s <:+ t → s ≠ [] → p <+: s ++ rest → p <+: s)
    {skip : Nat} (within : skip ≤ t.length) :
    replaceFrom p new skip (t ++ rest) = replaceFrom p new skip t ++ replace p new rest := by
  induction t generalizing skip with
  | nil =>
    obtain rfl : skip = 0 := Nat.le_zero.1 within
    rfl
  | cons c t ih =>
    replace ih := @ih fun s ends => whole s (ends.trans (List.suffix_cons c t))
    rw [List.length_cons] at within
    cases skip with
    | succ skip => exact ih (by omega)
    | zero =>
      have same : p.isPrefixOf (c :: (t ++ rest)) = p.isPrefixOf (c :: t) := by
        rw [Bool.eq_iff_iff, List.isPrefixOf_iff_prefix, List.isPrefixOf_iff_prefix,
          ← List.cons_append]
        constructor
        · exact whole (c :: t) List.suffix_rfl (List.cons_ne_nil c t)
        · intro h
          exact h.trans (List.prefix_append (c :: t) rest)
      rw [List.cons_append, replaceFrom, replaceFrom, same]
      split
      · next here =>
        rw [List.isPrefixOf_iff_prefix] at here
        have short := here.length_le
        rw [List.length_cons] at short
        rw [ih (by omega), List.append_assoc]
      · rw [ih (Nat.zero_le _), List.cons_append]

theorem replace_append (marked : Marked mark p) (starts : StartsMarked mark rest) :
    replace p new (t ++ rest) = replace p new t ++ replace p new rest :=
  replaceFrom_append_of_whole (fun _ _ nonempty => (prefix_append_iff marked starts nonempty).1)
    (Nat.zero_le _)

theorem replace_unmarked_append (marked : Marked mark p) (unmarked : Unmarked mark t) :
    replace p new (t ++ rest) = t ++ replace p new rest := by
  obtain ⟨m, body, rfl, first, _⟩ := marked
  induction t with
  | nil => rfl
  | cons c t ih =>
    rw [Unmarked, List.forall_mem_cons] at unmarked
    have apart : ¬ m :: body <+: c :: (t ++ rest) := by
      intro h
      obtain ⟨rfl, _⟩ := List.cons_prefix_cons.1 h
      simp [first] at unmarked
    rw [List.cons_append, replace_cons_of_absent apart, ih unmarked.2, List.cons_append]

/-- A marked piece that the pattern does not start is left alone. -/
theorem replace_marked_append (marked : Marked mark p) (piece : Marked mark q)
    (apart : ¬ p <+: q ++ rest) : replace p new (q ++ rest) = q ++ replace p new rest := by
  obtain ⟨c, body, rfl, _, unmarked⟩ := piece
  rw [List.cons_append] at apart
  rw [List.cons_append, replace_cons_of_absent apart, replace_unmarked_append marked unmarked,
    List.cons_append]

theorem not_prefix_append (apart : ¬ p <+: q) (other : ¬ q <+: p) (rest : Text) :
    ¬ p <+: q ++ rest := by
  intro h
  rcases List.prefix_or_prefix_of_prefix h (List.prefix_append q rest) with within | beyond
  · exact apart within
  · exact other beyond

theorem prefix_replace (marked : Marked mark p) (piece : Marked mark q) (apart : ¬ p <+: q)
    (other : ¬ q <+: p) (h : q <+: t) : q <+: replace p new t := by
  obtain ⟨rest, rfl⟩ := h
  rw [replace_marked_append marked piece (not_prefix_append apart other rest)]
  exact List.prefix_append _ _

theorem infix_replace (marked : Marked mark p) (piece : Marked mark q) (apart : ¬ p <+: q)
    (other : ¬ q <+: p) (h : q <:+: t) : q <:+: replace p new t := by
  obtain ⟨before, rest, rfl⟩ := h
  rw [List.append_assoc, replace_append marked (piece.startsMarked_append rest),
    replace_marked_append marked piece (not_prefix_append apart other rest)]
  exact ⟨_, _, List.append_assoc _ _ _⟩

end OpcodeAtlas.Text
