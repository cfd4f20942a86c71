import OpcodeAtlas.Proofs.Text.Marks

/-!
Deleting marked patterns one after the other, each in a single pass. What stands on both sides of a
deleted text is joined, unless the text behind still starts with a mark
(`eraseAll_append_of_startsMarked`) or the text in front leaves no pattern unfinished
(`eraseAll_append_of_closed`). A pattern in pieces stays as it is while the texts between them go
(`eraseAll_weave`).
-/

namespace OpcodeAtlas.Text

variable {mark : Char → Bool} {p q t u v x y : Text}

def erase (p t : Text) : Text := replace p [] t

def eraseAll (ps : List Text) (t : Text) : Text := ps.foldl (fun u p => erase p u) t

@[simp]
theorem eraseAll_cons (p : Text) (ps : List Text) (t : Text) :
    eraseAll (p :: ps) t = eraseAll ps (erase p t) := rfl

theorem eraseAll_append (ps qs : List Text) (t : Text) :
    eraseAll (ps ++ qs) t = eraseAll qs (eraseAll ps t) := List.foldl_append

@[simp]
theorem eraseAll_empty (ps : List Text) : eraseAll ps [] = [] := by
  induction ps with
  | nil => rfl
  | cons p ps ih => exact ih

/-! ### One pattern -/

/-- An occurrence whose characters end in front of `c` is one without what follows. -/
theorem prefix_of_covered {c d : Char} (h : p <+: d :: (x ++ c :: y))
    (covered : p.length - 1 ≤ x.length) : p <+: d :: x := by
  rw [← List.cons_append] at h
  refine List.prefix_of_prefix_length_le h (List.prefix_append (d :: x) (c :: y)) ?_
  rw [List.length_cons]
  omega

/-- A character that is left stands for itself, and what stands around it is treated apart. -/
theorem exists_of_replaceFrom_eq {skip : Nat} {c : Char}
    (h : replaceFrom p [] skip t = x ++ c :: y) :
    ∃ a b, t = a ++ c :: b ∧ skip ≤ a.length ∧ replaceFrom p [] skip a = x ∧
      replaceFrom p [] skip (a ++ [c]) = x ++ [c] ∧ erase p b = y := by
  induction t generalizing skip x with
  | nil => simp [replaceFrom] at h
  | cons d t ih =>
    cases skip with
    | succ skip =>
      obtain ⟨a, b, rfl, covered, before, through, after⟩ := ih h
      exact ⟨d :: a, b, rfl, Nat.succ_le_succ covered, before, through, after⟩
    | zero =>
      rw [replaceFrom] at h
      split at h
      · next here =>
        obtain ⟨a, b, rfl, covered, before, through, after⟩ := ih h
        have inside := prefix_of_covered (List.isPrefixOf_iff_prefix.1 here) covered
        have beyond : p <+: d :: (a ++ [c]) := inside.trans (List.prefix_append (d :: a) [c])
        refine ⟨d :: a, b, rfl, Nat.zero_le _, ?_, ?_, after⟩
        · rw [replaceFrom, if_pos (List.isPrefixOf_iff_prefix.2 inside)]
          exact before
        · rw [List.cons_append, replaceFrom, if_pos (List.isPrefixOf_iff_prefix.2 beyond)]
          exact through
      · next absent =>
        rw [List.isPrefixOf_iff_prefix] at absent
        have kept : ∀ {u v}, u ++ v = t →
            replaceFrom p [] 0 (d :: u) = d :: replaceFrom p [] 0 u := by
          rintro u v rfl
          exact replace_cons_of_absent fun inside =>
            absent (inside.trans (List.prefix_append (d :: u) v))
        cases x with
        | nil =>
          obtain ⟨rfl, rfl⟩ := List.cons_eq_cons.1 h
          exact ⟨[], t, rfl, Nat.zero_le _, rfl, kept (List.nil_append t), rfl⟩
        | cons e x =>
          obtain ⟨rfl, rest⟩ := List.cons_eq_cons.1 h
          obtain ⟨a, b, rfl, _, before, through, after⟩ := ih rest
          refine ⟨d :: a, b, rfl, Nat.zero_le _, ?_, ?_, after⟩
          · rw [kept rfl, before]
          · rw [List.cons_append, kept (List.append_cons a c b).symm, through]
            rfl

theorem erase_self_append (nonempty : p ≠ []) (t : Text) : erase p (p ++ t) = erase p t :=
  replace_self_append nonempty

theorem exists_of_erase_eq_nil (nonempty : p ≠ []) (h : erase p t = []) :
    t = [] ∨ ∃ rest, t = p ++ rest ∧ erase p rest = [] := by
  cases t with
  | nil => exact .inl rfl
  | cons c t =>
    by_cases here : p <+: c :: t
    · obtain ⟨rest, same⟩ := here
      rw [← same, erase_self_append nonempty] at h
      exact .inr ⟨rest, same.symm, h⟩
    · rw [erase, replace_cons_of_absent here] at h
      cases h

theorem startsMarked_of_erase (marked : Marked mark p) (h : StartsMarked mark (erase p t)) :
    StartsMarked mark t := by
  obtain ⟨m, body, rfl, first, _⟩ := marked
  cases t with
  | nil => exact h
  | cons c t =>
    by_cases same : m = c
    · subst same
      simpa [StartsMarked] using first
    · have absent : ¬ m :: body <+: c :: t := fun here => same (List.cons_prefix_cons.1 here).1
      rw [erase, replace_cons_of_absent absent] at h
      simpa [StartsMarked] using h

theorem Marked.not_infix_of_unmarked (marked : Marked mark p) (unmarked : Unmarked mark t) :
    ¬ p <:+: t := by
  obtain ⟨m, rest, rfl, first, _⟩ := marked
  intro inside
  have none := unmarked m (inside.subset List.mem_cons_self)
  rw [first] at none
  cases none

theorem Marked.starts_of_occurs (marked : Marked mark p) (other : Marked mark q) (h : p <:+: q) :
    p <+: q := by
  obtain ⟨c, body, rfl, _, unmarked⟩ := other
  rcases List.infix_cons_iff.1 h with start | inside
  · exact start
  · exact absurd inside (marked.not_infix_of_unmarked unmarked)

theorem Marked.of_starts (marked : Marked mark p) (nonempty : q ≠ []) (h : q <+: p) :
    Marked mark q := by
  obtain ⟨c, body, rfl, first, unmarked⟩ := marked
  cases q with
  | nil => exact absurd rfl nonempty
  | cons d q =>
    obtain ⟨rfl, rest⟩ := List.cons_prefix_cons.1 h
    exact ⟨d, q, rfl, first, fun a member => unmarked a (rest.subset member)⟩

theorem Marked.eq_of_suffix (marked : Marked mark p) (other : Marked mark q) (h : p <:+ q) :
    p = q := by
  obtain ⟨c, body, rfl, _, unmarked⟩ := other
  rcases List.suffix_cons_iff.1 h with same | inside
  · exact same
  · exact absurd inside.isInfix (marked.not_infix_of_unmarked unmarked)

/-! ### Several patterns -/

/-- Marked patterns, each once, none of which starts another. -/
structure Patterns (mark : Char → Bool) (ps : List Text) : Prop where
  marked : ∀ p ∈ ps, Marked mark p
  apart : ∀ p ∈ ps, ∀ q ∈ ps, p <+: q → p = q
  nodup : ps.Nodup

/-- The beginning of a pattern, without its end. -/
structure Unfinished (ps : List Text) (q : Text) : Prop where
  nonempty : q ≠ []
  starts : ∃ p ∈ ps, q <+: p ∧ q ≠ p

/-- No pattern is left unfinished at the end of the text. -/
def Closed (ps : List Text) (t : Text) : Prop := ∀ q, Unfinished ps q → ¬ q <:+ t

theorem closed_nil (ps : List Text) : Closed ps [] := fun _ unfinished ends =>
  unfinished.nonempty (List.suffix_nil.1 ends)

variable {all ps : List Text}

theorem Unfinished.marked (patterns : Patterns mark all) (h : Unfinished all q) :
    Marked mark q := by
  obtain ⟨p, member, starts, _⟩ := h.starts
  exact (patterns.marked p member).of_starts h.nonempty starts

theorem Unfinished.erase_eq (patterns : Patterns mark all) (h : Unfinished all q)
    (member : p ∈ all) : erase p q = q := by
  refine replace_of_absent fun inside => ?_
  have here := (patterns.marked p member).starts_of_occurs (h.marked patterns) inside
  obtain ⟨r, listed, starts, short⟩ := h.starts
  obtain rfl := patterns.apart p member r listed (here.trans starts)
  exact short (starts.eq_of_length_le here.length_le)

theorem closed_of_mem (patterns : Patterns mark all) (member : p ∈ all) : Closed all p := by
  intro q unfinished ends
  obtain rfl := (unfinished.marked patterns).eq_of_suffix (patterns.marked p member) ends
  obtain ⟨r, listed, starts, short⟩ := unfinished.starts
  exact short (patterns.apart q member r listed starts)

theorem closed_of_erase (patterns : Patterns mark all) (member : p ∈ all)
    (h : Closed all (erase p t)) : Closed all t := by
  rintro q unfinished ⟨rest, rfl⟩
  have starts : StartsMarked mark q := by
    simpa using (unfinished.marked patterns).startsMarked_append []
  have kept : erase p (rest ++ q) = erase p rest ++ q :=
    (replace_append (patterns.marked p member) starts).trans
      (congrArg (erase p rest ++ ·) (unfinished.erase_eq patterns member))
  exact h q unfinished (kept ▸ List.suffix_append _ _)

theorem erase_append_of_closed (member : p ∈ all) (closed : Closed all t) (rest : Text) :
    erase p (t ++ rest) = erase p t ++ erase p rest := by
  refine replaceFrom_append_of_whole (fun s ends nonempty h => ?_) (Nat.zero_le _)
  rcases List.prefix_or_prefix_of_prefix h (List.prefix_append s rest) with within | beyond
  · exact within
  · by_cases same : s = p
    · exact same ▸ List.prefix_rfl
    · exact absurd ends (closed s ⟨nonempty, p, member, beyond, same⟩)

section Turns

variable (patterns : Patterns mark all) (listed : ps ⊆ all)

include patterns listed

theorem startsMarked_of_eraseAll (h : StartsMarked mark (eraseAll ps t)) :
    StartsMarked mark t := by
  induction ps generalizing t with
  | nil => exact h
  | cons p ps ih =>
    rw [List.cons_subset] at listed
    exact startsMarked_of_erase (patterns.marked p listed.1) (ih listed.2 h)

theorem closed_of_eraseAll (h : Closed all (eraseAll ps t)) : Closed all t := by
  induction ps generalizing t with
  | nil => exact h
  | cons p ps ih =>
    rw [List.cons_subset] at listed
    exact closed_of_erase patterns listed.1 (ih listed.2 h)

/-- Nothing is joined at a cut that keeps a mark behind it. -/
theorem eraseAll_append_of_startsMarked (h : StartsMarked mark (eraseAll ps y)) (x : Text) :
    eraseAll ps (x ++ y) = eraseAll ps x ++ eraseAll ps y := by
  induction ps generalizing x y with
  | nil => rfl
  | cons p ps ih =>
    rw [List.cons_subset] at listed
    have starts : StartsMarked mark y :=
      startsMarked_of_erase (patterns.marked p listed.1)
        (startsMarked_of_eraseAll patterns listed.2 h)
    have first : erase p (x ++ y) = erase p x ++ erase p y :=
      replace_append (patterns.marked p listed.1) starts
    rw [eraseAll_cons, eraseAll_cons, eraseAll_cons, first, ih listed.2 h]

/-- Nothing is joined at a cut that leaves no pattern unfinished in front of it. -/
theorem eraseAll_append_of_closed (h : Closed all (eraseAll ps x)) (y : Text) :
    eraseAll ps (x ++ y) = eraseAll ps x ++ eraseAll ps y := by
  induction ps generalizing x y with
  | nil => rfl
  | cons p ps ih =>
    rw [List.cons_subset] at listed
    have closed : Closed all x :=
      closed_of_erase patterns listed.1 (closed_of_eraseAll patterns listed.2 h)
    rw [eraseAll_cons, eraseAll_cons, eraseAll_cons, erase_append_of_closed listed.1 closed,
      ih listed.2 h]

end Turns

theorem exists_of_eraseAll_eq {c : Char} (h : eraseAll ps t = x ++ c :: y) :
    ∃ a b, t = a ++ c :: b ∧ eraseAll ps a = x ∧ eraseAll ps (a ++ [c]) = x ++ [c] ∧
      eraseAll ps b = y := by
  induction ps generalizing t with
  | nil =>
    obtain rfl : t = x ++ c :: y := h
    exact ⟨x, y, rfl, rfl, rfl, rfl⟩
  | cons p ps ih =>
    obtain ⟨u, v, erased, rfl, last, rfl⟩ := ih h
    obtain ⟨a, b, rfl, _, before, through, after⟩ := exists_of_replaceFrom_eq erased
    refine ⟨a, b, rfl, congrArg (eraseAll ps) before, ?_, congrArg (eraseAll ps) after⟩
    exact (congrArg (eraseAll ps) through).trans last

theorem exists_append_of_eraseAll_eq (h : eraseAll ps t = x ++ y) :
    ∃ a b, t = a ++ b ∧ eraseAll ps a = x ∧ eraseAll ps b = y := by
  rcases List.eq_nil_or_concat x with rfl | ⟨x, c, rfl⟩
  · exact ⟨[], t, rfl, eraseAll_empty ps, h⟩
  · rw [List.concat_eq_append, List.append_assoc, List.singleton_append] at h
    obtain ⟨a, b, rfl, _, through, after⟩ := exists_of_eraseAll_eq h
    rw [List.concat_eq_append]
    exact ⟨a ++ [c], b, List.append_cons a c b, through, after⟩

/-! ### Pieces held apart -/

/-- A text with a gap behind each of its first characters, filled in order. -/
def weave : Text → List Text → Text
  | [], _ => []
  | c :: t, [] => c :: t
  | c :: t, gap :: gaps => c :: (gap ++ weave t gaps)

theorem weave_of_empty {gaps : List Text} (empty : ∀ gap ∈ gaps, gap = []) : weave t gaps = t := by
  induction t generalizing gaps with
  | nil => rfl
  | cons c t ih =>
    cases gaps with
    | nil => rfl
    | cons gap gaps =>
      rw [List.forall_mem_cons] at empty
      rw [weave, empty.1, ih empty.2, List.nil_append]

theorem Unmarked.tail (unmarked : Unmarked mark t) : Unmarked mark t.tail :=
  fun c member => unmarked c (List.mem_of_mem_tail member)

theorem Marked.unmarked_tail (marked : Marked mark p) : Unmarked mark p.tail := by
  obtain ⟨c, body, rfl, _, unmarked⟩ := marked
  exact unmarked

theorem Unmarked.not_startsMarked {c : Char} (unmarked : Unmarked mark (c :: t)) :
    ¬ StartsMarked mark (c :: u) := by
  intro starts
  have first : mark c = true := starts c rfl
  rw [unmarked c List.mem_cons_self] at first
  cases first

/-- A pattern does not reach into a gap, which starts with a mark. -/
theorem prefix_of_prefix_weave {gaps : List Text} (unmarked : Unmarked mark p.tail)
    (starts : ∀ gap ∈ gaps, StartsMarked mark gap) (h : p <+: weave t gaps) : p <+: t := by
  induction t generalizing p gaps with
  | nil => exact h
  | cons c t ih =>
    cases gaps with
    | nil => exact h
    | cons gap gaps =>
      rw [List.forall_mem_cons] at starts
      cases p with
      | nil => exact List.nil_prefix
      | cons d p =>
        obtain ⟨rfl, rest⟩ := List.cons_prefix_cons.1 h
        refine List.cons_prefix_cons.2 ⟨rfl, ?_⟩
        cases gap with
        | nil => exact ih (Unmarked.tail unmarked) starts.2 rest
        | cons m gap =>
          cases p with
          | nil => exact List.nil_prefix
          | cons e p =>
            obtain ⟨rfl, _⟩ := List.cons_prefix_cons.1 rest
            exact absurd starts.1 (Unmarked.not_startsMarked unmarked)

/-- A pattern stands at the front only if nothing holds its pieces apart. -/
theorem empty_of_prefix_weave {gaps : List Text} (unmarked : Unmarked mark p.tail)
    (starts : ∀ gap ∈ gaps, StartsMarked mark gap) (short : gaps.length < p.length)
    (h : p <+: weave p gaps) : ∀ gap ∈ gaps, gap = [] := by
  induction p generalizing gaps with
  | nil => simp at short
  | cons c p ih =>
    cases gaps with
    | nil => simp
    | cons gap gaps =>
      rw [List.forall_mem_cons] at starts ⊢
      rw [List.length_cons, List.length_cons, Nat.succ_lt_succ_iff] at short
      obtain ⟨_, rest⟩ := List.cons_prefix_cons.1 h
      cases gap with
      | nil => exact ⟨rfl, ih (Unmarked.tail unmarked) starts.2 short rest⟩
      | cons m gap =>
        cases p with
        | nil => simp at short
        | cons e p =>
          obtain ⟨rfl, _⟩ := List.cons_prefix_cons.1 rest
          exact absurd starts.1 (Unmarked.not_startsMarked unmarked)

theorem erase_weave_of_unmarked (patterns : Patterns mark all) (member : p ∈ all)
    (unmarked : Unmarked mark t) {gaps : List Text} (closed : ∀ gap ∈ gaps, Closed all gap) :
    erase p (weave t gaps) = weave t (gaps.map (erase p)) := by
  induction t generalizing gaps with
  | nil => rfl
  | cons c t ih =>
    have kept : ∀ rest, erase p (c :: rest) = c :: erase p rest := by
      intro rest
      have alone : Unmarked mark [c] := by simpa [Unmarked] using unmarked c List.mem_cons_self
      exact replace_unmarked_append (patterns.marked p member) alone
    cases gaps with
    | nil =>
      have whole : erase p (c :: t ++ []) = c :: t ++ erase p [] :=
        replace_unmarked_append (patterns.marked p member) unmarked
      rw [List.append_nil] at whole
      exact whole.trans (List.append_nil _)
    | cons gap gaps =>
      rw [List.forall_mem_cons] at closed
      rw [weave, kept, erase_append_of_closed member closed.1, ih (Unmarked.tail unmarked) closed.2]
      rfl

theorem erase_weave (patterns : Patterns mark all) (member : p ∈ all) (marked : Marked mark q)
    {gaps : List Text} (closed : ∀ gap ∈ gaps, Closed all gap) (absent : ¬ p <+: weave q gaps) :
    erase p (weave q gaps) = weave q (gaps.map (erase p)) := by
  obtain ⟨c, body, rfl, _, unmarked⟩ := marked
  cases gaps with
  | nil =>
    have rest : erase p (weave body []) = weave body [] :=
      erase_weave_of_unmarked patterns member unmarked (by simp)
    cases body with
    | nil => exact replace_cons_of_absent absent
    | cons d body => exact (replace_cons_of_absent absent).trans (congrArg (c :: ·) rest)
  | cons gap gaps =>
    rw [List.forall_mem_cons] at closed
    have first : erase p (weave (c :: body) (gap :: gaps)) =
        c :: erase p (gap ++ weave body gaps) := replace_cons_of_absent absent
    rw [first, erase_append_of_closed member closed.1,
      erase_weave_of_unmarked patterns member unmarked closed.2]
    rfl

/-- The pieces of a pattern stay as they are while other patterns are deleted in the gaps. -/
theorem eraseAll_weave (patterns : Patterns mark all) (listed : ps ⊆ all) (member : q ∈ all)
    (other : q ∉ ps) {gaps : List Text}
    (starts : ∀ gap ∈ gaps, StartsMarked mark (eraseAll ps gap))
    (closed : ∀ gap ∈ gaps, Closed all (eraseAll ps gap)) :
    eraseAll ps (weave q gaps) = weave q (gaps.map (eraseAll ps)) := by
  induction ps generalizing gaps with
  | nil => exact (congrArg (weave q) (List.map_id gaps)).symm
  | cons p ps ih =>
    have inside := listed List.mem_cons_self
    rw [List.mem_cons, not_or] at other
    have startsBefore : ∀ gap ∈ gaps, StartsMarked mark gap := fun gap here =>
      startsMarked_of_eraseAll patterns listed (starts gap here)
    have closedBefore : ∀ gap ∈ gaps, Closed all gap := fun gap here =>
      closed_of_eraseAll patterns listed (closed gap here)
    have absent : ¬ p <+: weave q gaps := by
      intro here
      have tail := (patterns.marked p inside).unmarked_tail
      have front := prefix_of_prefix_weave tail startsBefore here
      exact other.1 (patterns.apart p inside q member front).symm
    rw [List.cons_subset] at listed
    rw [eraseAll_cons, erase_weave patterns inside (patterns.marked q member) closedBefore absent,
      ih listed.2 other.2 (by simpa using starts) (by simpa using closed), List.map_map]
    rfl

/-- A text that is left stood there in pieces, with texts between and around them that go. -/
theorem exists_weave_of_eraseAll_eq (nonempty : q ≠ []) (h : eraseAll ps t = q) :
    ∃ a gaps b, t = a ++ (weave q gaps ++ b) ∧ eraseAll ps a = [] ∧ eraseAll ps b = [] ∧
      gaps.length < q.length ∧ ∀ gap ∈ gaps, eraseAll ps gap = [] := by
  induction q generalizing t with
  | nil => exact absurd rfl nonempty
  | cons c q ih =>
    obtain ⟨a, rest, rfl, front, _, after⟩ := exists_of_eraseAll_eq (x := []) h
    by_cases last : q = []
    · subst last
      exact ⟨a, [], rest, rfl, front, after, Nat.one_pos, by simp⟩
    · obtain ⟨gap, gaps, b, rfl, first, back, short, others⟩ := ih last after
      refine ⟨a, gap :: gaps, b, by simp [weave], front, back, Nat.succ_lt_succ short, ?_⟩
      exact List.forall_mem_cons.2 ⟨first, others⟩

end OpcodeAtlas.Text
