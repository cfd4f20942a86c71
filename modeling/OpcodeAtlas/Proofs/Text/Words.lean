import Mathlib.Data.List.Basic
import OpcodeAtlas.Text.Basic

/-!
The words of a text. Blanks cut a text into pieces that hold their words apart
(`words_append_of_endsBlank`, `words_append_of_startsBlank`), so words can be taken out, put in and
rewritten in place (`words_mapWords`).
-/

namespace OpcodeAtlas.Text

-- Searching the text, and not all characters there are.
instance (t : Text) (p : Char → Prop) [DecidablePred p] : Decidable (∀ c ∈ t, p c) :=
  List.decidableBAll p t

instance (t : Text) (p : Char → Prop) [DecidablePred p] : Decidable (∃ c ∈ t, p c) :=
  List.decidableBEx p t

theorem eq_of_cut {sep : Char} {t a b : Text} (h : t.cut sep = some (a, b)) :
    t = a ++ sep :: b := by
  induction t generalizing a with
  | nil => cases h
  | cons c t ih =>
    rw [cut] at h
    split at h
    · next same =>
      cases h
      rw [same]
      rfl
    · obtain ⟨⟨front, rest⟩, found, same⟩ := Option.map_eq_some_iff.1 h
      cases same
      rw [ih found]
      rfl

/-! ### Words -/

/-- Without blanks. -/
def Solid (t : Text) : Prop := ∀ c ∈ t, isBlank c = false

theorem words_append_blank {c : Char} (blank : isBlank c = true) (x y : Text) :
    words (x ++ c :: y) = words x ++ words y := by
  rw [words, List.splitOnP_append_cons x y blank, List.filter_append]
  rfl

theorem words_solid {t : Text} (solid : Solid t) : words t = if t.isEmpty then [] else [t] := by
  rw [words, List.splitOnP_eq_singleton solid]
  cases t <;> rfl

/-- The text ends where a word may begin. -/
def EndsBlank (t : Text) : Prop := ∀ c ∈ t.getLast?, isBlank c = true

/-- The text begins where a word may end. -/
def StartsBlank (t : Text) : Prop := ∀ c ∈ t.head?, isBlank c = true

instance (t : Text) : Decidable (EndsBlank t) := Option.decidableForallMem t.getLast?

instance (t : Text) : Decidable (StartsBlank t) := Option.decidableForallMem t.head?

theorem words_append_of_endsBlank {t : Text} (ends : EndsBlank t) (rest : Text) :
    words (t ++ rest) = words t ++ words rest := by
  rcases List.eq_nil_or_concat t with rfl | ⟨t, c, rfl⟩
  · rfl
  · rw [List.concat_eq_append] at ends ⊢
    have blank : isBlank c = true := ends c (by simp)
    have alone : words (t ++ [c]) = words t ++ words [] := words_append_blank blank t []
    rw [List.append_assoc, List.singleton_append, words_append_blank blank, alone]
    congr 1
    exact (List.append_nil _).symm

theorem words_append_of_startsBlank {rest : Text} (starts : StartsBlank rest) (t : Text) :
    words (t ++ rest) = words t ++ words rest := by
  cases rest with
  | nil => rw [List.append_nil]; exact (List.append_nil _).symm
  | cons c rest =>
    have blank : isBlank c = true := starts c rfl
    have alone : words ([] ++ c :: rest) = words [] ++ words rest :=
      words_append_blank blank [] rest
    rw [words_append_blank blank, ← List.nil_append (c :: rest), alone]
    rfl

/-! ### Rewriting words in place -/

/-- Rewrites every word and keeps the blanks; `word` is the part of the current word already read,
last character first. -/
def mapWordsFrom (f : Text → Text) (word : Text) : Text → Text
  | [] => f word.reverse
  | c :: r =>
    if isBlank c then f word.reverse ++ c :: mapWordsFrom f [] r else mapWordsFrom f (c :: word) r

def mapWords (f : Text → Text) (t : Text) : Text := mapWordsFrom f [] t

theorem words_mapWordsFrom {f : Text → Text} (keeps : ∀ w, Solid w → Solid (f w))
    (empty : ∀ w, (f w).isEmpty = w.isEmpty) (t : Text) {word : Text} (solid : Solid word) :
    words (mapWordsFrom f word t) = (words (word.reverse ++ t)).map f := by
  have one : ∀ {w : Text}, Solid w → words (f w) = (words w).map f := by
    intro w solid
    rw [words_solid solid, words_solid (keeps w solid), empty]
    cases w.isEmpty <;> rfl
  induction t generalizing word with
  | nil =>
    rw [mapWordsFrom, List.append_nil]
    exact one fun c member => solid c (List.mem_reverse.1 member)
  | cons c r ih =>
    rw [mapWordsFrom]
    split
    · next blank =>
      rw [words_append_blank blank, words_append_blank blank, List.map_append,
        one fun c member => solid c (List.mem_reverse.1 member)]
      have rest := ih (show Solid [] by simp [Solid])
      rw [rest, List.reverse_nil, List.nil_append]
    · next visible =>
      have longer : Solid (c :: word) :=
        List.forall_mem_cons.2 ⟨Bool.eq_false_iff.2 visible, solid⟩
      rw [ih longer, List.reverse_cons, List.append_assoc, List.singleton_append]

theorem words_mapWords {f : Text → Text} (keeps : ∀ w, Solid w → Solid (f w))
    (empty : ∀ w, (f w).isEmpty = w.isEmpty) (t : Text) :
    words (mapWords f t) = (words t).map f :=
  words_mapWordsFrom keeps empty t (by simp [Solid])

end OpcodeAtlas.Text
