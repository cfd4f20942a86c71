import OpcodeAtlas.Proofs.Text.Output

/-!
The lines of a text. Every line feed ends a line whatever stands in front of it or behind it
(`lines_append_feed`), so texts can be cut after a line feed (`lines_append`) and lines put in front
of others (`lines_line`). What is trimmed does not tell whether a carriage return ended its line
(`trim_dropReturn`).
-/

namespace OpcodeAtlas.Text

/-! ### Blanks at the end -/

theorem trim_concat {c : Char} (blank : isBlank c = true) (t : Text) :
    trim (t ++ [c]) = trim t := by
  have gone : [c].dropWhile isBlank = [] := by simp [blank]
  unfold trim trimStart
  rw [List.dropWhile_append, gone]
  split
  · next none => rw [List.isEmpty_iff.1 none]
  · simp [trimEnd, blank]

theorem cut_concat {sep c : Char} (other : c ≠ sep) (t : Text) :
    cut sep (t ++ [c]) = (cut sep t).map fun parts => (parts.1, parts.2 ++ [c]) := by
  induction t with
  | nil => simp [cut, other]
  | cons d t ih =>
    rw [List.cons_append, cut, cut, ih]
    split
    · rfl
    · rw [Option.map_map, Option.map_map]
      rfl

theorem trimmedPieces_concat {sep c : Char} (other : c ≠ sep) (blank : isBlank c = true)
    (t : Text) : trimmedPieces sep (t ++ [c]) = trimmedPieces sep t := by
  have pieces : ∀ t : Text, ∃ front last, t.splitOn sep = front ++ [last] ∧
      (t ++ [c]).splitOn sep = front ++ [last ++ [c]] := by
    intro t
    induction t with
    | nil => exact ⟨[], [], by simp, by simp [List.splitOn_cons_eq_if_modifyHead, other]⟩
    | cons d t ih =>
      obtain ⟨front, last, whole, longer⟩ := ih
      rw [List.cons_append, List.splitOn_cons_eq_if_modifyHead, List.splitOn_cons_eq_if_modifyHead,
        whole, longer]
      split
      · exact ⟨[] :: front, last, rfl, rfl⟩
      · cases front with
        | nil => exact ⟨[], d :: last, rfl, rfl⟩
        | cons first front => exact ⟨(d :: first) :: front, last, rfl, rfl⟩
  obtain ⟨front, last, whole, longer⟩ := pieces t
  rw [trimmedPieces, trimmedPieces, whole, longer, List.map_append, List.map_append,
    List.map_singleton, List.map_singleton, trim_concat blank]

/-! ### Carriage returns -/

theorem dropReturn_eq_or (t : Text) : dropReturn t = t ∨ t = dropReturn t ++ ['\r'] := by
  unfold dropReturn
  split
  · next last =>
    obtain ⟨front, rfl⟩ := List.getLast?_eq_some_iff.1 last
    right
    rw [List.dropLast_concat]
  · exact .inl rfl

theorem mem_of_mem_dropReturn {t : Text} {c : Char} (member : c ∈ dropReturn t) : c ∈ t := by
  rcases dropReturn_eq_or t with same | longer
  · rwa [same] at member
  · rw [longer]
    exact List.mem_append_left _ member

theorem isBlankText_dropReturn (t : Text) : isBlankText (dropReturn t) = isBlankText t := by
  have blank : isBlank '\r' = true := by decide
  rcases dropReturn_eq_or t with same | longer
  · rw [same]
  · conv => rhs; rw [longer]
    simp [isBlankText, blank]

theorem head?_dropReturn {t : Text} {c : Char} (head : t.head? = some c) (other : c ≠ '\r') :
    t.dropReturn.head? = some c := by
  rcases dropReturn_eq_or t with same | longer
  · rw [same, head]
  · cases front : dropReturn t with
    | nil =>
      rw [longer, front] at head
      exact absurd (Option.some.inj head).symm other
    | cons d rest =>
      rw [longer, front] at head
      exact head

theorem trim_dropReturn (t : Text) : trim (dropReturn t) = trim t := by
  rcases dropReturn_eq_or t with same | longer
  · rw [same]
  · conv => rhs; rw [longer]
    rw [trim_concat (by decide)]

/-! ### Joined lines -/

theorem unlines_append (ls more : List Text) :
    unlines (ls ++ more) = unlines ls ++ unlines more :=
  List.flatMap_append

theorem unlines_concat (front : List Text) (last : Text) :
    unlines (front ++ [last]) = unlines front ++ last ++ ['\n'] := by
  simp [unlines]

theorem unlines_replicate (n : Nat) :
    unlines (List.replicate n []) = List.replicate n '\n' := by
  induction n with
  | zero => rfl
  | succ n ih =>
    rw [List.replicate_succ, List.replicate_succ, ← ih]
    rfl

theorem unbroken_replicate (n : Nat) : ∀ line ∈ List.replicate n ([] : Text), '\n' ∉ line := by
  intro line empty
  rw [List.eq_of_mem_replicate empty]
  exact List.not_mem_nil

theorem getLast?_unlines {ls : List Text} (nonempty : ls ≠ []) :
    (unlines ls).getLast? = some '\n' := by
  obtain ⟨front, last, rfl⟩ := (List.eq_nil_or_concat ls).resolve_left nonempty
  rw [List.concat_eq_append, unlines_concat, List.getLast?_concat]

/-! ### Lines -/

theorem lines_nil : lines [] = [] := by decide

theorem lines_append_feed (a b : Text) :
    lines (a ++ '\n' :: b) = (a.splitOn '\n').map dropReturn ++ lines b := by
  have pieces : (a ++ '\n' :: b).splitOn '\n' = a.splitOn '\n' ++ b.splitOn '\n' := by
    simp only [List.splitOn_eq_splitOnP]
    exact List.splitOnP_append_cons a b (beq_self_eq_true '\n')
  have some : b.splitOn '\n' ≠ [] := List.splitOn_ne_nil '\n' b
  simp only [lines, pieces, List.dropLast_append_of_ne_nil some, List.map_append,
    List.append_assoc, List.getLastD_eq_getLast?, List.getLast?_append_of_ne_nil _ some]

/-- A text that holds whole lines, each with its line feed. -/
def Whole (t : Text) : Prop := t = [] ∨ ∃ front, t = front ++ ['\n']

theorem whole_unlines (ls : List Text) : Whole (unlines ls) := by
  rcases List.eq_nil_or_concat ls with rfl | ⟨front, last, rfl⟩
  · exact .inl rfl
  · refine .inr ⟨unlines front ++ last, ?_⟩
    simp [unlines]

theorem lines_append {a : Text} (whole : Whole a) (b : Text) :
    lines (a ++ b) = lines a ++ lines b := by
  rcases whole with rfl | ⟨front, rfl⟩
  · rfl
  · rw [List.append_assoc, List.singleton_append, lines_append_feed, lines_append_feed front [],
      lines_nil, List.append_nil]

theorem lines_line {line : Text} (unbroken : '\n' ∉ line) (rest : Text) :
    lines (line ++ '\n' :: rest) = dropReturn line :: lines rest := by
  have single : line.splitOn '\n' = [line] := List.splitOn_eq_singleton unbroken
  rw [lines_append_feed, single]
  rfl

theorem lines_of_splitOn {t : Text} {ls : List Text} (pieces : t.splitOn '\n' = ls ++ [[]]) :
    lines t = ls.map dropReturn := by
  unfold lines
  rw [pieces]
  simp

theorem lines_unlines {ls : List Text} (unbroken : ∀ line ∈ ls, '\n' ∉ line) :
    lines (unlines ls) = ls.map dropReturn :=
  lines_of_splitOn (splitOn_unlines unbroken)

theorem lines_of_unbroken {line : Text} (unbroken : '\n' ∉ line) :
    lines line = if line.isEmpty then [] else [line] := by
  simp [lines, List.splitOn_eq_singleton unbroken]

/-- Every text is a number of lines and a rest without line feed. -/
theorem exists_unlines_append (t : Text) :
    ∃ ls last, (∀ line ∈ ls, '\n' ∉ line) ∧ '\n' ∉ last ∧ t = unlines ls ++ last := by
  induction t with
  | nil => exact ⟨[], [], by simp, List.not_mem_nil, rfl⟩
  | cons c t ih =>
    obtain ⟨ls, last, unbroken, rest, rfl⟩ := ih
    by_cases feed : c = '\n'
    · refine ⟨[] :: ls, last, ?_, rest, by rw [feed]; rfl⟩
      exact List.forall_mem_cons.2 ⟨List.not_mem_nil, unbroken⟩
    · have first : ∀ {line : Text}, '\n' ∉ line → '\n' ∉ c :: line := fun whole =>
        List.not_mem_cons_of_ne_of_not_mem (Ne.symm feed) whole
      cases ls with
      | nil => exact ⟨[], c :: last, by simp, first rest, rfl⟩
      | cons line ls =>
        obtain ⟨here, below⟩ := List.forall_mem_cons.1 unbroken
        exact ⟨(c :: line) :: ls, last, List.forall_mem_cons.2 ⟨first here, below⟩, rest, rfl⟩

theorem unbroken_of_mem_lines {t line : Text} (member : line ∈ lines t) : '\n' ∉ line := by
  obtain ⟨ls, last, unbroken, rest, rfl⟩ := exists_unlines_append t
  rw [lines_append (whole_unlines ls), lines_unlines unbroken, lines_of_unbroken rest] at member
  rcases List.mem_append.1 member with ended | unended
  · obtain ⟨line, inside, rfl⟩ := List.mem_map.1 ended
    exact fun feed => unbroken line inside (mem_of_mem_dropReturn feed)
  · split at unended
    · cases unended
    · rwa [List.mem_singleton.1 unended]

end OpcodeAtlas.Text
