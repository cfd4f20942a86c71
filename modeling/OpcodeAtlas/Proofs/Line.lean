import OpcodeAtlas.Line
import OpcodeAtlas.Proofs.Text.Lines

/-!
What a specification line holds besides its components. `parse_comment`: a comment at the end of a
line that is long enough to be read changes nothing. `parse_dropReturn`: neither does a carriage
return there.
-/

namespace OpcodeAtlas.Line

theorem isSkipped_eq_false_iff {line : Text} :
    isSkipped line = false ↔
      line.head? ≠ some '#' ∧ 4 ≤ (String.ofList line).utf8ByteSize := by
  simp [isSkipped]

/-- Lines that are long enough are skipped for the mark of a comment only, and that is in front. -/
theorem isSkipped_append {line : Text} (long : 4 ≤ (String.ofList line).utf8ByteSize)
    (rest : Text) : isSkipped (line ++ rest) = isSkipped line := by
  have some : line ≠ [] := by
    rintro rfl
    exact absurd long (by decide)
  have longer : 4 ≤ (String.ofList (line ++ rest)).utf8ByteSize := by
    rw [String.ofList_append, String.utf8ByteSize_append]
    exact Nat.le_trans long (Nat.le_add_right _ _)
  simp only [isSkipped, List.head?_append_of_ne_nil line some, decide_eq_false (Nat.not_lt.2 long),
    decide_eq_false (Nat.not_lt.2 longer)]

theorem content_comment (line note : Text) : content (line ++ '#' :: note) = content line := by
  unfold content
  rw [List.filter_append, List.filter_cons_of_pos (by decide)]
  generalize line.filter (fun c => c ≠ '\r' ∧ c ≠ '\n') = kept
  induction kept with
  | nil => rfl
  | cons c kept ih =>
    rw [List.cons_append, List.takeWhile_cons, List.takeWhile_cons, ih]

theorem content_append_return (line : Text) : content (line ++ ['\r']) = content line := by
  simp [content]

theorem parse_eq_of_content {line other : Text} (skipped : isSkipped other = isSkipped line)
    (same : content other = content line) (t : Templates) : parse t other = parse t line := by
  unfold parse
  rw [skipped, same]

theorem parse_comment {line : Text} (long : 4 ≤ (String.ofList line).utf8ByteSize)
    (t : Templates) (note : Text) : parse t (line ++ '#' :: note) = parse t line :=
  parse_eq_of_content (isSkipped_append long _) (content_comment line note) t

theorem parse_of_head? {line : Text} (mark : line.head? = some '#') (t : Templates) :
    parse t line = .ok none := by
  simp [parse, isSkipped, mark]

/-- A line is refused with and without a carriage return at its end. -/
theorem parse_dropReturn {line : Text} {t : Templates} {e : SpecError}
    (refused : parse t line.dropReturn = .error e) : parse t line = .error e := by
  have read : isSkipped line.dropReturn = false := by
    by_contra skipped
    rw [parse, if_pos (eq_true_of_ne_false skipped)] at refused
    cases refused
  rcases Text.dropReturn_eq_or line with same | longer
  · rwa [same] at refused
  · rw [longer, parse_eq_of_content (isSkipped_append (isSkipped_eq_false_iff.1 read).2 _)
      (content_append_return _)]
    exact refused

end OpcodeAtlas.Line
