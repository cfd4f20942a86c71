import OpcodeAtlas.Golden.Parse

/-!
Reading a golden file call by call. A reader hands out one test per call and stays behind the lines
it has read, also when a call fails.
-/

namespace OpcodeAtlas.Golden

/-- Drops line feeds from the end while there are two. -/
def trimFeeds (t : Text) : Text := (drop t.reverse).reverse
where
  drop : Text → Text
    | [] => []
    | c :: r => if c = '\n' ∧ r.head? = some '\n' then drop r else c :: r

def Section.trim (s : Section) : Section := { s with text := trimFeeds s.text }

/-- The part of a test that has been read. -/
inductive Draft where
  | empty
  | specification (line : Nat) (text : Text)
  /-- The last section is the one that lines are added to. -/
  | sections (line : Nat) (specification : Text) (earlier : List Section) (last : Section)
  deriving DecidableEq, Repr

namespace Draft

/-- Adds a line that is no marker. -/
def add (d : Draft) (number : Nat) (line : Text) : Except FileError Draft :=
  if isHeader line then
    let new : Section := ⟨sectionName line, number + 1, []⟩
    match d with
    | empty => .error ⟨.noSpecification, number⟩
    | specification start text => .ok (sections start text [] new)
    | sections start text earlier last => .ok (sections start text (earlier ++ [last]) new)
  else
    match d with
    | empty =>
      if Text.isComment line then .ok empty
      else .ok (specification number (List.replicate (number - 1) '\n' ++ line ++ ['\n']))
    | specification start text => .ok (specification start (text ++ line ++ ['\n']))
    | sections start text earlier last =>
      .ok (sections start text earlier { last with text := last.text ++ line ++ ['\n'] })

/-- The test, if there is one, after the line of a number. -/
def finish (d : Draft) (number : Nat) : Except FileError (Option Test) :=
  match d with
  | empty => .ok none
  | specification _ _ => .error ⟨.noExpectation, number⟩
  | sections start text earlier last =>
    .ok (some ⟨start, text, (earlier ++ [last]).map Section.trim⟩)

end Draft

/-- How many lines have been read, and those that follow. -/
structure Reader where
  line : Nat
  rest : List Text
  deriving DecidableEq, Repr

namespace Reader

def start (file : Text) : Reader := ⟨0, file.lines⟩

/-- Completes a draft with the lines that follow. Markers above a test are skipped. -/
def complete (d : Draft) (number : Nat) : List Text → Except FileError (Option Test) × Reader
  | [] => (d.finish number, ⟨number, []⟩)
  | line :: rest =>
    if isMarker line then
      if d = .empty then complete d (number + 1) rest
      else (d.finish (number + 1), ⟨number + 1, rest⟩)
    else
      match d.add (number + 1) line with
      | .error e => (.error e, ⟨number + 1, rest⟩)
      | .ok d => complete d (number + 1) rest

/-- The next test, if there is one, and the reader behind it. -/
def next (r : Reader) : Except FileError (Option Test) × Reader := complete .empty r.line r.rest

theorem length_complete_le (d : Draft) (number : Nat) (lines : List Text) :
    (complete d number lines).2.rest.length ≤ lines.tail.length := by
  induction lines generalizing d number with
  | nil => exact Nat.le_refl 0
  | cons line rest ih =>
    have later : ∀ d number, (complete d number rest).2.rest.length ≤ rest.length := by
      intro d number
      exact Nat.le_trans (ih d number) (by simp)
    unfold complete
    split
    · split
      · exact later d _
      · exact Nat.le_refl _
    · split
      · exact Nat.le_refl _
      · exact later _ _

theorem length_next_lt {r : Reader} {t : Test} (found : r.next.1 = .ok (some t)) :
    r.next.2.rest.length < r.rest.length := by
  obtain ⟨number, lines⟩ := r
  cases lines with
  | nil => cases found
  | cons line rest => exact Nat.lt_succ_of_le (length_complete_le _ _ _)

/-- The tests up to the end of the file or in front of the first error, and that error. -/
def all (r : Reader) : List Test × Option FileError :=
  match found : r.next.1 with
  | .error e => ([], some e)
  | .ok none => ([], none)
  | .ok (some t) =>
    have : r.next.2.rest.length < r.rest.length := length_next_lt found
    let (tests, error?) := r.next.2.all
    (t :: tests, error?)
termination_by r.rest.length

end Reader

end OpcodeAtlas.Golden
