import OpcodeAtlas.Proofs.Golden.Reader
import OpcodeAtlas.Proofs.Specification.Loading

/-!
Line numbers of golden files. A test that is read copies lines of the file and tells where they
stand: its specification lines keep their numbers, and so do the failures to load it
(`lines_kept`).
-/

namespace OpcodeAtlas.Golden

/-- Lines that are neither headers nor markers. -/
def Plain (ls : List Text) : Prop := ∀ l ∈ ls, isHeader l = false ∧ isMarker l = false

/-- The line and the text of a specification that stands below other lines. -/
structure Opens (above specs : List Text) (line : Nat) (text : Text) : Prop where
  line : line = above.length + 1
  text : text = Text.unlines (List.replicate above.length [] ++ specs)
  nonempty : specs ≠ []
  plain : Plain specs

/-- The section holds the lines between its header and what is left of the file. -/
def Section.Holds (file after : List Text) (s : Section) : Prop :=
  ∃ before header body, file = before ++ header :: (body ++ after) ∧ isHeader header = true ∧
    s.line = before.length + 2 ∧ s.name = sectionName header ∧ s.text = Text.unlines body ∧
    Plain body

/-- What a draft says of the lines that have been read. -/
def Draft.Copies (seen : List Text) : Draft → Prop
  | empty => True
  | specification line text => ∃ above specs, seen = above ++ specs ∧ Opens above specs line text
  | sections line text earlier last =>
    (∃ above specs header below, seen = above ++ specs ++ header :: below ∧
      isHeader header = true ∧ Opens above specs line text ∧
      (earlier ++ [last]).head?.map (·.line) = some (above.length + specs.length + 2)) ∧
    (∀ s ∈ earlier, ∃ header after, isHeader header = true ∧ s.Holds seen (header :: after)) ∧
    last.Holds seen []

variable {seen : List Text} {line : Text}

theorem Plain.concat {ls : List Text} (plain : Plain ls) (body : isHeader line = false)
    (unmarked : isMarker line = false) : Plain (ls ++ [line]) := by
  unfold Plain
  rw [List.forall_mem_append]
  exact ⟨plain, by simp [body, unmarked]⟩

theorem Section.Holds.append {s : Section} {after : List Text} (holds : s.Holds seen after)
    (rest : List Text) : s.Holds (seen ++ rest) (after ++ rest) := by
  obtain ⟨before, header, body, rfl, rest⟩ := holds
  exact ⟨before, header, body, by simp, rest⟩

theorem Section.Holds.extend {s : Section} (holds : s.Holds seen []) (body : isHeader line = false)
    (unmarked : isMarker line = false) :
    Section.Holds (seen ++ [line]) [] { s with text := s.text ++ line ++ ['\n'] } := by
  obtain ⟨before, header, ls, rfl, opens, number, name, text, plain⟩ := holds
  refine ⟨before, header, ls ++ [line], by simp, opens, number, name, ?_,
    plain.concat body unmarked⟩
  rw [Text.unlines_concat, ← text]

theorem Section.holds_fresh (header : isHeader line = true) (seen : List Text) :
    Section.Holds (seen ++ [line]) [] ⟨sectionName line, seen.length + 2, []⟩ :=
  ⟨seen, line, [], rfl, header, rfl, rfl, rfl, by simp [Plain]⟩

theorem Draft.Copies.add_header {d new : Draft} (copies : d.Copies seen)
    (header : isHeader line = true) (added : d.add (seen.length + 1) line = .ok new) :
    new.Copies (seen ++ [line]) := by
  unfold Draft.add at added
  rw [if_pos header] at added
  cases d with
  | empty => cases added
  | specification start text =>
    cases added
    obtain ⟨above, specs, rfl, opens⟩ := copies
    refine ⟨⟨above, specs, line, [], rfl, header, opens, ?_⟩, by simp, Section.holds_fresh header _⟩
    simp
  | sections start text earlier last =>
    cases added
    obtain ⟨⟨above, specs, first, below, rfl, opens, opened, number⟩, closed, current⟩ := copies
    refine ⟨⟨above, specs, first, below ++ [line], by simp, opens, opened, ?_⟩, ?_,
      Section.holds_fresh header _⟩
    · rw [List.head?_append_of_ne_nil _ (by simp)]
      exact number
    · intro s member
      rcases List.mem_append.1 member with before | new
      · obtain ⟨next, after, isHeader_next, holds⟩ := closed s before
        exact ⟨next, after ++ [line], isHeader_next, holds.append [line]⟩
      · rw [List.mem_singleton.1 new]
        exact ⟨line, [], header, current.append [line]⟩

theorem Draft.Copies.add_body {d new : Draft} (copies : d.Copies seen)
    (body : isHeader line = false) (unmarked : isMarker line = false)
    (added : d.add (seen.length + 1) line = .ok new) : new.Copies (seen ++ [line]) := by
  unfold Draft.add at added
  rw [if_neg (by simp [body])] at added
  cases d with
  | empty =>
    simp only at added
    split at added
    · cases added
      trivial
    · cases added
      refine ⟨seen, [line], rfl, rfl, ?_, by simp, by simp [Plain, body, unmarked]⟩
      rw [Text.unlines_append, Text.unlines_replicate]
      simp [Text.unlines]
  | specification start text =>
    cases added
    obtain ⟨above, specs, rfl, number, rfl, nonempty, plain⟩ := copies
    refine ⟨above, specs ++ [line], by simp, number, ?_, by simp, plain.concat body unmarked⟩
    rw [← List.append_assoc, Text.unlines_concat]
  | sections start text earlier last =>
    cases added
    obtain ⟨⟨above, specs, first, below, rfl, opens, opened, number⟩, closed, current⟩ := copies
    refine ⟨⟨above, specs, first, below ++ [line], by simp, opens, opened, ?_⟩, ?_,
      current.extend body unmarked⟩
    · cases earlier with
      | nil => exact number
      | cons s earlier => exact number
    · intro s member
      obtain ⟨next, after, isHeader_next, holds⟩ := closed s member
      exact ⟨next, after ++ [line], isHeader_next, holds.append [line]⟩

theorem Draft.Copies.add {d new : Draft} (copies : d.Copies seen) (unmarked : isMarker line = false)
    (added : d.add (seen.length + 1) line = .ok new) : new.Copies (seen ++ [line]) := by
  cases header : isHeader line with
  | true => exact copies.add_header header added
  | false => exact copies.add_body header unmarked added

/-! ### Tests -/

/-- The specification is the lines below others and above the header of the first section, each
under the number that it has in the file. -/
def Test.KeepsSpecification (file : List Text) (t : Test) : Prop :=
  ∃ above specs header below, file = above ++ specs ++ header :: below ∧ isHeader header = true ∧
    t.sections.head?.map (·.line) = some (above.length + specs.length + 2) ∧
    t.line = above.length + 1 ∧ specs ≠ [] ∧ Plain specs ∧
    t.specification.splitOn '\n' = List.replicate above.length [] ++ specs ++ [[]]

/-- The section is the lines below its header, up to empty lines in front of the next header, a
marker or the end of the file. -/
def Section.KeepsLines (file : List Text) (s : Section) : Prop :=
  ∃ before header body n after,
    file = before ++ header :: (body ++ List.replicate n [] ++ after) ∧ isHeader header = true ∧
    s.line = before.length + 2 ∧ s.name = sectionName header ∧ Plain body ∧
    s.text.splitOn '\n' = body ++ [[]] ∧
    ∀ l ∈ after.head?, isHeader l = true ∨ isMarker l = true

theorem Section.Holds.keepsLines {file after : List Text} {s : Section} (holds : s.Holds file after)
    (unbroken : ∀ l ∈ file, '\n' ∉ l)
    (bounded : ∀ l ∈ after.head?, isHeader l = true ∨ isMarker l = true) :
    s.trim.KeepsLines file := by
  obtain ⟨before, header, body, rfl, opens, number, name, text, plain⟩ := holds
  have inside : ∀ l ∈ body, '\n' ∉ l := fun l member => unbroken l (by simp [member])
  obtain ⟨n, whole⟩ := exists_eq_dropEmptyEnd_append body
  have kept : ∀ l ∈ dropEmptyEnd body, l ∈ body := fun l member => by
    rw [whole]
    exact List.mem_append_left _ member
  refine ⟨before, header, dropEmptyEnd body, n, after, by rw [← whole], opens, number, name,
    fun l member => plain l (kept l member), ?_, bounded⟩
  rw [Section.trim, text, trimFeeds_unlines inside]
  exact Text.splitOn_unlines fun l member => inside l (kept l member)

theorem Draft.Copies.finish {d : Draft} (copies : d.Copies seen) {n : Nat} {t : Test}
    (finished : d.finish n = .ok (some t)) {rest : List Text}
    (unbroken : ∀ l ∈ seen ++ rest, '\n' ∉ l) (ended : ∀ l ∈ rest.head?, isMarker l = true) :
    t.KeepsSpecification (seen ++ rest) ∧ ∀ s ∈ t.sections, s.KeepsLines (seen ++ rest) := by
  cases d with
  | empty => cases finished
  | specification start text => cases finished
  | sections start text earlier last =>
    cases finished
    obtain ⟨⟨above, specs, header, below, rfl, opens, opened, number⟩, closed, current⟩ := copies
    constructor
    · have opened' : ∀ l ∈ List.replicate above.length [] ++ specs, '\n' ∉ l := by
        rw [List.forall_mem_append]
        exact ⟨Text.unbroken_replicate _, fun l spec => unbroken l (by simp [spec])⟩
      refine ⟨above, specs, header, below ++ rest, by simp, opens, ?_, opened.line,
        opened.nonempty, opened.plain, ?_⟩
      · rw [List.head?_map, Option.map_map]
        exact number
      · rw [opened.text]
        exact Text.splitOn_unlines opened'
    · intro s member
      obtain ⟨raw, untrimmed, rfl⟩ := List.mem_map.1 member
      rcases List.mem_append.1 untrimmed with before | new
      · obtain ⟨next, after, isHeader_next, holds⟩ := closed raw before
        refine (holds.append rest).keepsLines unbroken fun l first => .inl ?_
        cases first
        exact isHeader_next
      · rw [List.mem_singleton.1 new]
        exact (current.append rest).keepsLines unbroken fun l first => .inr (ended l first)

/-! ### Readers -/

namespace Reader

/-- The reader stands behind some of the lines and has counted them. -/
def Counts (lines : List Text) (r : Reader) : Prop :=
  ∃ seen, lines = seen ++ r.rest ∧ r.line = seen.length

theorem counts_complete (d : Draft) (seen rest : List Text) :
    Counts (seen ++ rest) (complete d seen.length rest).2 := by
  induction rest generalizing d seen with
  | nil => exact ⟨seen, rfl, rfl⟩
  | cons line rest ih =>
    have behind : Counts (seen ++ line :: rest) ⟨seen.length + 1, rest⟩ :=
      ⟨seen ++ [line], by simp, by simp⟩
    have later : ∀ d, Counts (seen ++ line :: rest) (complete d (seen.length + 1) rest).2 := by
      intro d
      simpa using ih d (seen ++ [line])
    unfold complete
    split
    · split
      · exact later d
      · exact behind
    · split
      · exact behind
      · exact later _

theorem Reached.counts {file : Text} {r : Reader} (reached : r.Reached file) :
    r.Counts file.lines := by
  induction reached with
  | start => exact ⟨[], rfl, rfl⟩
  | @next r _ ih =>
    obtain ⟨seen, lines, number⟩ := ih
    rw [lines, Reader.next, number]
    exact counts_complete _ _ _

theorem complete_keeps {d : Draft} {rest : List Text} (unbroken : ∀ l ∈ seen ++ rest, '\n' ∉ l)
    (copies : d.Copies seen) {t : Test} (read : (complete d seen.length rest).1 = .ok (some t)) :
    t.KeepsSpecification (seen ++ rest) ∧ ∀ s ∈ t.sections, s.KeepsLines (seen ++ rest) := by
  induction rest generalizing d seen with
  | nil => exact copies.finish read unbroken (by simp)
  | cons line rest ih =>
    have later : ∀ {d : Draft}, d.Copies (seen ++ [line]) →
        (complete d (seen.length + 1) rest).1 = .ok (some t) →
          t.KeepsSpecification (seen ++ line :: rest) ∧
            ∀ s ∈ t.sections, s.KeepsLines (seen ++ line :: rest) := by
      intro d copies read
      have here := ih (by simpa using unbroken) copies (by simpa using read)
      simpa using here
    unfold complete at read
    split at read
    · next marker =>
      split at read
      · next empty => exact later (by subst empty; trivial) read
      · exact copies.finish read unbroken fun l first => by cases first; exact marker
    · next unmarked =>
      split at read
      · cases read
      · next new added => exact later (copies.add (by simpa using unmarked) added) read

end Reader

/-! ### Failures -/

/-- A failure to load the specification is about a line of the file, under its number there. -/
def Test.KeepsFailures (file : List Text) (t : Test) : Prop :=
  ∀ name failure,
    (Specification.load { tables := [⟨name, .memory t.specification⟩] }).result = .error failure →
      ∃ k line e, failure = .line name (k + 1) e ∧ t.line ≤ k + 1 ∧
        (∀ s ∈ t.sections.head?, k + 2 < s.line) ∧ file[k]? = some line ∧
        line.isBlankText = false ∧ Line.parse .standard line = .error e

/-- A visible line of a padded text is one of the lines below the padding. -/
theorem exists_of_padded {n k : Nat} {specs : List Text} {line : Text}
    (found : ((List.replicate n [] ++ specs).map Text.dropReturn)[k]? = some line)
    (visible : line.isBlankText = false) :
    ∃ i whole, k = n + i ∧ specs[i]? = some whole ∧ whole.dropReturn = line := by
  rw [List.getElem?_map] at found
  obtain ⟨whole, here, rfl⟩ := Option.map_eq_some_iff.1 found
  rw [Text.isBlankText_dropReturn] at visible
  have below : n ≤ k := by
    by_contra inside
    rw [List.getElem?_append_left (by simpa using inside)] at here
    rw [List.eq_of_mem_replicate (List.mem_of_getElem? here)] at visible
    cases visible
  rw [List.getElem?_append_right (by simpa using below), List.length_replicate] at here
  exact ⟨k - n, whole, (Nat.add_sub_of_le below).symm, here, rfl⟩

theorem Test.KeepsSpecification.keepsFailures {file : List Text} {t : Test}
    (kept : t.KeepsSpecification file) : t.KeepsFailures file := by
  intro name failure failed
  obtain ⟨above, specs, header, below, rfl, _, first, number, _, _, pieces⟩ := kept
  obtain ⟨ahead, line, behind, e, lines, ⟨visible, refused⟩, rfl⟩ :=
    Specification.exists_refused_of_load failed
  have found : ((List.replicate above.length [] ++ specs).map Text.dropReturn)[ahead.length]? =
      some line := by
    rw [← Text.lines_of_splitOn pieces, lines]
    simp
  obtain ⟨i, whole, place, here, rfl⟩ := exists_of_padded found visible
  rw [Text.isBlankText_dropReturn] at visible
  have inside : i < specs.length := (List.getElem?_eq_some_iff.1 here).1
  refine ⟨ahead.length, whole, e, rfl, by omega, ?_, ?_, visible, Line.parse_dropReturn refused⟩
  · intro s head
    rw [head, Option.map_some, Option.some.injEq] at first
    omega
  · rw [List.append_assoc, place, List.getElem?_append_right (Nat.le_add_right _ _),
      Nat.add_sub_cancel_left, List.getElem?_append_left inside]
    exact here

/-- Every test that a call answers copies lines of the file, whatever calls went before. -/
theorem lines_kept {file : Text} {r : Reader} (reached : r.Reached file) {t : Test}
    (read : r.next.1 = .ok (some t)) :
    t.KeepsSpecification file.lines ∧ (∀ s ∈ t.sections, s.KeepsLines file.lines) ∧
      t.KeepsFailures file.lines := by
  obtain ⟨seen, lines, number⟩ := reached.counts
  have unbroken : ∀ l ∈ file.lines, '\n' ∉ l := fun _ => Text.unbroken_of_mem_lines
  rw [lines] at unbroken ⊢
  rw [Reader.next, number] at read
  obtain ⟨specification, sections⟩ := Reader.complete_keeps unbroken (d := .empty) trivial read
  exact ⟨specification, sections, specification.keepsFailures⟩

def twoTests : Text :=
  "# one byte\nNOP ; ; ; 0x90 ; s:I86\n== legacy\nopcode 90\n    NOP\n\n---\n#\nFOO ; 1\n== error\n"

def secondTest : Test :=
  ⟨9, List.replicate 8 '\n' ++ "FOO ; 1\n".toList, [⟨"error", 11, []⟩]⟩

theorem lines_kept_secondTest :
    (Reader.start twoTests).next.2.next.1 = .ok (some secondTest) ∧
      secondTest.KeepsSpecification twoTests.lines ∧
      (∀ s ∈ secondTest.sections, s.KeepsLines twoTests.lines) ∧
      ∃ e, (Specification.load
        { tables := [⟨"golden", .memory secondTest.specification⟩] }).result =
          .error (.line "golden" 9 e) := by
  have read : (Reader.start twoTests).next.2.next.1 = .ok (some secondTest) := by rfl
  have refused : (Specification.load
      { tables := [⟨"golden", .memory secondTest.specification⟩] }).result.isOk = false := by
    decide +kernel
  obtain ⟨specification, sections, failures⟩ := lines_kept (.next .start) read
  refine ⟨read, specification, sections, ?_⟩
  cases failed : (Specification.load
      { tables := [⟨"golden", .memory secondTest.specification⟩] }).result with
  | ok spec =>
    rw [failed] at refused
    cases refused
  | error failure =>
    obtain ⟨k, line, e, rfl, below, above, _⟩ := failures _ _ failed
    have header : k + 2 < 11 := above _ rfl
    have start : 9 ≤ k + 1 := below
    obtain rfl : k = 8 := by omega
    exact ⟨e, rfl⟩

end OpcodeAtlas.Golden
