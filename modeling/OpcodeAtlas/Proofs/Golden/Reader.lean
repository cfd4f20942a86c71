import OpcodeAtlas.Golden.Reader
import OpcodeAtlas.Proofs.Text.Lines
import Mathlib.Data.List.Induction

/-!
Reading a golden file call by call gives the tests of its blocks (`all_start`).
-/

namespace OpcodeAtlas.Golden

/-! ### Lines -/

theorem exists_takeWhile {α : Type} (p : α → Bool) (as : List α) :
    ∃ front back, as = front ++ back ∧ as.takeWhile p = front ∧ as.dropWhile p = back ∧
      (∀ a ∈ front, p a = true) ∧ ∀ a ∈ back.head?, p a = false := by
  induction as with
  | nil => exact ⟨[], [], by simp⟩
  | cons a as ih =>
    cases holds : p a with
    | true =>
      obtain ⟨front, back, rfl, take, drop, before, after⟩ := ih
      refine ⟨a :: front, back, rfl, ?_, ?_, List.forall_mem_cons.2 ⟨holds, before⟩, after⟩
      · rw [List.takeWhile_cons_of_pos holds, take]
      · rw [List.dropWhile_cons_of_pos holds, drop]
    | false => exact ⟨[], a :: as, by simp [holds]⟩

/-- The number behind a first line and further ones. -/
theorem add_length_cons {α : Type} (n : Nat) (a : α) (as : List α) :
    n + 1 + as.length = n + (a :: as).length := by
  rw [List.length_cons, Nat.add_right_comm, Nat.add_assoc]

theorem trimEnd_cons {c : Char} (visible : Text.isBlank c = false) (r : Text) :
    Text.trimEnd (c :: r) = c :: Text.trimEnd r := by
  have kept : [c].dropWhile Text.isBlank = [c] := by simp [visible]
  unfold Text.trimEnd
  rw [List.reverse_cons, List.dropWhile_append, kept]
  split
  · next none => simp_all
  · simp

theorem isComment_of_isHeader {line : Text} (header : isHeader line = true) :
    Text.isComment line = false := by
  obtain ⟨rest, rfl⟩ := List.isPrefixOf_iff_prefix.1 header
  have visible : Text.isBlank '=' = false := by decide
  have shape : headerMark ++ rest = '=' :: ('=' :: ' ' :: rest) := rfl
  have start : Text.trimStart ('=' :: ('=' :: ' ' :: rest)) = '=' :: ('=' :: ' ' :: rest) := by
    simp [Text.trimStart, visible]
  unfold Text.isComment Text.trim
  rw [shape, start, trimEnd_cons visible]
  rfl

theorem dropEmptyEnd_concat (front : List Text) (last : Text) :
    dropEmptyEnd (front ++ [last]) =
      if last = [] ∧ front ≠ [] then dropEmptyEnd front else front ++ [last] := by
  cases front with
  | nil => simp [dropEmptyEnd]
  | cons first rest =>
    cases last with
    | nil => simp [dropEmptyEnd]
    | cons c r => simp [dropEmptyEnd]

theorem exists_eq_dropEmptyEnd_append (ls : List Text) :
    ∃ n, ls = dropEmptyEnd ls ++ List.replicate n [] := by
  induction ls using List.reverseRecOn with
  | nil => exact ⟨0, rfl⟩
  | append_singleton front last ih =>
    rw [dropEmptyEnd_concat]
    split
    · next empty =>
      obtain ⟨n, same⟩ := ih
      refine ⟨n + 1, ?_⟩
      rw [List.replicate_succ', ← List.append_assoc, ← same, empty.1]
    · exact ⟨0, (List.append_nil _).symm⟩

theorem trimFeeds_concat (t : Text) :
    trimFeeds (t ++ ['\n']) = if t.getLast? = some '\n' then trimFeeds t else t ++ ['\n'] := by
  unfold trimFeeds
  rw [List.reverse_concat, trimFeeds.drop, List.head?_reverse]
  split
  · next feed => rw [if_pos feed.2]
  · next other =>
    rw [if_neg fun feed => other ⟨rfl, feed⟩]
    simp

theorem trimFeeds_unlines {ls : List Text} (unbroken : ∀ line ∈ ls, '\n' ∉ line) :
    trimFeeds (Text.unlines ls) = Text.unlines (dropEmptyEnd ls) := by
  induction ls using List.reverseRecOn with
  | nil => rfl
  | append_singleton front last ih =>
    have above : ∀ line ∈ front, '\n' ∉ line := fun line member =>
      unbroken line (List.mem_append_left _ member)
    have here : '\n' ∉ last := unbroken last (by simp)
    rw [dropEmptyEnd_concat, Text.unlines_concat, trimFeeds_concat]
    by_cases empty : last = []
    · subst empty
      rw [List.append_nil]
      by_cases none : front = []
      · subst none
        rfl
      · rw [if_pos (Text.getLast?_unlines none), if_pos ⟨rfl, none⟩, ih above]
    · have other : (Text.unlines front ++ last).getLast? ≠ some '\n' := by
        rw [List.getLast?_append_of_ne_nil _ empty]
        exact fun feed => here (List.mem_of_getLast? feed)
      rw [if_neg other, if_neg fun both => empty both.1, Text.unlines_concat]

theorem sectionsFrom_header {header : Text} (isHeader_header : isHeader header = true)
    {ls : List Text} (unbroken : ∀ l ∈ ls, '\n' ∉ l) (n : Nat) :
    sectionsFrom n (header :: ls) =
      Section.trim ⟨sectionName header, n + 1, Text.unlines (ls.takeWhile (!isHeader ·))⟩ ::
        sectionsFrom (n + 1) ls := by
  have kept : ∀ l ∈ ls.takeWhile (!isHeader ·), '\n' ∉ l := fun l member =>
    unbroken l (List.takeWhile_subset _ member)
  rw [sectionsFrom, if_pos isHeader_header, Section.trim, trimFeeds_unlines kept]

theorem sectionsFrom_append {ls : List Text} (body : ∀ l ∈ ls, isHeader l = false) (n : Nat)
    (rest : List Text) : sectionsFrom n (ls ++ rest) = sectionsFrom (n + ls.length) rest := by
  induction ls generalizing n with
  | nil => rfl
  | cons line ls ih =>
    rw [List.forall_mem_cons] at body
    rw [List.cons_append, sectionsFrom, if_neg (by simp [body.1]), ih body.2,
      add_length_cons n line]

/-! ### Steps -/

namespace Reader

open Draft

theorem complete_add {d new : Draft} {n : Nat} {line : Text} (plain : isMarker line = false)
    (added : d.add (n + 1) line = .ok new) (rest : List Text) :
    complete d n (line :: rest) = complete new (n + 1) rest := by
  rw [complete, if_neg (by simp [plain]), added]

theorem complete_error {d : Draft} {n : Nat} {line : Text} {e : FileError}
    (plain : isMarker line = false) (refused : d.add (n + 1) line = .error e) (rest : List Text) :
    complete d n (line :: rest) = (.error e, ⟨n + 1, rest⟩) := by
  rw [complete, if_neg (by simp [plain]), refused]

theorem complete_skip {line : Text} (marker : isMarker line = true) (n : Nat) (rest : List Text) :
    complete empty n (line :: rest) = complete empty (n + 1) rest := by
  rw [complete, if_pos marker, if_pos rfl]

theorem complete_stop {d : Draft} {line : Text} (begun : d ≠ empty)
    (marker : isMarker line = true) (n : Nat) (rest : List Text) :
    complete d n (line :: rest) = (d.finish (n + 1), ⟨n + 1, rest⟩) := by
  rw [complete, if_pos marker, if_neg begun]

/-! ### Phases -/

variable {ls : List Text}

theorem complete_comments (plain : ∀ l ∈ ls, isMarker l = false)
    (comments : ∀ l ∈ ls, Text.isComment l = true) (n : Nat) (rest : List Text) :
    complete empty n (ls ++ rest) = complete empty (n + ls.length) rest := by
  induction ls generalizing n with
  | nil => rfl
  | cons line ls ih =>
    rw [List.forall_mem_cons] at plain comments
    have body : isHeader line = false := by
      by_contra header
      have visible := isComment_of_isHeader (eq_true_of_ne_false header)
      rw [comments.1] at visible
      cases visible
    have added : empty.add (n + 1) line = .ok empty := by
      rw [add, if_neg (by simp [body])]
      exact if_pos comments.1
    rw [List.cons_append, complete_add plain.1 added, ih plain.2 comments.2, add_length_cons n line]

theorem complete_specification (plain : ∀ l ∈ ls, isMarker l = false)
    (body : ∀ l ∈ ls, isHeader l = false) (start : Nat) (text : Text) (n : Nat)
    (rest : List Text) :
    complete (specification start text) n (ls ++ rest) =
      complete (specification start (text ++ Text.unlines ls)) (n + ls.length) rest := by
  induction ls generalizing n text with
  | nil => simp [Text.unlines]
  | cons line ls ih =>
    rw [List.forall_mem_cons] at plain body
    have added : (specification start text).add (n + 1) line =
        .ok (specification start (text ++ line ++ ['\n'])) := by
      rw [add, if_neg (by simp [body.1])]
    rw [List.cons_append, complete_add plain.1 added, ih plain.2 body.2, add_length_cons n line]
    simp [Text.unlines]

/-- The section that was open holds the lines above the next header. -/
theorem complete_sections (unbroken : ∀ l ∈ ls, '\n' ∉ l) (plain : ∀ l ∈ ls, isMarker l = false)
    (start : Nat) (text : Text) (earlier : List Section) (last : Section) (n : Nat)
    (rest : List Text) :
    ∃ earlier' last', complete (sections start text earlier last) n (ls ++ rest) =
        complete (sections start text earlier' last') (n + ls.length) rest ∧
      (earlier' ++ [last']).map Section.trim = earlier.map Section.trim ++
        Section.trim { last with
          text := last.text ++ Text.unlines (ls.takeWhile (!isHeader ·)) } ::
          sectionsFrom (n + 1) ls := by
  -- A header closes the open section, so the sections are generalised along with the number.
  induction ls generalizing n earlier last with
  | nil => exact ⟨earlier, last, rfl, by simp [Text.unlines, sectionsFrom]⟩
  | cons line ls ih =>
    rw [List.forall_mem_cons] at plain unbroken
    cases header : isHeader line with
    | true =>
      have added : (sections start text earlier last).add (n + 1) line =
          .ok (sections start text (earlier ++ [last]) ⟨sectionName line, n + 2, []⟩) := by
        rw [add, if_pos header]
      obtain ⟨earlier', last', same, trimmed⟩ :=
        ih unbroken.2 plain.2 (earlier ++ [last]) ⟨sectionName line, n + 2, []⟩ (n + 1)
      refine ⟨earlier', last', ?_, ?_⟩
      · rw [List.cons_append, complete_add plain.1 added, same, add_length_cons n line]
      · rw [trimmed, List.takeWhile_cons_of_neg (by simp [header]),
          sectionsFrom_header header unbroken.2]
        simp [Text.unlines]
    | false =>
      have added : (sections start text earlier last).add (n + 1) line = .ok (sections start text
          earlier { last with text := last.text ++ line ++ ['\n'] }) := by
        rw [add, if_neg (by simp [header])]
      obtain ⟨earlier', last', same, trimmed⟩ :=
        ih unbroken.2 plain.2 earlier { last with text := last.text ++ line ++ ['\n'] } (n + 1)
      refine ⟨earlier', last', ?_, ?_⟩
      · rw [List.cons_append, complete_add plain.1 added, same, add_length_cons n line]
      · rw [trimmed, List.takeWhile_cons_of_pos (by simp [header]), sectionsFrom,
          if_neg (by simp [header])]
        simp [Text.unlines]

/-! ### Blocks -/

/-- A block ends with the file or with a marker. -/
inductive Ends (n : Nat) : List Text → Nat → List Text → Prop where
  | file : Ends n [] n []
  | marker {line : Text} (marker : isMarker line = true) (rest : List Text) :
      Ends n (line :: rest) (n + 1) rest

variable {n stop : Nat} {tail rest : List Text}

theorem complete_end {d : Draft} (begun : d ≠ empty) (ends : Ends n tail stop rest) :
    complete d n tail = (d.finish stop, ⟨stop, rest⟩) := by
  cases ends with
  | file => rfl
  | marker marker rest => exact complete_stop begun marker n rest

/-- Below its specification a test has sections or is refused. -/
theorem complete_below (headed : ∀ l ∈ ls.head?, isHeader l = true) (unbroken : ∀ l ∈ ls, '\n' ∉ l)
    (plain : ∀ l ∈ ls, isMarker l = false) (ends : Ends (n + ls.length) tail stop rest)
    (start : Nat) (text : Text) :
    complete (specification start text) n (ls ++ tail) =
      (if sectionsFrom (n + 1) ls = [] then .error ⟨.noExpectation, stop⟩
        else .ok (some ⟨start, text, sectionsFrom (n + 1) ls⟩), ⟨stop, rest⟩) := by
  cases ls with
  | nil => exact complete_end (by simp) ends
  | cons header ls =>
    rw [List.forall_mem_cons] at plain unbroken
    have opens : isHeader header = true := headed header rfl
    have added : (specification start text).add (n + 1) header =
        .ok (sections start text [] ⟨sectionName header, n + 2, []⟩) := by
      rw [add, if_pos opens]
    obtain ⟨earlier, last, same, trimmed⟩ := complete_sections unbroken.2 plain.2 start text []
      ⟨sectionName header, n + 2, []⟩ (n + 1) tail
    rw [List.cons_append, complete_add plain.1 added, same, add_length_cons n header,
      complete_end (by simp) ends, finish, trimmed, sectionsFrom_header opens unbroken.2,
      if_neg (by simp)]
    rfl

/-- A specification line opens a test. -/
theorem complete_open {first : Text} (body : isHeader first = false)
    (visible : Text.isComment first = false) (unbroken : ∀ l ∈ ls, '\n' ∉ l)
    (plain : ∀ l ∈ first :: ls, isMarker l = false)
    (ends : Ends (n + (first :: ls).length) tail stop rest) :
    let sections := sectionsFrom (n + 1) (first :: ls)
    let text := Text.unlines
      (List.replicate n [] ++ (first :: ls).takeWhile (!isHeader ·))
    complete empty n (first :: ls ++ tail) =
      (if sections = [] then .error ⟨.noExpectation, stop⟩
        else .ok (some ⟨n + 1, text, sections⟩), ⟨stop, rest⟩) := by
  intro sections text
  obtain ⟨spec, more, whole, take, _, isSpec, ended⟩ := exists_takeWhile (!isHeader ·) ls
  have bodies : ∀ l ∈ first :: spec, isHeader l = false :=
    List.forall_mem_cons.2 ⟨body, fun l member => by simpa using isSpec l member⟩
  have added : empty.add (n + 1) first = .ok
      (specification (n + 1) (List.replicate n '\n' ++ first ++ ['\n'])) := by
    rw [add, if_neg (by simp [body])]
    exact if_neg (by simp [visible])
  have copied : List.replicate n '\n' ++ first ++ ['\n'] ++ Text.unlines spec = text := by
    unfold text
    rw [List.takeWhile_cons_of_pos (by simp [body]), take, Text.unlines_append,
      Text.unlines_replicate]
    simp [Text.unlines]
  have later : sections = sectionsFrom (n + 1 + spec.length + 1) more := by
    unfold sections
    rw [whole, ← List.cons_append, sectionsFrom_append bodies]
    rfl
  rw [List.forall_mem_cons] at plain
  subst whole
  have begun : complete empty n (first :: (spec ++ more) ++ tail) =
      complete (specification (n + 1) text) (n + 1 + spec.length) (more ++ tail) := by
    rw [List.cons_append, complete_add plain.1 added, List.append_assoc spec,
      complete_specification (fun l member => plain.2 l (List.mem_append_left _ member))
        (List.forall_mem_cons.1 bodies).2, copied]
  have here : n + (first :: (spec ++ more)).length = n + 1 + spec.length + more.length := by
    rw [← add_length_cons, List.length_append, Nat.add_assoc (n + 1)]
  rw [here] at ends
  rw [begun, later, complete_below (fun l head => by simpa using ended l head)
    (fun l member => unbroken l (List.mem_append_right _ member))
    (fun l member => plain.2 l (List.mem_append_right _ member)) ends]

theorem complete_block (unbroken : ∀ l ∈ ls, '\n' ∉ l) (plain : ∀ l ∈ ls, isMarker l = false)
    (ends : Ends (n + ls.length) tail stop rest) :
    match (Block.mk (n + 1) ls stop).test with
    | .error e => (complete empty n (ls ++ tail)).1 = .error e
    | .ok none => complete empty n (ls ++ tail) = complete empty (n + ls.length) tail
    | .ok (some t) => complete empty n (ls ++ tail) = (.ok (some t), ⟨stop, rest⟩) := by
  obtain ⟨comments, more, whole, take, drop, isComments, visible⟩ :=
    exists_takeWhile Text.isComment ls
  subst whole
  have skipped : complete empty n (comments ++ more ++ tail) =
      complete empty (n + comments.length) (more ++ tail) := by
    rw [List.append_assoc]
    exact complete_comments (fun l member => plain l (List.mem_append_left _ member)) isComments n _
  have testLine : (Block.mk (n + 1) (comments ++ more) stop).testLine =
      n + comments.length + 1 := by
    rw [Block.testLine, take, Nat.add_right_comm]
  have testLines : (Block.mk (n + 1) (comments ++ more) stop).testLines = more := drop
  rw [skipped]
  unfold Block.test
  rw [testLines, testLine]
  cases more with
  | nil =>
    rw [List.append_nil]
    rfl
  | cons first more =>
    rw [List.forall_mem_append] at unbroken plain
    have seen : Text.isComment first = false := visible first rfl
    have here : n + (comments ++ first :: more).length =
        n + comments.length + (first :: more).length := by
      rw [List.length_append, Nat.add_assoc]
    rw [here] at ends
    cases header : isHeader first with
    | true =>
      have refused : empty.add (n + comments.length + 1) first =
          .error ⟨.noSpecification, n + comments.length + 1⟩ := by
        rw [add, if_pos header]
      simp only [header, if_true]
      rw [List.cons_append, complete_error (plain.2 first List.mem_cons_self) refused]
    | false =>
      have text : Text.unlines (List.replicate (n + comments.length) [] ++
          (first :: more).takeWhile (!isHeader ·)) =
            (Block.mk (n + 1) (comments ++ first :: more) stop).specification := by
        rw [Block.specification, testLine, testLines, Nat.add_sub_cancel]
      rw [complete_open header seen (List.forall_mem_cons.1 unbroken.2).2 plain.2 ends, text]
      simp only [header, Bool.false_eq_true, if_false]
      cases sectionsFrom (n + comments.length + 1) (first :: more) with
      | nil => rfl
      | cons s sections => rfl

/-! ### Files -/

/-- The readers that calls lead to, whatever the calls answer. -/
inductive Reached (file : Text) : Reader → Prop where
  | start : Reached file (start file)
  | next {r : Reader} (reached : Reached file r) : Reached file r.next.2

theorem all_of_error {r : Reader} {e : FileError} (failed : r.next.1 = .error e) :
    r.all = ([], some e) := by
  rw [all]
  split <;> simp_all

theorem all_of_none {r : Reader} (ended : r.next.1 = .ok none) : r.all = ([], none) := by
  rw [all]
  split <;> simp_all

theorem all_of_test {r : Reader} {t : Test} (found : r.next.1 = .ok (some t)) :
    r.all = (t :: r.next.2.all.1, r.next.2.all.2) := by
  rw [all]
  split <;> simp_all

theorem all_congr {r other : Reader} (same : r.next = other.next) : r.all = other.all := by
  cases next : r.next.1 with
  | error e => rw [all_of_error next, all_of_error (same ▸ next)]
  | ok found =>
    cases found with
    | none => rw [all_of_none next, all_of_none (same ▸ next)]
    | some t =>
      have next' : other.next.1 = .ok (some t) := same ▸ next
      rw [all_of_test next, all_of_test next', same]

theorem number_cons {pieces : List (List Text)} (more : pieces ≠ []) (start : Nat)
    (lines : List Text) :
    Block.number start (lines :: pieces) =
      ⟨start, lines, start + lines.length⟩ :: Block.number (start + lines.length + 1) pieces := by
  cases pieces with
  | nil => exact absurd rfl more
  | cons first others => rfl

/-- The block in front is read, skipped or refused, and reading goes on behind it. -/
theorem all_cons_block (unbroken : ∀ l ∈ ls, '\n' ∉ l) (plain : ∀ l ∈ ls, isMarker l = false)
    (ends : Ends (n + ls.length) tail stop rest) {bs : List Block}
    (later : (Reader.mk stop rest).all = parse.collect bs) :
    (Reader.mk n (ls ++ tail)).all = parse.collect (⟨n + 1, ls, stop⟩ :: bs) := by
  have read := complete_block unbroken plain ends
  have skipped : complete empty (n + ls.length) tail = (Reader.mk stop rest).next := by
    cases ends with
    | file => rfl
    | marker marker rest => exact complete_skip marker _ _
  unfold parse.collect
  cases made : (Block.mk (n + 1) ls stop).test with
  | error e =>
    rw [made] at read
    exact all_of_error read
  | ok found =>
    rw [made] at read
    cases found with
    | none =>
      have next : (Reader.mk n (ls ++ tail)).next = (Reader.mk stop rest).next :=
        read.trans skipped
      rw [all_congr next, later]
      rfl
    | some t =>
      have next : (Reader.mk n (ls ++ tail)).next = (.ok (some t), ⟨stop, rest⟩) := read
      rw [all_of_test (congrArg Prod.fst next), next, later]
      rfl

theorem all_eq_collect (unbroken : ∀ l ∈ ls, '\n' ∉ l) (n : Nat) :
    (Reader.mk n ls).all = parse.collect (Block.number (n + 1) (ls.splitOnP isMarker)) := by
  -- The block in front is cut off together with the marker that ends it.
  induction size : ls.length using Nat.strongRecOn generalizing ls n with
  | ind size ih =>
    subst size
    obtain ⟨block, tail, whole, _, _, isPlain, ended⟩ := exists_takeWhile (!isMarker ·) ls
    subst whole
    have plain : ∀ l ∈ block, isMarker l = false := fun l member => by
      simpa using isPlain l member
    rw [List.forall_mem_append] at unbroken
    cases tail with
    | nil =>
      have last : n + 1 + block.length - 1 = n + block.length := by omega
      have done : (Reader.mk (n + block.length) []).all = parse.collect [] := all_of_none rfl
      rw [all_cons_block unbroken.1 plain .file done, List.append_nil,
        List.splitOnP_eq_singleton plain, Block.number, last]
    | cons marker rest =>
      have marks : isMarker marker = true := by simpa using ended marker rfl
      have later := ih rest.length (by simp; omega) (List.forall_mem_cons.1 unbroken.2).2
        (n + block.length + 1) rfl
      rw [all_cons_block unbroken.1 plain (.marker marks rest) later,
        List.splitOnP_append_cons_of_forall_mem plain marker marks,
        number_cons (List.splitOnP_ne_nil isMarker rest), Nat.add_right_comm n 1]

theorem all_start (file : Text) : (Reader.start file).all = parse file :=
  all_eq_collect (fun _ => Text.unbroken_of_mem_lines) 0

end Reader

end OpcodeAtlas.Golden
