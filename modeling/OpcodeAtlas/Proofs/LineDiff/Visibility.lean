import OpcodeAtlas.LineDiff.Report
import OpcodeAtlas.Proofs.Text.Lines
import OpcodeAtlas.Proofs.Text.Marks

/-!
What a report shows of a difference. The edits between two texts are all shared exactly if the texts
are equal without the carriage returns in front of their line feeds, which are no part of a line
(`shared_lineEdits_iff`). A comparison fails for such a carriage return as well, and then its report
marks no entry (`change_shown_iff`).
-/

namespace OpcodeAtlas

/-! ### Line feeds -/

namespace Text

/-- The text without the carriage return in front of each line feed. -/
def bareFeeds (t : Text) : Text := replace ['\r', '\n'] ['\n'] t

theorem dropReturn_cons_cons (c d : Char) (t : Text) :
    dropReturn (c :: d :: t) = c :: dropReturn (d :: t) := by
  unfold dropReturn
  rw [List.getLast?_cons_cons]
  split <;> rfl

theorem bareFeeds_cons {c : Char} {t : Text} (absent : ¬ ['\r', '\n'] <+: c :: t) :
    bareFeeds (c :: t) = c :: bareFeeds t :=
  replace_cons_of_absent absent

theorem bareFeeds_line {line : Text} (unbroken : '\n' ∉ line) (rest : Text) :
    bareFeeds (line ++ '\n' :: rest) = dropReturn line ++ '\n' :: bareFeeds rest := by
  -- Only the last character of the line can be a return in front of a feed.
  induction line with
  | nil => exact bareFeeds_cons (by simp)
  | cons c line ih =>
    rw [List.mem_cons, not_or] at unbroken
    cases line with
    | nil =>
      by_cases back : c = '\r'
      · subst back
        exact replace_self_append (List.cons_ne_nil _ _)
      · have kept : dropReturn [c] = [c] := by simp [dropReturn, back]
        rw [kept, List.singleton_append, bareFeeds_cons (by simp [Ne.symm back])]
        exact congrArg (c :: ·) (ih unbroken.2)
    | cons d line =>
      have absent : ¬ ['\r', '\n'] <+: c :: ((d :: line) ++ '\n' :: rest) := by
        intro here
        have second := (List.cons_prefix_cons.1 here).2
        rw [List.cons_append, List.cons_prefix_cons] at second
        exact unbroken.2 (second.1 ▸ List.mem_cons_self)
      rw [List.cons_append, bareFeeds_cons absent, ih unbroken.2, dropReturn_cons_cons,
        List.cons_append]

theorem bareFeeds_unlines_append {ls : List Text} {last : Text}
    (unbroken : ∀ line ∈ ls, '\n' ∉ line) (rest : '\n' ∉ last) :
    bareFeeds (unlines ls ++ last) = unlines (ls.map dropReturn) ++ last := by
  induction ls with
  | nil =>
    refine replace_of_absent fun here => rest ?_
    exact here.subset (by simp)
  | cons line ls ih =>
    rw [List.forall_mem_cons] at unbroken
    have first : unlines (line :: ls) ++ last = line ++ '\n' :: (unlines ls ++ last) := by
      simp [unlines]
    rw [first, bareFeeds_line unbroken.1, ih unbroken.2]
    simp [unlines]

end Text

namespace LineDiff

theorem endsInLineFeed_unlines_append {ls : List Text} {last : Text} (rest : '\n' ∉ last) :
    endsInLineFeed (Text.unlines ls ++ last) = (last.isEmpty && !ls.isEmpty) := by
  unfold endsInLineFeed
  cases last with
  | nil =>
    cases ls with
    | nil => rfl
    | cons line ls =>
      rw [List.append_nil, Text.getLast?_unlines (List.cons_ne_nil _ _)]
      rfl
  | cons c last =>
    rw [List.getLast?_append_of_ne_nil _ (List.cons_ne_nil _ _)]
    have other : (c :: last).getLast? ≠ some '\n' := fun feed => rest (List.mem_of_getLast? feed)
    simpa using other

/-- Whole lines without carriage returns at their ends, and a rest that is a line if it is not
empty. -/
theorem exists_pieces (t : Text) :
    ∃ ls last, (∀ line ∈ ls, '\n' ∉ line) ∧ '\n' ∉ last ∧ t.bareFeeds = Text.unlines ls ++ last ∧
      t.lines = ls ++ (if last.isEmpty then [] else [last]) ∧
      endsInLineFeed t = (last.isEmpty && !ls.isEmpty) := by
  obtain ⟨ls, last, unbroken, rest, rfl⟩ := Text.exists_unlines_append t
  refine ⟨ls.map Text.dropReturn, last, ?_, rest, Text.bareFeeds_unlines_append unbroken rest, ?_,
    ?_⟩
  · intro line member feed
    obtain ⟨whole, inside, rfl⟩ := List.mem_map.1 member
    exact unbroken whole inside (Text.mem_of_mem_dropReturn feed)
  · rw [Text.lines_append (Text.whole_unlines ls), Text.lines_unlines unbroken,
      Text.lines_of_unbroken rest]
  · rw [endsInLineFeed_unlines_append rest, List.isEmpty_map]

/-- The lines and the end of a text tell all of it but carriage returns in front of line feeds. -/
theorem bareFeeds_eq_iff {s t : Text} :
    s.bareFeeds = t.bareFeeds ↔ s.lines = t.lines ∧ endsInLineFeed s = endsInLineFeed t := by
  obtain ⟨ls, last, unbroken, rest, bare, lines, ends⟩ := exists_pieces s
  obtain ⟨ms, final, unbroken', rest', bare', lines', ends'⟩ := exists_pieces t
  rw [bare, bare', lines, lines', ends, ends']
  constructor
  · intro same
    have pieces := congrArg (List.splitOn '\n') same
    rw [Text.splitOn_unlines_append unbroken rest, Text.splitOn_unlines_append unbroken' rest']
      at pieces
    obtain ⟨rfl, single⟩ := List.append_inj' pieces rfl
    obtain rfl := List.singleton_inj.1 single
    exact ⟨rfl, rfl⟩
  · rintro ⟨same, ended⟩
    cases last with
    | nil =>
      cases final with
      | nil => simp_all
      | cons d final =>
        have none : ls = [] := by simpa using ended
        simp [none] at same
    | cons c last =>
      cases final with
      | nil =>
        have none : ms = [] := by simpa using ended
        simp [none] at same
      | cons d final =>
        obtain ⟨rfl, single⟩ := List.append_inj' same rfl
        rw [List.singleton_inj.1 single]

/-! ### Shared edits -/

namespace Edit

variable {α : Type}

def isShared : Edit α → Bool
  | both _ => true
  | left _ | right _ => false

def element : Edit α → α
  | left a | right a | both a => a

end Edit

section

variable {α : Type}

theorem lefts_eq_rights {es : List (Edit α)} (shared : ∀ e ∈ es, e.isShared = true) :
    lefts es = rights es := by
  induction es with
  | nil => rfl
  | cons e es ih =>
    rw [List.forall_mem_cons] at shared
    cases e with
    | left a => cases shared.1
    | right b => cases shared.1
    | both a => exact congrArg (a :: ·) (ih shared.2)

theorem element_mem {es : List (Edit α)} {e : Edit α} (member : e ∈ es) :
    e.element ∈ lefts es ∨ e.element ∈ rights es := by
  cases e with
  | left a => exact .inl (List.mem_filterMap.2 ⟨_, member, rfl⟩)
  | right b => exact .inr (List.mem_filterMap.2 ⟨_, member, rfl⟩)
  | both a => exact .inl (List.mem_filterMap.2 ⟨_, member, rfl⟩)

variable [DecidableEq α]

theorem commonPrefix_self (as : List α) : commonPrefix as as = as := by
  induction as with
  | nil => rfl
  | cons a as ih => simp [commonPrefix, ih]

theorem edits_self (as : List α) : edits as as = as.map .both := by
  simp [edits, commonPrefix_self, editsBack, Alignment.empty]

theorem shared_edits_iff {as bs : List α} :
    (∀ e ∈ edits as bs, e.isShared = true) ↔ as = bs := by
  constructor
  · intro shared
    rw [← lefts_edits as bs, lefts_eq_rights shared, rights_edits]
  · rintro rfl
    rw [edits_self, List.forall_mem_map]
    exact fun _ _ => rfl

end

theorem shared_finalEdit_iff {s t : Text} :
    (∀ e ∈ finalEdit s t, e.isShared = true) ↔ endsInLineFeed s = endsInLineFeed t := by
  unfold finalEdit
  cases endsInLineFeed s <;> cases endsInLineFeed t <;> simp [Edit.isShared]

theorem shared_lineEdits_iff {s t : Text} :
    (∀ e ∈ lineEdits s t, e.isShared = true) ↔ s.bareFeeds = t.bareFeeds := by
  rw [lineEdits, List.forall_mem_append, shared_edits_iff, shared_finalEdit_iff, bareFeeds_eq_iff]

theorem unbroken_of_mem_lineEdits {s t : Text} {e : Edit Text} (member : e ∈ lineEdits s t) :
    '\n' ∉ e.element := by
  rcases List.mem_append.1 member with edit | final
  · rcases element_mem edit with left | right
    · rw [lefts_edits] at left
      exact Text.unbroken_of_mem_lines left
    · rw [rights_edits] at right
      exact Text.unbroken_of_mem_lines right
  · have empty : e.element = [] := by
      unfold finalEdit at final
      split at final <;> simp_all [Edit.element]
    rw [empty]
    exact List.not_mem_nil

/-! ### Entries -/

def isNumbering (c : Char) : Bool := c = ' ' || c.isDigit

/-- What stands behind the line number of an entry. -/
def mark? (entry : Text) : Option Char := (entry.dropWhile isNumbering).head?

/-- The entry is about a line that one text has and the other has not. -/
def IsChange (entry : Text) : Prop := mark? entry = some '-' ∨ mark? entry = some '+'

namespace Comparison

theorem isNumbering_of_mem {number : Nat} {c : Char}
    (member : c ∈ Text.padLeft 5 ' ' (Text.decimal number) ++ [' ']) : isNumbering c = true := by
  unfold Text.padLeft at member
  rcases List.mem_append.1 member with written | space
  · rcases List.mem_append.1 written with fill | digit
    · rw [List.eq_of_mem_replicate fill]
      rfl
    · have isDigit := Nat.isDigit_of_mem_toDigits (by decide) (by decide) digit
      simp [isNumbering, isDigit]
  · rw [List.mem_singleton.1 space]
    rfl

theorem entryLine_eq (number : Nat) (mark : Char) (line : Text) :
    entryLine number mark line = (Text.padLeft 5 ' ' (Text.decimal number) ++ [' ']) ++
      mark :: (' ' :: (showLine line ++ ['↴'])) := by
  simp [entryLine]

theorem mark?_entryLine {mark : Char} (plain : isNumbering mark = false) (number : Nat)
    (line : Text) : mark? (entryLine number mark line) = some mark := by
  rw [mark?, entryLine_eq, List.dropWhile_append_of_pos fun _ => isNumbering_of_mem,
    List.dropWhile_cons_of_neg (by simp [plain])]
  rfl

theorem exists_change_iff (es : List (Edit Text)) (expected actual : Nat) :
    (∃ entry ∈ entryLines expected actual es, IsChange entry) ↔
      ∃ e ∈ es, e.isShared = false := by
  induction es generalizing expected actual with
  | nil => simp [entryLines]
  | cons e es ih =>
    cases e with
    | left l =>
      have shown : IsChange (entryLine expected '-' l) :=
        .inl (mark?_entryLine (by decide) expected l)
      simp [entryLines, shown, Edit.isShared]
    | right l =>
      have shown : IsChange (entryLine actual '+' l) :=
        .inr (mark?_entryLine (by decide) actual l)
      simp [entryLines, shown, Edit.isShared]
    | both l =>
      have shared : ¬ IsChange (entryLine expected '|' l) := by
        rw [IsChange, mark?_entryLine (by decide) expected l]
        decide
      simp [entryLines, shared, Edit.isShared, ih]

/-! ### Reports -/

theorem unbroken_showLine {line : Text} (unbroken : '\n' ∉ line) : '\n' ∉ showLine line := by
  have plain : ∀ c, showBlank c = '\n' → c = '\n' := by
    intro c
    unfold showBlank
    split
    · exact fun arrow => absurd arrow (by decide)
    · split
      · exact fun dot => absurd dot (by decide)
      · exact id
  unfold showLine
  rw [List.mem_append, not_or]
  constructor
  · intro feed
    unfold Text.trimEnd at feed
    have inside := (List.dropWhile_suffix Text.isBlank).subset (List.mem_reverse.1 feed)
    exact unbroken (List.mem_reverse.1 inside)
  · intro feed
    obtain ⟨c, inside, shown⟩ := List.mem_map.1 feed
    exact unbroken (plain c shown ▸ List.mem_of_mem_drop inside)

theorem unbroken_entryLine {mark : Char} (other : '\n' ≠ mark) {line : Text}
    (unbroken : '\n' ∉ line) (number : Nat) : '\n' ∉ entryLine number mark line := by
  rw [entryLine_eq, List.mem_append, not_or]
  constructor
  · intro feed
    exact absurd (isNumbering_of_mem feed) (by decide)
  · simp [other, unbroken_showLine unbroken]

theorem dropReturn_entryLine (number : Nat) (mark : Char) (line : Text) :
    (entryLine number mark line).dropReturn = entryLine number mark line := by
  have last : (entryLine number mark line).getLast? = some '↴' := List.getLast?_concat
  rw [Text.dropReturn, last, if_neg (by decide)]

theorem lines_unlines_entryLines {es : List (Edit Text)} (unbroken : ∀ e ∈ es, '\n' ∉ e.element)
    (expected actual : Nat) :
    Text.lines (Text.unlines (entryLines expected actual es)) = entryLines expected actual es := by
  have first : ∀ {mark l}, '\n' ≠ mark → '\n' ∉ l → ∀ number rest,
      Text.lines (Text.unlines (entryLine number mark l :: rest)) =
        entryLine number mark l :: Text.lines (Text.unlines rest) := by
    intro mark l other inside number rest
    have joined : Text.unlines (entryLine number mark l :: rest) =
        entryLine number mark l ++ '\n' :: Text.unlines rest := by
      simp [Text.unlines]
    rw [joined, Text.lines_line (unbroken_entryLine other inside number), dropReturn_entryLine]
  induction es generalizing expected actual with
  | nil => rfl
  | cons e es ih =>
    rw [List.forall_mem_cons] at unbroken
    cases e with
    | left l => exact (first (by decide) unbroken.1 _ _).trans (congrArg _ (ih unbroken.2 _ _))
    | both l => exact (first (by decide) unbroken.1 _ _).trans (congrArg _ (ih unbroken.2 _ _))
    | right l => exact (first (by decide) unbroken.1 _ _).trans (congrArg _ (ih unbroken.2 _ _))

/-- The lines of the report below its heading. -/
def entries (c : Comparison) : List Text :=
  Text.lines (c.report.drop (Text.unlines c.heading).length)

theorem entries_eq (c : Comparison) :
    c.entries = entryLines (max c.line 1) (max c.line 1) (lineEdits c.expected c.actual) := by
  have below : c.report.drop (Text.unlines c.heading).length = Text.unlines
      (entryLines (max c.line 1) (max c.line 1) (lineEdits c.expected c.actual)) := by
    rw [report, Text.unlines_append, List.drop_left]
  rw [entries, below, lines_unlines_entryLines fun _ => unbroken_of_mem_lineEdits]

/-- A report marks a change exactly if the comparison fails and the texts differ in more than
carriage returns in front of line feeds. -/
theorem change_shown_iff (c : Comparison) :
    (∃ entry ∈ c.entries, IsChange entry) ↔
      c.failure?.isSome = true ∧ c.expected.bareFeeds ≠ c.actual.bareFeeds := by
  have fails : c.failure?.isSome = true ↔ c.expected ≠ c.actual := by
    unfold failure?
    split <;> simp_all
  have shown : (∃ entry ∈ c.entries, IsChange entry) ↔
      c.expected.bareFeeds ≠ c.actual.bareFeeds := by
    rw [entries_eq, exists_change_iff, ne_eq, ← shared_lineEdits_iff]
    simp
  rw [shown, fails]
  exact ⟨fun differ => ⟨fun same => differ (congrArg _ same), differ⟩, And.right⟩

/-- A carriage return makes the comparison fail, and no entry of the report tells. -/
theorem change_may_be_hidden :
    ∃ c : Comparison, c.failure?.isSome = true ∧ ∀ entry ∈ c.entries, ¬ IsChange entry := by
  let c : Comparison := ⟨"a.test", 1, "opcode 90\r\n", "opcode 90\n"⟩
  have hidden : ¬ ∃ entry ∈ c.entries, IsChange entry := by
    rw [entries_eq, exists_change_iff]
    decide
  exact ⟨c, rfl, fun entry member change => hidden ⟨entry, member, change⟩⟩

end Comparison

end LineDiff

end OpcodeAtlas
