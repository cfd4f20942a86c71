import OpcodeAtlas.Proofs.Golden.Lines

/-!
Empty lines at the end of sections. Feeds are dropped from the end of a section while there are two,
so a section that holds a line does not tell how many empty lines follow it. One that holds none
keeps the feed of the first empty line (`read_padded`): an empty section cannot be set off from what
follows it (`empty_section_gains_feed`).
-/

namespace OpcodeAtlas.Golden

def isBody (line : Text) : Bool := !isHeader line && !isMarker line

/-- The lines from a number up to a header, a marker or the end of the file. -/
def bodyAt (number : Nat) (file : List Text) : List Text :=
  (file.drop (number - 1)).takeWhile isBody

/-- The file with empty lines in front of what ends the lines at a number. -/
def padAt (number n : Nat) (file : List Text) : List Text :=
  let stop := number - 1 + (bodyAt number file).length
  file.take stop ++ List.replicate n [] ++ file.drop stop

def Section.lower (n : Nat) (s : Section) : Section := { s with line := s.line + n }

/-- A section of a file above empty lines that are new. -/
def Section.pad (file : List Text) (n : Nat) (s : Section) : Section :=
  if bodyAt s.line file = [] ∧ 0 < n then { s with text := "\n" } else s

/-! ### Padding -/

variable {body after : List Text} {header : Text}

/-- What stands below a section ends it. -/
def Bounds (after : List Text) : Prop := ∀ l ∈ after.head?, isHeader l = true ∨ isMarker l = true

theorem plain_iff : Plain body ↔ ∀ l ∈ body, isBody l = true := by
  simp [Plain, isBody]

theorem Plain.append_replicate (plain : Plain body) (n : Nat) :
    Plain (body ++ List.replicate n []) := by
  unfold Plain
  rw [List.forall_mem_append]
  exact ⟨plain, fun l empty => by rw [List.eq_of_mem_replicate empty]; decide⟩

theorem takeWhile_append_eq {α : Type} {p : α → Bool} {as bs : List α}
    (inside : ∀ a ∈ as, p a = true) (outside : ∀ b ∈ bs.head?, p b = false) :
    (as ++ bs).takeWhile p = as := by
  have none : bs.takeWhile p = [] := by
    cases bs with
    | nil => rfl
    | cons b bs => simp [outside b rfl]
  rw [List.takeWhile_append_of_pos inside, none, List.append_nil]

theorem bodyAt_eq (above : List Text) (plain : Plain body) (bounds : Bounds after) :
    bodyAt (above.length + 2) (above ++ header :: (body ++ after)) = body := by
  have below : (above ++ header :: (body ++ after)).drop (above.length + 2 - 1) = body ++ after :=
    List.drop_length_add_append 1
  rw [bodyAt, below]
  apply takeWhile_append_eq (plain_iff.1 plain)
  intro l first
  rcases bounds l first with opens | marks
  · simp [isBody, opens]
  · simp [isBody, marks]

theorem padAt_eq (above : List Text) (plain : Plain body) (bounds : Bounds after) (n : Nat) :
    padAt (above.length + 2) n (above ++ header :: (body ++ after)) =
      above ++ header :: (body ++ List.replicate n [] ++ after) := by
  have stop : above.length + 2 - 1 + body.length = (above ++ header :: body).length := by
    rw [List.length_append, List.length_cons]
    omega
  have whole : above ++ header :: (body ++ after) = (above ++ header :: body) ++ after := by simp
  simp only [padAt]
  rw [bodyAt_eq above plain bounds, stop, whole, List.take_left, List.drop_left]
  simp

theorem dropEmptyEnd_append_replicate (body : List Text) (n : Nat) :
    dropEmptyEnd (body ++ List.replicate n []) =
      if body = [] ∧ 0 < n then [[]] else dropEmptyEnd body := by
  -- The first empty line below an empty body stays, each further one is dropped.
  induction n with
  | zero => simp
  | succ n ih =>
    rw [List.replicate_succ', ← List.append_assoc, dropEmptyEnd_concat, ih]
    cases body with
    | cons line body => simp
    | nil =>
      cases n with
      | zero => rfl
      | succ n => simp

theorem unlines_padded (body : List Text) (n : Nat) :
    Text.unlines (dropEmptyEnd (body ++ List.replicate n [])) =
      if body = [] ∧ 0 < n then ['\n'] else Text.unlines (dropEmptyEnd body) := by
  rw [dropEmptyEnd_append_replicate]
  split <;> rfl

theorem sectionsFrom_add (number n : Nat) (ls : List Text) :
    sectionsFrom (number + n) ls = (sectionsFrom number ls).map (Section.lower n) := by
  induction ls generalizing number with
  | nil => rfl
  | cons line ls ih =>
    rw [sectionsFrom, sectionsFrom, Nat.add_right_comm number n 1, ih]
    split <;> rfl

theorem lt_line_of_mem_sectionsFrom {number : Nat} {ls : List Text} {s : Section}
    (member : s ∈ sectionsFrom number ls) : number < s.line := by
  induction ls generalizing number with
  | nil => cases member
  | cons line ls ih =>
    rw [sectionsFrom] at member
    split at member
    · rcases List.mem_cons.1 member with rfl | later
      · exact Nat.lt_succ_self number
      · exact Nat.lt_of_succ_lt (ih later)
    · exact Nat.lt_of_succ_lt (ih member)

theorem isMarker_of_isHeader (opens : isHeader header = true) : isMarker header = false := by
  obtain ⟨rest, rfl⟩ := List.isPrefixOf_iff_prefix.1 opens
  have shape : headerMark ++ rest = '=' :: ('=' :: ' ' :: rest) := rfl
  unfold isMarker
  rw [shape, trimEnd_cons (by decide), decide_eq_false_iff_not]
  nofun

/-! ### Calls -/

namespace Reader

open Draft

variable {d : Draft} {k : Nat} {line : Text} {front : List Text}

/-- A call ends inside the lines, whatever follows them. -/
def EndsIn (front : List Text) (d : Draft) (k : Nat) : Prop :=
  ∃ answer seen left, front = seen ++ left ∧
    ∀ rest, complete d k (front ++ rest) = (answer, ⟨k + seen.length, left ++ rest⟩)

/-- A call goes on below the lines with what it has made of them. -/
def Passes (front : List Text) (d : Draft) (k : Nat) (new : Draft) : Prop :=
  ∀ rest, complete d k (front ++ rest) = complete new (k + front.length) rest

theorem endsIn_cons {answer : Except FileError (Option Test)}
    (ended : ∀ rest, complete d k (line :: rest) = (answer, ⟨k + 1, rest⟩)) :
    EndsIn (line :: front) d k :=
  ⟨answer, [line], front, rfl, fun rest => ended (front ++ rest)⟩

theorem endsIn_or_passes_cons {new : Draft}
    (goes : ∀ rest, complete d k (line :: rest) = complete new (k + 1) rest)
    (later : EndsIn front new (k + 1) ∨ ∃ last, Passes front new (k + 1) last) :
    EndsIn (line :: front) d k ∨ ∃ last, Passes (line :: front) d k last := by
  rcases later with ⟨answer, seen, left, rfl, ended⟩ | ⟨last, passes⟩
  · refine .inl ⟨answer, line :: seen, left, rfl, fun rest => ?_⟩
    rw [List.cons_append, goes, ended, add_length_cons]
  · refine .inr ⟨last, fun rest => ?_⟩
    rw [List.cons_append, goes, passes, add_length_cons]

theorem endsIn_or_passes (front : List Text) (d : Draft) (k : Nat) :
    EndsIn front d k ∨ ∃ last, Passes front d k last := by
  induction front generalizing d k with
  | nil => exact .inr ⟨d, fun rest => rfl⟩
  | cons line front ih =>
    cases marker : isMarker line with
    | true =>
      by_cases empty : d = .empty
      · subst empty
        exact endsIn_or_passes_cons (complete_skip marker k) (ih .empty (k + 1))
      · exact .inl (endsIn_cons (complete_stop empty marker k))
    | false =>
      cases added : d.add (k + 1) line with
      | error e => exact .inl (endsIn_cons (complete_error marker added))
      | ok new => exact endsIn_or_passes_cons (complete_add marker added) (ih new (k + 1))

/-- What stands below lines may be exchanged as long as calls have not got there. -/
theorem Reached.exchange {old new : Text} {r : Reader} (reached : r.Reached old)
    {above below other : List Text} (lines : old.lines = above ++ below) (more : below ≠ [])
    (exchanged : new.lines = above ++ other) (rest : r.rest = front ++ below) :
    (Reader.mk r.line (front ++ other)).Reached new := by
  induction reached generalizing front with
  | start =>
    have same : front = above := List.append_cancel_right (rest.symm.trans lines)
    rw [same, ← exchanged]
    exact .start
  | @next r reached ih =>
    have shorter : r.next.2.rest.length ≤ r.rest.length :=
      Nat.le_trans (length_complete_le .empty r.line r.rest) (by simp)
    have ahead : below <:+ r.rest := by
      obtain ⟨seen, whole, _⟩ := reached.counts
      have low : below <:+ old.lines := ⟨above, lines.symm⟩
      apply List.suffix_of_suffix_length_le low ⟨seen, whole.symm⟩
      rw [rest, List.length_append] at shorter
      omega
    obtain ⟨ahead, whole⟩ := ahead
    have before : (Reader.mk r.line (ahead ++ other)).Reached new := ih whole.symm
    rcases endsIn_or_passes ahead .empty r.line with ⟨answer, seen, left, _, ended⟩ | ⟨d, passes⟩
    · -- The call stays in front of what is exchanged and does the same in both files.
      have here : r.next = (answer, ⟨r.line + seen.length, left ++ below⟩) := by
        rw [Reader.next, ← whole, ended]
      have same : left = front := by
        rw [here] at rest
        exact List.append_cancel_right rest
      have there : (Reader.mk r.line (ahead ++ other)).next =
          (answer, ⟨r.line + seen.length, left ++ other⟩) := ended other
      have moved := before.next
      rw [there, same] at moved
      rw [here]
      exact moved
    · -- A call that gets below the lines reads one of those that stand there.
      have longer := length_complete_le d (r.line + ahead.length) below
      rw [← passes, whole] at longer
      have fewer : r.next.2.rest.length ≤ below.tail.length := longer
      rw [rest, List.length_append, List.length_tail] at fewer
      have some : 0 < below.length := List.length_pos_of_ne_nil more
      omega

/-! ### Sections -/

/-- A section stands below the lines that were read before the call. -/
theorem exists_place {lines : List Text} (unbroken : ∀ l ∈ lines, '\n' ∉ l) {t : Test}
    (read : (complete .empty k lines).1 = .ok (some t)) {s : Section} (member : s ∈ t.sections) :
    ∃ front header body after, lines = front ++ header :: (body ++ after) ∧
      isHeader header = true ∧ Plain body ∧ Bounds after ∧ s.line = k + front.length + 2 := by
  -- Empty lines stand for those that were read: no header is among them.
  have length : (List.replicate k ([] : Text)).length = k := List.length_replicate
  have kept : s.KeepsLines (List.replicate k [] ++ lines) := by
    refine (complete_keeps (d := .empty) ?_ trivial (by rwa [length])).2 s member
    rw [List.forall_mem_append]
    exact ⟨Text.unbroken_replicate k, unbroken⟩
  obtain ⟨before, header, body, n, after, whole, opens, number, _, plain, _, bounds⟩ := kept
  have below : k ≤ before.length := by
    by_contra inside
    have here : (List.replicate k [] ++ lines)[before.length]? = some header := by
      rw [whole]
      simp
    rw [List.getElem?_append_left (by omega)] at here
    rw [List.eq_of_mem_replicate (List.mem_of_getElem? here)] at opens
    cases opens
  obtain ⟨front, rfl⟩ : List.replicate k [] <+: before :=
    List.prefix_of_prefix_length_le ⟨lines, whole⟩ (List.prefix_append before _) (by omega)
  rw [List.append_assoc] at whole
  exact ⟨front, header, body ++ List.replicate n [], after, List.append_cancel_left whole, opens,
    plain.append_replicate n, bounds, by rw [number, List.length_append, length]⟩

theorem exists_add_header (opens : isHeader header = true) (begun : d ≠ .empty) :
    ∃ start text closed, d.add (k + 1) header =
      .ok (.sections start text closed ⟨sectionName header, k + 2, []⟩) := by
  unfold Draft.add
  rw [if_pos opens]
  cases d with
  | empty => exact absurd rfl begun
  | specification start text => exact ⟨start, text, [], rfl⟩
  | sections start text earlier last => exact ⟨start, text, earlier ++ [last], rfl⟩

theorem complete_section {start : Nat} {text : Text} {closed : List Section}
    (opens : isHeader header = true)
    (opened : d.add (k + 1) header =
      .ok (.sections start text closed ⟨sectionName header, k + 2, []⟩))
    {block tail : List Text} (plain : Plain body) (unmarked : ∀ l ∈ block, isMarker l = false)
    (headed : ∀ l ∈ block.head?, isHeader l = true) (ended : ∀ l ∈ tail.head?, isMarker l = true)
    (unbroken : ∀ l ∈ body ++ block, '\n' ∉ l) :
    (complete d k (header :: (body ++ (block ++ tail)))).1 =
      .ok (some ⟨start, text, closed.map Section.trim ++
        ⟨sectionName header, k + 2, Text.unlines (dropEmptyEnd body)⟩ ::
          sectionsFrom (k + 2 + body.length) block⟩) := by
  have outside : ∀ l ∈ body ++ block, isMarker l = false := by
    rw [List.forall_mem_append]
    exact ⟨fun l member => (plain l member).2, unmarked⟩
  obtain ⟨stop, rest, ends⟩ :
      ∃ stop rest, Ends (k + 1 + (body ++ block).length) tail stop rest := by
    cases tail with
    | nil => exact ⟨_, [], .file⟩
    | cons line tail => exact ⟨_, tail, .marker (ended line rfl) tail⟩
  have bodies : ∀ l ∈ body, isHeader l = false := fun l member => (plain l member).1
  have inside : (body ++ block).takeWhile (!isHeader ·) = body :=
    takeWhile_append_eq (fun l member => by simp [bodies l member])
      fun l first => by simp [headed l first]
  obtain ⟨earlier, last, same, trimmed⟩ := complete_sections unbroken outside start text closed
    ⟨sectionName header, k + 2, []⟩ (k + 1) tail
  rw [← List.append_assoc, complete_add (isMarker_of_isHeader opens) opened, same,
    complete_end (by simp) ends, finish, trimmed, inside, sectionsFrom_append bodies]
  simp only [List.nil_append, Section.trim]
  rw [trimFeeds_unlines fun l member => unbroken l (List.mem_append_left _ member)]

theorem complete_padded {t : Test} (opens : isHeader header = true) (plain : Plain body)
    (bounds : Bounds after) (unbroken : ∀ l ∈ body ++ after, '\n' ∉ l)
    (read : (complete d k (header :: (body ++ after))).1 = .ok (some t)) :
    ∃ start text closed later,
      d.add (k + 1) header =
        .ok (.sections start text closed ⟨sectionName header, k + 2, []⟩) ∧
      (∀ s ∈ later, k + 2 < s.line) ∧
      t.sections = closed.map Section.trim ++
        ⟨sectionName header, k + 2, Text.unlines (dropEmptyEnd body)⟩ :: later ∧
      ∀ n, (complete d k (header :: (body ++ List.replicate n [] ++ after))).1 =
        .ok (some { t with
          sections := closed.map Section.trim ++
            ⟨sectionName header, k + 2,
              Text.unlines (dropEmptyEnd (body ++ List.replicate n []))⟩ ::
                later.map (Section.lower n) }) := by
  have begun : d ≠ .empty := by
    rintro rfl
    have refused : Draft.add .empty (k + 1) header = .error ⟨.noSpecification, k + 1⟩ := by
      rw [add, if_pos opens]
    rw [complete_error (isMarker_of_isHeader opens) refused] at read
    cases read
  obtain ⟨start, text, closed, opened⟩ := exists_add_header (k := k) opens begun
  obtain ⟨block, tail, rfl, _, _, isBlock, ended⟩ := exists_takeWhile (!isMarker ·) after
  have unmarked : ∀ l ∈ block, isMarker l = false := fun l member => by simpa using isBlock l member
  have headed : ∀ l ∈ block.head?, isHeader l = true := by
    intro l first
    refine (bounds l (by rw [List.head?_append, first]; rfl)).resolve_right ?_
    simp [unmarked l (List.mem_of_head? first)]
  have marked : ∀ l ∈ tail.head?, isMarker l = true := fun l first => by
    simpa using ended l first
  rw [← List.append_assoc, List.forall_mem_append] at unbroken
  obtain ⟨unbroken, _⟩ := unbroken
  rw [complete_section opens opened plain unmarked headed marked unbroken] at read
  obtain rfl := Option.some.inj (Except.ok.inj read)
  refine ⟨start, text, closed, sectionsFrom (k + 2 + body.length) block, opened, ?_, rfl, ?_⟩
  · intro s member
    exact Nat.lt_of_le_of_lt (Nat.le_add_right _ _) (lt_line_of_mem_sectionsFrom member)
  · intro n
    have longer : ∀ l ∈ body ++ List.replicate n [] ++ block, '\n' ∉ l := by
      rw [List.forall_mem_append] at unbroken
      rw [List.forall_mem_append, List.forall_mem_append]
      exact ⟨⟨unbroken.1, Text.unbroken_replicate n⟩, unbroken.2⟩
    rw [complete_section opens opened (plain.append_replicate n) unmarked headed marked longer,
      List.length_append, List.length_replicate, ← Nat.add_assoc, sectionsFrom_add]

theorem line_le_of_closed {lines : List Text} (unbroken : ∀ l ∈ lines, '\n' ∉ l)
    (passes : Passes lines .empty k d) (opens : isHeader header = true)
    {start : Nat} {text : Text} {closed : List Section} {last : Section} {number : Nat}
    (opened : d.add number header = .ok (.sections start text closed last)) :
    ∀ s ∈ closed.map Section.trim, s.line ≤ k + lines.length + 1 := by
  intro s member
  -- A file that ended above the header would give a test of the sections that are closed there.
  have read : ∃ t : Test, (complete .empty k lines).1 = .ok (some t) ∧ s ∈ t.sections := by
    have whole := passes []
    rw [List.append_nil] at whole
    unfold Draft.add at opened
    rw [if_pos opens] at opened
    cases d with
    | empty => cases opened
    | specification start text =>
      cases opened
      cases member
    | sections start text earlier last =>
      cases opened
      exact ⟨_, by rw [whole]; rfl, member⟩
  obtain ⟨t, read, member⟩ := read
  obtain ⟨front, header, body, after, rfl, _, _, _, place⟩ := exists_place unbroken read member
  rw [place, List.length_append, List.length_cons]
  omega

/-- A call that reads a section below lines does not end inside them. -/
theorem exists_passes {rest : List Text} (unbroken : ∀ l ∈ front, '\n' ∉ l) {t : Test}
    (read : (complete .empty k (front ++ rest)).1 = .ok (some t)) {s : Section}
    (member : s ∈ t.sections) (place : s.line = k + front.length + 2) :
    ∃ d, Passes front .empty k d := by
  refine (endsIn_or_passes front .empty k).resolve_left ?_
  rintro ⟨answer, seen, left, _, ended⟩
  have cut : (complete .empty k front).1 = .ok (some t) := by
    rw [← List.append_nil front, ended []]
    rw [ended] at read
    exact read
  obtain ⟨_, _, _, _, rfl, _, _, _, inside⟩ := exists_place unbroken cut member
  rw [List.length_append, List.length_cons] at place
  omega

theorem complete_padded_of_place {t : Test} (opens : isHeader header = true) (plain : Plain body)
    (bounds : Bounds after) (unbroken : ∀ l ∈ front ++ header :: (body ++ after), '\n' ∉ l)
    (read : (complete .empty k (front ++ header :: (body ++ after))).1 = .ok (some t))
    {s : Section} (member : s ∈ t.sections) (place : s.line = k + front.length + 2) :
    ∃ earlier later, t.sections = earlier ++ s :: later ∧
      s.text = Text.unlines (dropEmptyEnd body) ∧
      ∀ n, (complete .empty k (front ++ header :: (body ++ List.replicate n [] ++ after))).1 =
        .ok (some { t with
          sections := earlier ++
            { s with text := Text.unlines (dropEmptyEnd (body ++ List.replicate n [])) } ::
              later.map (Section.lower n) }) := by
  rw [List.forall_mem_append, List.forall_mem_cons] at unbroken
  obtain ⟨above, _, below⟩ := unbroken
  obtain ⟨d, passes⟩ := exists_passes above read member place
  rw [passes] at read
  obtain ⟨start, text, closed, later, opened, behind, sections, again⟩ :=
    complete_padded opens plain bounds below read
  have same : s = ⟨sectionName header, k + front.length + 2, Text.unlines (dropEmptyEnd body)⟩ := by
    rw [sections] at member
    rcases List.mem_append.1 member with closed | rest
    · have high : s.line ≤ k + front.length + 1 :=
        line_le_of_closed above passes opens opened s closed
      omega
    · rcases List.mem_cons.1 rest with same | later
      · exact same
      · have low : k + front.length + 2 < s.line := behind s later
        omega
  subst same
  exact ⟨closed.map Section.trim, later, sections, rfl, fun n => by rw [passes, again]⟩

end Reader

/-! ### Files -/

/-- Empty lines at the end of a section lower the sections behind it. They do not change its text,
except that an empty one gets a feed. -/
theorem read_padded {old new : Text} {r : Reader} (reached : r.Reached old) {t : Test}
    (read : r.next.1 = .ok (some t)) {s : Section} (member : s ∈ t.sections) {n : Nat}
    (padded : new.lines = padAt s.line n old.lines) :
    (bodyAt s.line old.lines = [] → s.text = []) ∧
      ∃ earlier later, t.sections = earlier ++ s :: later ∧
        ∃ other : Reader, other.Reached new ∧ other.line = r.line ∧
          other.next.1 = .ok (some { t with
            sections := earlier ++ s.pad old.lines n :: later.map (Section.lower n) }) := by
  obtain ⟨above, lines, number⟩ := reached.counts
  have unbroken : ∀ l ∈ above ++ r.rest, '\n' ∉ l := lines ▸ fun _ => Text.unbroken_of_mem_lines
  rw [List.forall_mem_append] at unbroken
  obtain ⟨front, header, body, after, rest, opens, plain, bounds, place⟩ :=
    Reader.exists_place unbroken.2 read member
  have file : old.lines = (above ++ front) ++ header :: (body ++ after) := by
    rw [lines, rest, List.append_assoc]
  have here : s.line = (above ++ front).length + 2 := by
    rw [place, number, List.length_append]
  have found : bodyAt s.line old.lines = body := by rw [here, file, bodyAt_eq _ plain bounds]
  rw [here, file, padAt_eq _ plain bounds] at padded
  have moved := reached.exchange file (by simp) padded rest
  rw [Reader.next, rest] at read
  obtain ⟨earlier, later, sections, text, again⟩ := Reader.complete_padded_of_place opens plain
    bounds (rest ▸ unbroken.2) read member place
  refine ⟨?_, earlier, later, sections, _, moved, rfl, ?_⟩
  · intro empty
    rw [found] at empty
    rw [text, empty]
    rfl
  · rw [Reader.next, again, unlines_padded, ← text, Section.pad, found]
    split <;> rfl

def spaced (feeds : Nat) : Text :=
  "NOP ; ; ; 0x90 ; s:I86\n== legacy\nopcode 90\n    NOP\n" ++ List.replicate feeds '\n' ++
    "== vex\n"

def spacedTest (feeds : Nat) : Test :=
  ⟨1, "NOP ; ; ; 0x90 ; s:I86\n",
    [⟨"legacy", 3, "opcode 90\n    NOP\n"⟩, ⟨"vex", 6 + feeds, []⟩]⟩

theorem read_padded_spaced :
    (Reader.start (spaced 0)).next.1 = .ok (some (spacedTest 0)) ∧
      ∃ other : Reader, other.Reached (spaced 2) ∧ other.line = 0 ∧
        other.next.1 = .ok (some (spacedTest 2)) := by
  have read : (Reader.start (spaced 0)).next.1 = .ok (some (spacedTest 0)) := by rfl
  have padded : (spaced 2).lines = padAt 3 2 (spaced 0).lines := by decide +kernel
  obtain ⟨_, earlier, later, sections, other, reached, line, again⟩ :=
    read_padded .start read (s := ⟨"legacy", 3, "opcode 90\n    NOP\n"⟩) (by decide) padded
  refine ⟨read, other, reached, line, ?_⟩
  rw [again]
  cases earlier with
  | nil =>
    obtain rfl : [⟨"vex", 6, []⟩] = later := (List.cons.inj sections).2
    rfl
  | cons first earlier =>
    have others : [⟨"vex", 6, []⟩] = earlier ++ ⟨"legacy", 3, "opcode 90\n    NOP\n"⟩ :: later :=
      (List.cons.inj sections).2
    have inside : ⟨"legacy", 3, "opcode 90\n    NOP\n"⟩ ∈ [(⟨"vex", 6, []⟩ : Section)] := by
      rw [others]
      simp
    exact absurd inside (by decide)

def emptySection (feeds : Nat) : Text :=
  "NOP ; ; ; 0x90 ; s:I86\n== vex\n" ++ List.replicate feeds '\n' ++ "---\n"

theorem empty_section_gains_feed :
    (emptySection 1).lines = padAt 3 1 (emptySection 0).lines ∧
      (Reader.start (emptySection 0)).next.1 =
        .ok (some ⟨1, "NOP ; ; ; 0x90 ; s:I86\n", [⟨"vex", 3, ""⟩]⟩) ∧
      (Reader.start (emptySection 1)).next.1 =
        .ok (some ⟨1, "NOP ; ; ; 0x90 ; s:I86\n", [⟨"vex", 3, "\n"⟩]⟩) := by
  refine ⟨?_, ?_, ?_⟩ <;> rfl

end OpcodeAtlas.Golden
