import OpcodeAtlas.Proofs.Line
import OpcodeAtlas.Proofs.Traversal
import OpcodeAtlas.Specification.Load

/-!
Loading line by line. All templates are read before the tables, so a table line is accepted or
refused whatever stands around it: `load_eq_ok_iff` says when all lines are accepted and
`load_eq_error_iff` which one is refused first. What a specification holds does not depend on how
its lines are spread over sources, nor on lines that hold nothing (`load_lineWise`).
-/

namespace OpcodeAtlas.Specification

/-! ### Texts -/

/-- Sources that are held in memory, each with its name, and the templates to start from. -/
structure Texts where
  templates : Templates
  flags : List (Text × Text)
  modes : List (Text × Text)
  features : List (Text × Text)
  tables : List (Text × Text)

namespace Texts

def source (s : Text × Text) : Source := ⟨s.1, .memory s.2⟩

def sources (s : Texts) : Sources where
  templates := s.templates
  flags := s.flags.map source
  modes := s.modes.map source
  features := s.features.map source
  tables := s.tables.map source

/-- The templates that all table lines are read under: those to start from, with what the flags
sources, then the modes sources and then the feature sources define. -/
def loaded (s : Texts) : Templates :=
  let t := s.flags.foldl (fun t flags => (t.loadFlags flags.2).templates) s.templates
  let t := s.modes.foldl (fun t modes => (t.loadModes modes.2).templates) t
  s.features.foldl (fun t features => (t.loadFeatures features.2).templates) t

/-- All table lines. -/
def rows (s : Texts) : List Text := s.tables.flatMap fun table => table.2.lines

end Texts

theorem result_foldlM_loadTemplates (load : Templates → Text → Templates.Loaded) (what : Text)
    (t : Templates) (texts : List (Text × Text)) :
    ((texts.map Texts.source).foldlM (Source.loadTemplates load what) t).result =
      .ok (texts.foldl (fun t text => (load t text.2).templates) t) := by
  rw [Logged.result_foldlM, List.foldlM_map]
  exact List.foldlM_pure

theorem result_loadTemplates (s : Texts) : s.sources.loadTemplates.result = .ok s.loaded := by
  simp only [Sources.loadTemplates, Texts.sources, Logged.result_bind, result_foldlM_loadTemplates]
  rfl

/-! ### Lines -/

/-- The line is blank, or it is read without an error. -/
def Accepts (t : Templates) (line : Text) : Prop :=
  line.isBlankText = false → ∃ found, Line.parse t line = .ok found

/-- The line is read with an error. -/
def Refuses (t : Templates) (line : Text) (e : SpecError) : Prop :=
  line.isBlankText = false ∧ Line.parse t line = .error e

/-- The reading of a table line; a blank line holds nothing. -/
def readRow (t : Templates) (line : Text) : Except SpecError (Option Instruction) :=
  if line.isBlankText then .ok none else Line.parse t line

/-- What a table line holds, if it is accepted and holds anything. -/
def rowInstruction? (t : Templates) (line : Text) : Option Instruction :=
  (readRow t line).toOption.join

theorem readRow_blank {line : Text} (blank : line.isBlankText = true) (t : Templates) :
    readRow t line = .ok none := if_pos blank

theorem readRow_visible {line : Text} (visible : line.isBlankText = false) (t : Templates) :
    readRow t line = Line.parse t line := if_neg (by simp [visible])

theorem accepts_iff {t : Templates} {line : Text} :
    Accepts t line ↔ ∃ found, readRow t line = .ok found := by
  unfold Accepts
  cases blank : line.isBlankText with
  | true => simp [readRow_blank blank]
  | false => simp [readRow_visible blank]

/-! ### Tables -/

theorem readTable_eq_error_iff {t : Templates} {name text : Text} {failure : Failure} :
    readTable t name text = .error failure ↔
      ∃ above line below e, text.lines = above ++ line :: below ∧
        (∀ l ∈ above, Accepts t l) ∧ Refuses t line e ∧
          failure = .line name (above.length + 1) e := by
  unfold readTable tableRows
  simp only [Traversal.bind_eq_error_iff, Traversal.mapM_filter_eq_error_iff,
    Traversal.mapError_eq_error_iff, Traversal.mapError_eq_ok_iff, pure, Except.pure, reduceCtorEq,
    and_false, exists_false, or_false, Bool.not_eq_true']
  constructor
  · rintro ⟨before, ⟨line, number⟩, after, same, passed, visible, e, failed, rfl⟩
    obtain ⟨above, rest, lines, rfl, numbered⟩ := List.zipIdx_eq_append_iff.1 same
    obtain ⟨line, below, rfl, first, rfl⟩ := List.zipIdx_eq_cons_iff.1 numbered.symm
    cases first
    refine ⟨above, line, below, e, lines, ?_, ⟨visible, failed⟩, ?_⟩
    · intro l member see
      obtain ⟨i, here⟩ := List.mem_iff_getElem?.1 member
      exact passed (l, 1 + i) (List.mem_zipIdx_iff_le_and_getElem?_sub.2 ⟨by simp, by simpa⟩) see
    · rw [Nat.add_comm]
  · rintro ⟨above, line, below, e, lines, passed, ⟨visible, failed⟩, rfl⟩
    refine ⟨above.zipIdx 1, (line, 1 + above.length), below.zipIdx (1 + above.length + 1), ?_, ?_,
      visible, e, failed, ?_⟩
    · rw [lines, List.zipIdx_append, List.zipIdx_cons]
    · rintro ⟨l, i⟩ member see
      exact passed l (List.fst_mem_of_mem_zipIdx member) see
    · rw [Nat.add_comm]

/-- Up to the place of an error, a table is read row by row. -/
theorem mapError_readTable (t : Templates) (name text : Text) :
    (readTable t name text).mapError Failure.specError? =
      Traversal.gather (fun line => (readRow t line).mapError some) text.lines := by
  have row : ∀ line : Text, (if !line.isBlankText then
      (Line.parse t line).mapError some else .ok none) = (readRow t line).mapError some := by
    intro line
    cases blank : line.isBlankText with
    | true => rw [readRow_blank blank]; rfl
    | false => rw [readRow_visible blank]; rfl
  calc (readTable t name text).mapError Failure.specError?
      = (Traversal.gather (fun row => (Line.parse t row.1).mapError (.line name row.2))
          (tableRows text)).mapError Failure.specError? := rfl
    _ = Traversal.gather (fun row => (Line.parse t row.1).mapError some) (tableRows text) := by
      rw [Traversal.mapError_gather]
      congr 1
      funext row
      cases Line.parse t row.1 <;> rfl
    _ = Traversal.gather ((fun line => (readRow t line).mapError some) ∘ Prod.fst)
          (text.lines.zipIdx 1) := by
      rw [tableRows, Traversal.gather_filter]
      congr 1
      funext ⟨line, number⟩
      exact row line
    _ = Traversal.gather (fun line => (readRow t line).mapError some) text.lines := by
      rw [← Traversal.gather_map, List.zipIdx_map_fst]

theorem result_loadTable (t : Templates) (table : Text × Text) :
    (Source.loadTable t (Texts.source table)).result = readTable t table.1 table.2 := by
  have read : (Texts.source table).read = .ok table.2 := rfl
  simp only [Source.loadTable, read, Logged.result_bind, Logged.result_liftM, Logged.result_write,
    Logged.result_pure]
  exact bind_pure (readTable t table.1 table.2)

/-! ### Specifications -/

theorem result_load (s : Texts) :
    (load s.sources).result =
      (fun tables => ⟨s.loaded, tables.flatten⟩) <$>
        s.tables.mapM fun table => readTable s.loaded table.1 table.2 := by
  have tables : (s.sources.tables.mapM (Source.loadTable s.loaded)).result =
      s.tables.mapM fun table => readTable s.loaded table.1 table.2 := by
    rw [Logged.result_mapM, Texts.sources, List.mapM_map]
    simp only [Function.comp_def, result_loadTable]
  simp only [load, Logged.result_bind, result_loadTemplates]
  change (Logged.result _ >>= _) = _
  rw [tables]
  rfl

/-- Up to the place of an error, the rows of all tables are read one by one. -/
theorem mapError_load (s : Texts) :
    (load s.sources).result.mapError Failure.specError? =
      (fun instructions => ⟨s.loaded, instructions⟩) <$>
        Traversal.gather (fun line => (readRow s.loaded line).mapError some) s.rows := by
  rw [result_load, Traversal.mapError_map, Traversal.mapError_mapM, Texts.rows,
    Traversal.gather_flatMap, Functor.map_map]
  simp only [mapError_readTable]

theorem load_eq_ok_iff {s : Texts} {spec : Specification} :
    (load s.sources).result = .ok spec ↔
      (∀ line ∈ s.rows, Accepts s.loaded line) ∧
        spec = ⟨s.loaded, s.rows.filterMap (rowInstruction? s.loaded)⟩ := by
  have row : ∀ line, ((readRow s.loaded line).mapError some).toOption.join =
      rowInstruction? s.loaded line := by
    intro line
    unfold rowInstruction?
    cases readRow s.loaded line <;> rfl
  rw [← Traversal.mapError_eq_ok_iff, mapError_load, Traversal.map_eq_ok_iff]
  simp only [Traversal.gather_eq_ok_iff, Traversal.mapError_eq_ok_iff, row, accepts_iff]
  constructor
  · rintro ⟨_, ⟨accepted, rfl⟩, rfl⟩
    exact ⟨accepted, rfl⟩
  · rintro ⟨accepted, rfl⟩
    exact ⟨_, ⟨accepted, rfl⟩, rfl⟩

theorem exists_readTable_iff {t : Templates} {name text : Text} :
    (∃ found, readTable t name text = .ok found) ↔ ∀ line ∈ text.lines, Accepts t line := by
  simp only [← Traversal.mapError_eq_ok_iff (g := Failure.specError?), mapError_readTable,
    Traversal.gather_eq_ok_iff, Traversal.mapError_eq_ok_iff, accepts_iff, exists_and_left,
    exists_eq, and_true]

theorem load_eq_error_iff {s : Texts} {failure : Failure} :
    (load s.sources).result = .error failure ↔
      ∃ before name text after above line below e,
        s.tables = before ++ (name, text) :: after ∧
        (∀ table ∈ before, ∀ l ∈ table.2.lines, Accepts s.loaded l) ∧
        text.lines = above ++ line :: below ∧ (∀ l ∈ above, Accepts s.loaded l) ∧
        Refuses s.loaded line e ∧ failure = .line name (above.length + 1) e := by
  rw [result_load, Traversal.map_eq_error_iff, Traversal.mapM_eq_error_iff]
  simp only [exists_readTable_iff, readTable_eq_error_iff]
  constructor
  · rintro ⟨before, ⟨name, text⟩, after, tables, passed, above, line, below, e, lines, accepted,
      refused, rfl⟩
    exact ⟨before, name, text, after, above, line, below, e, tables, passed, lines, accepted,
      refused, rfl⟩
  · rintro ⟨before, name, text, after, above, line, below, e, tables, passed, lines, accepted,
      refused, rfl⟩
    exact ⟨before, (name, text), after, tables, passed, above, line, below, e, lines, accepted,
      refused, rfl⟩

theorem exists_refused_of_load {name text : Text} {failure : Failure}
    (failed : (load { tables := [⟨name, .memory text⟩] }).result = .error failure) :
    ∃ above line below e, text.lines = above ++ line :: below ∧ Refuses .standard line e ∧
      failure = .line name (above.length + 1) e := by
  let s : Texts := ⟨.standard, [], [], [], [(name, text)]⟩
  have loading : (load s.sources).result = .error failure := failed
  obtain ⟨before, other, content, after, above, line, below, e, tables, _, lines, _, refused,
    same⟩ := load_eq_error_iff.1 loading
  have single : [(name, text)] = before ++ (other, content) :: after := tables
  cases before with
  | nil =>
    cases single
    exact ⟨above, line, below, e, lines, refused, same⟩
  | cons table before => simp at single

/-! ### Lines that hold nothing -/

/-- The same specification, or a failure for the same reason. -/
def SameOutcome (s other : Texts) : Prop :=
  (load s.sources).result.mapError Failure.specError? =
    (load other.sources).result.mapError Failure.specError?

/-- Comments at the end of lines that are long enough to be read, and further lines that are blank
or comments. -/
inductive Annotated : List Text → List Text → Prop where
  | nil : Annotated [] []
  | keep (line : Text) {ls ms : List Text} (rest : Annotated ls ms) :
      Annotated (line :: ls) (line :: ms)
  | comment {line : Text} (visible : line.isBlankText = false)
      (long : 4 ≤ (String.ofList line).utf8ByteSize) (note : Text) {ls ms : List Text}
      (rest : Annotated ls ms) : Annotated (line :: ls) ((line ++ '#' :: note) :: ms)
  | insert {line : Text} (empty : line.isBlankText = true ∨ line.head? = some '#')
      {ls ms : List Text} (rest : Annotated ls ms) : Annotated ls (line :: ms)

theorem Annotated.refl (ls : List Text) : Annotated ls ls := by
  induction ls with
  | nil => exact .nil
  | cons line ls ih => exact .keep line ih

theorem Annotated.append {ls ms others news : List Text} (first : Annotated ls ms)
    (second : Annotated others news) : Annotated (ls ++ others) (ms ++ news) := by
  induction first with
  | nil => exact second
  | keep line _ ih => exact .keep line ih
  | comment visible long note _ ih => exact .comment visible long note ih
  | insert empty _ ih => exact .insert empty ih

theorem readRow_comment {line : Text} (visible : line.isBlankText = false)
    (long : 4 ≤ (String.ofList line).utf8ByteSize) (t : Templates) (note : Text) :
    readRow t (line ++ '#' :: note) = readRow t line := by
  have longer : (line ++ '#' :: note : Text).isBlankText = false := by
    simp only [Text.isBlankText, List.all_append] at visible ⊢
    rw [visible, Bool.false_and]
  rw [readRow_visible longer, readRow_visible visible, Line.parse_comment long]

theorem readRow_empty {line : Text} (empty : line.isBlankText = true ∨ line.head? = some '#')
    (t : Templates) : readRow t line = .ok none := by
  cases blank : line.isBlankText with
  | true => exact readRow_blank blank t
  | false =>
    rw [readRow_visible blank]
    exact Line.parse_of_head? (empty.resolve_left (by simp [blank])) t

theorem Annotated.gather {ls ms : List Text} (annotated : Annotated ls ms) (t : Templates) :
    Traversal.gather (fun line => (readRow t line).mapError some) ms =
      Traversal.gather (fun line => (readRow t line).mapError some) ls := by
  induction annotated with
  | nil => rfl
  | keep line _ ih => rw [Traversal.gather_cons, Traversal.gather_cons, ih]
  | comment visible long note _ ih =>
    rw [Traversal.gather_cons, Traversal.gather_cons, ih, readRow_comment visible long]
  | @insert line empty ls ms _ ih =>
    rw [Traversal.gather_cons, ih, readRow_empty empty]
    exact id_map (Traversal.gather _ ls)

theorem annotated_insert {a line : Text} (whole : Text.Whole a) (unbroken : '\n' ∉ line)
    (empty : line.isBlankText = true ∨ line.head? = some '#') (b : Text) :
    Annotated (a ++ b).lines (a ++ (line ++ '\n' :: b)).lines := by
  rw [Text.lines_append whole, Text.lines_append whole, Text.lines_line unbroken]
  refine (Annotated.refl a.lines).append (.insert ?_ (.refl b.lines))
  rw [Text.isBlankText_dropReturn]
  exact empty.imp_right fun mark => Text.head?_dropReturn mark (by decide)

/-! ### Whole specifications -/

theorem sameOutcome_of_rows {s other : Texts} (loaded : other.loaded = s.loaded)
    (rows : Traversal.gather (fun line => (readRow s.loaded line).mapError some) other.rows =
      Traversal.gather (fun line => (readRow s.loaded line).mapError some) s.rows) :
    SameOutcome s other := by
  rw [SameOutcome, mapError_load, mapError_load, loaded, rows]

theorem sameOutcome_cut {s : Texts} {before after : List (Text × Text)} {name a b : Text}
    (table : s.tables = before ++ (name, a ++ '\n' :: b) :: after) (first second : Text) :
    SameOutcome s { s with
      tables := before ++ (first, a ++ ['\n']) :: (second, b) :: after } := by
  have rows : (a ++ '\n' :: b).lines = (a ++ ['\n']).lines ++ b.lines := by
    rw [← Text.lines_append (.inr ⟨a, rfl⟩), List.append_assoc, List.singleton_append]
  refine sameOutcome_of_rows rfl (congrArg _ ?_)
  simp only [Texts.rows, table, List.flatMap_append, List.flatMap_cons, rows, List.append_assoc]

theorem sameOutcome_annotated {s : Texts} {tables : List (Text × Text)}
    (annotated : List.Forall₂ (fun table new => Annotated table.2.lines new.2.lines)
      s.tables tables) : SameOutcome s { s with tables := tables } := by
  refine sameOutcome_of_rows rfl (Annotated.gather ?_ s.loaded)
  unfold Texts.rows
  generalize s.tables = olds at annotated
  induction annotated with
  | nil => exact .nil
  | cons here _ ih => exact here.append ih

/-- The failure is about the first table line that is refused. -/
def FirstRefusal (s : Texts) (failure : Failure) : Prop :=
  ∃ before name text after above line below e,
    s.tables = before ++ (name, text) :: after ∧
    (∀ table ∈ before, ∀ l ∈ table.2.lines, Accepts s.loaded l) ∧
    text.lines = above ++ line :: below ∧ (∀ l ∈ above, Accepts s.loaded l) ∧
    Refuses s.loaded line e ∧ failure = .line name (above.length + 1) e

/-- Loading reads line by line. -/
theorem load_lineWise (s : Texts) :
    (∀ spec, (load s.sources).result = .ok spec ↔
      (∀ line ∈ s.rows, Accepts s.loaded line) ∧
        spec = ⟨s.loaded, s.rows.filterMap (rowInstruction? s.loaded)⟩) ∧
    (∀ failure, (load s.sources).result = .error failure ↔ FirstRefusal s failure) ∧
    (∀ before name a b after, s.tables = before ++ (name, a ++ '\n' :: b) :: after →
      ∀ first second, SameOutcome s { s with
        tables := before ++ (first, a ++ ['\n']) :: (second, b) :: after }) ∧
    (∀ tables, List.Forall₂ (fun table new => Annotated table.2.lines new.2.lines)
      s.tables tables → SameOutcome s { s with tables := tables }) :=
  ⟨fun _ => load_eq_ok_iff, fun _ => load_eq_error_iff, fun _ _ _ _ _ => sameOutcome_cut,
    fun _ => sameOutcome_annotated⟩

def nopLine : Text := "NOP ; ; ; 0x90 ; s:I86"

def pauseLine : Text := "PAUSE ; ; ; repz 0x90 ; s:PAUSE"

/-- A specification with two lines in one table. -/
def twoLines : Texts where
  templates := .standard
  flags := []
  modes := []
  features := []
  tables := [("table", Text.unlines [nopLine, pauseLine])]

/-- The two lines with comments and a blank line. -/
def commentedLines : List Text := [nopLine ++ "# one byte".toList, "# two bytes", " ", pauseLine]

theorem annotated_commentedLines : Annotated [nopLine, pauseLine] commentedLines :=
  .comment (by decide) (by decide) " one byte".toList
    (.insert (.inr (by decide)) (.insert (.inl (by decide)) (.refl [pauseLine])))

theorem load_lineWise_twoLines :
    (∃ spec, (load twoLines.sources).result = .ok spec ∧ spec.instructions.length = 2) ∧
      SameOutcome twoLines { twoLines with
        tables := [("first", nopLine ++ ['\n']), ("second", pauseLine ++ ['\n'])] } ∧
      SameOutcome twoLines { twoLines with
        tables := [("table",
          nopLine ++ ['\n'] ++ ("# two bytes".toList ++ '\n' :: (pauseLine ++ ['\n'])))] } ∧
      SameOutcome twoLines { twoLines with
        tables := [("table", Text.unlines commentedLines)] } := by
  obtain ⟨_, _, cut, annotated⟩ := load_lineWise twoLines
  obtain ⟨spec, loaded, length⟩ := Traversal.exists_of_any
    (x := (load twoLines.sources).result) (p := fun spec => spec.instructions.length = 2)
    (by decide +kernel)
  have old : (Text.unlines [nopLine, pauseLine]).lines = [nopLine, pauseLine] := by decide
  have new : (Text.unlines commentedLines).lines = commentedLines := by decide
  refine ⟨⟨spec, loaded, of_decide_eq_true length⟩,
    cut [] "table" nopLine (pauseLine ++ ['\n']) [] (by decide) "first" "second",
    annotated [("table", nopLine ++ ['\n'] ++ ("# two bytes".toList ++ '\n' :: _))]
      (.cons (annotated_insert (.inr ⟨nopLine, rfl⟩) (by decide) (.inr (by decide)) _) .nil),
    annotated [("table", Text.unlines commentedLines)] (.cons ?_ .nil)⟩
  rw [old, new]
  exact annotated_commentedLines

end OpcodeAtlas.Specification
