import OpcodeAtlas.CpuMode.Specifier
import OpcodeAtlas.Proofs.Traversal
import OpcodeAtlas.Proofs.Vocabulary

/-!
What a specifier of CPU modes selects. Only the terms given for a group decide about its modes, in
whatever clauses and in whatever order they come (`modes_of_parse`): without terms the group keeps
all its modes, otherwise those listed, and a single negated term turns this into all but those.
-/

namespace OpcodeAtlas

instance : Vocabulary.Lawful CpuMode where
  mem_all mode := by cases mode <;> decide
  find?_listed := by decide

instance : Vocabulary.Lawful ModeGroup where
  mem_all group := by cases group <;> decide
  find?_listed := by decide

/-! ### Groups -/

theorem ModeGroup.exists_mem_modes (m : CpuMode) : ∃ g : ModeGroup, m ∈ g.modes := by
  have covered : ∀ m ∈ (Vocabulary.all : List CpuMode),
      ∃ g ∈ (Vocabulary.all : List ModeGroup), m ∈ g.modes := by
    decide
  obtain ⟨g, _, member⟩ := covered m (Vocabulary.mem_all m)
  exact ⟨g, member⟩

/-- Each mode is on one axis. -/
theorem ModeGroup.eq_of_mem_modes {m : CpuMode} {g h : ModeGroup} (first : m ∈ g.modes)
    (second : m ∈ h.modes) : g = h := by
  have apart : ∀ g h : ModeGroup, ∀ m ∈ g.modes, m ∈ h.modes → g = h := by
    intro g h
    cases g <;> cases h <;> decide
  exact apart g h m first second

namespace CpuModes

/-! ### Clauses as they are written -/

/-- A group and the terms given for it. -/
structure Clause where
  group : Text
  terms : List Text
  deriving DecidableEq, Repr

/-- A text without an equals sign gives no terms. -/
def Clause.ofText (text : Text) : Clause :=
  match text.cut '=' with
  | some (group, terms) => ⟨group.trim, terms.trimmedPieces '+'⟩
  | none => ⟨text, []⟩

/-- The clauses of a specifier, those of templates among them. -/
def clauses (value : Text) (templates : Templates) : List Clause :=
  (Templates.expand templates.modes.find? value).map Clause.ofText

/-- The terms given for a group in all clauses together. -/
def termsOf (cs : List Clause) (g : ModeGroup) : List Text :=
  (cs.filter (·.group = Vocabulary.token g)).flatMap (·.terms)

def IsNegated (term : Text) : Prop := term.head? = some '!'

instance : DecidablePred IsNegated := fun term =>
  inferInstanceAs (Decidable (term.head? = some '!'))

/-- The term lists the mode, with or without a negation. -/
def Lists (term : Text) (m : CpuMode) : Prop :=
  term = Vocabulary.token m ∨ term = '!' :: Vocabulary.token m

instance (m : CpuMode) : DecidablePred (Lists · m) := fun term =>
  inferInstanceAs (Decidable (term = _ ∨ term = _))

/-- What the terms of a group say about one of its modes. -/
def Selects (terms : List Text) (m : CpuMode) : Prop :=
  terms = [] ∨
    ((∀ t ∈ terms, ¬ IsNegated t) ∧ ∃ t ∈ terms, Lists t m) ∨
    ((∃ t ∈ terms, IsNegated t) ∧ ¬ ∃ t ∈ terms, Lists t m)

instance (terms : List Text) (m : CpuMode) : Decidable (Selects terms m) :=
  inferInstanceAs (Decidable (_ ∨ _ ∨ _))

/-- Clauses that give the same terms for the same groups: permuted, with their terms permuted, or
split into several for one group. -/
inductive Rearranged : List Clause → List Clause → Prop where
  | clauses {cs ds : List Clause} (perm : cs.Perm ds) : Rearranged cs ds
  | terms {group : Text} {ts us : List Text} {cs : List Clause} (perm : ts.Perm us) :
      Rearranged (⟨group, ts⟩ :: cs) (⟨group, us⟩ :: cs)
  | split {group : Text} {ts us : List Text} {cs : List Clause} (first : ts ≠ [])
      (second : us ≠ []) : Rearranged (⟨group, ts ++ us⟩ :: cs) (⟨group, ts⟩ :: ⟨group, us⟩ :: cs)
  | symm {cs ds : List Clause} (back : Rearranged ds cs) : Rearranged cs ds
  | trans {cs ds es : List Clause} (first : Rearranged cs ds) (second : Rearranged ds es) :
      Rearranged cs es

/-- A clause that can be read: it gives terms, each a mode of its group with or without negation. -/
def Clause.Valid (c : Clause) : Prop :=
  c.terms ≠ [] ∧ ∃ g : ModeGroup, c.group = Vocabulary.token g ∧
    ∀ t ∈ c.terms, ∃ m ∈ g.modes, Lists t m

/-! ### Terms -/

namespace Term

/-- How a term is written. -/
def text (x : Term) : Text :=
  if x.negated then '!' :: Vocabulary.token x.mode else Vocabulary.token x.mode

theorem head?_token (m : CpuMode) : (Vocabulary.token m).head? ≠ some '!' := by
  have all : ∀ m ∈ (Vocabulary.all : List CpuMode), (Vocabulary.token m).head? ≠ some '!' := by
    decide
  exact all m (Vocabulary.mem_all m)

theorem isNegated_text (x : Term) : IsNegated x.text ↔ x.negated = true := by
  unfold IsNegated text
  split
  · next negated => simp [negated]
  · next plain => simp [plain, head?_token]

theorem token_ne_negated (m : CpuMode) (rest : Text) : Vocabulary.token m ≠ '!' :: rest :=
  fun same => head?_token m (congrArg List.head? same)

theorem lists_text {x : Term} {m : CpuMode} : Lists x.text m ↔ x.mode = m := by
  unfold Lists text
  split
  · simp [Vocabulary.token_inj, Ne.symm (token_ne_negated m _)]
  · simp [Vocabulary.token_inj, token_ne_negated]

theorem exists_text_of_lists (g : ModeGroup) {t : Text} {m : CpuMode} (lists : Lists t m) :
    ∃ x : Term, x.group = g ∧ x.mode = m ∧ x.text = t := by
  rcases lists with rfl | rfl
  · exact ⟨⟨g, false, m⟩, rfl, rfl, rfl⟩
  · exact ⟨⟨g, true, m⟩, rfl, rfl, rfl⟩

end Term

theorem parseMode_eq_ok_iff {g : ModeGroup} {t : Text} {m : CpuMode} :
    parseMode g t = .ok m ↔ m ∈ g.modes ∧ Vocabulary.token m = t := by
  unfold parseMode
  split
  · next n found =>
    have member := List.mem_of_find?_eq_some found
    have same : Vocabulary.token n = t := by simpa using List.find?_some found
    constructor
    · intro read
      cases read
      exact ⟨member, same⟩
    · rintro ⟨_, again⟩
      rw [Vocabulary.token_inj.1 (same.trans again.symm)]
  · next missing =>
    simp only [reduceCtorEq, false_iff]
    rintro ⟨member, same⟩
    have other := List.find?_eq_none.1 missing m member
    simp [same] at other

theorem parseTerm_eq_ok_iff {g : ModeGroup} {t : Text} {x : Term} :
    parseTerm g t = .ok x ↔ x.group = g ∧ x.mode ∈ g.modes ∧ x.text = t.trim := by
  have made : ∀ (b : Bool) (r : Text), (parseMode g r).map (⟨g, b, ·⟩) = .ok x ↔
      x.group = g ∧ x.mode ∈ g.modes ∧ Vocabulary.token x.mode = r ∧ x.negated = b := by
    intro b r
    refine Traversal.map_eq_ok_iff.trans ?_
    simp only [parseMode_eq_ok_iff]
    constructor
    · rintro ⟨m, ⟨member, same⟩, rfl⟩
      exact ⟨rfl, member, same, rfl⟩
    · rintro ⟨rfl, member, same, rfl⟩
      exact ⟨x.mode, ⟨member, same⟩, rfl⟩
  unfold parseTerm
  split
  · next r negated =>
    rw [made, negated, Term.text]
    cases x.negated <;> simp [Term.token_ne_negated]
  · next r plain =>
    rw [made, Term.text]
    cases x.negated <;> simp [Ne.symm (plain _)]

/-! ### Reading clauses -/

theorem parseClause_eq_ok_iff {text : Text} {xs : List Term} :
    parseClause text = .ok xs ↔ ∃ group terms, text.cut '=' = some (group, terms) ∧
      ∃ g, Vocabulary.token g = group.trim ∧ (terms.splitOn '+').mapM (parseTerm g) = .ok xs := by
  unfold parseClause
  cases text.cut '=' with
  | none => simp
  | some parts =>
    obtain ⟨group, terms⟩ := parts
    simp only [Traversal.bind_eq_ok_iff, Vocabulary.parse_eq_ok_iff, Vocabulary.find?_eq_some_iff,
      Option.some.injEq, Prod.mk.injEq]
    constructor
    · intro read
      exact ⟨group, terms, ⟨rfl, rfl⟩, read⟩
    · rintro ⟨_, _, ⟨rfl, rfl⟩, read⟩
      exact read

theorem Clause.ofText_of_cut {text group terms : Text} (cut : text.cut '=' = some (group, terms)) :
    Clause.ofText text = ⟨group.trim, terms.trimmedPieces '+'⟩ := by
  rw [Clause.ofText, cut]

theorem mem_of_parseClause {text : Text} {xs : List Term} (h : parseClause text = .ok xs)
    {x : Term} :
    x ∈ xs ↔ (Clause.ofText text).group = Vocabulary.token x.group ∧ x.mode ∈ x.group.modes ∧
      x.text ∈ (Clause.ofText text).terms := by
  obtain ⟨group, terms, cut, g, named, read⟩ := parseClause_eq_ok_iff.1 h
  rw [Traversal.mem_iff_of_mapM_eq_ok read, Clause.ofText_of_cut cut, ← named, Text.trimmedPieces]
  simp only [parseTerm_eq_ok_iff, Vocabulary.token_inj, List.mem_map]
  constructor
  · rintro ⟨t, member, rfl, own, same⟩
    exact ⟨rfl, own, t, member, same.symm⟩
  · rintro ⟨rfl, own, t, member, same⟩
    exact ⟨t, member, rfl, own, same.symm⟩

theorem exists_parseTerm_iff {g : ModeGroup} {t : Text} :
    (∃ x, parseTerm g t = .ok x) ↔ ∃ m ∈ g.modes, Lists t.trim m := by
  simp only [parseTerm_eq_ok_iff]
  constructor
  · rintro ⟨x, rfl, own, same⟩
    exact ⟨x.mode, own, same ▸ Term.lists_text.2 rfl⟩
  · rintro ⟨m, own, lists⟩
    obtain ⟨x, group, rfl, same⟩ := Term.exists_text_of_lists g lists
    exact ⟨x, group, own, same⟩

/-- A clause is read exactly if it is valid. -/
theorem exists_parseClause_iff {text : Text} :
    (∃ xs, parseClause text = .ok xs) ↔ (Clause.ofText text).Valid := by
  constructor
  · rintro ⟨xs, read⟩
    obtain ⟨group, terms, cut, g, named, made⟩ := parseClause_eq_ok_iff.1 read
    rw [Clause.ofText_of_cut cut]
    refine ⟨?_, g, named.symm, fun t member => ?_⟩
    · rw [Text.trimmedPieces, ne_eq, List.map_eq_nil_iff]
      exact List.splitOn_ne_nil _ _
    · obtain ⟨piece, inside, rfl⟩ := List.mem_map.1 member
      exact exists_parseTerm_iff.1 (Traversal.exists_mapM_iff.1 ⟨xs, made⟩ piece inside)
  · cases cut : text.cut '=' with
    | none =>
      rw [Clause.ofText, cut]
      exact fun valid => absurd rfl valid.1
    | some parts =>
      rw [Clause.ofText_of_cut cut]
      rintro ⟨_, g, named, each⟩
      have readable : ∀ piece ∈ parts.2.splitOn '+', ∃ x, parseTerm g piece = .ok x :=
        fun piece inside => exists_parseTerm_iff.2 (each _ (List.mem_map_of_mem inside))
      obtain ⟨xs, made⟩ := Traversal.exists_mapM_iff.2 readable
      exact ⟨xs, parseClause_eq_ok_iff.2 ⟨_, _, cut, g, named.symm, made⟩⟩

/-! ### Modes selected -/

theorem selects_congr {ts us : List Text} (same : ∀ t, t ∈ ts ↔ t ∈ us) {m : CpuMode} :
    Selects ts m ↔ Selects us m := by
  simp only [Selects, List.eq_nil_iff_forall_not_mem, same]

theorem mem_selected_iff {terms : List Term} {g : ModeGroup} {m : CpuMode} (own : m ∈ g.modes) :
    m ∈ selected terms g ↔ Selects ((terms.filter (·.group = g)).map Term.text) m := by
  rw [selected]
  generalize terms.filter (·.group = g) = given
  have listed : (∃ t ∈ given.map Term.text, Lists t m) ↔ m ∈ given.map (·.mode) := by
    simp [Term.lists_text]
  have negated : (∃ t ∈ given.map Term.text, IsNegated t) ↔ given.any (·.negated) = true := by
    simp [Term.isNegated_text]
  have plain : (∀ t ∈ given.map Term.text, ¬ IsNegated t) ↔ ¬ given.any (·.negated) = true := by
    simp only [← negated, not_exists, not_and]
  rw [Selects, listed, negated, plain]
  cases given with
  | nil => simp [own]
  | cons x given =>
    rw [if_neg (by simp)]
    split
    · next mixed => simp [own, mixed]
    · next all => simp only [List.map_cons, reduceCtorEq, false_or, all]; simp

theorem mem_ofTerms_iff {terms : List Term} (owned : ∀ x ∈ terms, x.mode ∈ x.group.modes)
    {g : ModeGroup} {m : CpuMode} (own : m ∈ g.modes) :
    m ∈ ofTerms terms ↔ m ∈ selected terms g := by
  have only : ∀ h, m ∈ selected terms h → m ∈ h.modes := by
    intro h member
    rw [selected] at member
    split at member
    · exact member
    · split at member
      · exact (List.mem_filter.1 member).1
      · obtain ⟨x, given, rfl⟩ := List.mem_map.1 member
        obtain ⟨inside, same⟩ := List.mem_filter.1 given
        exact of_decide_eq_true same ▸ owned x inside
  rw [ofTerms, OrderedSet.mem_ofList, List.mem_flatMap]
  constructor
  · rintro ⟨h, _, member⟩
    rwa [ModeGroup.eq_of_mem_modes own (only h member)]
  · intro member
    exact ⟨g, Vocabulary.mem_all g, member⟩

/-! ### Specifiers -/

theorem parse_eq_ok_iff {value : Text} {templates : Templates} {s : CpuModes} :
    parse value templates = .ok s ↔
      ∃ xss, (Templates.expand templates.modes.find? value).mapM parseClause = .ok xss ∧
        ofTerms xss.flatten = s := by
  rw [parse, Traversal.bind_eq_ok_iff]
  exact exists_congr fun xss => and_congr_right fun _ => ⟨Except.ok.inj, congrArg _⟩

theorem exists_parse_iff {value : Text} {templates : Templates} :
    (∃ s, parse value templates = .ok s) ↔ ∀ c ∈ clauses value templates, c.Valid := by
  have read : (∃ s, parse value templates = .ok s) ↔
      ∃ xss, (Templates.expand templates.modes.find? value).mapM parseClause = .ok xss := by
    simp [parse_eq_ok_iff]
  rw [read, Traversal.exists_mapM_iff, clauses, List.forall_mem_map]
  exact forall₂_congr fun _ _ => exists_parseClause_iff

theorem mem_termsOf {cs : List Clause} {g : ModeGroup} {t : Text} :
    t ∈ termsOf cs g ↔ ∃ c ∈ cs, c.group = Vocabulary.token g ∧ t ∈ c.terms := by
  simp [termsOf, and_assoc]

/-- The terms read are those that the clauses give. -/
theorem mem_terms_of_mapM {texts : List Text} {xss : List (List Term)}
    (h : texts.mapM parseClause = .ok xss) {x : Term} :
    x ∈ xss.flatten ↔
      x.mode ∈ x.group.modes ∧ x.text ∈ termsOf (texts.map Clause.ofText) x.group := by
  rw [List.mem_flatten, mem_termsOf]
  constructor
  · rintro ⟨xs, member, inside⟩
    obtain ⟨text, given, read⟩ := (Traversal.mem_iff_of_mapM_eq_ok h).1 member
    obtain ⟨named, own, written⟩ := (mem_of_parseClause read).1 inside
    exact ⟨own, _, List.mem_map_of_mem given, named, written⟩
  · rintro ⟨own, c, member, named, written⟩
    obtain ⟨text, given, rfl⟩ := List.mem_map.1 member
    obtain ⟨xs, made, read⟩ := Traversal.exists_of_mapM_eq_ok h given
    exact ⟨xs, made, (mem_of_parseClause read).2 ⟨named, own, written⟩⟩

theorem mem_of_parse {value : Text} {templates : Templates} {s : CpuModes}
    (h : parse value templates = .ok s) {g : ModeGroup} {m : CpuMode} (own : m ∈ g.modes) :
    m ∈ s ↔ Selects (termsOf (clauses value templates) g) m := by
  have valid := exists_parse_iff.1 ⟨s, h⟩
  obtain ⟨xss, read, rfl⟩ := parse_eq_ok_iff.1 h
  have terms : ∀ x, x ∈ xss.flatten ↔
      x.mode ∈ x.group.modes ∧ x.text ∈ termsOf (clauses value templates) x.group :=
    fun _ => mem_terms_of_mapM read
  rw [mem_ofTerms_iff (fun x member => ((terms x).1 member).1) own, mem_selected_iff own]
  refine selects_congr fun t => ?_
  simp only [List.mem_map, List.mem_filter, decide_eq_true_eq, terms]
  constructor
  · rintro ⟨x, ⟨⟨_, given⟩, rfl⟩, rfl⟩
    exact given
  · intro given
    obtain ⟨c, member, named, inside⟩ := mem_termsOf.1 given
    obtain ⟨_, h, again, each⟩ := valid c member
    obtain rfl := Vocabulary.token_inj.1 (named.symm.trans again)
    obtain ⟨n, its, lists⟩ := each t inside
    obtain ⟨x, rfl, rfl, rfl⟩ := Term.exists_text_of_lists g lists
    exact ⟨x, ⟨⟨its, given⟩, rfl⟩, rfl⟩

/-! ### Rearranging -/

theorem termsOf_cons (c : Clause) (cs : List Clause) (g : ModeGroup) :
    termsOf (c :: cs) g =
      (if c.group = Vocabulary.token g then c.terms else []) ++ termsOf cs g := by
  by_cases named : c.group = Vocabulary.token g
  · simp [termsOf, named]
  · simp [termsOf, named]

theorem Rearranged.termsOf_perm {cs ds : List Clause} (h : Rearranged cs ds) (g : ModeGroup) :
    (termsOf cs g).Perm (termsOf ds g) := by
  induction h with
  | clauses perm => exact (perm.filter _).flatMap_right _
  | @terms group ts us cs perm =>
    rw [termsOf_cons, termsOf_cons]
    refine List.Perm.append_right _ ?_
    by_cases named : group = Vocabulary.token g
    · simpa [named] using perm
    · simp [named]
  | @split group ts us cs _ _ =>
    rw [termsOf_cons, termsOf_cons, termsOf_cons]
    by_cases named : group = Vocabulary.token g
    · simp [named]
    · simp [named]
  | symm _ ih => exact ih.symm
  | trans _ _ first second => exact first.trans second

theorem Clause.valid_append_iff {group : Text} {ts us : List Text} (first : ts ≠ [])
    (second : us ≠ []) :
    (⟨group, ts ++ us⟩ : Clause).Valid ↔
      (⟨group, ts⟩ : Clause).Valid ∧ (⟨group, us⟩ : Clause).Valid := by
  simp only [Clause.Valid, ne_eq, List.append_eq_nil_iff, first, second, false_and,
    not_false_eq_true, true_and, List.forall_mem_append]
  constructor
  · rintro ⟨g, named, these, those⟩
    exact ⟨⟨g, named, these⟩, g, named, those⟩
  · rintro ⟨⟨g, named, these⟩, h, again, those⟩
    obtain rfl := Vocabulary.token_inj.1 (named.symm.trans again)
    exact ⟨g, named, these, those⟩

theorem Rearranged.valid_iff {cs ds : List Clause} (h : Rearranged cs ds) :
    (∀ c ∈ cs, c.Valid) ↔ ∀ c ∈ ds, c.Valid := by
  induction h with
  | clauses perm => exact forall_congr' fun c => by rw [perm.mem_iff]
  | @terms group ts us cs perm =>
    rw [List.forall_mem_cons, List.forall_mem_cons]
    refine and_congr_left fun _ => ?_
    simp only [Clause.Valid, ne_eq, List.eq_nil_iff_forall_not_mem, perm.mem_iff]
  | split first second =>
    rw [List.forall_mem_cons, List.forall_mem_cons, List.forall_mem_cons,
      Clause.valid_append_iff first second, and_assoc]
  | symm _ ih => exact ih.symm
  | trans _ _ first second => exact first.trans second

/-- The terms given for the group of a mode decide whether the mode is selected, and rearranging the
clauses changes nothing about it. -/
theorem modes_of_parse {value : Text} {templates : Templates} {s : CpuModes}
    (h : parse value templates = .ok s) :
    (∀ g : ModeGroup, ∀ m ∈ g.modes,
        m ∈ s ↔ Selects (termsOf (clauses value templates) g) m) ∧
      ∀ other templates', Rearranged (clauses value templates) (clauses other templates') →
        ∃ s', parse other templates' = .ok s' ∧ ∀ m, m ∈ s' ↔ m ∈ s := by
  refine ⟨fun g m own => mem_of_parse h own, fun other templates' rearranged => ?_⟩
  obtain ⟨s', read⟩ := exists_parse_iff.2 (rearranged.valid_iff.1 (exists_parse_iff.1 ⟨s, h⟩))
  refine ⟨s', read, fun m => ?_⟩
  obtain ⟨g, own⟩ := ModeGroup.exists_mem_modes m
  rw [mem_of_parse read own, mem_of_parse h own]
  exact selects_congr fun t => (rearranged.termsOf_perm g).mem_iff.symm

/-- A template and a clause with one negated term among two, against the clauses of the template
written out between two halves of the other clause. -/
theorem modes_of_parse_kernel :
    ∃ s s', parse "KERNEL | mode=!real+long" .standard = .ok s ∧
      parse "mode=long|other=!sgx|mode=!real|ring=r0" .standard = .ok s' ∧
      (∀ m, m ∈ s' ↔ m ∈ s) ∧ .long ∉ s ∧ .virtual8086 ∈ s := by
  obtain ⟨s, read⟩ := Traversal.exists_of_isOk
    (show (parse "KERNEL | mode=!real+long" .standard).isOk = true by decide)
  obtain ⟨selected, rearranged⟩ := modes_of_parse read
  have given : clauses "KERNEL | mode=!real+long" .standard =
      [⟨"ring", ["r0"]⟩, ⟨"other", ["!sgx"]⟩, ⟨"mode", ["!real", "long"]⟩] := by
    decide
  have written : clauses "mode=long|other=!sgx|mode=!real|ring=r0" .standard =
      [⟨"mode", ["long"]⟩, ⟨"other", ["!sgx"]⟩, ⟨"mode", ["!real"]⟩, ⟨"ring", ["r0"]⟩] := by
    decide
  have rows : Rearranged (clauses "KERNEL | mode=!real+long" .standard)
      (clauses "mode=long|other=!sgx|mode=!real|ring=r0" .standard) := by
    rw [given, written]
    have first : Rearranged [⟨"ring", ["r0"]⟩, ⟨"other", ["!sgx"]⟩, ⟨"mode", ["!real", "long"]⟩]
        [⟨"mode", ["!real", "long"]⟩, ⟨"other", ["!sgx"]⟩, ⟨"ring", ["r0"]⟩] :=
      .clauses (by decide)
    have second : Rearranged
        [⟨"mode", ["long"] ++ ["!real"]⟩, ⟨"other", ["!sgx"]⟩, ⟨"ring", ["r0"]⟩]
        [⟨"mode", ["long"]⟩, ⟨"mode", ["!real"]⟩, ⟨"other", ["!sgx"]⟩, ⟨"ring", ["r0"]⟩] :=
      .split (List.cons_ne_nil _ _) (List.cons_ne_nil _ _)
    have turned := first.trans (.terms (List.Perm.swap _ _ _))
    exact (turned.trans second).trans (.clauses (by decide))
  obtain ⟨s', again, same⟩ := rearranged _ _ rows
  refine ⟨s, s', read, again, same, ?_, ?_⟩
  · rw [selected .mode .long (by decide)]
    decide
  · rw [selected .mode .virtual8086 (by decide)]
    decide

end CpuModes

end OpcodeAtlas
