import OpcodeAtlas.Proofs.Encoding.Position

/-!
The grammar of encodings. `Allowed` lists the words that may stand behind others; which words write
a byte is a parameter, because the reader takes a plus and a single digit for one (`IsByte`). An
encoding is accepted exactly if every word is allowed at its place, and otherwise the error names
the first that is not (`recognised_isByte`).
-/

namespace OpcodeAtlas.Encoding

/-! ### Words -/

/-- The words with a fixed meaning, but for `NP`, whose meaning depends on its place. -/
def plainKeywords : List Text :=
  ["xop", "vex", "evex", "repz", "mo64", "rexw", "rexb", "rep", "riprel", "rex2", "rex2w",
   "ds16", "ds32", "ds64", "dd64", "df64", "as16", "as32", "as64", "m16", "m32", "m64",
   "intel", "amd", "mpx", "cet", "cldm", "piti", "movrs", "bhi", "vsib", "sibmem", "mib", "bitbase",
   "ib", "iw", "iz", "iv", "id", "cb", "cz", "cv", "cp", "cq", "is4"]

/-- The keys that have a value, and the characters that can be their value. -/
def keyedValues : List (Text × Text) :=
  [("rm", "01234567"), ("m", "0123456789ABC"), ("p", "0123"), ("l", "0123xin"), ("w", "01xi"),
   ("nd", "01"), ("nf", "01"), ("sc", "0123456789ABCDEF")]

/-- The words that may stand behind the words `before`. -/
inductive Allowed (isByte : Text → Prop) (before : List Text) : Text → Prop where
  | keyword {word : Text} (listed : word ∈ plainKeywords) : Allowed isByte before word
  | noPrefix (room : PrefixOpen isByte before) : Allowed isByte before "NP"
  | modrm {reg : Char} {mod : Text} (register : reg ∈ "r01234567".toList)
      (mode : mod ∈ (["", ":reg", ":mem"] : List Text)) : Allowed isByte before ('/' :: reg :: mod)
  | literal {body : Text} (byte : isByte body) : Allowed isByte before ('/' :: body)
  | keyed {key values : Text} {value : Char} (listed : (key, values) ∈ keyedValues)
      (member : value ∈ values) : Allowed isByte before (key ++ [':', value])
  | byte {word : Text} (byte : isByte word) : Allowed isByte before word

/-- Every word is allowed behind those in front of it, and all of them behind `before`. -/
def Follows (isByte : Text → Prop) (before words : List Text) : Prop :=
  ∀ read word rest, words = read ++ word :: rest → Allowed isByte (before ++ read) word

/-- How a word that is not allowed is refused. -/
def refusal (word : Text) : SpecError :=
  if Token.isSlashed word then .invalidModrm word else .invalidEncoding word

/-! ### Allowed words are read -/

theorem parse_of_allowed {before : List Text} {word : Text} (allowed : Allowed IsByte before word) :
    ∃ token, Token.parse word = .ok token ∧ (token = .noPrefix → PrefixOpen IsByte before) := by
  -- In the finite cases each word is read, and as something else than `NP`.
  have settled : ∀ {w : Text}, (Token.parse w).toOption.any (· ≠ .noPrefix) = true →
      ∃ token, Token.parse w = .ok token ∧ (token = .noPrefix → PrefixOpen IsByte before) := by
    intro w known
    obtain ⟨token, parsed, other⟩ := Traversal.exists_of_any known
    exact ⟨token, parsed, fun same => absurd same (of_decide_eq_true other)⟩
  cases allowed with
  | keyword listed =>
    have known : ∀ w ∈ plainKeywords, (Token.parse w).toOption.any (· ≠ .noPrefix) = true := by
      decide
    exact settled (known _ listed)
  | noPrefix room => exact ⟨.noPrefix, by decide, fun _ => room⟩
  | @modrm reg mod register mode =>
    have known : ∀ reg ∈ "r01234567".toList, ∀ mod ∈ (["", ":reg", ":mem"] : List Text),
        (Token.parse ('/' :: reg :: mod)).toOption.any (· ≠ .noPrefix) = true := by
      decide
    exact settled (known reg register mod mode)
  | literal byte =>
    obtain ⟨n, written⟩ := Option.isSome_iff_exists.1 (hexByte?_isSome_iff.2 byte)
    exact ⟨_, parse_of_slashed written, fun same => by cases same⟩
  | @keyed key values value listed member =>
    have known : ∀ row ∈ keyedValues, ∀ v ∈ row.2,
        (Token.parse (row.1 ++ [':', v])).toOption.any (· ≠ .noPrefix) = true := by
      decide
    exact settled (known _ listed value member)
  | byte byte => exact ⟨_, parse_of_isByte byte, fun same => by cases same⟩

/-! ### Words that are read are allowed -/

theorem exists_of_reg? {t : Text} {reg : Option Nat} (h : Modrm.reg? t = some reg) :
    ∃ c ∈ "r01234567".toList, t = [c] := by
  unfold Modrm.reg? at h
  split at h
  · next same => exact ⟨'r', by decide, same⟩
  · obtain ⟨n, digit, _⟩ := Option.map_eq_some_iff.1 h
    have written : (digitUpTo? 7 t).isSome = true := Option.isSome_iff_exists.2 ⟨n, digit⟩
    obtain ⟨c, member, same⟩ := (digitUpTo?_isSome_iff (by decide)).1 written
    have digits : upperDigits.take 8 ⊆ "r01234567".toList := by decide
    exact ⟨c, digits member, same⟩

theorem mem_of_mod? {t : Text} {mod : ModrmMod} (h : Modrm.mod? t = some mod) :
    ':' :: t ∈ (["", ":reg", ":mem"] : List Text) := by
  unfold Modrm.mod? at h
  split at h
  · next same =>
    rw [same]
    decide
  · split at h
    · next same =>
      rw [same]
      decide
    · cases h

theorem allowed_of_modrm {before : List Text} {body : Text} {m : Modrm}
    (h : Modrm.parse? body = some m) : Allowed IsByte before ('/' :: body) := by
  unfold Modrm.parse? at h
  split at h
  · next n byte =>
    exact .literal (hexByte?_isSome_iff.1 (Option.isSome_iff_exists.2 ⟨n, byte⟩))
  · split at h
    · obtain ⟨reg, read, _⟩ := Option.map_eq_some_iff.1 h
      obtain ⟨c, member, rfl⟩ := exists_of_reg? read
      exact .modrm member (by decide)
    · next reg mod parts =>
      obtain ⟨_, mode, h⟩ := Option.bind_eq_some_iff.1 h
      obtain ⟨_, register, _⟩ := Option.bind_eq_some_iff.1 h
      obtain ⟨c, member, rfl⟩ := exists_of_reg? register
      rw [Text.eq_of_cut parts]
      exact .modrm member (mem_of_mod? mode)

/-- A value that is one digit stands in the row of its key. -/
theorem allowed_of_digit {before : List Text} {key v : Text} {max : Nat}
    (written : (digitUpTo? max v).isSome = true) (small : max < 16)
    (row : ∃ row ∈ keyedValues, row.1 = key ∧ upperDigits.take (max + 1) ⊆ row.2) :
    Allowed IsByte before (key ++ ':' :: v) := by
  obtain ⟨row, listed, rfl, digits⟩ := row
  obtain ⟨c, member, rfl⟩ := (digitUpTo?_isSome_iff small).1 written
  exact .keyed listed (digits member)

theorem everyWord_allowed (before : List Text) : EveryWord fun word token =>
    (token = .noPrefix → PrefixOpen IsByte before) → Allowed IsByte before word where
  field row member k inside _ := by
    have known : ∀ row ∈ Token.fieldKeywords, ∀ k ∈ row.2, k.toList ∈ plainKeywords := by decide
    exact .keyword (known row member k inside)
  keyword row member room := by
    have known : ∀ row ∈ Token.keywords,
        row.1.toList ∈ plainKeywords ∨ row.1 = "NP" ∧ row.2 = .noPrefix := by
      decide
    rcases known row member with listed | ⟨same, isNoPrefix⟩
    · exact .keyword listed
    · rw [same]
      exact .noPrefix (room isNoPrefix)
  modrm _ _ read _ := allowed_of_modrm read
  named row member _ := by
    have known : ∀ row ∈ Token.namedValues, ∃ r ∈ keyedValues, r.1 = row.1.toList ∧
        ∃ v ∈ r.2, row.2.1.toList = [v] := by
      decide
    obtain ⟨r, listed, same, value, inside, alone⟩ := known row member
    rw [alone, ← same]
    exact .keyed listed inside
  width _ written _ := allowed_of_digit written (by decide) (by decide)
  digit row member _ written _ := by
    have known : ∀ row ∈ Token.digitKeys, row.2.2 < 16 ∧
        ∃ r ∈ keyedValues, r.1 = row.1.toList ∧ upperDigits.take (row.2.2 + 1) ⊆ r.2 := by
      decide
    exact allowed_of_digit written (known row member).1 (known row member).2
  byte _ written _ := .byte (hexByte?_isSome_iff.1 written)

theorem allowed_of_parse {before : List Text} {word : Text} {token : Token}
    (parsed : Token.parse word = .ok token) (room : token = .noPrefix → PrefixOpen IsByte before) :
    Allowed IsByte before word :=
  (everyWord_allowed before).of_parse parsed room

theorem exists_of_isSlashed {word : Text} (h : Token.isSlashed word = true) :
    ∃ body, word = '/' :: body := by
  unfold Token.isSlashed at h
  split at h
  · next body => exact ⟨body, rfl⟩
  · cases h

theorem refusal_of_parse {word : Text} {e : SpecError} (h : Token.parse word = .error e) :
    e = refusal word := by
  by_cases slashed : Token.isSlashed word = true
  · obtain ⟨body, rfl⟩ := exists_of_isSlashed slashed
    rw [parse_slash] at h
    cases read : Modrm.parse? body with
    | none =>
      rw [read] at h
      exact (Except.error.inj h).symm
    | some m =>
      rw [read] at h
      cases h
  · rw [refusal, if_neg slashed]
    unfold Token.parse at h
    split at h
    · cases h
    · split at h
      · exact absurd rfl slashed
      · split at h
        · next key v _ =>
          cases read : Token.keyed? key v with
          | none =>
            rw [read] at h
            exact (Except.error.inj h).symm
          | some token =>
            rw [read] at h
            cases h
        · split at h
          · cases h
          · exact (Except.error.inj h).symm

/-! ### Encodings -/

theorem follows_nil (isByte : Text → Prop) (before : List Text) : Follows isByte before [] := by
  intro read word rest same
  simp at same

theorem follows_cons {isByte : Text → Prop} {before rest : List Text} {word : Text} :
    Follows isByte before (word :: rest) ↔
      Allowed isByte before word ∧ Follows isByte (before ++ [word]) rest := by
  constructor
  · intro follows
    refine ⟨by simpa using follows [] word rest rfl, fun read next others same => ?_⟩
    have here := follows (word :: read) next others (by rw [same, List.cons_append])
    rwa [List.append_assoc, List.singleton_append]
  · rintro ⟨first, follows⟩ read next others same
    rcases List.cons_eq_append_iff.1 same with ⟨rfl, shape⟩ | ⟨read', rfl, shape⟩
    · obtain ⟨rfl, _⟩ := List.cons.inj shape
      simpa using first
    · have here := follows read' next others shape
      rwa [List.append_assoc, List.singleton_append] at here

theorem follows_or_exists (isByte : Text → Prop) (before words : List Text) :
    Follows isByte before words ∨ ∃ read word rest, words = read ++ word :: rest ∧
      Follows isByte before read ∧ ¬ Allowed isByte (before ++ read) word := by
  induction words generalizing before with
  | nil => exact .inl (follows_nil isByte before)
  | cons word rest ih =>
    by_cases allowed : Allowed isByte before word
    · rcases ih (before ++ [word]) with follows | ⟨read, bad, others, rfl, follows, refused⟩
      · exact .inl (follows_cons.2 ⟨allowed, follows⟩)
      · rw [List.append_assoc, List.singleton_append] at refused
        exact .inr ⟨word :: read, bad, others, rfl, follows_cons.2 ⟨allowed, follows⟩, refused⟩
    · exact .inr ⟨[], word, rest, rfl, follows_nil isByte before, by rwa [List.append_nil]⟩

/-- Only one word is the first that is not allowed. -/
theorem Follows.eq_of_first {isByte : Text → Prop} {read read' rest rest' : List Text}
    {word word' : Text} (follows : Follows isByte [] read) (refused : ¬ Allowed isByte read word)
    (follows' : Follows isByte [] read') (refused' : ¬ Allowed isByte read' word')
    (same : read ++ word :: rest = read' ++ word' :: rest') : word = word' := by
  rcases List.append_eq_append_iff.1 same with ⟨gap, rfl, shape⟩ | ⟨gap, rfl, shape⟩
  · cases gap with
    | nil => exact (List.cons.inj shape).1
    | cons first gap =>
      obtain ⟨rfl, _⟩ := List.cons.inj shape
      exact absurd (follows' read word gap rfl) refused
  · cases gap with
    | nil => exact (List.cons.inj shape).1.symm
    | cons first gap =>
      obtain ⟨rfl, _⟩ := List.cons.inj shape
      exact absurd (follows read' word' gap rfl) refused'

namespace Reading

/-- A word is taken in if it is allowed and refused if it is not. -/
theorem After.read {attributes : Attributes} {before : List Text} {s : Reading}
    (after : s.After attributes before) (word : Text) :
    (∃ t, (s.mark word).read word = .ok t ∧ Allowed IsByte before word ∧
        t.After attributes (before ++ [word])) ∨
      (s.mark word).read word = .error (refusal word) ∧ ¬ Allowed IsByte before word := by
  have accepts : (s.mark word).acceptsPrefix = true ↔ PrefixOpen IsByte before := by
    rw [acceptsPrefix_mark, after.acceptsPrefix_iff]
  cases parsed : Token.parse word with
  | error e =>
    right
    have failed : (s.mark word).read word = .error e := by
      rw [Reading.read, parsed]
      rfl
    refine ⟨by rw [failed, refusal_of_parse parsed], fun allowed => ?_⟩
    obtain ⟨token, read, _⟩ := parse_of_allowed allowed
    cases parsed.symm.trans read
  | ok token =>
    by_cases room : token = .noPrefix → PrefixOpen IsByte before
    · left
      have took : (s.mark word).take? token = some ((s.mark word).extend token) := by
        rw [take?_eq, if_neg]
        rintro ⟨same, closed⟩
        rw [accepts.2 (room same)] at closed
        cases closed
      exact ⟨_, read_eq_ok_iff.2 ⟨token, parsed, took⟩, allowed_of_parse parsed room,
        after.step parsed took⟩
    · right
      obtain ⟨rfl, closed⟩ := Classical.not_imp.1 room
      have refused : (s.mark word).take? .noPrefix = none := by
        rw [take?_eq, if_pos ⟨rfl, Bool.eq_false_iff.2 (mt accepts.1 closed)⟩]
      have unslashed : ¬ Token.isSlashed word = true := by
        intro slashed
        obtain ⟨body, rfl⟩ := exists_of_isSlashed slashed
        rw [parse_slash] at parsed
        cases read : Modrm.parse? body <;> rw [read] at parsed <;> cases parsed
      refine ⟨?_, fun allowed => ?_⟩
      · rw [Reading.read, parsed, refusal, if_neg unslashed]
        change Option.elim ((s.mark word).take? .noPrefix) _ _ = _
        rw [refused]
        rfl
      · obtain ⟨other, read, needed⟩ := parse_of_allowed allowed
        exact closed (needed (Except.ok.inj (read.symm.trans parsed)))

theorem After.readAll_of_follows {attributes : Attributes} {before words : List Text} {s : Reading}
    (after : s.After attributes before) (follows : Follows IsByte before words) :
    (s.readAll words).1 = .ok () := by
  induction words generalizing before s with
  | nil => rfl
  | cons word rest ih =>
    obtain ⟨allowed, later⟩ := follows_cons.1 follows
    rw [Reading.readAll]
    rcases after.read word with ⟨t, made, _, next⟩ | ⟨_, refused⟩
    · rw [made]
      exact ih next later
    · exact absurd allowed refused

/-- Words are read up to the first that is not allowed. -/
theorem After.readAll_of_refused {attributes : Attributes} {before read rest : List Text}
    {word : Text} {s : Reading} (after : s.After attributes before)
    (follows : Follows IsByte before read) (refused : ¬ Allowed IsByte (before ++ read) word) :
    (s.readAll (read ++ word :: rest)).1 = .error (refusal word) := by
  have success := after.readAll_of_follows follows
  have behind := after.readAll success
  rw [readAll_append]
  generalize s.readAll read = result at success behind
  obtain ⟨outcome, t⟩ := result
  obtain rfl : outcome = .ok () := success
  rcases behind.read word with ⟨_, _, allowed, _⟩ | ⟨failed, _⟩
  · exact absurd allowed refused
  · change (t.readAll (word :: rest)).1 = _
    rw [Reading.readAll, failed]

end Reading

/-- An encoding whose words are in the grammar is accepted, and any other is refused by its first
word outside it. -/
def Recognised (isByte : Text → Prop) (raw : Text) (attributes : Attributes) : Prop :=
  (((parse raw).outcome attributes).1.isOk = true ↔ Follows isByte [] raw.words) ∧
    ∀ e, ((parse raw).outcome attributes).1 = .error e ↔
      ∃ read word rest, raw.words = read ++ word :: rest ∧ Follows isByte [] read ∧
        ¬ Allowed isByte read word ∧ e = refusal word

theorem recognised_of_follows {isByte : Text → Prop} {raw : Text} {attributes : Attributes}
    (follows : Follows isByte [] raw.words)
    (success : ((parse raw).outcome attributes).1.isOk = true) :
    Recognised isByte raw attributes := by
  refine ⟨iff_of_true success follows, fun e => iff_of_false ?_ ?_⟩
  · intro failed
    rw [failed] at success
    cases success
  · rintro ⟨read, word, rest, shape, _, refused, _⟩
    exact refused (follows read word rest shape)

theorem recognised_of_refused {isByte : Text → Prop} {raw : Text} {attributes : Attributes}
    {read rest : List Text} {word : Text} (shape : raw.words = read ++ word :: rest)
    (follows : Follows isByte [] read) (refused : ¬ Allowed isByte read word)
    (failed : ((parse raw).outcome attributes).1 = .error (refusal word)) :
    Recognised isByte raw attributes := by
  rw [Recognised, failed]
  refine ⟨iff_of_false Bool.false_ne_true fun all => refused (all read word rest shape),
    fun e => ⟨fun same => ?_, ?_⟩⟩
  · exact ⟨read, word, rest, shape, follows, refused, (Except.error.inj same).symm⟩
  · rintro ⟨first, outside, others, same, before, outsider, rfl⟩
    rw [follows.eq_of_first refused before outsider (shape.symm.trans same)]

theorem recognised_isByte (raw : Text) (attributes : Attributes) :
    Recognised IsByte raw attributes := by
  have outcome := congrArg Prod.fst (outcome_parse raw attributes)
  have start := Reading.After.start attributes
  rcases follows_or_exists IsByte [] raw.words with
    follows | ⟨read, word, rest, shape, follows, refused⟩
  · rw [start.readAll_of_follows follows] at outcome
    exact recognised_of_follows follows (by rw [outcome]; rfl)
  · rw [shape, start.readAll_of_refused follows refused] at outcome
    exact recognised_of_refused shape follows refused outcome

end OpcodeAtlas.Encoding
