import OpcodeAtlas.Proofs.Encoding.Attributes
import OpcodeAtlas.Proofs.Encoding.Fields

/-!
What the words before a word make of it. Of those words a reader knows three things: whether a
mandatory prefix may still come, whether ModR/M has come, and whether the width is ignored outside
64-bit mode. This is its `Place`, and it can be told from the words (`Reading.After.step`); with it,
each word contributes its values.
-/

namespace OpcodeAtlas.Encoding

open Traversal (Agree)

/-! ### Words with a meaning of their own -/

/-- A word that writes a byte. -/
def IsByte (word : Text) : Prop := HexPair word ∨ SignedDigit word

instance : DecidablePred IsByte := fun _ => decidable_of_iff _ hexByte?_isSome_iff

def familyWords : List Text := ["xop", "vex", "evex"]

theorem parse_of_isByte {word : Text} (byte : IsByte word) :
    Token.parse word = .ok (.byte word) := by
  obtain ⟨n, written⟩ := Option.isSome_iff_exists.1 (hexByte?_isSome_iff.2 byte)
  exact parse_of_hexByte? written

theorem parse_of_familyWord {word : Text} (listed : word ∈ familyWords) :
    ∃ f, f.isVector = true ∧ Token.parse word = .ok (.family f) := by
  simp only [familyWords, List.mem_cons, List.not_mem_nil, or_false] at listed
  rcases listed with rfl | rfl | rfl
  · exact ⟨.xop, rfl, by decide⟩
  · exact ⟨.vex, rfl, by decide⟩
  · exact ⟨.evex, rfl, by decide⟩

/-- A token that names a family or is a byte tells its word. -/
def Token.SpelledBy (word : Text) : Token → Prop
  | .family f => f.isVector = true ∧ word ∈ familyWords
  | .byte w => w = word ∧ IsByte word
  | _ => True

theorem everyWord_spelledBy : EveryWord fun word token => token.SpelledBy word where
  field _ _ _ _ := trivial
  keyword := by simp [Token.keywords, Token.SpelledBy, familyWords, Family.isVector]
  modrm _ _ _ := trivial
  named := by simp [Token.namedValues, Token.SpelledBy]
  width _ _ := trivial
  digit _ _ _ _ := trivial
  byte _ written := ⟨rfl, hexByte?_isSome_iff.1 written⟩

theorem spelledBy_of_parse {word : Text} {token : Token} (h : Token.parse word = .ok token) :
    token.SpelledBy word :=
  everyWord_spelledBy.of_parse h

theorem isSlashed_of_isByte {word : Text} (byte : IsByte word) : Token.isSlashed word = false := by
  rcases byte with ⟨_, _, _, _, rfl⟩ | ⟨_, _, rfl⟩
  · rfl
  · rfl

/-! ### Places -/

/-- A mandatory prefix may come next: there is no vector family so far, and all bytes in front of
ModR/M are mandatory prefixes. -/
def PrefixOpen (isByte : Text → Prop) (before : List Text) : Prop :=
  (∀ w ∈ before, w ∉ familyWords) ∧
    ∀ w ∈ before.takeWhile (!Token.isSlashed ·), isByte w → w ∈ Reading.prefixBytes

instance (isByte : Text → Prop) [DecidablePred isByte] (before : List Text) :
    Decidable (PrefixOpen isByte before) :=
  inferInstanceAs (Decidable (_ ∧ _))

theorem mem_takeWhile_concat {α : Type} {p : α → Bool} {l : List α} {a b : α} :
    b ∈ (l ++ [a]).takeWhile p ↔
      b ∈ l.takeWhile p ∨ (∀ c ∈ l, p c = true) ∧ p a = true ∧ b = a := by
  induction l with
  | nil => by_cases h : p a = true <;> simp [h]
  | cons c l ih =>
    by_cases h : p c = true
    · simp only [List.cons_append, List.takeWhile_cons_of_pos h, List.mem_cons, ih,
        forall_eq_or_imp, h, true_and]
      exact or_assoc.symm
    · simp [h]

theorem prefixOpen_concat {isByte : Text → Prop} {before : List Text} {word : Text} :
    PrefixOpen isByte (before ++ [word]) ↔
      PrefixOpen isByte before ∧ word ∉ familyWords ∧
        (before.any Token.isSlashed = false → Token.isSlashed word = false → isByte word →
          word ∈ Reading.prefixBytes) := by
  simp only [PrefixOpen, List.mem_append, List.mem_singleton, mem_takeWhile_concat,
    List.any_eq_false, Bool.not_eq_true', Bool.not_eq_true]
  grind

/-- What the words before a word decide about it. -/
structure Place where
  /-- A mandatory prefix may come. -/
  prefixOpen : Bool
  /-- ModR/M has come. -/
  pastModrm : Bool
  /-- The width is ignored outside 64-bit mode. -/
  widthIgnored : Bool
  deriving DecidableEq

/-- The place behind the given words. -/
def Place.behind (attributes : Attributes) (before : List Text) : Place :=
  ⟨PrefixOpen IsByte before, before.any Token.isSlashed,
    attributes.contains .widthIgnoredOutside64⟩

def Reading.place (s : Reading) : Place :=
  ⟨s.acceptsPrefix, s.sawModrm, s.attributes.contains .widthIgnoredOutside64⟩

/-! ### Contributions -/

/-- The values that a token contributes at a place, and their fields. -/
def Token.contributions (place : Place) : Token → List (Field × Text)
  | .noPrefix => [(.mandatoryPrefix, "PNP")]
  | .byte word =>
    if Reading.prefixBytes.contains word && place.prefixOpen then [(.mandatoryPrefix, 'P' :: word)]
    else [(if place.pastModrm then .opcodeLast else .opcode, word)]
  | .value field v => [(field, v)]
  | .scaledIndex _ => [(.modrmRm, "4")]
  | .width v => [(if place.widthIgnored then .widthOutside64Ignored else .width, v)]
  | .modrm m => m.contributions
  | .family _ | .property _ | .silent => []

/-- The values that words contribute behind the words `before`, in order. -/
def contributionsAfter (attributes : Attributes) (before : List Text) :
    List Text → List (Field × Text)
  | [] => []
  | word :: rest =>
    (Token.parse word).toOption.elim [] (Token.contributions (.behind attributes before)) ++
      contributionsAfter attributes (before ++ [word]) rest

/-- The values that the words of an encoding contribute, in order. -/
def contributions (attributes : Attributes) (raw : Text) : List (Field × Text) :=
  contributionsAfter attributes [] raw.words

theorem contributionsAfter_concat {attributes : Attributes} {before words : List Text}
    {word : Text} {token : Token} (parsed : Token.parse word = .ok token) :
    contributionsAfter attributes before (words ++ [word]) =
      contributionsAfter attributes before words ++
        token.contributions (.behind attributes (before ++ words)) := by
  induction words generalizing before with
  | nil =>
    simp only [List.nil_append, List.append_nil, contributionsAfter, parsed]
    rfl
  | cons first words ih =>
    rw [List.cons_append, contributionsAfter, contributionsAfter, ih, List.append_assoc,
      List.append_assoc, List.singleton_append]

/-! ### Steps -/

theorem Token.field_mem_fields {token : Token} {place : Place} {p : Field × Text}
    (h : p ∈ token.contributions place) : p.1 ∈ token.fields := by
  cases token with
  | modrm m => exact field_of_contributions h
  | byte word =>
    rw [contributions] at h
    split at h
    · rw [List.mem_singleton.1 h]
      exact List.mem_cons_self
    · rw [List.mem_singleton.1 h]
      cases place.pastModrm <;> simp [fields]
  | width v =>
    rw [List.mem_singleton.1 h]
    cases place.widthIgnored <;> simp [fields]
  | noPrefix | value | scaledIndex =>
    rw [List.mem_singleton.1 h]
    exact List.mem_cons_self
  | family | property | silent => cases h

/-- The family that a token sets. -/
def Token.family? : Token → Option Family
  | .family f => some f
  | _ => none

namespace Reading

/-- The reading behind a token. -/
def extend (s : Reading) (token : Token) : Reading where
  family := token.family?.getD s.family
  values := (token.contributions s.place).reverse ++ s.values
  attributes := token.property?.elim s.attributes s.attributes.insert
  sawModrm := s.sawModrm

/-- Only `NP` can come too late. -/
theorem take?_eq (s : Reading) (token : Token) :
    s.take? token =
      if token = .noPrefix ∧ s.acceptsPrefix = false then none else some (s.extend token) := by
  cases token with
  | noPrefix =>
    cases accepts : s.acceptsPrefix with
    | false => simp [take?, accepts]
    | true =>
      simp only [take?, accepts, if_true, Bool.true_eq_false, and_false, if_false]
      rfl
  | byte word =>
    have known : s.place.prefixOpen = s.acceptsPrefix := rfl
    simp only [take?, reduceCtorEq, false_and, if_false, extend, Token.contributions, known]
    split
    · rfl
    · rfl
  | _ => rfl

theorem eq_extend_of_take? {s t : Reading} {token : Token} (h : s.take? token = some t) :
    t = s.extend token := by
  rw [take?_eq] at h
  split at h
  · cases h
  · exact (Option.some.inj h).symm

theorem contains_insert_of_word {r : Attributes} {p : Attribute} (added : p ∈ wordAttributes) :
    (r.insert p).contains .widthIgnoredOutside64 = r.contains .widthIgnoredOutside64 := by
  have apart : Attribute.widthIgnoredOutside64 ≠ p := by
    rintro rfl
    exact absurd added (by decide)
  rw [Bool.eq_iff_iff, OrderedSet.contains_eq_true_iff, OrderedSet.contains_eq_true_iff,
    OrderedSet.mem_insert, or_iff_left apart]

theorem place_mark (s : Reading) (word : Text) :
    (s.mark word).place =
      ⟨s.place.prefixOpen, s.sawModrm || Token.isSlashed word, s.place.widthIgnored⟩ := by
  unfold mark
  split
  · next slashed =>
    rw [slashed, Bool.or_true, place, place]
    exact congrArg (Place.mk _ _) (contains_insert_of_word (by decide))
  · next unslashed =>
    rw [Bool.not_eq_true] at unslashed
    rw [unslashed, Bool.or_false]
    rfl

/-- Words that name no family and write no byte leave the room for a mandatory prefix as it is. -/
theorem acceptsPrefix_extend_of_spared {s : Reading} {token : Token}
    (unnamed : token.family? = none) (spared : .opcode ∉ token.fields) :
    (s.extend token).acceptsPrefix = s.acceptsPrefix := by
  have new : (token.contributions s.place).reverse.any (·.1 = .opcode) = false := by
    rw [List.any_eq_false]
    intro p member opcode
    have own := Token.field_mem_fields (List.mem_reverse.1 member)
    rw [of_decide_eq_true opcode] at own
    exact spared own
  rw [acceptsPrefix, acceptsPrefix, extend, unnamed, List.any_append, new, Bool.false_or]
  rfl

/-- A byte closes the room for mandatory prefixes if it is an opcode byte. -/
theorem acceptsPrefix_extend_byte (s : Reading) (word : Text) :
    (s.extend (.byte word)).acceptsPrefix =
      (s.acceptsPrefix && (s.sawModrm || prefixBytes.contains word)) := by
  have room : s.place.prefixOpen = s.acceptsPrefix := rfl
  have past : s.place.pastModrm = s.sawModrm := rfl
  have values : (s.extend (.byte word)).acceptsPrefix = (!s.family.isVector &&
      !(((Token.byte word).contributions s.place).reverse ++ s.values).any (·.1 = .opcode)) := rfl
  rw [values, Token.contributions, room, past]
  by_cases accepted : (prefixBytes.contains word && s.acceptsPrefix) = true
  · obtain ⟨listed, accepts⟩ := Bool.and_eq_true_iff.1 accepted
    rw [if_pos accepted, listed, Bool.or_true, Bool.and_true, acceptsPrefix]
    simp
  · rw [if_neg accepted]
    cases saw : s.sawModrm with
    | true => simp [acceptsPrefix]
    | false =>
      have closed := Bool.eq_false_iff.2 accepted
      rw [Bool.false_or, Bool.and_comm s.acceptsPrefix, closed]
      simp

theorem acceptsPrefix_extend {s : Reading} {word : Text} {token : Token}
    (parsed : Token.parse word = .ok token) :
    (s.extend token).acceptsPrefix = true ↔
      s.acceptsPrefix = true ∧ word ∉ familyWords ∧
        (s.sawModrm = false → IsByte word → word ∈ prefixBytes) := by
  by_cases named : word ∈ familyWords
  · obtain ⟨f, vector, read⟩ := parse_of_familyWord named
    obtain rfl := Except.ok.inj (parsed.symm.trans read)
    simp [named, acceptsPrefix, extend, Token.family?, vector]
  by_cases byte : IsByte word
  · obtain rfl := Except.ok.inj (parsed.symm.trans (parse_of_isByte byte))
    rw [acceptsPrefix_extend_byte]
    cases s.sawModrm <;> simp [named, byte]
  · have unnamed : token.family? = none := by
      cases token with
      | family f => exact absurd (spelledBy_of_parse parsed).2 named
      | _ => rfl
    have spared : .opcode ∉ token.fields := by
      rcases fields_of_parse parsed with free | rfl
      · intro member
        exact free .opcode member (by decide)
      · exact absurd (spelledBy_of_parse parsed).2 byte
    rw [acceptsPrefix_extend_of_spared unnamed spared]
    exact ⟨fun accepts => ⟨accepts, named, fun _ written => absurd written byte⟩, fun h => h.1⟩

/-- A reading that has come behind the given words. -/
structure After (attributes : Attributes) (before : List Text) (s : Reading) : Prop where
  values : s.values = (contributionsAfter attributes [] before).reverse
  place : s.place = .behind attributes before

theorem After.start (attributes : Attributes) : (start attributes).After attributes [] :=
  ⟨rfl, rfl⟩

theorem After.acceptsPrefix_iff {attributes : Attributes} {before : List Text} {s : Reading}
    (after : s.After attributes before) : s.acceptsPrefix = true ↔ PrefixOpen IsByte before := by
  have known := congrArg Place.prefixOpen after.place
  rw [← decide_eq_true_iff (p := PrefixOpen IsByte before)]
  exact Eq.congr_left known

/-- A slash before a word does not bear on what the word contributes. -/
theorem contributions_mark {s : Reading} {word : Text} {token : Token}
    (parsed : Token.parse word = .ok token) :
    token.contributions (s.mark word).place = token.contributions s.place := by
  rw [place_mark]
  cases token with
  | byte w =>
    obtain ⟨_, byte⟩ := spelledBy_of_parse parsed
    rw [isSlashed_of_isByte byte, Bool.or_false]
    rfl
  | _ => rfl

theorem widthIgnored_extend {s : Reading} {word : Text} {token : Token}
    (parsed : Token.parse word = .ok token) :
    (s.extend token).attributes.contains .widthIgnoredOutside64 =
      s.attributes.contains .widthIgnoredOutside64 := by
  rw [extend]
  cases adds : token.property? with
  | none => rfl
  | some p => exact contains_insert_of_word (property?_of_parse parsed adds)

theorem After.step {attributes : Attributes} {before : List Text} {s t : Reading} {word : Text}
    {token : Token} (after : s.After attributes before) (parsed : Token.parse word = .ok token)
    (took : (s.mark word).take? token = some t) : t.After attributes (before ++ [word]) := by
  obtain rfl := eq_extend_of_take? took
  have values : (s.mark word).values = s.values := by
    unfold mark
    split <;> rfl
  have marked := place_mark s word
  have past : (s.mark word).sawModrm = (before.any Token.isSlashed || Token.isSlashed word) := by
    have known : s.sawModrm = before.any Token.isSlashed := congrArg Place.pastModrm after.place
    rw [← known]
    exact congrArg Place.pastModrm marked
  have opened : ((s.mark word).extend token).acceptsPrefix =
      decide (PrefixOpen IsByte (before ++ [word])) := by
    rw [Bool.eq_iff_iff, acceptsPrefix_extend parsed, acceptsPrefix_mark, after.acceptsPrefix_iff,
      past, Bool.or_eq_false_iff, and_imp, decide_eq_true_iff, prefixOpen_concat]
  have width : ((s.mark word).extend token).attributes.contains .widthIgnoredOutside64 =
      attributes.contains .widthIgnoredOutside64 := by
    rw [widthIgnored_extend parsed]
    have unchanged := congrArg Place.widthIgnored marked
    exact unchanged.trans (congrArg Place.widthIgnored after.place)
  refine ⟨?_, ?_⟩
  · rw [contributionsAfter_concat parsed, List.reverse_append, List.nil_append, ← after.values,
      ← after.place, ← contributions_mark parsed, ← values]
    rfl
  · rw [Reading.place, opened, width, Place.behind, List.any_append, List.any_cons, List.any_nil,
      Bool.or_false, ← past]
    rfl

theorem After.readAll {attributes : Attributes} {before words : List Text} {s : Reading} {u : Unit}
    (after : s.After attributes before) (success : (s.readAll words).1 = .ok u) :
    (s.readAll words).2.After attributes (before ++ words) := by
  induction words generalizing before s with
  | nil =>
    rw [List.append_nil]
    exact after
  | cons word rest ih =>
    rw [Reading.readAll] at success ⊢
    split at success
    · next t made =>
      obtain ⟨token, parsed, took⟩ := read_eq_ok_iff.1 made
      have next := ih (after.step parsed took) success
      rwa [List.append_assoc, List.singleton_append] at next
    · cases success

theorem readAll_append (s : Reading) (words rest : List Text) :
    s.readAll (words ++ rest) =
      match s.readAll words with
      | (.ok _, t) => t.readAll rest
      | (.error e, t) => (.error e, t) := by
  induction words generalizing s with
  | nil => rfl
  | cons word words ih =>
    rw [List.cons_append, readAll, readAll]
    cases (s.mark word).read word with
    | error e => rfl
    | ok t => exact ih t

/-- What holds of two readings while they take in the same words holds behind all words, and they
stop at the same word. -/
theorem readAll_lockstep {R : Reading → Reading → Prop}
    (mark : ∀ {s t} word, R s t → R (s.mark word) (t.mark word))
    (read : ∀ {s t} word, R s t → Agree R (· = ·) (s.read word) (t.read word))
    {s t : Reading} (related : R s t) (words : List Text) :
    (s.readAll words).1 = (t.readAll words).1 ∧ R (s.readAll words).2 (t.readAll words).2 := by
  induction words generalizing s t with
  | nil => exact ⟨rfl, related⟩
  | cons word rest ih =>
    have marked := mark word related
    have agree := read word marked
    rw [Reading.readAll, Reading.readAll]
    revert agree
    generalize (s.mark word).read word = first
    generalize (t.mark word).read word = second
    intro agree
    cases agree with
    | error errors => exact ⟨congrArg Except.error errors, marked⟩
    | ok next => exact ih next

end Reading

theorem outcome_parse (raw : Text) (attributes : Attributes) :
    (parse raw).outcome attributes =
      (((Reading.start attributes).readAll raw.words).1.map fun _ =>
          ((Reading.start attributes).readAll raw.words).2.encoding.merge,
        ((Reading.start attributes).readAll raw.words).2.attributes) := by
  rw [parse, Update.outcome_map]
  refine Prod.ext ?_ rfl
  change merge <$> (((Reading.start attributes).readAll raw.words).1.map _) = _
  cases ((Reading.start attributes).readAll raw.words).1 <;> rfl

end OpcodeAtlas.Encoding
