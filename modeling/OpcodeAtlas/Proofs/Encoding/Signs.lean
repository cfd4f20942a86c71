import OpcodeAtlas.Proofs.Encoding.Grammar

/-!
Bytes with a sign. Two digits are the only way to write a byte that the format knows, and a plus
before a single digit is read as well. The grammar of the format describes what is accepted exactly
as long as no such word is reached (`recognised_unless_signed`).
-/

namespace OpcodeAtlas.Encoding

/-- A byte with a sign, alone or after a slash. -/
def Signed (word : Text) : Prop := ∃ body, SignedDigit body ∧ (word = body ∨ word = '/' :: body)

/-! ### Words of both grammars -/

theorem plus_mem_of_signed {word : Text} (signed : Signed word) : '+' ∈ word := by
  obtain ⟨_, ⟨b, _, rfl⟩, rfl | rfl⟩ := signed
  · simp
  · simp

theorem plus_not_mem_of_hexPair {word : Text} (pair : HexPair word) : '+' ∉ word := by
  have digits : ∀ c ∈ hexDigits, '+' ≠ c := by decide
  obtain ⟨a, first, b, second, rfl⟩ := pair
  simp [digits a first, digits b second]

/-- No word of the format has a plus in it. -/
theorem plus_not_mem_of_allowed {before : List Text} {word : Text}
    (allowed : Allowed HexPair before word) : '+' ∉ word := by
  cases allowed with
  | keyword listed =>
    have known : ∀ w ∈ plainKeywords, '+' ∉ w := by decide
    exact known _ listed
  | noPrefix => decide
  | @modrm reg mod register mode =>
    have known : ∀ reg ∈ "r01234567".toList, ∀ mod ∈ (["", ":reg", ":mem"] : List Text),
        '+' ∉ '/' :: reg :: mod := by
      decide
    exact known reg register mod mode
  | literal pair => simp [plus_not_mem_of_hexPair pair]
  | @keyed key values value listed member =>
    have known : ∀ row ∈ keyedValues, ∀ v ∈ row.2, '+' ∉ row.1 ++ [':', v] := by decide
    exact known _ listed value member
  | byte pair => exact plus_not_mem_of_hexPair pair

theorem Allowed.imp {isByte other : Text → Prop} {before : List Text} {word : Text}
    (allowed : Allowed isByte before word)
    (opens : PrefixOpen isByte before → PrefixOpen other before)
    (bytes : ∀ body, word = body ∨ word = '/' :: body → isByte body → other body) :
    Allowed other before word := by
  cases allowed with
  | keyword listed => exact .keyword listed
  | noPrefix room => exact .noPrefix (opens room)
  | modrm register mode => exact .modrm register mode
  | literal byte => exact .literal (bytes _ (.inr rfl) byte)
  | keyed listed member => exact .keyed listed member
  | byte byte => exact .byte (bytes _ (.inl rfl) byte)

theorem prefixOpen_iff_of_unsigned {before : List Text} (unsigned : ∀ w ∈ before, ¬ Signed w) :
    PrefixOpen HexPair before ↔ PrefixOpen IsByte before := by
  have same : ∀ w ∈ before, HexPair w ↔ IsByte w := fun w member =>
    (or_iff_left fun signed => unsigned w member ⟨w, signed, .inl rfl⟩).symm
  refine and_congr_right fun _ => forall₂_congr fun w member => ?_
  rw [same w (List.takeWhile_subset _ member)]

/-- Behind words without a sign, the words of the format are those that are read without a sign. -/
theorem allowed_hexPair_iff {before : List Text} {word : Text}
    (unsigned : ∀ w ∈ before, ¬ Signed w) :
    Allowed HexPair before word ↔ Allowed IsByte before word ∧ ¬ Signed word := by
  have opens := prefixOpen_iff_of_unsigned unsigned
  constructor
  · intro allowed
    refine ⟨allowed.imp opens.1 fun _ _ => .inl, fun signed => ?_⟩
    exact plus_not_mem_of_allowed allowed (plus_mem_of_signed signed)
  · rintro ⟨allowed, plain⟩
    refine allowed.imp opens.2 fun body shape byte => ?_
    exact byte.resolve_right fun signed => plain ⟨body, signed, shape⟩

/-! ### Encodings of both grammars -/

theorem eq_of_refusal {word other : Text} (same : refusal word = refusal other) : word = other := by
  unfold refusal at same
  split at same
  · split at same
    · exact SpecError.invalidModrm.inj same
    · cases same
  · split at same
    · cases same
    · exact SpecError.invalidEncoding.inj same

theorem Follows.unsigned {words : List Text} (follows : Follows HexPair [] words) :
    ∀ w ∈ words, ¬ Signed w := by
  intro w member signed
  obtain ⟨read, rest, rfl⟩ := List.append_of_mem member
  exact plus_not_mem_of_allowed (follows read w rest rfl) (plus_mem_of_signed signed)

theorem Follows.isByte {words : List Text} (follows : Follows HexPair [] words) :
    Follows IsByte [] words := by
  rintro read word rest rfl
  have unsigned : ∀ w ∈ read, ¬ Signed w := fun w member =>
    follows.unsigned w (List.mem_append_left _ member)
  exact ((allowed_hexPair_iff unsigned).1 (follows read word rest rfl)).1

/-- A word with a sign is never the first to be refused, as the grammar of the format would have
it. -/
theorem not_recognised_of_signed {raw : Text} {attributes : Attributes} {read rest : List Text}
    {word : Text} (shape : raw.words = read ++ word :: rest) (follows : Follows HexPair [] read)
    (signed : Signed word) : ¬ Recognised HexPair raw attributes := by
  intro recognised
  have refused : ¬ Allowed HexPair read word := fun allowed =>
    plus_not_mem_of_allowed allowed (plus_mem_of_signed signed)
  have failed := (recognised.2 _).2 ⟨read, word, rest, shape, follows, refused, rfl⟩
  obtain ⟨before, other, _, _, _, outside, same⟩ :=
    ((recognised_isByte raw attributes).2 _).1 failed
  obtain rfl := eq_of_refusal same
  obtain ⟨body, plus, rfl | rfl⟩ := signed
  · exact outside (.byte (.inr plus))
  · exact outside (.literal (.inr plus))

/-- An encoding is recognised by the grammar in which a plus and one digit write a byte too, and by
the one with two digits for every byte exactly if it reaches no word with a sign. -/
theorem recognised_unless_signed (raw : Text) (attributes : Attributes) :
    Recognised IsByte raw attributes ∧
      (Recognised HexPair raw attributes ↔
        ∀ read word rest, raw.words = read ++ word :: rest → Follows HexPair [] read →
          ¬ Signed word) := by
  have whole := recognised_isByte raw attributes
  refine ⟨whole, fun recognised read word rest shape follows signed => ?_, fun unsigned => ?_⟩
  · exact not_recognised_of_signed shape follows signed recognised
  · rcases follows_or_exists HexPair [] raw.words with
      follows | ⟨read, word, rest, shape, follows, refused⟩
    · exact recognised_of_follows follows (whole.1.2 follows.isByte)
    · have outside : ¬ Allowed IsByte read word := fun allowed =>
        refused ((allowed_hexPair_iff follows.unsigned).2
          ⟨allowed, unsigned read word rest shape follows⟩)
      have failed := (whole.2 _).2 ⟨read, word, rest, shape, follows.isByte, outside, rfl⟩
      exact recognised_of_refused shape follows refused failed

/-- A plus and a single digit are read as a byte. -/
theorem sign_is_read :
    ¬ ∀ (raw : Text) (attributes : Attributes), Recognised HexPair raw attributes := by
  intro recognised
  have read : ((parse "0x+5").outcome ∅).1.isOk = true := by decide
  have allowed := (recognised "0x+5" ∅).1.1 read [] "0x+5" [] (by decide)
  exact plus_not_mem_of_allowed allowed (by decide)

end OpcodeAtlas.Encoding
