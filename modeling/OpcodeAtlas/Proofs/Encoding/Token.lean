import OpcodeAtlas.Encoding.Token
import OpcodeAtlas.Proofs.Text.Output

/-!
The words of an encoding, one by one. What holds of every kind of word holds of whatever can be read
(`EveryWord.of_parse`). A byte is two hexadecimal digits in either case, or a plus
and one digit (`hexByte?_isSome_iff`).
-/

namespace OpcodeAtlas.Encoding

/-! ### Digits -/

/-- The digits of a byte. -/
def hexDigits : Text := "0123456789abcdefABCDEF"

theorem lt_of_digit? {c : Char} {n : Nat} (h : Text.digit? 16 c = some n) : n < 16 := by
  have below := (Option.filter_eq_some_iff.1 h).2
  exact of_decide_eq_true below

theorem mem_hexDigits_iff {c : Char} : c ∈ hexDigits ↔ ∃ n, Text.digit? 16 c = some n := by
  constructor
  · intro member
    have digits : ∀ c ∈ hexDigits, (Text.digit? 16 c).isSome = true := by decide
    exact Option.isSome_iff_exists.1 (digits c member)
  · rintro ⟨n, digit⟩
    have small := lt_of_digit? digit
    obtain ⟨value, _⟩ := Option.filter_eq_some_iff.1 digit
    -- Each of the three runs of digits is short enough to be listed.
    have run : ∀ low high : Nat, low ≤ c.toNat → c.toNat ≤ high →
        (∀ k ≤ high, low ≤ k → Char.ofNat k ∈ hexDigits) → c ∈ hexDigits := by
      intro low high above below all
      have here := all c.toNat below above
      rwa [Char.ofNat_toNat] at here
    split at value
    · next range => exact run 48 57 range.1 range.2 (by decide)
    · split at value
      · next range =>
        have low : 97 ≤ c.toNat := range.1
        obtain rfl := Option.some.inj value
        refine run 97 102 low ?_ (by decide)
        change c.toNat - 97 + 10 < 16 at small
        omega
      · split at value
        · next range =>
          have low : 65 ≤ c.toNat := range.1
          obtain rfl := Option.some.inj value
          refine run 65 70 low ?_ (by decide)
          change c.toNat - 65 + 10 < 16 at small
          omega
        · cases value

theorem ne_of_digit? {c d : Char} {n : Nat} (h : Text.digit? 16 c = some n)
    (other : Text.digit? 16 d = none) : c ≠ d := by
  rintro rfl
  cases other.symm.trans h

theorem digits?_pair_iff {a b : Char} {n : Nat} :
    Text.digits? 16 [a, b] = some n ↔
      ∃ h l, Text.digit? 16 a = some h ∧ Text.digit? 16 b = some l ∧ 16 * h + l = n := by
  cases high : Text.digit? 16 a with
  | none => simp [Text.digits?, List.mapM_cons, high]
  | some h =>
    cases low : Text.digit? 16 b with
    | none => simp [Text.digits?, List.mapM_cons, high, low]
    | some l => simp [Text.digits?, List.mapM_cons, high, low, Text.ofDigits]

theorem number?_of_digits {a b : Char} {h l : Nat} (high : Text.digit? 16 a = some h)
    (low : Text.digit? 16 b = some l) : Text.number? 16 [a, b] = some (16 * h + l) := by
  have unsigned : a ≠ '+' := ne_of_digit? high (by decide)
  rw [Text.number?.eq_2 _ _ (by simpa using unsigned)]
  exact digits?_pair_iff.2 ⟨h, l, high, low, rfl⟩

/-- The digits that stand alone, in their order. -/
def upperDigits : Text := "0123456789ABCDEF"

theorem digitUpTo?_isSome_iff {max : Nat} (small : max < 16) {t : Text} :
    (digitUpTo? max t).isSome = true ↔ ∃ c ∈ upperDigits.take (max + 1), t = [c] := by
  have listed : ∀ max < 16, ∀ c ∈ hexDigits, (digitUpTo? max [c]).isSome = true →
      c ∈ upperDigits.take (max + 1) := by
    decide
  have read : ∀ max < 16, ∀ c ∈ upperDigits.take (max + 1),
      (digitUpTo? max [c]).isSome = true := by
    decide
  constructor
  · intro digit
    obtain ⟨n, value⟩ := Option.isSome_iff_exists.1 digit
    unfold digitUpTo? at value
    split at value
    · next c =>
      split at value
      · cases value
      · have hex := mem_hexDigits_iff.2 ⟨n, (Option.filter_eq_some_iff.1 value).1⟩
        exact ⟨c, listed max small c hex digit, rfl⟩
    · cases value
  · rintro ⟨c, member, rfl⟩
    exact read max small c member

/-! ### Bytes -/

theorem hexByte?_eq_some_iff {word : Text} {n : Nat} :
    hexByte? word = some n ↔
      ∃ a b, word = ['0', 'x', a, b] ∧ Text.numberBelow? 16 256 [a, b] = some n := by
  unfold hexByte?
  split
  · next a b marked =>
    obtain rfl := List.isPrefixOf?_eq_some_iff_append_eq.1 marked
    constructor
    · intro number
      exact ⟨a, b, rfl, number⟩
    · rintro ⟨c, d, same, number⟩
      obtain ⟨rfl, rfl⟩ : a = c ∧ b = d := by simpa using same
      exact number
  · next unmarked =>
    simp only [reduceCtorEq, false_iff]
    rintro ⟨a, b, rfl, _⟩
    exact unmarked a b rfl

/-- A marker and two digits. -/
def HexPair (word : Text) : Prop := ∃ a ∈ hexDigits, ∃ b ∈ hexDigits, word = ['0', 'x', a, b]

/-- A marker, a plus and one digit. -/
def SignedDigit (word : Text) : Prop := ∃ b ∈ hexDigits, word = ['0', 'x', '+', b]

theorem hexByte?_of_digits {a b : Char} {h l : Nat} (high : Text.digit? 16 a = some h)
    (low : Text.digit? 16 b = some l) : hexByte? ['0', 'x', a, b] = some (16 * h + l) := by
  have first := lt_of_digit? high
  have second := lt_of_digit? low
  refine hexByte?_eq_some_iff.2 ⟨a, b, rfl, Text.numberBelow?_eq_some_iff.2 ?_⟩
  exact ⟨number?_of_digits high low, by omega⟩

theorem hexByte?_isSome_iff {word : Text} :
    (hexByte? word).isSome = true ↔ HexPair word ∨ SignedDigit word := by
  rw [Option.isSome_iff_exists]
  constructor
  · rintro ⟨n, byte⟩
    obtain ⟨a, b, rfl, number⟩ := hexByte?_eq_some_iff.1 byte
    obtain ⟨number, _⟩ := Text.numberBelow?_eq_some_iff.1 number
    by_cases signed : a = '+'
    · subst signed
      cases digit : Text.digit? 16 b with
      | none => simp [Text.number?, Text.digits?, digit] at number
      | some l => exact .inr ⟨b, mem_hexDigits_iff.2 ⟨l, digit⟩, rfl⟩
    · rw [Text.number?.eq_2 _ _ (by simpa using signed)] at number
      obtain ⟨h, l, high, low, _⟩ := digits?_pair_iff.1 number
      exact .inl ⟨a, mem_hexDigits_iff.2 ⟨h, high⟩, b, mem_hexDigits_iff.2 ⟨l, low⟩, rfl⟩
  · rintro (⟨a, first, b, second, rfl⟩ | ⟨b, second, rfl⟩)
    · obtain ⟨h, high⟩ := mem_hexDigits_iff.1 first
      obtain ⟨l, low⟩ := mem_hexDigits_iff.1 second
      exact ⟨_, hexByte?_of_digits high low⟩
    · have single : ∀ b ∈ hexDigits, (hexByte? ['0', 'x', '+', b]).isSome = true := by decide
      exact Option.isSome_iff_exists.1 (single b second)

/-! ### Meanings -/

theorem keyword?_eq_none {p : Text → Bool}
    (fields : ∀ row ∈ Token.fieldKeywords, ∀ k ∈ row.2, p k.toList = false)
    (others : ∀ row ∈ Token.keywords, p row.1.toList = false) {word : Text} (h : p word = true) :
    Token.keyword? word = none := by
  have first :
      (Token.fieldKeywords.find? fun row => row.2.any fun k => k.toList == word) = none := by
    rw [List.find?_eq_none]
    intro row member found
    obtain ⟨k, listed, same⟩ := List.any_eq_true.1 found
    obtain rfl : k.toList = word := by simpa using same
    rw [fields row member k listed] at h
    cases h
  have second : (Token.keywords.find? fun row => row.1.toList == word) = none := by
    rw [List.find?_eq_none]
    intro row member found
    obtain rfl : row.1.toList = word := by simpa using found
    rw [others row member] at h
    cases h
  rw [Token.keyword?, first, second]
  rfl

theorem parse_of_hexByte? {word : Text} {n : Nat} (byte : hexByte? word = some n) :
    Token.parse word = .ok (.byte word) := by
  have unnamed : Token.keyword? word = none :=
    keyword?_eq_none (p := fun w => (hexByte? w).isSome) (by decide) (by decide) (by rw [byte]; rfl)
  have written : (hexByte? word).isSome = true := Option.isSome_iff_exists.2 ⟨n, byte⟩
  have whole : Text.cut ':' word = none := by
    have apart : ∀ c ∈ hexDigits, c ≠ ':' := by decide
    rcases hexByte?_isSome_iff.1 written with ⟨a, first, b, second, rfl⟩ | ⟨b, second, rfl⟩
    · simp [Text.cut, apart a first, apart b second]
    · simp [Text.cut, apart b second]
  have unslashed : ∀ body, word ≠ '/' :: body := by
    rintro body rfl
    obtain ⟨a, b, same, _⟩ := hexByte?_eq_some_iff.1 byte
    cases same
  unfold Token.parse
  rw [unnamed]
  simp only [whole, written, if_true]

/-- A word after a slash is about ModR/M or wrong. -/
theorem parse_slash (body : Text) :
    Token.parse ('/' :: body) =
      (Modrm.parse? body).elim (.error (.invalidModrm ('/' :: body))) fun m => .ok (.modrm m) := by
  have unnamed : Token.keyword? ('/' :: body) = none :=
    keyword?_eq_none (p := Token.isSlashed) (by decide) (by decide) rfl
  rw [Token.parse, unnamed]
  cases Modrm.parse? body <;> rfl

theorem parse_of_slashed {body : Text} {n : Nat} (byte : hexByte? body = some n) :
    Token.parse ('/' :: body) = .ok (.modrm (.byte n)) := by
  rw [parse_slash, Modrm.parse?, byte]
  rfl

theorem keyword?_cases {word : Text} {token : Token} (h : Token.keyword? word = some token) :
    (∃ row ∈ Token.fieldKeywords, token = .value row.1 word ∧ ∃ k ∈ row.2, k.toList = word) ∨
      ∃ row ∈ Token.keywords, token = row.2 ∧ row.1.toList = word := by
  unfold Token.keyword? at h
  split at h
  · next field words found =>
    have listed := List.find?_some found
    obtain ⟨k, member, same⟩ := List.any_eq_true.1 listed
    cases h
    exact .inl ⟨_, List.mem_of_find?_eq_some found, rfl, k, member, by simpa using same⟩
  · obtain ⟨row, found, rfl⟩ := Option.map_eq_some_iff.1 h
    have same := List.find?_some found
    exact .inr ⟨row, List.mem_of_find?_eq_some found, rfl, by simpa using same⟩

theorem keyed?_cases {key v : Text} {token : Token} (h : Token.keyed? key v = some token) :
    (∃ row ∈ Token.namedValues, token = row.2.2 ∧ row.1.toList = key ∧ row.2.1.toList = v) ∨
      ((digitUpTo? 1 v).isSome = true ∧ token = .width v ∧ key = ['w']) ∨
      ∃ row ∈ Token.digitKeys, (digitUpTo? row.2.2 v).isSome = true ∧ token = .value row.2.1 v ∧
        row.1.toList = key := by
  unfold Token.keyed? at h
  split at h
  · next row found =>
    cases h
    have same := List.find?_some found
    rw [Bool.and_eq_true, beq_iff_eq, beq_iff_eq] at same
    exact .inl ⟨row, List.mem_of_find?_eq_some found, rfl, same⟩
  · split at h
    · next width =>
      obtain ⟨n, digit, rfl⟩ := Option.map_eq_some_iff.1 h
      exact .inr (.inl ⟨Option.isSome_iff_exists.2 ⟨n, digit⟩, rfl, width⟩)
    · split at h
      · next name field max found =>
        obtain ⟨n, digit, rfl⟩ := Option.map_eq_some_iff.1 h
        have same := List.find?_some found
        exact .inr (.inr ⟨_, List.mem_of_find?_eq_some found,
          Option.isSome_iff_exists.2 ⟨n, digit⟩, rfl, by simpa using same⟩)
      · cases h

/-- Everything a word can mean. -/
theorem parse_cases {word : Text} {token : Token} (h : Token.parse word = .ok token) :
    Token.keyword? word = some token ∨
      (∃ body m, Modrm.parse? body = some m ∧ token = .modrm m ∧ word = '/' :: body) ∨
      (∃ key v, Token.keyed? key v = some token ∧ word = key ++ ':' :: v) ∨
      ((hexByte? word).isSome = true ∧ token = .byte word) := by
  unfold Token.parse at h
  split at h
  · next found =>
    cases h
    exact .inl found
  · split at h
    · split at h
      · next m read =>
        cases h
        exact .inr (.inl ⟨_, m, read, rfl, rfl⟩)
      · cases h
    · split at h
      · next key v parts =>
        cases read : Token.keyed? key v with
        | none =>
          rw [read] at h
          cases h
        | some t =>
          rw [read] at h
          cases h
          exact .inr (.inr (.inl ⟨key, v, read, Text.eq_of_cut parts⟩))
      · split at h
        · next byte =>
          cases h
          exact .inr (.inr (.inr ⟨byte, rfl⟩))
        · cases h

/-- The word and its meaning have the property, for every kind of word. -/
structure EveryWord (P : Text → Token → Prop) : Prop where
  field : ∀ row ∈ Token.fieldKeywords, ∀ k ∈ row.2, P k.toList (.value row.1 k.toList)
  keyword : ∀ row ∈ Token.keywords, P row.1.toList row.2
  modrm : ∀ body m, Modrm.parse? body = some m → P ('/' :: body) (.modrm m)
  named : ∀ row ∈ Token.namedValues, P (row.1.toList ++ ':' :: row.2.1.toList) row.2.2
  width : ∀ v, (digitUpTo? 1 v).isSome = true → P (['w'] ++ ':' :: v) (.width v)
  digit : ∀ row ∈ Token.digitKeys, ∀ v, (digitUpTo? row.2.2 v).isSome = true →
    P (row.1.toList ++ ':' :: v) (.value row.2.1 v)
  byte : ∀ word, (hexByte? word).isSome = true → P word (.byte word)

theorem EveryWord.of_parse {P : Text → Token → Prop} (every : EveryWord P) {word : Text}
    {token : Token} (h : Token.parse word = .ok token) : P word token := by
  rcases parse_cases h with
    found | ⟨body, m, read, rfl, rfl⟩ | ⟨key, v, read, rfl⟩ | ⟨written, rfl⟩
  · rcases keyword?_cases found with ⟨row, member, rfl, k, listed, rfl⟩ | ⟨row, member, rfl, rfl⟩
    · exact every.field row member k listed
    · exact every.keyword row member
  · exact every.modrm body m read
  · rcases keyed?_cases read with
      ⟨row, member, rfl, rfl, rfl⟩ | ⟨written, rfl, rfl⟩ | ⟨row, member, written, rfl, rfl⟩
    · exact every.named row member
    · exact every.width v written
    · exact every.digit row member v written
  · exact every.byte word written

end OpcodeAtlas.Encoding
