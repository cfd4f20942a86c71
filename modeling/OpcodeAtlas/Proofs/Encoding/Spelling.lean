import Mathlib.Data.List.Forall2
import Mathlib.Tactic.IntervalCases
import OpcodeAtlas.Proofs.Encoding.Values
import OpcodeAtlas.Proofs.Text.Words

/-!
The case of hexadecimal digits. `parse_upperBytes`: writing the bytes of an encoding in upper case
changes neither how it is read nor which children its values select, except where a mandatory prefix
in lower case would be accepted: only its spelling in upper case is one (`case_of_prefix_matters`).
-/

namespace OpcodeAtlas

namespace Text

/-! ### Digits in upper case -/

def upperDigit (c : Char) : Char := if 'a' ≤ c ∧ c ≤ 'f' then c.toUpper else c

/-- The digits with two cases, in lower and in upper case. -/
def hexLetters : List (Char × Char) :=
  [('a', 'A'), ('b', 'B'), ('c', 'C'), ('d', 'D'), ('e', 'E'), ('f', 'F')]

theorem upperDigit_cases (c : Char) : upperDigit c = c ∨ (c, upperDigit c) ∈ hexLetters := by
  by_cases letter : 'a' ≤ c ∧ c ≤ 'f'
  · right
    have low : 97 ≤ c.toNat := letter.1
    have high : c.toNat ≤ 102 := letter.2
    rw [← Char.ofNat_toNat c]
    interval_cases c.toNat <;> decide
  · exact .inl (if_neg letter)

theorem digit?_upperDigit (c : Char) : digit? 16 (upperDigit c) = digit? 16 c := by
  have letters : ∀ p ∈ hexLetters, digit? 16 p.2 = digit? 16 p.1 := by decide
  rcases upperDigit_cases c with same | letter
  · rw [same]
  · exact letters _ letter

theorem number?_map_upperDigit (t : Text) : number? 16 (t.map upperDigit) = number? 16 t := by
  have unsigned : ∀ t : Text, digits? 16 (t.map upperDigit) = digits? 16 t := by
    intro t
    rw [digits?, digits?, List.mapM_map, List.isEmpty_map]
    simp only [Function.comp_def, digit?_upperDigit]
  cases t with
  | nil => rfl
  | cons c r =>
    by_cases plus : c = '+'
    · subst plus
      exact unsigned r
    · have still : upperDigit c ≠ '+' := by
        rcases upperDigit_cases c with same | letter
        · rwa [same]
        · intro same
          rw [same] at letter
          simp [hexLetters] at letter
      rw [List.map_cons, number?.eq_2 _ _ (by simpa using still),
        number?.eq_2 _ _ (by simpa using plus)]
      exact unsigned (c :: r)

end Text

namespace Encoding

open Text (upperDigit)
open Dispatch (childIndex?)
open Traversal (Agree)

/-! ### Bytes -/

/-- The byte that a word writes, alone or after a slash. -/
def byte? : Text → Option Nat
  | '/' :: body => hexByte? body
  | word => hexByte? word

/-- A byte word in upper case; other words are left alone. -/
def upperByte (word : Text) : Text :=
  if (byte? word).isSome then word.map upperDigit else word

def upperBytes (raw : Text) : Text := Text.mapWords upperByte raw

theorem hexByte?_map_upperDigit {word : Text} {n : Nat} (byte : hexByte? word = some n) :
    hexByte? (word.map upperDigit) = some n := by
  obtain ⟨a, b, rfl, number⟩ := hexByte?_eq_some_iff.1 byte
  refine hexByte?_eq_some_iff.2 ⟨upperDigit a, upperDigit b, rfl, ?_⟩
  rw [Text.numberBelow?_eq_some_iff] at number ⊢
  rwa [← Text.number?_map_upperDigit] at number

theorem cases_of_byte? {word : Text} {n : Nat} (byte : byte? word = some n) :
    (∃ body, word = '/' :: body ∧ hexByte? body = some n) ∨ hexByte? word = some n := by
  unfold byte? at byte
  split at byte
  · exact .inl ⟨_, rfl, byte⟩
  · exact .inr byte

theorem upperByte_of_byte {word : Text} {n : Nat} (byte : byte? word = some n) :
    upperByte word = word.map upperDigit := by
  rw [upperByte, byte]
  rfl

theorem upperByte_of_not_byte {word : Text} (other : byte? word = none) :
    upperByte word = word := by
  rw [upperByte, other]
  rfl

theorem isSlashed_upperByte (word : Text) :
    Token.isSlashed (upperByte word) = Token.isSlashed word := by
  cases byte : byte? word with
  | none => rw [upperByte_of_not_byte byte]
  | some n =>
    rw [upperByte_of_byte byte]
    rcases cases_of_byte? byte with ⟨body, rfl, _⟩ | alone
    · rfl
    · obtain ⟨a, b, rfl, _⟩ := hexByte?_eq_some_iff.1 alone
      rfl

/-- The same word, or two spellings of a byte. -/
def SameByte (v w : Text) : Prop := v = w ∨ ∃ n, hexByte? v = some n ∧ hexByte? w = some n

theorem SameByte.childIndex?_eq {v w : Text} (same : SameByte v w) :
    childIndex? v = childIndex? w := by
  rcases same with rfl | ⟨n, first, second⟩
  · rfl
  · rw [(childIndex?_of_hexByte? first).1, (childIndex?_of_hexByte? second).1]

/-! ### Mandatory prefixes -/

/-- The mandatory prefixes with a letter, in lower case. -/
def lowerPrefixBytes : List Text := ["0xf3", "0xf2"]

theorem map_upperDigit_prefix {word : Text} (h : word ∈ Reading.prefixBytes) :
    word.map upperDigit = word := by
  have upper : ∀ w ∈ Reading.prefixBytes, w.map upperDigit = w := by decide
  exact upper word h

/-- Only the two lower-case spellings become a prefix in upper case. -/
theorem eq_of_map_upperDigit_prefix {word : Text} (upper : word ∉ lowerPrefixBytes)
    (h : word.map upperDigit ∈ Reading.prefixBytes) : word.map upperDigit = word := by
  have still : ∀ {c x : Char}, upperDigit c = x → x ∈ ['0', 'x', '6', '3', '2'] → c = x := by
    rintro c x rfl listed
    rcases Text.upperDigit_cases c with same | letter
    · exact same.symm
    · have letters : ∀ p ∈ Text.hexLetters, p.2 ∉ ['0', 'x', '6', '3', '2'] := by decide
      exact absurd listed (letters _ letter)
  have spelled : ∀ {c : Char}, upperDigit c = 'F' → c = 'F' ∨ c = 'f' := by
    intro c same
    rcases Text.upperDigit_cases c with unchanged | letter
    · exact .inl (unchanged.symm.trans same)
    · have letters : ∀ p ∈ Text.hexLetters, p.2 = 'F' → p.1 = 'f' := by decide
      exact .inr (letters _ letter same)
  -- A prefix has no letter but its F, so nothing else of it has a second spelling.
  have cases : ∀ {x y : Char}, word.map upperDigit = ['0', 'x', x, y] →
      ∃ c d, word = ['0', 'x', c, d] ∧ upperDigit c = x ∧ upperDigit d = y := by
    intro x y same
    simp only [List.map_eq_cons_iff, List.map_eq_nil_iff] at same
    obtain ⟨a, _, rfl, first, b, _, rfl, second, c, _, rfl, third, d, _, rfl, fourth, rfl⟩ := same
    obtain rfl := still first (by decide)
    obtain rfl := still second (by decide)
    exact ⟨c, d, rfl, third, fourth⟩
  have listed : word.map upperDigit = ['0', 'x', '6', '6'] ∨
      ∃ y ∈ ['3', '2'], word.map upperDigit = ['0', 'x', 'F', y] := by
    simpa [Reading.prefixBytes] using h
  rcases listed with same | ⟨y, last, same⟩
  · obtain ⟨c, d, rfl, third, fourth⟩ := cases same
    obtain rfl := still third (by decide)
    obtain rfl := still fourth (by decide)
    exact same
  · obtain ⟨c, d, rfl, third, fourth⟩ := cases same
    obtain rfl := still fourth ((show ['3', '2'] ⊆ ['0', 'x', '6', '3', '2'] by decide) last)
    have lower : ∀ y ∈ ['3', '2'], ['0', 'x', 'f', y] ∈ lowerPrefixBytes := by
      simp [lowerPrefixBytes]
    rcases spelled third with rfl | rfl
    · exact same
    · exact absurd (lower d last) upper

/-! ### Readings -/

namespace Reading

/-- Values of one field that are spelled alike; only opcodes are spelled as bytes. -/
structure SameValue (p q : Field × Text) : Prop where
  field : p.1 = q.1
  byte : SameByte p.2 q.2
  other : p.1 ≠ .opcode → p.1 ≠ .opcodeLast → p.2 = q.2

theorem SameValue.refl (p : Field × Text) : SameValue p p := ⟨rfl, .inl rfl, fun _ _ => rfl⟩

structure Alike (s t : Reading) : Prop where
  family : s.family = t.family
  values : List.Forall₂ SameValue s.values t.values
  attributes : s.attributes = t.attributes
  sawModrm : s.sawModrm = t.sawModrm

theorem Alike.refl (s : Reading) : Alike s s :=
  ⟨rfl, List.forall₂_same.2 fun p _ => SameValue.refl p, rfl, rfl⟩

theorem Alike.acceptsPrefix {s t : Reading} (alike : Alike s t) :
    s.acceptsPrefix = t.acceptsPrefix := by
  have opcodes : ∀ {vs ws : List (Field × Text)}, List.Forall₂ SameValue vs ws →
      vs.any (·.1 = .opcode) = ws.any (·.1 = .opcode) := by
    intro vs ws same
    induction same with
    | nil => rfl
    | cons first _ ih => rw [List.any_cons, List.any_cons, first.field, ih]
  rw [Reading.acceptsPrefix, Reading.acceptsPrefix, alike.family, opcodes alike.values]

theorem Alike.push {s t : Reading} (alike : Alike s t) {f : Field} {v w : Text}
    (same : SameValue (f, v) (f, w)) : Alike (s.push f v) (t.push f w) :=
  ⟨alike.family, .cons same alike.values, alike.attributes, alike.sawModrm⟩

theorem Alike.pushAll {s t : Reading} (alike : Alike s t) (vs : List (Field × Text)) :
    Alike (s.pushAll vs) (t.pushAll vs) :=
  ⟨alike.family, List.rel_append (List.forall₂_same.2 fun p _ => SameValue.refl p) alike.values,
    alike.attributes, alike.sawModrm⟩

theorem Alike.withProperty {s t : Reading} (alike : Alike s t) (p : Attribute) :
    Alike (s.withProperty p) (t.withProperty p) :=
  ⟨alike.family, alike.values, congrArg (·.insert p) alike.attributes, alike.sawModrm⟩

theorem Alike.take {s t : Reading} (alike : Alike s t) (token : Token) (e : SpecError) :
    Agree Alike (· = ·) ((s.take? token).elim (.error e) .ok)
      ((t.take? token).elim (.error e) .ok) := by
  have stored : ∀ f v, Alike (s.push f v) (t.push f v) := fun f v => alike.push (.refl (f, v))
  cases token with
  | family f => exact .ok ⟨rfl, alike.values, alike.attributes, alike.sawModrm⟩
  | noPrefix =>
    simp only [Reading.take?, alike.acceptsPrefix]
    split
    · exact .ok (stored _ _)
    · exact .error rfl
  | byte word =>
    simp only [Reading.take?, alike.acceptsPrefix, alike.sawModrm]
    split
    · exact .ok (stored _ _)
    · exact .ok (stored _ _)
  | value f v => exact .ok (stored f v)
  | property p => exact .ok (alike.withProperty p)
  | scaledIndex p => exact .ok ((alike.withProperty p).push (.refl _))
  | width v =>
    simp only [Reading.take?, alike.attributes]
    exact .ok (stored _ _)
  | modrm m => exact .ok (alike.pushAll _)
  | silent => exact .ok alike

/-- Spellings of a byte are taken in alike, unless only the one in upper case is a prefix. -/
theorem Alike.take_byte {s t : Reading} (alike : Alike s t) {word : Text} {n : Nat}
    (byte : hexByte? word = some n)
    (kept : word ∈ lowerPrefixBytes → s.acceptsPrefix = false) :
    ∃ u v, s.take? (.byte word) = some u ∧ t.take? (.byte (word.map upperDigit)) = some v ∧
      Alike u v := by
  have stored : ∀ f, f = .opcode ∨ f = .opcodeLast →
      Alike (s.push f word) (t.push f (word.map upperDigit)) := by
    intro f opcode
    refine alike.push ⟨rfl, .inr ⟨n, byte, hexByte?_map_upperDigit byte⟩, fun first last => ?_⟩
    exact absurd opcode (not_or.2 ⟨first, last⟩)
  by_cases accepted : s.acceptsPrefix = true ∧
      (word ∈ prefixBytes ∨ word.map upperDigit ∈ prefixBytes)
  · -- Were the word in lower case, it would be one of those that `kept` rules out.
    obtain ⟨accepts, some⟩ := accepted
    have upper : word.map upperDigit = word := by
      rcases some with already | after
      · exact map_upperDigit_prefix already
      · refine eq_of_map_upperDigit_prefix (fun lower => ?_) after
        exact Bool.false_ne_true ((kept lower).symm.trans accepts)
    rw [upper] at some ⊢
    have listed : prefixBytes.contains word = true := List.contains_iff_mem.2 (or_self_iff.1 some)
    simp only [Reading.take?, ← alike.acceptsPrefix, accepts, listed, Bool.and_self, if_true]
    exact ⟨_, _, rfl, rfl, alike.push (.refl _)⟩
  · have refused : ∀ w, w = word ∨ w = word.map upperDigit →
        (prefixBytes.contains w && s.acceptsPrefix) = false := by
      intro w which
      rw [← Bool.not_eq_true, Bool.and_eq_true, List.contains_iff_mem]
      rintro ⟨listed, accepts⟩
      rcases which with rfl | rfl
      · exact accepted ⟨accepts, .inl listed⟩
      · exact accepted ⟨accepts, .inr listed⟩
    simp only [Reading.take?, ← alike.acceptsPrefix, ← alike.sawModrm, refused _ (.inl rfl),
      refused _ (.inr rfl), Bool.false_eq_true, if_false]
    refine ⟨_, _, rfl, rfl, stored _ ?_⟩
    split
    · exact .inr rfl
    · exact .inl rfl

theorem Alike.mark {s t : Reading} (alike : Alike s t) (word : Text) :
    Alike (s.mark word) (t.mark (upperByte word)) := by
  unfold Reading.mark
  rw [isSlashed_upperByte]
  split
  · have marked := alike.withProperty .modrm
    exact ⟨marked.family, marked.values, marked.attributes, rfl⟩
  · exact alike

theorem Alike.read {s t : Reading} (alike : Alike s t) {word : Text}
    (kept : word ∈ lowerPrefixBytes → s.acceptsPrefix = false) :
    Agree Alike (· = ·) (s.read word) (t.read (upperByte word)) := by
  unfold Reading.read
  by_cases byte : byte? word = none
  · rw [upperByte_of_not_byte byte]
    refine (Agree.same (fun _ => rfl) (Token.parse word)).bind ?_
    rintro token _ rfl
    exact alike.take token _
  · obtain ⟨n, byte⟩ := Option.ne_none_iff_exists'.1 byte
    rw [upperByte_of_byte byte]
    rcases cases_of_byte? byte with ⟨body, rfl, slashed⟩ | alone
    · have upper : ('/' :: body).map upperDigit = '/' :: body.map upperDigit := rfl
      rw [upper, parse_of_slashed slashed, parse_of_slashed (hexByte?_map_upperDigit slashed)]
      exact .ok (alike.pushAll _)
    · obtain ⟨u, v, first, second, alike⟩ := alike.take_byte alone kept
      rw [parse_of_hexByte? alone, parse_of_hexByte? (hexByte?_map_upperDigit alone)]
      change Agree Alike _ ((s.take? (.byte word)).elim _ .ok) ((t.take? (.byte _)).elim _ .ok)
      rw [first, second]
      exact .ok alike

/-- Whether reading gets to a mandatory prefix in lower case where one in upper case would be
accepted. -/
def missesPrefix (s : Reading) : List Text → Bool
  | [] => false
  | word :: rest =>
    lowerPrefixBytes.contains word && s.acceptsPrefix ||
      match (s.mark word).read word with
      | .ok t => t.missesPrefix rest
      | .error _ => false

theorem Alike.readAll {s t : Reading} (alike : Alike s t) {words : List Text}
    (kept : s.missesPrefix words = false) :
    (s.readAll words).1 = (t.readAll (words.map upperByte)).1 ∧
      Alike (s.readAll words).2 (t.readAll (words.map upperByte)).2 := by
  induction words generalizing s t with
  | nil => exact ⟨rfl, alike⟩
  | cons word rest ih =>
    rw [missesPrefix, Bool.or_eq_false_iff] at kept
    obtain ⟨here, later⟩ := kept
    have refused : word ∈ lowerPrefixBytes → (s.mark word).acceptsPrefix = false := by
      intro lower
      rwa [List.contains_iff_mem.2 lower, Bool.true_and, ← acceptsPrefix_mark s word] at here
    have marked := alike.mark word
    have agree := marked.read refused
    rw [List.map_cons, Reading.readAll, Reading.readAll]
    -- From here on only the outcomes of the two reads matter, which fail together.
    revert agree later
    generalize (s.mark word).read word = first
    generalize (t.mark (upperByte word)).read (upperByte word) = second
    intro later agree
    cases agree with
    | error same => exact ⟨congrArg Except.error same, marked⟩
    | ok next => exact ih next later

end Reading

/-! ### Encodings -/

/-- The values of every field select the same children in turn, and differ in opcodes only. -/
structure SameDispatch (d e : Encoding) : Prop where
  family : d.family = e.family
  indices : ∀ f, (d.values f).map childIndex? = (e.values f).map childIndex?
  others : ∀ f, f ≠ .opcode → f ≠ .opcodeLast → d.values f = e.values f

theorem sameDispatch_ofValues {vs ws : List (Field × Text)}
    (same : List.Forall₂ Reading.SameValue vs ws) (family : Family) :
    SameDispatch (ofValues family vs) (ofValues family ws) := by
  induction same with
  | nil => exact ⟨rfl, fun _ => rfl, fun _ _ _ => rfl⟩
  | @cons p q vs ws first _ ih =>
    have field := first.field
    have grown : ∀ (p : Field × Text) vs f, (ofValues family (p :: vs)).values f =
        (if p.1 = f then [p.2] else []) ++ (ofValues family vs).values f := by
      intro p vs f
      by_cases same : p.1 = f <;> simp [ofValues, same]
    refine ⟨rfl, fun f => ?_, fun f opcode last => ?_⟩
    · rw [grown, grown, List.map_append, List.map_append, ih.indices f, field]
      congr 1
      split
      · simp [first.byte.childIndex?_eq]
      · rfl
    · rw [grown, grown, ih.others f opcode last, field]
      congr 1
      split
      · next here => rw [first.other (by rwa [field, here]) (by rwa [field, here])]
      · rfl

theorem Reading.Alike.encoding {s t : Reading} (alike : Alike s t) :
    SameDispatch s.encoding t.encoding := by
  unfold Reading.encoding
  rw [alike.family]
  exact sameDispatch_ofValues (List.rel_reverse alike.values) t.family

theorem SameDispatch.merge {d e : Encoding} (same : SameDispatch d e) :
    SameDispatch d.merge e.merge := by
  have number : d.lpdf? = e.lpdf? := by
    have apart : ∀ f ∈ mergedFields, f ≠ .opcode ∧ f ≠ .opcodeLast := by decide
    refine lpdf?_congr fun f merged => ?_
    rw [firstNumber?, firstNumber?, same.others f (apart f merged).1 (apart f merged).2]
  cases merged : e.lpdf? with
  | none => rwa [merge_of_none merged, merge_of_none (number.trans merged)]
  | some n =>
    have values : ∀ f, f ≠ .opcode → f ≠ .opcodeLast → d.merge.values f = e.merge.values f := by
      intro f first last
      rw [values_merge merged, values_merge (number.trans merged), same.others f first last,
        same.others .lpdf (by decide) (by decide)]
    have opcodes : ∀ f, f = .opcode ∨ f = .opcodeLast →
        d.merge.values f = d.values f ∧ e.merge.values f = e.values f := by
      rintro f (rfl | rfl)
      · exact ⟨values_merge (number.trans merged) _, values_merge merged _⟩
      · exact ⟨values_merge (number.trans merged) _, values_merge merged _⟩
    refine ⟨by rw [family_merge, family_merge, same.family], fun f => ?_, values⟩
    by_cases opcode : f = .opcode ∨ f = .opcodeLast
    · rw [(opcodes f opcode).1, (opcodes f opcode).2, same.indices f]
    · rw [not_or] at opcode
      rw [values f opcode.1 opcode.2]

/-! ### Upper case -/

theorem isBlank_upperDigit (c : Char) : Text.isBlank (upperDigit c) = Text.isBlank c := by
  have letters : ∀ p ∈ Text.hexLetters, Text.isBlank p.2 = Text.isBlank p.1 := by decide
  rcases Text.upperDigit_cases c with same | letter
  · rw [same]
  · exact letters _ letter

theorem words_upperBytes (raw : Text) : (upperBytes raw).words = raw.words.map upperByte := by
  refine Text.words_mapWords (fun word solid => ?_) (fun word => ?_) raw
  · unfold upperByte
    split
    · intro c member
      obtain ⟨d, inside, rfl⟩ := List.mem_map.1 member
      rw [isBlank_upperDigit]
      exact solid d inside
    · exact solid
  · unfold upperByte
    split
    · exact List.isEmpty_map
    · rfl

/-- Bytes in upper case are read as the same bytes, unless a mandatory prefix was missed before. -/
theorem parse_upperBytes (raw : Text) (attributes : Attributes)
    (kept : (Reading.start attributes).missesPrefix raw.words = false) :
    Agree SameDispatch (· = ·) ((parse raw).outcome attributes).1
        ((parse (upperBytes raw)).outcome attributes).1 ∧
      ((parse raw).outcome attributes).2 = ((parse (upperBytes raw)).outcome attributes).2 := by
  obtain ⟨results, alike⟩ := (Reading.Alike.refl (.start attributes)).readAll kept
  have plain : Agree SameDispatch (· = ·) ((parsePlain raw).outcome attributes).1
      ((parsePlain (upperBytes raw)).outcome attributes).1 := by
    change Agree _ _ (Except.map _ (Reading.readAll _ raw.words).1)
      (Except.map _ (Reading.readAll _ (upperBytes raw).words).1)
    rw [words_upperBytes, ← results]
    exact (Agree.same (fun _ => rfl) _).map fun _ _ _ => alike.encoding
  rw [parse, parse, Update.outcome_map, Update.outcome_map]
  refine ⟨plain.map fun d e same => same.merge, ?_⟩
  change (Reading.readAll _ raw.words).2.attributes =
    (Reading.readAll _ (upperBytes raw).words).2.attributes
  rw [words_upperBytes]
  exact alike.attributes

/-- A prefix in lower case, but after the opcode. -/
def lateBytes : Text := "0x0f 0x3a 0xf3 /0xc0 0xdd"

theorem parse_upperBytes_lateBytes :
    upperBytes lateBytes = "0x0F 0x3A 0xF3 /0xC0 0xDD".toList ∧
      (Reading.start ∅).missesPrefix lateBytes.words = false ∧
      Agree SameDispatch (· = ·) ((parse lateBytes).outcome ∅).1
        ((parse (upperBytes lateBytes)).outcome ∅).1 := by
  have kept : (Reading.start ∅).missesPrefix lateBytes.words = false := by decide
  exact ⟨by decide, kept, (parse_upperBytes lateBytes ∅ kept).1⟩

/-- A repeat prefix is an opcode byte in lower case and a mandatory prefix in upper case. -/
theorem case_of_prefix_matters :
    ¬ ∀ (raw : Text) (attributes : Attributes),
      Agree (fun d e => ∀ f, (d.values f).map childIndex? = (e.values f).map childIndex?)
        (fun _ _ => True) ((parse raw).outcome attributes).1
        ((parse (upperBytes raw)).outcome attributes).1 := by
  intro alike
  have pause := alike "0xf3 0x90" ∅
  have opcodes : ∀ x ∈ ((parse "0xf3 0x90").outcome ∅).1.toOption,
      ((x.values .opcode).map childIndex?).length = 2 := by
    decide
  have upper : ∀ x ∈ ((parse (upperBytes "0xf3 0x90")).outcome ∅).1.toOption,
      ((x.values .opcode).map childIndex?).length = 1 := by
    decide
  have read : ((parse "0xf3 0x90").outcome ∅).1.isOk = true := by decide
  revert pause opcodes upper read
  generalize ((parse "0xf3 0x90").outcome ∅).1 = first
  generalize ((parse (upperBytes "0xf3 0x90")).outcome ∅).1 = second
  intro pause opcodes upper read
  cases pause with
  | error _ => cases read
  | @ok d e same =>
    have two := opcodes d rfl
    have one := upper e rfl
    rw [same .opcode, one] at two
    cases two

end Encoding

end OpcodeAtlas
