import Mathlib.Data.Nat.Digits.Defs
import OpcodeAtlas.Dispatch.Index
import OpcodeAtlas.Proofs.Encoding.Values
import OpcodeAtlas.Proofs.Traversal

/-!
The index that a value stands for. A value with a name of its own has the index of that name; every
other one is a hexadecimal numeral below 2 ^ 64 or has no index (`indices_exact`). Numerals are
described by their digits and the positional value of these (`Text.Denotes`).
-/

namespace OpcodeAtlas

/-! ### Numerals -/

namespace Text

/-- A hexadecimal digit of either case and its value. -/
def HexDigit (c : Char) (d : Nat) : Prop :=
  "0123456789abcdef".toList[d]? = some c ∨ "0123456789ABCDEF".toList[d]? = some c

instance (c : Char) (d : Nat) : Decidable (HexDigit c d) :=
  inferInstanceAs (Decidable (_ ∨ _))

/-- One hexadecimal digit or more, the first one being the most significant. -/
def Denotes (t : Text) (n : Nat) : Prop :=
  t ≠ [] ∧ ∃ digits, List.Forall₂ HexDigit t digits ∧ Nat.ofDigits 16 digits.reverse = n

theorem digit?_eq_some_iff {c : Char} {d : Nat} : digit? 16 c = some d ↔ HexDigit c d := by
  constructor
  · intro digit
    have each : ∀ c ∈ Encoding.hexDigits, ∀ d ∈ digit? 16 c, HexDigit c d := by decide
    exact each c (Encoding.mem_hexDigits_iff.2 ⟨d, digit⟩) d digit
  · have lower : ∀ p ∈ "0123456789abcdef".toList.zipIdx, digit? 16 p.1 = some p.2 := by decide
    have upper : ∀ p ∈ "0123456789ABCDEF".toList.zipIdx, digit? 16 p.1 = some p.2 := by decide
    rintro (found | found)
    · exact lower (c, d) (List.mk_mem_zipIdx_iff_getElem?.2 found)
    · exact upper (c, d) (List.mk_mem_zipIdx_iff_getElem?.2 found)

theorem ofDigits_eq (base : Nat) (digits : List Nat) :
    ofDigits base digits = Nat.ofDigits base digits.reverse := by
  rw [Nat.ofDigits_eq_foldr, List.foldr_reverse, ofDigits]
  simp only [Nat.cast_id, Nat.add_comm]

theorem digits?_eq_some_iff {t : Text} {n : Nat} : digits? 16 t = some n ↔ Denotes t n := by
  unfold digits?
  split
  · next empty => simp [Denotes, List.isEmpty_iff.1 empty]
  · next filled =>
    simp only [Option.map_eq_some_iff, Traversal.mapM_eq_some_iff, digit?_eq_some_iff, ofDigits_eq]
    exact (and_iff_right fun none => filled (by rw [none]; rfl)).symm

theorem number?_eq_some_iff {t : Text} {n : Nat} :
    number? 16 t = some n ↔
      ∃ sign digits : Text, (sign = [] ∨ sign = "+") ∧ t = sign ++ digits ∧ Denotes digits n := by
  constructor
  · intro read
    unfold number? at read
    split at read
    · next r => exact ⟨"+", r, .inr rfl, rfl, digits?_eq_some_iff.1 read⟩
    · exact ⟨[], t, .inl rfl, rfl, digits?_eq_some_iff.1 read⟩
  · rintro ⟨sign, digits, rfl | rfl, rfl, numeral⟩
    · exact number?_of_digits? (digits?_eq_some_iff.2 numeral)
    · exact digits?_eq_some_iff.2 numeral

end Text

/-! ### Indices -/

namespace Dispatch

/-- A value with a name of its own, and the index of that name. -/
def Named (value : Text) (index : Nat) : Prop :=
  ∃ name, (name, index) ∈ symbolicIndices ∧ name.toList = value

/-- Digits behind at most one marker and then at most one sign. -/
def Numeral (value : Text) (n : Nat) : Prop :=
  ∃ marker sign digits : Text, (marker = [] ∨ marker = "0x") ∧ (sign = [] ∨ sign = "+") ∧
    value = marker ++ (sign ++ digits) ∧ digits.Denotes n

theorem numeral_iff_exists {value : Text} {n : Nat} :
    Numeral value n ↔ ∃ marker rest : Text, (marker = [] ∨ marker = "0x") ∧
      value = marker ++ rest ∧ Text.number? 16 rest = some n := by
  simp only [Numeral, Text.number?_eq_some_iff]
  constructor
  · rintro ⟨marker, sign, digits, marked, signed, same, numeral⟩
    exact ⟨marker, sign ++ digits, marked, same, sign, digits, signed, rfl, numeral⟩
  · rintro ⟨marker, _, marked, same, sign, digits, signed, rfl, numeral⟩
    exact ⟨marker, sign, digits, marked, signed, same, numeral⟩

theorem numeral_iff {value : Text} {n : Nat} :
    Numeral value n ↔ Text.number? 16 (("0x".toList.isPrefixOf? value).getD value) = some n := by
  rw [numeral_iff_exists]
  cases found : "0x".toList.isPrefixOf? value with
  | some rest =>
    obtain rfl := List.isPrefixOf?_eq_some_iff_append_eq.1 found
    constructor
    · rintro ⟨marker, other, rfl | rfl, same, read⟩
      -- The marker holds a letter that is no digit, so it has to be taken away.
      · obtain rfl : "0x".toList ++ rest = other := same
        cases (Encoding.number?_marked rest).symm.trans read
      · obtain rfl := List.append_cancel_left same
        exact read
    · intro read
      exact ⟨"0x", rest, .inr rfl, rfl, read⟩
  | none =>
    constructor
    · rintro ⟨marker, other, rfl | rfl, rfl, read⟩
      · exact read
      · rw [List.isPrefixOf?_eq_some_iff_append_eq.2 rfl] at found
        cases found
    · intro read
      exact ⟨[], value, .inl rfl, rfl, read⟩

theorem Numeral.unique {value : Text} {m n : Nat} (first : Numeral value m)
    (second : Numeral value n) : m = n :=
  Option.some.inj ((numeral_iff.1 first).symm.trans (numeral_iff.1 second))

theorem numericIndex?_eq_some_iff {value : Text} {n : Nat} :
    numericIndex? value = some n ↔ Numeral value n ∧ n < 2 ^ 64 := by
  rw [numericIndex?, Text.numberBelow?_eq_some_iff, numeral_iff]
  rfl

theorem symbolicIndex?_eq_some_iff {value : Text} {index : Nat} :
    symbolicIndex? value = some index ↔ Named value index := by
  constructor
  · intro found
    obtain ⟨entry, first, rfl⟩ := Option.map_eq_some_iff.1 found
    exact ⟨entry.1, List.mem_of_find?_eq_some first, by simpa using List.find?_some first⟩
  · rintro ⟨name, member, rfl⟩
    have each : ∀ entry ∈ symbolicIndices, symbolicIndex? entry.1.toList = some entry.2 := by
      decide
    exact each (name, index) member

theorem childIndex?_eq_some_iff {value : Text} {n : Nat} :
    childIndex? value = some n ↔
      Named value n ∨ (∀ i, ¬ Named value i) ∧ Numeral value n ∧ n < 2 ^ 64 := by
  simp only [← symbolicIndex?_eq_some_iff, ← numericIndex?_eq_some_iff, childIndex?]
  cases symbolicIndex? value with
  | some index => simp
  | none => simp

theorem childIndex?_eq_none_iff {value : Text} :
    childIndex? value = none ↔ (∀ i, ¬ Named value i) ∧ ∀ n, Numeral value n → 2 ^ 64 ≤ n := by
  rw [Option.eq_none_iff_forall_ne_some]
  simp only [ne_eq, childIndex?_eq_some_iff]
  constructor
  · intro none
    have unnamed : ∀ i, ¬ Named value i := fun i named => none i (.inl named)
    refine ⟨unnamed, fun n numeral => Nat.le_of_not_lt fun small => ?_⟩
    exact none n (.inr ⟨unnamed, numeral, small⟩)
  · rintro ⟨unnamed, large⟩ n (named | ⟨_, numeral, small⟩)
    · exact unnamed n named
    · exact Nat.not_lt_of_le (large n numeral) small

/-! ### Written numbers -/

theorem numeral_hex (n : Nat) : Numeral (Text.hex n) n :=
  ⟨[], [], Text.hex n, .inl rfl, .inl rfl, rfl, Text.digits?_eq_some_iff.1 (Text.digits?_hex n)⟩

/-- Two of the names are numbers as well. -/
theorem named_hex_iff {n index : Nat} :
    Named (Text.hex n) index ↔ n = 0xdd64 ∧ index = 4 ∨ n = 0xdf64 ∧ index = 5 := by
  constructor
  · rintro ⟨name, member, same⟩
    have each : ∀ entry ∈ symbolicIndices, ∀ m ∈ Text.digits? 16 entry.1.toList,
        m = 0xdd64 ∧ entry.2 = 4 ∨ m = 0xdf64 ∧ entry.2 = 5 := by
      decide
    refine each (name, index) member n ?_
    rw [same]
    exact Text.digits?_hex n
  · rintro (⟨rfl, rfl⟩ | ⟨rfl, rfl⟩)
    · exact ⟨"dd64", by decide, by decide⟩
    · exact ⟨"df64", by decide, by decide⟩

/-- A value has the index of its name or, if it has none, the number below 2 ^ 64 that it denotes;
no other value has an index. A number below 2 ^ 64 that is written in lower case has itself as its
index, unless its digits spell one of two names. -/
theorem indices_exact :
    (∀ value n, childIndex? value = some n ↔
      Named value n ∨ (∀ i, ¬ Named value i) ∧ Numeral value n ∧ n < 2 ^ 64) ∧
    (∀ value, childIndex? value = none ↔
      (∀ i, ¬ Named value i) ∧ ∀ n, Numeral value n → 2 ^ 64 ≤ n) ∧
    ∀ n, childIndex? (Text.hex n) =
      if n = 0xdd64 then some 4 else if n = 0xdf64 then some 5
      else if n < 2 ^ 64 then some n else none := by
  refine ⟨fun value n => childIndex?_eq_some_iff, fun value => childIndex?_eq_none_iff,
    fun n => ?_⟩
  split
  · next same => exact childIndex?_eq_some_iff.2 (.inl (named_hex_iff.2 (.inl ⟨same, rfl⟩)))
  split
  · next same => exact childIndex?_eq_some_iff.2 (.inl (named_hex_iff.2 (.inr ⟨same, rfl⟩)))
  next other other' =>
    have unnamed : ∀ i, ¬ Named (Text.hex n) i := by
      intro i named
      rcases named_hex_iff.1 named with ⟨same, _⟩ | ⟨same, _⟩
      · exact other same
      · exact other' same
    split
    · next small => exact childIndex?_eq_some_iff.2 (.inr ⟨unnamed, numeral_hex n, small⟩)
    · next large =>
      refine childIndex?_eq_none_iff.2 ⟨unnamed, fun m numeral => ?_⟩
      rw [numeral.unique (numeral_hex n)]
      exact Nat.le_of_not_lt large

-- A marker, a sign and zeros in front, digits of both cases; two markers; one number too far.
example : childIndex? "0x+00Ff" = some 255 ∧ childIndex? "0x0xFF" = none ∧
    childIndex? "0010000000000000000" = none := by
  decide

end Dispatch

end OpcodeAtlas
