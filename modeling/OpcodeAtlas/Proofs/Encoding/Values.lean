import OpcodeAtlas.Encoding.Parse
import OpcodeAtlas.Proofs.Dispatch.Separation
import OpcodeAtlas.Proofs.Encoding.Token

/-!
The values that an encoding can hold. `accepts_of_parse`: whatever is written, every value of a
field has a child on the axes that dispatch on the field.
-/

namespace OpcodeAtlas.Encoding

open Dispatch (Axis axesOf legacyAxes vectorAxes childIndex? symbolicIndex? numericIndex?
  symbolicIndices)

/-! ### Numerals -/

theorem number?_marked (rest : Text) : Text.number? 16 ('0' :: 'x' :: rest) = none := by
  have marker : Text.digit? 16 'x' = none := by decide
  simp [Text.number?, Text.digits?, List.mapM_cons, marker]

theorem number?_singleton {c : Char} {n : Nat} (digit : Text.digit? 16 c = some n) :
    Text.number? 16 [c] = some n := by
  have unsigned : c ≠ '+' := by
    rintro rfl
    cases (show Text.digit? 16 '+' = none by decide).symm.trans digit
  have signless : Text.number? 16 [c] = Text.digits? 16 [c] := by
    unfold Text.number?
    split
    · next same => exact absurd (List.head_eq_of_cons_eq same) unsigned
    · rfl
  rw [signless]
  simp [Text.digits?, digit, Text.ofDigits]

theorem symbolicIndex?_eq_none {p : Text → Bool}
    (free : ∀ entry ∈ symbolicIndices, p entry.1.toList = false) {t : Text} (h : p t = true) :
    symbolicIndex? t = none := by
  unfold symbolicIndex?
  rw [Option.map_eq_none_iff, List.find?_eq_none]
  rintro entry member same
  obtain rfl : entry.1.toList = t := by simpa using same
  rw [free entry member] at h
  cases h

/-- A small number is its own index: no name is a number below 256. -/
theorem childIndex?_of_numberBelow? {t : Text} {n : Nat}
    (h : Text.numberBelow? 16 256 t = some n) : childIndex? t = some n := by
  have unnamed : symbolicIndex? t = none :=
    symbolicIndex?_eq_none (p := fun t => (Text.numberBelow? 16 256 t).isSome) (by decide)
      (by rw [h]; rfl)
  obtain ⟨number, small⟩ := Text.numberBelow?_eq_some_iff.1 h
  have unmarked : "0x".toList.isPrefixOf? t = none := by
    rw [Option.eq_none_iff_forall_ne_some]
    rintro rest marked
    obtain rfl := List.isPrefixOf?_eq_some_iff_append_eq.1 marked
    cases (number?_marked rest).symm.trans number
  have numeric : numericIndex? t = some n := by
    rw [numericIndex?, unmarked]
    exact Text.numberBelow?_eq_some_iff.2 ⟨number, Nat.lt_trans small (by decide)⟩
  rw [childIndex?, unnamed, numeric]
  rfl

theorem childIndex?_of_hexByte? {t : Text} {n : Nat} (h : hexByte? t = some n) :
    childIndex? t = some n ∧ n < 256 := by
  unfold hexByte? at h
  split at h
  · next a b marked =>
    obtain ⟨number, small⟩ := Text.numberBelow?_eq_some_iff.1 h
    have unnamed : symbolicIndex? t = none :=
      symbolicIndex?_eq_none (p := fun t => ("0x".toList.isPrefixOf? t).isSome) (by decide)
        (by rw [marked]; rfl)
    have numeric : numericIndex? t = some n := by
      rw [numericIndex?, marked]
      exact Text.numberBelow?_eq_some_iff.2 ⟨number, Nat.lt_trans small (by decide)⟩
    refine ⟨?_, small⟩
    rw [childIndex?, unnamed, numeric]
    rfl
  · cases h

theorem childIndex?_of_digitUpTo? {max n : Nat} {t : Text} (h : digitUpTo? max t = some n) :
    childIndex? t = some n ∧ n ≤ max := by
  unfold digitUpTo? at h
  split at h
  · next c =>
    split at h
    · cases h
    · obtain ⟨digit, bounded⟩ := Option.filter_eq_some_iff.1 h
      have small : n < 16 := by
        have below := (Option.filter_eq_some_iff.1 digit).2
        exact of_decide_eq_true below
      have number := Text.numberBelow?_eq_some_iff.2
        ⟨number?_singleton digit, Nat.lt_trans small (show 16 < 256 by decide)⟩
      exact ⟨childIndex?_of_numberBelow? number, of_decide_eq_true bounded⟩
  · cases h

/-! ### Values of a field -/

/-- The value has a child on every axis that dispatches on the field. -/
def Fits (field : Field) (value : Text) : Prop :=
  ∀ a ∈ legacyAxes ++ vectorAxes, a.field = field → a.Accepts value

instance (field : Field) (value : Text) : Decidable (Fits field value) :=
  inferInstanceAs (Decidable (∀ a ∈ legacyAxes ++ vectorAxes, a.field = field → a.Accepts value))

/-- Every axis that dispatches on the field has at least that many children. -/
def HasRoom (field : Field) (count : Nat) : Prop :=
  ∀ a ∈ legacyAxes ++ vectorAxes, a.field = field → count ≤ a.size

instance (field : Field) (count : Nat) : Decidable (HasRoom field count) :=
  inferInstanceAs (Decidable (∀ a ∈ legacyAxes ++ vectorAxes, a.field = field → count ≤ a.size))

theorem HasRoom.fits {field : Field} {count n : Nat} (room : HasRoom field count) (small : n < count)
    {value : Text} (index : childIndex? value = some n) : Fits field value :=
  fun a ha same => ⟨n, Nat.lt_of_lt_of_le small (room a ha same), index⟩

theorem HasRoom.fits_digit {field : Field} {max : Nat} (room : HasRoom field (max + 1))
    {value : Text} (digit : (digitUpTo? max value).isSome = true) : Fits field value := by
  obtain ⟨n, read⟩ := Option.isSome_iff_exists.1 digit
  obtain ⟨index, bounded⟩ := childIndex?_of_digitUpTo? read
  exact room.fits (Nat.lt_succ_of_le bounded) index

theorem axesOf_subset (f : Family) : axesOf f ⊆ legacyAxes ++ vectorAxes := by
  cases f with
  | legacy => exact List.subset_append_left _ _
  | xop => exact List.subset_append_right _ _
  | vex => exact List.subset_append_right _ _
  | evex => exact List.subset_append_right _ _

/-! ### Tokens -/

/-- Whatever the token makes a reader store fits its field. -/
def Token.Fits : Token → Prop
  | .byte word => (hexByte? word).isSome = true
  | .value field v => Encoding.Fits field v
  | .width v => (digitUpTo? 1 v).isSome = true
  | .modrm m => ∀ p ∈ m.contributions, Encoding.Fits p.1 p.2
  | .family _ | .noPrefix | .property _ | .scaledIndex _ | .silent => True

theorem le_of_reg? {t : Text} {n : Nat} (h : Modrm.reg? t = some (some n)) : n ≤ 7 := by
  unfold Modrm.reg? at h
  split at h
  · cases h
  · obtain ⟨m, digit, same⟩ := Option.map_eq_some_iff.1 h
    cases same
    exact (childIndex?_of_digitUpTo? digit).2

theorem le_of_parse? {body : Text} {n : Nat} {mod : Option ModrmMod}
    (h : Modrm.parse? body = some (.parts (some n) mod)) : n ≤ 7 := by
  unfold Modrm.parse? at h
  split at h
  · cases h
  · split at h
    · obtain ⟨reg, read, same⟩ := Option.map_eq_some_iff.1 h
      cases same
      exact le_of_reg? read
    · obtain ⟨_, _, h⟩ := Option.bind_eq_some_iff.1 h
      obtain ⟨reg, read, same⟩ := Option.bind_eq_some_iff.1 h
      cases same
      exact le_of_reg? read

theorem fits_of_modrm {body : Text} {m : Modrm} (h : Modrm.parse? body = some m) :
    ∀ p ∈ m.contributions, Fits p.1 p.2 := by
  have numbers : ∀ n < 8, Fits .modrmReg (Text.decimal n) ∧ Fits .modrmRm (Text.decimal n) := by
    decide
  have mods : ∀ mod : ModrmMod, Fits .modrmMod mod.token := by
    intro mod
    cases mod <;> decide
  cases m with
  | byte value =>
    have low := (numbers (value % 8) (Nat.mod_lt _ (by decide))).2
    have high := (numbers (value / 8 % 8) (Nat.mod_lt _ (by decide))).1
    simpa [Modrm.contributions, low, high] using mods _
  | parts reg mod =>
    intro p member
    rcases List.mem_append.1 member with inReg | inMod
    · obtain ⟨n, rfl, rfl⟩ : ∃ n, reg = some n ∧ (.modrmReg, Text.decimal n) = p := by
        simpa using inReg
      exact (numbers n (Nat.lt_succ_of_le (le_of_parse? h))).1
    · obtain ⟨m, rfl, rfl⟩ : ∃ m, mod = some m ∧ (.modrmMod, m.token) = p := by
        simpa using inMod
      exact mods m

theorem everyWord_fits : EveryWord fun _ token => token.Fits where
  field := show ∀ row ∈ Token.fieldKeywords, ∀ k ∈ row.2, Fits row.1 k.toList by decide
  keyword := by simp [Token.keywords, Token.Fits]
  modrm _ _ read := fits_of_modrm read
  named := by simp [Token.namedValues, Token.Fits]
  width _ written := written
  digit row member _ written := by
    have known : ∀ row ∈ Token.digitKeys, HasRoom row.2.1 (row.2.2 + 1) := by decide
    exact (known row member).fits_digit written
  byte _ written := written

theorem fits_of_parse {word : Text} {token : Token} (h : Token.parse word = .ok token) :
    token.Fits :=
  everyWord_fits.of_parse h

/-! ### Readings -/

theorem Reading.read_eq_ok_iff {s t : Reading} {word : Text} :
    s.read word = .ok t ↔ ∃ token, Token.parse word = .ok token ∧ s.take? token = some t := by
  unfold read
  rw [Traversal.bind_eq_ok_iff]
  refine exists_congr fun token => and_congr_right fun _ => ?_
  cases s.take? token with
  | none => simp
  | some u => simp

theorem Reading.acceptsPrefix_mark (s : Reading) (word : Text) :
    (s.mark word).acceptsPrefix = s.acceptsPrefix := by
  unfold mark
  split <;> rfl

/-- What marking a word and taking in its token preserve holds of whatever has been read, also when
a word is wrong. -/
theorem Reading.readAll_preserves {P : Reading → Prop}
    (mark : ∀ {s} word, P s → P (s.mark word))
    (take : ∀ {s t word token}, Token.parse word = .ok token → s.take? token = some t → P s → P t)
    {s : Reading} (start : P s) (words : List Text) : P (s.readAll words).2 := by
  induction words generalizing s with
  | nil => exact start
  | cons word rest ih =>
    rw [readAll]
    split
    · next t made =>
      obtain ⟨token, parsed, took⟩ := read_eq_ok_iff.1 made
      exact ih (take parsed took (mark word start))
    · exact mark word start

def Reading.Fits (s : Reading) : Prop := ∀ p ∈ s.values, Encoding.Fits p.1 p.2

theorem Reading.Fits.push {s : Reading} (fits : s.Fits) {field : Field} {value : Text}
    (fresh : Encoding.Fits field value) : (s.push field value).Fits :=
  List.forall_mem_cons.2 ⟨fresh, fits⟩

theorem Reading.Fits.pushAll {s : Reading} (fits : s.Fits) {vs : List (Field × Text)}
    (fresh : ∀ p ∈ vs, Encoding.Fits p.1 p.2) : (s.pushAll vs).Fits := by
  intro p member
  rcases List.mem_append.1 member with new | old
  · exact fresh p (List.mem_reverse.1 new)
  · exact fits p old

theorem Reading.Fits.take {s t : Reading} (fits : s.Fits) {token : Token} (new : token.Fits)
    (h : s.take? token = some t) : t.Fits := by
  cases token with
  | family f =>
    cases h
    exact fits
  | noPrefix =>
    simp only [Reading.take?] at h
    split at h
    · cases h
      exact fits.push (by decide)
    · cases h
  | byte word =>
    have prefixes : ∀ w ∈ Reading.prefixBytes, Encoding.Fits .mandatoryPrefix ('P' :: w) := by
      decide
    obtain ⟨n, byte⟩ := Option.isSome_iff_exists.1 new
    obtain ⟨index, small⟩ := childIndex?_of_hexByte? byte
    simp only [Reading.take?] at h
    split at h
    · next accepted =>
      cases h
      have listed : word ∈ Reading.prefixBytes := by
        simpa using (Bool.and_eq_true_iff.1 accepted).1
      exact fits.push (prefixes word listed)
    · cases h
      split
      · exact fits.push ((show HasRoom .opcodeLast 256 by decide).fits small index)
      · exact fits.push ((show HasRoom .opcode 256 by decide).fits small index)
  | value field v =>
    cases h
    exact fits.push new
  | property p =>
    cases h
    exact fits
  | scaledIndex p =>
    cases h
    exact Reading.Fits.push fits (by decide)
  | width v =>
    cases h
    split
    · exact fits.push ((show HasRoom .widthOutside64Ignored 2 by decide).fits_digit new)
    · exact fits.push ((show HasRoom .width 2 by decide).fits_digit new)
  | modrm m =>
    cases h
    exact fits.pushAll new
  | silent =>
    cases h
    exact fits

theorem Reading.Fits.mark {s : Reading} (fits : s.Fits) (word : Text) : (s.mark word).Fits := by
  unfold Reading.mark
  split
  · exact fits
  · exact fits

theorem Reading.Fits.readAll {s : Reading} (fits : s.Fits) (words : List Text) :
    (s.readAll words).2.Fits :=
  readAll_preserves (fun word fits => Reading.Fits.mark fits word)
    (fun parsed took fits => Reading.Fits.take fits (fits_of_parse parsed) took) fits words

/-! ### Encodings -/

/-- Every value of the encoding fits its field. -/
def AllFit (e : Encoding) : Prop := ∀ f, ∀ v ∈ e.values f, Fits f v

theorem Reading.Fits.encoding {s : Reading} (fits : s.Fits) : AllFit s.encoding := by
  intro f v member
  obtain ⟨p, inside, rfl⟩ := List.mem_map.1 member
  obtain ⟨read, same⟩ := List.mem_filter.1 inside
  obtain rfl : p.1 = f := of_decide_eq_true same
  exact fits p (List.mem_reverse.1 read)

theorem allFit_of_parsePlain {raw : Text} {attributes rest : Attributes} {e : Encoding}
    (h : (parsePlain raw).outcome attributes = (.ok e, rest)) : AllFit e := by
  have blank : (Reading.start attributes).Fits := by
    intro p member
    cases member
  have read := (blank.readAll raw.words).encoding
  obtain ⟨result, _⟩ := Prod.mk.inj h
  obtain ⟨_, _, rfl⟩ := Traversal.map_eq_ok_iff.1 result
  exact read

/-! ### Merging -/

theorem merge_of_none {e : Encoding} (h : e.lpdf? = none) : e.merge = e := by
  unfold merge
  rw [h]

theorem lpdf?_congr {d e : Encoding}
    (same : ∀ f ∈ mergedFields, d.firstNumber? f = e.firstNumber? f) : d.lpdf? = e.lpdf? := by
  rw [lpdf?, lpdf?, same .length (by decide), same .pp (by decide),
    same .newDataDestination (by decide), same .noFlags (by decide)]

theorem family_merge (e : Encoding) : e.merge.family = e.family := by
  unfold merge
  split <;> rfl

theorem values_merge {e : Encoding} {n : Nat} (h : e.lpdf? = some n) (f : Field) :
    e.merge.values f =
      if f = .lpdf then e.values .lpdf ++ [Text.hex n]
      else if f ∈ mergedFields then [] else e.values f := by
  have apart : Field.lpdf ∉ mergedFields := by decide
  unfold merge
  rw [h]
  simp only [push, without, if_neg apart]

/-- Merging packs four numbers, each within the places it gets. -/
theorem numbers_of_lpdf? {e : Encoding} (fits : AllFit e) {n : Nat} (h : e.lpdf? = some n) :
    ∃ l < 4, ∃ p < 4, ∃ d < 2, ∃ f < 2, e.firstNumber? .length = some l ∧
      e.firstNumber? .pp = some p ∧ e.firstNumber? .newDataDestination = some d ∧
      e.firstNumber? .noFlags = some f ∧ n = 16 * l + 4 * p + 2 * d + f := by
  have bounded : ∀ {f : Field} {m : Nat}, e.firstNumber? f = some m →
      ∀ a ∈ legacyAxes ++ vectorAxes, a.field = f → m < a.size := by
    intro f m first a ha same
    obtain ⟨v, head, number⟩ := Option.bind_eq_some_iff.1 first
    obtain ⟨i, small, index⟩ := fits f v (List.mem_of_mem_head? head) a ha same
    obtain rfl := Option.some.inj ((childIndex?_of_numberBelow? number).symm.trans index)
    exact small
  simp only [lpdf?, Option.bind_eq_bind, Option.bind_eq_some_iff, Option.pure_def,
    Option.some.injEq] at h
  obtain ⟨l, hl, p, hp, d, hd, f, hf, rfl⟩ := h
  exact ⟨l, bounded hl ⟨.length, 4, true⟩ (by decide) rfl,
    p, bounded hp ⟨.pp, 4, true⟩ (by decide) rfl,
    d, bounded hd ⟨.newDataDestination, 2, true⟩ (by decide) rfl,
    f, bounded hf ⟨.noFlags, 2, true⟩ (by decide) rfl, hl, hp, hd, hf, rfl⟩

theorem lpdf?_lt {e : Encoding} (fits : AllFit e) {n : Nat} (h : e.lpdf? = some n) : n < 64 := by
  obtain ⟨l, _, p, _, d, _, f, _, _, _, _, _, rfl⟩ := numbers_of_lpdf? fits h
  omega

theorem AllFit.without {e : Encoding} (fits : AllFit e) (fs : List Field) :
    AllFit (e.without fs) := by
  intro f v member
  simp only [Encoding.without] at member
  split at member
  · cases member
  · exact fits f v member

theorem AllFit.push {e : Encoding} (fits : AllFit e) {field : Field} {value : Text}
    (fresh : Fits field value) : AllFit (e.push field value) := by
  intro f v member
  simp only [Encoding.push] at member
  split at member
  · next same =>
    subst same
    rcases List.mem_append.1 member with old | new
    · exact fits f v old
    · rw [List.mem_singleton.1 new]
      exact fresh
  · exact fits f v member

theorem AllFit.merge {e : Encoding} (fits : AllFit e) : AllFit e.merge := by
  unfold Encoding.merge
  split
  · next n merged =>
    have numbers : ∀ n < 64, Fits .lpdf (Text.hex n) := by decide
    exact (fits.without _).push (numbers n (lpdf?_lt fits merged))
  · exact fits

theorem allFit_of_parse {raw : Text} {attributes rest : Attributes} {e : Encoding}
    (h : (parse raw).outcome? attributes = .ok (e, rest)) : AllFit e := by
  rw [Update.outcome?_eq_ok_iff, parse, Update.outcome_map] at h
  obtain ⟨result, state⟩ := Prod.mk.inj h
  obtain ⟨plain, read, rfl⟩ := Traversal.map_eq_ok_iff.1 result
  exact (allFit_of_parsePlain (Prod.ext read state)).merge

/-- Every value that can be read has a child on the axes of its family. -/
theorem accepts_of_parse {raw : Text} {attributes rest : Attributes} {e : Encoding}
    (h : (parse raw).outcome? attributes = .ok (e, rest)) {a : Axis} (ha : a ∈ axesOf e.family)
    {v : Text} (hv : v ∈ e.values a.field) : a.Accepts v :=
  allFit_of_parse h a.field v hv a (axesOf_subset e.family ha) rfl

end OpcodeAtlas.Encoding
