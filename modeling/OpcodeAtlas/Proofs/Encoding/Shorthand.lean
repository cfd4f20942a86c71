import OpcodeAtlas.Proofs.Encoding.Position

/-!
The two ways to write a ModR/M byte. `parse_literal`: a whole byte after a slash and the parts of
the byte in two words are read alike, whatever stands around them.
-/

namespace OpcodeAtlas.Encoding

open Traversal (Agree)

/-! ### The two forms -/

/-- A byte after a slash, by its two digits. -/
def literal (a b : Char) : Text := ['/', '0', 'x', a, b]

/-- What the two top bits of a byte say about its operand. -/
def modOf (n : Nat) : ModrmMod := if n / 64 = 3 then .register else .memory

def partsWord (n : Nat) : Text := '/' :: Text.decimal (n / 8 % 8) ++ ':' :: (modOf n).token

def rmWord (n : Nat) : Text := "rm:" ++ Text.decimal (n % 8)

/-- The parts of a byte in two words. -/
def longForm (n : Nat) : Text := partsWord n ++ ' ' :: rmWord n

theorem parse_partsWord (n : Nat) :
    Token.parse (partsWord n) = .ok (.modrm (.parts (some (n / 8 % 8)) (some (modOf n)))) := by
  have all : ∀ d < 8, ∀ mod : ModrmMod,
      Token.parse ('/' :: Text.decimal d ++ ':' :: mod.token) =
        .ok (.modrm (.parts (some d) (some mod))) := by
    intro d small mod
    revert d
    cases mod <;> decide
  exact all _ (Nat.mod_lt _ (by decide)) _

theorem parse_rmWord (n : Nat) :
    Token.parse (rmWord n) = .ok (.value .modrmRm (Text.decimal (n % 8))) := by
  have all : ∀ e < 8,
      Token.parse ("rm:" ++ Text.decimal e) = .ok (.value .modrmRm (Text.decimal e)) := by
    decide
  exact all _ (Nat.mod_lt _ (by decide))

theorem words_literal {a b : Char} (first : a ∈ hexDigits) (second : b ∈ hexDigits) :
    (literal a b).words = [literal a b] := by
  have solid : Text.Solid (literal a b) := by
    have digits : ∀ c ∈ hexDigits, Text.isBlank c = false := by decide
    simp only [Text.Solid, literal, List.forall_mem_cons]
    exact ⟨by decide, by decide, by decide, digits a first, digits b second, by simp⟩
  rw [Text.words_solid solid]
  rfl

theorem words_longForm (n : Nat) : (longForm n).words = [partsWord n, rmWord n] := by
  have all : ∀ d < 8, ∀ e < 8, ∀ mod : ModrmMod,
      Text.words (('/' :: Text.decimal d ++ ':' :: mod.token) ++ ' ' :: ("rm:" ++ Text.decimal e)) =
        ['/' :: Text.decimal d ++ ':' :: mod.token, "rm:" ++ Text.decimal e] := by
    intro d _ e _ mod
    revert d e
    cases mod <;> decide
  exact all _ (Nat.mod_lt _ (by decide)) _ (Nat.mod_lt _ (by decide)) _

/-! ### Readings that differ in order only -/

namespace Reading

/-- Readings of the same values for every field. -/
structure Same (s t : Reading) : Prop where
  encoding : s.encoding = t.encoding
  attributes : s.attributes = t.attributes
  sawModrm : s.sawModrm = t.sawModrm

theorem Same.refl (s : Reading) : Same s s := ⟨rfl, rfl, rfl⟩

theorem Same.place {s t : Reading} (same : Same s t) : s.place = t.place := by
  rw [Reading.place, Reading.place, acceptsPrefix_eq, acceptsPrefix_eq, same.encoding,
    same.attributes, same.sawModrm]

theorem Same.mark {s t : Reading} (same : Same s t) (word : Text) :
    Same (s.mark word) (t.mark word) := by
  unfold Reading.mark
  split
  · exact ⟨same.encoding, congrArg (·.insert .modrm) same.attributes, rfl⟩
  · exact same

/-- What a token adds to every field does not depend on the order of the values before. -/
theorem encoding_extend (s : Reading) (token : Token) :
    (s.extend token).encoding = ⟨token.family?.getD s.encoding.family, fun f =>
      s.encoding.values f ++
        (ofValues s.encoding.family (token.contributions s.place)).values f⟩ := by
  simp [extend, encoding, ofValues]

theorem Same.extend {s t : Reading} (same : Same s t) (token : Token) :
    Same (s.extend token) (t.extend token) := by
  refine ⟨?_, ?_, same.sawModrm⟩
  · rw [encoding_extend, encoding_extend, same.encoding, same.place]
  · exact congrArg (fun r => token.property?.elim r r.insert) same.attributes

theorem Same.read {s t : Reading} (same : Same s t) (word : Text) :
    Agree Same (· = ·) (s.read word) (t.read word) := by
  have accepts : s.acceptsPrefix = t.acceptsPrefix := congrArg Place.prefixOpen same.place
  refine (Agree.same (fun _ => rfl) (Token.parse word)).bind ?_
  rintro token _ rfl
  rw [take?_eq, take?_eq, accepts]
  split
  · exact .error rfl
  · exact .ok (same.extend token)

theorem Same.readAll {s t : Reading} (same : Same s t) (words : List Text) :
    (s.readAll words).1 = (t.readAll words).1 ∧ Same (s.readAll words).2 (t.readAll words).2 :=
  readAll_lockstep (fun word same => Same.mark same word) (fun word same => Same.read same word)
    same words

theorem readAll_of_take? {s t : Reading} {word : Text} {token : Token}
    (parsed : Token.parse word = .ok token) (took : (s.mark word).take? token = some t)
    (rest : List Text) : s.readAll (word :: rest) = t.readAll rest := by
  rw [readAll, read_eq_ok_iff.2 ⟨token, parsed, took⟩]

/-! ### One form for the other -/

theorem values_byte (family : Family) (n : Nat) (f : Field) :
    (ofValues family (Modrm.byte n).contributions).values f =
      (ofValues family (Modrm.parts (some (n / 8 % 8)) (some (modOf n))).contributions).values f ++
        (ofValues family [(.modrmRm, Text.decimal (n % 8))]).values f := by
  cases f <;> rfl

/-- The byte and its parts lead to the same reading. -/
theorem same_of_forms (s : Reading) (a b : Char) (n : Nat) :
    Same ((s.mark (literal a b)).extend (.modrm (.byte n)))
      ((((s.mark (partsWord n)).extend
          (.modrm (.parts (some (n / 8 % 8)) (some (modOf n))))).mark (rmWord n)).extend
        (.value .modrmRm (Text.decimal (n % 8)))) := by
  refine ⟨?_, rfl, rfl⟩
  have unmarked : ∀ t : Reading, (t.mark (rmWord n)).encoding = t.encoding := fun _ => rfl
  rw [encoding_extend, encoding_extend, unmarked, encoding_extend]
  refine congrArg (Encoding.mk s.family) (funext fun f => ?_)
  have values := congrArg (s.encoding.values f ++ ·) (values_byte s.family n f)
  rw [← List.append_assoc] at values
  exact values

theorem readAll_literal {a b : Char} {n : Nat} (byte : hexByte? ['0', 'x', a, b] = some n)
    (s : Reading) (rest : List Text) :
    (s.readAll (literal a b :: rest)).1 = (s.readAll (partsWord n :: rmWord n :: rest)).1 ∧
      Same (s.readAll (literal a b :: rest)).2
        (s.readAll (partsWord n :: rmWord n :: rest)).2 := by
  have parsed : Token.parse (literal a b) = .ok (.modrm (.byte n)) := parse_of_slashed byte
  rw [readAll_of_take? parsed rfl, readAll_of_take? (parse_partsWord n) rfl,
    readAll_of_take? (parse_rmWord n) rfl]
  exact (same_of_forms s a b n).readAll rest

theorem readAll_between {a b : Char} {n : Nat} (byte : hexByte? ['0', 'x', a, b] = some n)
    (s : Reading) (before after : List Text) :
    (s.readAll (before ++ literal a b :: after)).1 =
        (s.readAll (before ++ partsWord n :: rmWord n :: after)).1 ∧
      Same (s.readAll (before ++ literal a b :: after)).2
        (s.readAll (before ++ partsWord n :: rmWord n :: after)).2 := by
  rw [readAll_append, readAll_append]
  split
  · next t _ => exact readAll_literal byte t after
  · next t _ => exact ⟨rfl, Same.refl t⟩

end Reading

/-- A whole ModR/M byte is read as its parts are, whatever stands around it. -/
theorem parse_literal {a b : Char} {h l : Nat} (high : Text.digit? 16 a = some h)
    (low : Text.digit? 16 b = some l) (before after : Text) (ends : Text.EndsBlank before)
    (starts : Text.StartsBlank after) (attributes : Attributes) :
    (parse (before ++ literal a b ++ after)).outcome attributes =
      (parse (before ++ longForm (16 * h + l) ++ after)).outcome attributes := by
  have byte := hexByte?_of_digits high low
  have short : Text.words (before ++ literal a b ++ after) =
      before.words ++ literal a b :: after.words := by
    rw [Text.words_append_of_startsBlank starts, Text.words_append_of_endsBlank ends,
      words_literal (mem_hexDigits_iff.2 ⟨h, high⟩) (mem_hexDigits_iff.2 ⟨l, low⟩),
      List.append_assoc, List.singleton_append]
  have long : Text.words (before ++ longForm (16 * h + l) ++ after) =
      before.words ++ partsWord (16 * h + l) :: rmWord (16 * h + l) :: after.words := by
    rw [Text.words_append_of_startsBlank starts, Text.words_append_of_endsBlank ends,
      words_longForm, List.append_assoc]
    rfl
  obtain ⟨results, same⟩ :=
    Reading.readAll_between byte (.start attributes) before.words after.words
  rw [outcome_parse, outcome_parse, short, long, results, same.encoding, same.attributes]

/-- Behind opcode bytes and in front of another part and a byte behind the operands. -/
theorem parse_literal_register :
    Text.digit? 16 'c' = some 12 ∧ Text.digit? 16 'A' = some 10 ∧
      (parse ("0x0F 0x0F ".toList ++ literal 'c' 'A' ++ " rm:2 0x9E".toList)).outcome ∅ =
        (parse "0x0F 0x0F /1:reg rm:2 rm:2 0x9E").outcome ∅ := by
  have high : Text.digit? 16 'c' = some 12 := by decide
  have low : Text.digit? 16 'A' = some 10 := by decide
  have long : "0x0F 0x0F ".toList ++ longForm (16 * 12 + 10) ++ " rm:2 0x9E".toList =
      "0x0F 0x0F /1:reg rm:2 rm:2 0x9E" := by
    decide
  refine ⟨high, low, ?_⟩
  rw [← long]
  exact parse_literal high low "0x0F 0x0F " " rm:2 0x9E" (by decide) (by decide) ∅

end OpcodeAtlas.Encoding
