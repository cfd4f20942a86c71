import OpcodeAtlas.CpuidFeature
import OpcodeAtlas.Proofs.Text.Output
import OpcodeAtlas.Proofs.Traversal
import OpcodeAtlas.Proofs.Vocabulary

/-!
CPUID features read what they write (`parse_render_of_parse`). What a line gives is well-formed, and
that is all that writing a feature and reading it back relies on.
-/

namespace OpcodeAtlas

instance : Vocabulary.Lawful CpuidRegister where
  mem_all register := by cases register <;> decide
  find?_listed := by decide

namespace CpuidFeature

/-- What can be written on a line: a name of one word without a colon, numbers of 32 bits, and a
sub-leaf that is not the one written for none. -/
structure WellFormed (f : CpuidFeature) : Prop where
  named : f.name ≠ []
  solid : Text.Solid f.name
  unseparated : ':' ∉ f.name
  leaf : f.leaf < Nat.pow 2 32
  subleaf : ∀ n, f.subleaf = some n → n < noSubleaf
  bit : f.bit < 32

/-! ### Fields -/

theorem hexField?_eq_some_iff {t : Text} {n : Nat} :
    hexField? t = some n ↔
      ∃ digits : Text, "0x".toList ++ digits = t.trim ∧ Text.number? 16 digits = some n ∧
        n < Nat.pow 2 32 := by
  unfold hexField?
  rw [Option.bind_eq_some_iff]
  simp only [Text.numberBelow?_eq_some_iff, List.isPrefixOf?_eq_some_iff_append_eq]

def hexText (n : Nat) : Text := "0x".toList ++ Text.hex n

theorem solid_hexText (n : Nat) : Text.Solid (hexText n) := by
  intro c member
  rcases List.mem_append.1 member with marker | digit
  · have visible : ∀ c ∈ "0x".toList, Text.isBlank c = false := by decide
    exact visible c marker
  · exact Text.solid_of_digits? (Text.digits?_hex n) c digit

theorem hexField?_hexText {n : Nat} (small : n < Nat.pow 2 32) :
    hexField? (hexText n) = some n := by
  refine hexField?_eq_some_iff.2 ⟨Text.hex n, ?_, ?_, small⟩
  · exact (Text.trim_of_solid (solid_hexText n)).symm
  · exact Text.number?_of_digits? (Text.digits?_hex n)

/-! ### Lines -/

theorem elim_parse_eq_ok_iff {field : Option Text} {e : SpecError} {register : CpuidRegister} :
    field.elim (.error e) Vocabulary.parse = .ok register ↔
      field = some (Vocabulary.token register) := by
  cases field with
  | none => simp
  | some t =>
    rw [Option.elim_some, Vocabulary.parse_eq_ok_iff, Vocabulary.find?_eq_some_iff,
      Option.some_inj, eq_comm]

theorem eq_of_four {fields : List Text} {a b c d : Text} (first : fields[0]? = some a)
    (second : fields[1]? = some b) (third : fields[2]? = some c) (fourth : fields[3]? = some d)
    (four : fields.length = 4) : fields = [a, b, c, d] := by
  obtain ⟨w, x, y, z, rfl⟩ := List.length_eq_four.1 four
  simp_all

/-- A line is a name, a colon and four fields. -/
theorem parse_eq_ok_iff {line : Text} {f : CpuidFeature} :
    parse line = .ok f ↔
      ∃ name value leafText subleafText bitText leaf subleaf register bit,
        line.cut ':' = some (name, value) ∧
        value.trimmedPieces ',' = [leafText, subleafText, Vocabulary.token register, bitText] ∧
        name.trim ≠ [] ∧ Text.Solid name.trim ∧ hexField? leafText = some leaf ∧
        hexField? subleafText = some subleaf ∧ Text.numberBelow? 10 32 bitText = some bit ∧
        f = ⟨name.trim, leaf, if subleaf = noSubleaf then none else some subleaf, register, bit⟩ := by
  have named : ∀ name : Text, (name.isEmpty || name.any Text.isBlank) = false ↔
      name ≠ [] ∧ Text.Solid name := by
    intro name
    simp [Text.Solid]
  constructor
  · intro h
    unfold parse at h
    split at h
    · cases h
    · next name value cut =>
      dsimp only at h
      split at h
      · cases h
      · next word =>
        obtain ⟨leaf, first, h⟩ := Traversal.bind_eq_ok_iff.1 h
        obtain ⟨subleaf, second, h⟩ := Traversal.bind_eq_ok_iff.1 h
        obtain ⟨register, third, h⟩ := Traversal.bind_eq_ok_iff.1 h
        obtain ⟨bit, fourth, h⟩ := Traversal.bind_eq_ok_iff.1 h
        obtain ⟨leafText, here₀, first⟩ := Option.bind_eq_some_iff.1
          (Traversal.elim_eq_ok_iff.1 first)
        obtain ⟨subleafText, here₁, second⟩ := Option.bind_eq_some_iff.1
          (Traversal.elim_eq_ok_iff.1 second)
        have here₂ := elim_parse_eq_ok_iff.1 third
        obtain ⟨bitText, here₃, fourth⟩ := Option.bind_eq_some_iff.1
          (Traversal.elim_eq_ok_iff.1 fourth)
        split at h
        · next four =>
          cases h
          obtain ⟨nonempty, solid⟩ := (named _).1 (Bool.eq_false_iff.2 word)
          refine ⟨name, value, leafText, subleafText, bitText, leaf, subleaf, register, bit, cut,
            ?_, nonempty, solid, first, second, fourth, rfl⟩
          exact eq_of_four here₀ here₁ here₂ here₃ four
        · cases h
  · rintro ⟨name, value, leafText, subleafText, bitText, leaf, subleaf, register, bit, cut, fields,
      nonempty, solid, first, second, fourth, rfl⟩
    have word := (named name.trim).2 ⟨nonempty, solid⟩
    simp [parse, cut, word, fields, first, second, fourth, Vocabulary.parse, Vocabulary.find?_token]
    rfl

theorem wellFormed_of_parse {line : Text} {f : CpuidFeature} (h : parse line = .ok f) :
    f.WellFormed := by
  obtain ⟨name, value, leafText, subleafText, bitText, leaf, subleaf, register, bit, cut, _,
    nonempty, solid, first, second, fourth, rfl⟩ := parse_eq_ok_iff.1 h
  obtain ⟨_, _, _, leafSmall⟩ := hexField?_eq_some_iff.1 first
  obtain ⟨_, _, _, subleafSmall⟩ := hexField?_eq_some_iff.1 second
  refine ⟨nonempty, solid, fun colon => ?_, leafSmall, fun n present => ?_,
    (Text.numberBelow?_eq_some_iff.1 fourth).2⟩
  · exact Text.notMem_of_cut cut (Text.mem_of_mem_trim colon)
  · obtain ⟨other, same⟩ := Option.ite_none_left_eq_some.1 present
    have below : n < Nat.pow 2 32 := Option.some.inj same ▸ subleafSmall
    change n < Nat.pow 2 32 - 1
    change ¬ subleaf = Nat.pow 2 32 - 1 at other
    cases same
    omega

/-! ### Writing -/

/-- The texts between the commas. -/
def fieldTexts (f : CpuidFeature) : List Text :=
  [hexText f.leaf, hexText (f.subleaf.getD noSubleaf), Vocabulary.token f.register,
    Text.decimal f.bit]

theorem render_eq (f : CpuidFeature) :
    f.render = f.name ++ ':' :: [','].intercalate (f.fieldTexts.map (' ' :: ·)) := by
  simp [render, fieldTexts, hexText, List.intercalate]

theorem solid_fieldTexts (f : CpuidFeature) : ∀ t ∈ f.fieldTexts, Text.Solid t ∧ ',' ∉ t := by
  have comma : ∀ base, Text.digit? base ',' = none := by
    intro base
    simp [Text.digit?]
  have hexadecimal : ∀ n, Text.Solid (hexText n) ∧ ',' ∉ hexText n := by
    intro n
    have digits : ',' ∉ Text.hex n := Text.notMem_of_digits? (comma 16) (Text.digits?_hex n)
    exact ⟨solid_hexText n, by simp [hexText, digits]⟩
  have register : ∀ r : CpuidRegister,
      Text.Solid (Vocabulary.token r) ∧ ',' ∉ Vocabulary.token r :=
    Vocabulary.forall_iff.2 (by unfold Text.Solid; decide)
  have bit := Text.digits?_decimal f.bit
  simp only [fieldTexts, List.forall_mem_cons]
  refine ⟨hexadecimal _, hexadecimal _, register _, ?_, by simp⟩
  exact ⟨Text.solid_of_digits? bit, Text.notMem_of_digits? (comma 10) bit⟩

theorem trimmedPieces_fieldTexts (f : CpuidFeature) :
    Text.trimmedPieces ',' ([','].intercalate (f.fieldTexts.map (' ' :: ·))) = f.fieldTexts := by
  have whole : ∀ t ∈ f.fieldTexts.map (' ' :: ·), ',' ∉ t := by
    intro t member
    obtain ⟨field, inside, rfl⟩ := List.mem_map.1 member
    exact List.not_mem_cons_of_ne_of_not_mem (by decide) (solid_fieldTexts f field inside).2
  have kept : f.fieldTexts.map (Text.trim ∘ (' ' :: ·)) = f.fieldTexts.map fun t => t := by
    refine List.map_congr_left fun field inside => ?_
    rw [Function.comp_apply, Text.trim_cons (by decide)]
    exact Text.trim_of_solid (solid_fieldTexts f field inside).1
  rw [Text.trimmedPieces_intercalate (by simp [fieldTexts]) whole, List.map_map, kept,
    List.map_id']

theorem parse_render {f : CpuidFeature} (wellFormed : f.WellFormed) : parse f.render = .ok f := by
  have cut : f.render.cut ':' =
      some (f.name, [','].intercalate (f.fieldTexts.map (' ' :: ·))) := by
    rw [render_eq]
    exact Text.cut_append_cons wellFormed.unseparated _
  have name : f.name.trim = f.name := Text.trim_of_solid wellFormed.solid
  have subleaf : f.subleaf.getD noSubleaf < Nat.pow 2 32 := by
    cases present : f.subleaf with
    | none => decide
    | some n => exact Nat.lt_trans (wellFormed.subleaf n present) (by decide)
  have bit : Text.numberBelow? 10 32 (Text.decimal f.bit) = some f.bit :=
    Text.numberBelow?_eq_some_iff.2
      ⟨Text.number?_of_digits? (Text.digits?_decimal f.bit), wellFormed.bit⟩
  -- The sub-leaf written for none is read as none, and no other one is.
  have absent : (if f.subleaf.getD noSubleaf = noSubleaf then none
      else some (f.subleaf.getD noSubleaf)) = f.subleaf := by
    cases present : f.subleaf with
    | none => rfl
    | some n => exact if_neg (Nat.ne_of_lt (wellFormed.subleaf n present))
  refine parse_eq_ok_iff.2 ⟨_, _, _, _, _, f.leaf, _, f.register, f.bit, cut,
    trimmedPieces_fieldTexts f, ?_, ?_, hexField?_hexText wellFormed.leaf,
    hexField?_hexText subleaf, bit, ?_⟩
  · rw [name]
    exact wellFormed.named
  · rw [name]
    exact wellFormed.solid
  · rw [name, absent]

/-- Whatever line a feature comes from, the line written for it gives the same feature. -/
theorem parse_render_of_parse {line : Text} {f : CpuidFeature} (h : parse line = .ok f) :
    f.WellFormed ∧ parse f.render = .ok f :=
  ⟨wellFormed_of_parse h, parse_render (wellFormed_of_parse h)⟩

/-- A comma in the name, a sign, zeros in front, a sub-leaf in upper case that stands for none. -/
theorem parse_render_of_parse_respelled :
    parse "SSE,2 : 0x+00000A01, 0xFFFFFFFF,EDX , 026" = .ok ⟨"SSE,2", 0xa01, none, .edx, 26⟩ ∧
      parse "SSE,2: 0xa01, 0xffffffff, EDX, 26" = .ok ⟨"SSE,2", 0xa01, none, .edx, 26⟩ := by
  have read : parse "SSE,2 : 0x+00000A01, 0xFFFFFFFF,EDX , 026" =
      .ok ⟨"SSE,2", 0xa01, none, .edx, 26⟩ := by
    rfl
  have written : render ⟨"SSE,2", 0xa01, none, .edx, 26⟩ =
      "SSE,2: 0xa01, 0xffffffff, EDX, 26" := by
    decide
  obtain ⟨_, again⟩ := parse_render_of_parse read
  rw [written] at again
  exact ⟨read, again⟩

end CpuidFeature

end OpcodeAtlas
