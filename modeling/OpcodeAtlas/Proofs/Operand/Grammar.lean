import Mathlib.Data.List.Infix
import OpcodeAtlas.Operand.Parse
import OpcodeAtlas.Proofs.Vocabulary

/-!
The grammar of operand tokens. `parse_iff_reads`: a token is accepted exactly if, without decorators
and block suffix, it is a fixed name or the longest type it starts with and what may follow that
type. What follows a range of registers, a mask type or a default flags value may be anything and is
not read (`not_every_character_read`); all other tokens are read to their end.
-/

namespace OpcodeAtlas

/-! ### Fixed names -/

namespace FixedOperand

set_option maxRecDepth 8000 in
theorem find?_listed : ∀ entry ∈ names, find? entry.1.toList = some entry.2 := by decide

theorem find?_eq_some_iff {t : Text} {operand : FixedOperand} {size : OperandSize} :
    find? t = some (operand, size) ↔ ∃ name, (name, operand, size) ∈ names ∧ name.toList = t := by
  constructor
  · intro h
    obtain ⟨⟨name, _⟩, found, rfl⟩ := Option.map_eq_some_iff.1 h
    refine ⟨name, List.mem_of_find?_eq_some found, ?_⟩
    simpa using List.find?_some found
  · rintro ⟨name, member, rfl⟩
    exact find?_listed _ member

theorem find?_eq_none_iff {t : Text} :
    find? t = none ↔ ∀ entry ∈ names, entry.1.toList ≠ t := by
  unfold find?
  simp

end FixedOperand

namespace Operand

/-! ### Block suffixes -/

def rangeText (first last : Char) : Text := ['X', 'M', 'M', first, '-', last]

def IsRange (first last : Char) : Prop :=
  isDecimalDigit first = true ∧ isDecimalDigit last = true ∧ first ≤ last

/-- The token ends with a number of further registers. -/
def Counted (t : Text) : Prop := "+1".toList <:+ t ∨ "+3".toList <:+ t

/-- A token, what its block suffix leaves of it, the number of registers the suffix stands for and
what stands behind the suffix. -/
inductive Suffixed : Text → Text → Nat → Text → Prop where
  | four (t : Text) : Suffixed (t ++ "+3") t 4 []
  | two (t : Text) : Suffixed (t ++ "+1") t 2 []
  | range {first last : Char} {behind : Text} (ordered : IsRange first last)
      (uncounted : ¬ Counted (rangeText first last ++ behind)) :
      Suffixed (rangeText first last ++ behind) ['X', 'M', 'M', first]
        (last.toNat - first.toNat + 1) behind
  | single {t : Text} (uncounted : ¬ Counted t)
      (apart : ∀ first last, IsRange first last → ¬ rangeText first last <+: t) :
      Suffixed t t 0 []

theorem isSuffixOf?_eq_none_iff {suffix t : Text} :
    suffix.isSuffixOf? t = none ↔ ¬ suffix <:+ t := by
  rw [Option.eq_none_iff_forall_ne_some]
  simp only [ne_eq, List.isSuffixOf?_eq_some_iff_append_eq]
  exact not_exists.symm

theorem uncounted_iff {t : Text} :
    ¬ Counted t ↔ "+1".toList.isSuffixOf? t = none ∧ "+3".toList.isSuffixOf? t = none := by
  rw [Counted, not_or, isSuffixOf?_eq_none_iff, isSuffixOf?_eq_none_iff]

theorem not_four_of_two (t : Text) : "+3".toList.isSuffixOf? (t ++ "+1".toList) = none := by
  rw [isSuffixOf?_eq_none_iff]
  rintro ⟨front, same⟩
  have tails := (List.append_inj' same (by decide)).2
  revert tails
  decide

theorem stripBlock_of_suffixed {t token behind : Text} {block : Nat}
    (h : Suffixed t token block behind) : stripBlock t = (token, block) := by
  unfold stripBlock
  cases h with
  | four =>
    have found := List.isSuffixOf?_eq_some_iff_append_eq.2 (show token ++ "+3".toList = _ from rfl)
    rw [found]
  | two =>
    have found := List.isSuffixOf?_eq_some_iff_append_eq.2 (show token ++ "+1".toList = _ from rfl)
    rw [not_four_of_two, found]
  | range ordered uncounted =>
    obtain ⟨no1, no3⟩ := uncounted_iff.1 uncounted
    rw [no1, no3]
    apply if_pos
    simpa [IsRange, and_assoc] using ordered
  | single uncounted apart =>
    obtain ⟨no1, no3⟩ := uncounted_iff.1 uncounted
    rw [no1, no3]
    dsimp only
    split
    · next first last behind =>
      apply if_neg
      intro ordered
      apply apart first last
      · simpa [IsRange, and_assoc] using ordered
      · exact List.prefix_append (rangeText first last) behind
    · rfl

theorem exists_suffixed (t : Text) :
    ∃ behind, Suffixed t (stripBlock t).1 (stripBlock t).2 behind := by
  unfold stripBlock
  split
  · next token found =>
    obtain rfl := List.isSuffixOf?_eq_some_iff_append_eq.1 found
    exact ⟨[], .four token⟩
  · next token _ found =>
    obtain rfl := List.isSuffixOf?_eq_some_iff_append_eq.1 found
    exact ⟨[], .two token⟩
  · next no3 no1 =>
    have uncounted := uncounted_iff.2 ⟨no1, no3⟩
    split
    · next first last behind =>
      split
      · next ordered =>
        refine ⟨behind, .range ?_ uncounted⟩
        simpa [IsRange, and_assoc] using ordered
      · next unordered =>
        refine ⟨[], .single uncounted ?_⟩
        rintro a b ordered ⟨rest, same⟩
        cases same
        apply unordered
        simpa [IsRange, and_assoc] using ordered
    · next apart =>
      refine ⟨[], .single uncounted ?_⟩
      rintro first last _ ⟨rest, same⟩
      exact apart first last rest same.symm

/-! ### Types -/

def LongestType (type : OperandType) (t : Text) : Prop :=
  ∀ other : OperandType, Vocabulary.token other <+: t →
    (Vocabulary.token other).length ≤ (Vocabulary.token type).length

/-- The order of the types makes the first match the longest one. -/
theorem pairwise_not_prefix :
    (Vocabulary.all : List OperandType).Pairwise fun earlier later =>
      ¬ Vocabulary.token earlier <+: Vocabulary.token later := by
  decide

theorem typeAndRest?_eq_some_iff {t rest : Text} {type : OperandType} :
    typeAndRest? t = some (type, rest) ↔
      t = Vocabulary.token type ++ rest ∧ LongestType type t := by
  have unmatched : ∀ {other : OperandType},
      (((Vocabulary.token other).isPrefixOf? t).map fun tail => (other, tail)) = none ↔
        ¬ Vocabulary.token other <+: t := by
    intro other
    rw [Option.map_eq_none_iff, Option.eq_none_iff_forall_ne_some]
    simp only [ne_eq, List.isPrefixOf?_eq_some_iff_append_eq]
    exact not_exists.symm
  constructor
  · intro h
    obtain ⟨before, found, after, order, here, absent⟩ := List.findSome?_eq_some_iff.1 h
    obtain ⟨tail, cut, same⟩ := Option.map_eq_some_iff.1 here
    cases same
    obtain rfl := List.isPrefixOf?_eq_some_iff_append_eq.1 cut
    refine ⟨rfl, fun other starts => ?_⟩
    have member := Vocabulary.mem_all other
    have ordered := pairwise_not_prefix
    rw [order] at member ordered
    rcases List.mem_append.1 member with earlier | here | ⟨_, later⟩
    · exact absurd starts (unmatched.1 (absent other earlier))
    · exact Nat.le_refl _
    · have unstarted := (List.pairwise_cons.1 (List.pairwise_append.1 ordered).2.1).1 other later
      rcases List.prefix_or_prefix_of_prefix starts (List.prefix_append _ rest) with short | long
      · exact short.length_le
      · exact absurd long unstarted
  · rintro ⟨rfl, longest⟩
    obtain ⟨before, after, order⟩ := List.append_of_mem (Vocabulary.mem_all type)
    have ordered := pairwise_not_prefix
    rw [order] at ordered
    apply List.findSome?_eq_some_iff.2
    refine ⟨before, type, after, order, ?_, fun other earlier => unmatched.2 fun starts => ?_⟩
    · rw [List.isPrefixOf?_eq_some_iff_append_eq.2 rfl]
      rfl
    · have within := List.prefix_of_prefix_length_le starts
        (List.prefix_append (Vocabulary.token type) rest) (longest other starts)
      exact (List.pairwise_append.1 ordered).2.2 other earlier type List.mem_cons_self within

/-! ### Sizes -/

/-- The types whose size can be left out. -/
def maskTypes : List OperandType := [.rK, .vK, .mK, .aK]

/-- What follows a type, the size it stands for, and the part of it that is not read. -/
inductive Sized : OperandType → Text → OperandSize → Text → Prop where
  | size {type : OperandType} (size : OperandSize) (carries : type ≠ .dfv) :
      Sized type (Vocabulary.token size) size []
  | mask {type : OperandType} {rest : Text} (isMask : type ∈ maskTypes)
      (unsized : ∀ size : OperandSize, Vocabulary.token size ≠ rest) : Sized type rest .q rest
  | flagsValue (rest : Text) : Sized .dfv rest .zero rest

theorem sizeOf?_of_find? {type : OperandType} {rest : Text} {size : OperandSize}
    (carries : type ≠ .dfv) (found : Vocabulary.find? rest = some size) :
    sizeOf? type rest = some size := by
  unfold sizeOf?
  rw [found]
  split
  · exact absurd rfl carries
  all_goals first | rfl | contradiction

theorem sizeOf?_of_not_find? {type : OperandType} {rest : Text}
    (absent : (Vocabulary.find? rest : Option OperandSize) = none) :
    sizeOf? type rest =
      if type = .dfv then some .zero else if type ∈ maskTypes then some .q else none := by
  unfold sizeOf?
  rw [absent]
  cases type <;> rfl

theorem sizeOf?_eq_some_iff {type : OperandType} {rest : Text} {size : OperandSize} :
    sizeOf? type rest = some size ↔ ∃ unread, Sized type rest size unread := by
  constructor
  · intro h
    by_cases flags : type = .dfv
    · subst flags
      cases h
      exact ⟨rest, .flagsValue rest⟩
    · cases found : (Vocabulary.find? rest : Option OperandSize) with
      | some known =>
        rw [sizeOf?_of_find? flags found] at h
        cases h
        rw [← Vocabulary.token_of_find? found]
        exact ⟨[], .size size flags⟩
      | none =>
        rw [sizeOf?_of_not_find? found, if_neg flags] at h
        split at h
        · next isMask =>
          cases h
          exact ⟨rest, .mask isMask (Vocabulary.find?_eq_none_iff.1 found)⟩
        · cases h
  · rintro ⟨unread, sized⟩
    cases sized with
    | size _ carries => exact sizeOf?_of_find? carries (Vocabulary.find?_token size)
    | mask isMask unsized =>
      have carries : type ≠ .dfv := by
        rintro rfl
        revert isMask
        decide
      rw [sizeOf?_of_not_find? (Vocabulary.find?_eq_none_iff.2 unsized), if_neg carries,
        if_pos isMask]
    | flagsValue => rfl

/-! ### Names -/

/-- A bare token, the operand and the size it names, and the part of it that is not read. -/
inductive Names : Text → OperandKind → OperandSize → Text → Prop where
  | fixed {name : String} {operand : FixedOperand} {size : OperandSize}
      (listed : (name, operand, size) ∈ FixedOperand.names) :
      Names name.toList (.fixed operand) size []
  | typed {type : OperandType} {rest unread : Text} {size : OperandSize}
      (unlisted : ∀ entry ∈ FixedOperand.names, entry.1.toList ≠ Vocabulary.token type ++ rest)
      (longest : LongestType type (Vocabulary.token type ++ rest))
      (sized : Sized type rest size unread) :
      Names (Vocabulary.token type ++ rest) (.encoded type) size unread

theorem kindAndSize?_eq_some_iff {t : Text} {kind : OperandKind} {size : OperandSize} :
    kindAndSize? t = some (kind, size) ↔ ∃ unread, Names t kind size unread := by
  unfold kindAndSize?
  cases found : FixedOperand.find? t with
  | some entry =>
    obtain ⟨operand, known⟩ := entry
    constructor
    · intro h
      cases h
      obtain ⟨name, listed, rfl⟩ := FixedOperand.find?_eq_some_iff.1 found
      exact ⟨[], .fixed listed⟩
    · rintro ⟨unread, names⟩
      cases names with
      | @fixed name _ _ listed =>
        cases found.symm.trans (FixedOperand.find?_eq_some_iff.2 ⟨name, listed, rfl⟩)
        rfl
      | typed unlisted => cases found.symm.trans (FixedOperand.find?_eq_none_iff.2 unlisted)
  | none =>
    simp only [Option.bind_eq_bind, Option.bind_eq_some_iff]
    constructor
    · rintro ⟨⟨type, rest⟩, cut, known, read, same⟩
      cases same
      obtain ⟨rfl, longest⟩ := typeAndRest?_eq_some_iff.1 cut
      obtain ⟨unread, sized⟩ := sizeOf?_eq_some_iff.1 read
      exact ⟨unread, .typed (FixedOperand.find?_eq_none_iff.1 found) longest sized⟩
    · rintro ⟨unread, names⟩
      cases names with
      | @fixed name _ _ listed =>
        cases found.symm.trans (FixedOperand.find?_eq_some_iff.2 ⟨name, listed, rfl⟩)
      | @typed type rest _ _ unlisted longest sized =>
        exact ⟨(type, rest), typeAndRest?_eq_some_iff.2 ⟨rfl, longest⟩, size,
          sizeOf?_eq_some_iff.2 ⟨unread, sized⟩, rfl⟩

theorem exists_type_of_unread {t unread : Text} {kind : OperandKind} {size : OperandSize}
    (h : Names t kind size unread) (left : unread ≠ []) :
    ∃ type ∈ .dfv :: maskTypes, kind = .encoded type := by
  cases h with
  | fixed => exact absurd rfl left
  | @typed type _ _ _ _ _ sized =>
    refine ⟨type, ?_, rfl⟩
    cases sized with
    | size => exact absurd rfl left
    | mask isMask => exact List.mem_cons_of_mem _ isMask
    | flagsValue => exact List.mem_cons_self

/-! ### Tokens -/

/-- What a token names and what of it is not read. -/
def Reads (raw : Text) (kind : OperandKind) (size : OperandSize) (block : Nat) (unread : Text) :
    Prop :=
  ∃ token rest behind, Suffixed raw token block behind ∧
    Names (Decorators.strip token).1 kind size rest ∧ unread = rest ++ behind

theorem reads_of_parse {raw : Text} {access : OperandAccess} {flags : List OperandFlag}
    {implicit : Bool} {o : Operand} (h : parse raw access flags implicit = .ok o) :
    ∃ unread, Reads raw o.kind o.size o.block unread := by
  obtain ⟨kind, size, read, rfl⟩ := parse_eq_ok_iff.1 h
  obtain ⟨behind, suffixed⟩ := exists_suffixed raw
  obtain ⟨rest, names⟩ := kindAndSize?_eq_some_iff.1 read
  exact ⟨_, _, rest, behind, suffixed, names, rfl⟩

theorem eq_of_reads {raw : Text} {kind : OperandKind} {size : OperandSize} {block : Nat}
    {unread : Text} (h : Reads raw kind size block unread) :
    kindAndSize? (Decorators.strip (stripBlock raw).1).1 = some (kind, size) ∧
      (stripBlock raw).2 = block := by
  obtain ⟨token, rest, behind, suffixed, names, _⟩ := h
  rw [stripBlock_of_suffixed suffixed]
  exact ⟨kindAndSize?_eq_some_iff.2 ⟨rest, names⟩, rfl⟩

/-- A token is accepted exactly if it can be read, and refused as an invalid operand otherwise. Only
what follows a mask type, a default flags value or a range of registers can stay unread. -/
theorem parse_iff_reads (raw : Text) (access : OperandAccess) (flags : List OperandFlag)
    (implicit : Bool) :
    (∀ kind size block,
        (∃ o, parse raw access flags implicit = .ok o ∧ o.kind = kind ∧ o.size = size ∧
          o.block = block) ↔ ∃ unread, Reads raw kind size block unread) ∧
      (∀ e, parse raw access flags implicit = .error e → e = .invalidOperand raw) ∧
      ∀ kind size block unread, Reads raw kind size block unread → unread ≠ [] →
        (∃ type ∈ .dfv :: maskTypes, kind = .encoded type) ∨
          ∃ first last, IsRange first last ∧ rangeText first last <+: raw := by
  refine ⟨?_, fun _ => parse_eq_error, ?_⟩
  · intro kind size block
    constructor
    · rintro ⟨o, read, rfl, rfl, rfl⟩
      exact reads_of_parse read
    · rintro ⟨unread, reads⟩
      obtain ⟨read, rfl⟩ := eq_of_reads reads
      exact ⟨_, parse_eq_ok_iff.2 ⟨kind, size, read, rfl⟩, rfl, rfl, rfl⟩
  · rintro kind size block unread ⟨token, rest, behind, suffixed, names, rfl⟩ left
    cases suffixed with
    | range ordered => exact .inr ⟨_, _, ordered, List.prefix_append _ behind⟩
    | _ =>
      rw [List.append_nil] at left
      exact .inl (exists_type_of_unread names left)

theorem parse_iff_reads_registerRange :
    ∃ o, parse (rangeText '4' '7') .write [] false = .ok o ∧ o.kind = .fixed .xmm4 ∧
      o.size = .dq ∧ o.block = 4 := by
  have ordered : IsRange '4' '7' := by
    unfold IsRange
    decide
  have uncounted : ¬ Counted (rangeText '4' '7' ++ []) := by
    unfold Counted
    decide
  have bare : (Decorators.strip ['X', 'M', 'M', '4']).1 = "XMM4".toList := by decide
  have listed : ("XMM4", .xmm4, .dq) ∈ FixedOperand.names := by decide
  apply ((parse_iff_reads _ _ _ _).1 _ _ _).2
  refine ⟨[], ['X', 'M', 'M', '4'], [], [], .range ordered uncounted, ?_, rfl⟩
  rw [bare]
  exact .fixed listed

theorem eq_of_names {t : Text} {type : OperandType} {size : OperandSize}
    (h : Names t (.encoded type) size []) :
    t = Vocabulary.token type ++ Vocabulary.token size ∨ t = Vocabulary.token type := by
  cases h with
  | typed _ _ sized =>
    cases sized with
    | size => exact .inl rfl
    | mask => exact .inr (List.append_nil _)
    | flagsValue => exact .inr (List.append_nil _)

def misspelledMask : Text := "rKzz"

/-- A mask register with a size that does not exist is read as one without a size. -/
theorem not_every_character_read :
    ¬ ∀ (raw : Text) (access : OperandAccess) (flags : List OperandFlag) (implicit : Bool)
      (o : Operand), parse raw access flags implicit = .ok o →
      Reads raw o.kind o.size o.block [] := by
  intro every
  have uncut : (stripBlock misspelledMask).1 = misspelledMask := by decide
  have bare : (Decorators.strip (stripBlock misspelledMask).1).1 = misspelledMask := by
    rw [uncut]
    decide
  have read : kindAndSize? (Decorators.strip (stripBlock misspelledMask).1).1 =
      some (.encoded .rK, .q) := by
    rw [bare]
    decide
  obtain ⟨token, rest, behind, suffixed, names, whole⟩ :=
    every misspelledMask .read [] false _ (parse_eq_ok_iff.2 ⟨_, _, read, rfl⟩)
  obtain ⟨rfl, rfl⟩ := List.append_eq_nil_iff.1 whole.symm
  rw [stripBlock_of_suffixed suffixed] at bare
  have spelled := eq_of_names names
  rw [bare] at spelled
  revert spelled
  decide

end Operand

end OpcodeAtlas
